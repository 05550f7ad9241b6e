import ColorSdk.Slashing.MissedBlocks
import Mathlib.Logic.Relation

/-!
# Tombstones outlive their validators

A double sign tombstones the signing info of the validator's consensus
address for good.  The signing info is keyed by the consensus address and never
deleted, while the validator itself may leave the store: once jailed and
unbonded with no shares, the EndBlocker removes it, and with it the
consensus-address index that `MsgCreateValidator` checks.  A new validator may
then register the same key; when it is bonded, `AfterValidatorBonded` keeps the
signing info it finds.  The new validator is bonded and not jailed, but carries
a tombstone it did not earn: evidence of its own double signs is ignored as
"already tombstoned", and it could never be unjailed.

## Main definitions

* `State.runHooks` — the slashing hooks a staking call runs, read off the
  validators it created, bonded and removed.
* `Step`, `Reachable` — the chain: staking transactions, unjail transactions,
  BeginBlockers with votes and evidence, and staking EndBlockers.
* `Action`, `State.run` — steps as data, and the state a list of them leads to.

## Main results

* `tombstoned_reachable` — a tombstone is never lifted, over every run.
* `handleDoubleSign_of_tombstoned` — evidence against a tombstoned key is
  ignored.
* `tombstone_outlives_validator` — a run in which a validator is tombstoned and
  removed, and a new validator with the same key is bonded under its tombstone.

## Implementation notes

The slashing hooks write only the slashing store and read only the validator
they are called for, and the staking keeper never reads the slashing store, so
running them after the staking call, on the validators it changed, gives the
state the interleaved calls of the source give.
-/

namespace ColorSdk
namespace Slashing

open Staking

variable {A P : Type} [LinearOrder A] [LinearOrder P]

namespace State

/-- The slashing hooks of a staking call that took the staking store from
`before` to `s.staking`: `AfterValidatorCreated` for a new validator,
`AfterValidatorBonded` for one that became bonded, `AfterValidatorRemoved` for
one that left the store. -/
def runHooks (ctx : Context P) (before : Staking.State A P) (s : State A P) : State A P :=
  let created := s.staking.validators.entries.filter fun e => (before.GetValidator e.1).isNone
  let bonded := s.staking.validators.entries.filter fun e =>
    decide (e.2.Status = .Bonded ∧ (before.GetValidator e.1).map (·.Status) ≠ some .Bonded)
  let removed := before.validators.entries.filter fun e => (s.staking.GetValidator e.1).isNone
  let s := created.foldl (fun s e => s.AfterValidatorCreated e.1) s
  let s := bonded.foldl (fun s e => s.AfterValidatorBonded ctx e.2.ConsPubKey) s
  removed.foldl (fun s e => s.AfterValidatorRemoved e.2.ConsPubKey) s

/-- A staking transaction, with the hooks it runs. -/
def DeliverMsg (ctx : Context P) (s : State A P) (msg : Staking.Msg A P) : State A P :=
  runHooks ctx s.staking { s with staking := s.staking.DeliverMsg ctx msg }

/-- An unjail transaction, whose failure changes nothing. -/
def DeliverMsgUnjail (ctx : Context P) (s : State A P) (validatorAddr : A) : State A P :=
  match s.handleMsgUnjail ctx validatorAddr with
  | .ok s' => s'
  | .error _ => s

/-- The slashing BeginBlocker: the votes of the last commit, then the evidence
of double signs, as `(address, height, time, power)`. -/
def BeginBlocker (ctx : Context P) (s : State A P) (votes : List (P × ℤ × Bool))
    (evidence : List (P × ℤ × Time × ℤ)) : Except Panic (State A P) := do
  let t ← votes.foldlM (fun s v => s.handleValidatorSignature ctx v.1 v.2.1 v.2.2) s
  let t ← evidence.foldlM (fun s e => s.handleDoubleSign ctx e.1 e.2.1 e.2.2.1 e.2.2.2) t
  return runHooks ctx s.staking t

/-- The staking EndBlocker, with the hooks it runs. -/
def EndBlocker (ctx : Context P) (s : State A P) : Except Panic (List (P × ℤ) × State A P) := do
  let (updates, staking) ← (s.staking.EndBlocker ctx).mapError .staking
  return (updates, runHooks ctx s.staking { s with staking := staking })

end State

/-- One step of the chain. -/
inductive Step : State A P → State A P → Prop
  | deliver (ctx : Context P) (s : State A P) (msg : Staking.Msg A P) :
      Step s (s.DeliverMsg ctx msg)
  | unjail (ctx : Context P) (s : State A P) (validatorAddr : A) :
      Step s (s.DeliverMsgUnjail ctx validatorAddr)
  | beginBlock (ctx : Context P) {s s' : State A P} (votes : List (P × ℤ × Bool))
      (evidence : List (P × ℤ × Time × ℤ)) (h : s.BeginBlocker ctx votes evidence = .ok s') :
      Step s s'
  | endBlock (ctx : Context P) {s s' : State A P} (updates : List (P × ℤ))
      (h : s.EndBlocker ctx = .ok (updates, s')) : Step s s'

/-- The states reachable from `s₀` by steps. -/
def Reachable (s₀ s : State A P) : Prop := Relation.ReflTransGen Step s₀ s

/-- A step as data: what a run of the chain asks of each block. -/
inductive Action (A P : Type)
  | deliver (ctx : Context P) (msg : Staking.Msg A P)
  | unjail (ctx : Context P) (validatorAddr : A)
  | beginBlock (ctx : Context P) (votes : List (P × ℤ × Bool))
      (evidence : List (P × ℤ × Time × ℤ))
  | endBlock (ctx : Context P)

namespace State

/-- The state after an action, or nothing when its block panics. -/
def act (s : State A P) : Action A P → Option (State A P)
  | .deliver ctx msg => some (s.DeliverMsg ctx msg)
  | .unjail ctx validatorAddr => some (s.DeliverMsgUnjail ctx validatorAddr)
  | .beginBlock ctx votes evidence =>
    match s.BeginBlocker ctx votes evidence with
    | .ok s' => some s'
    | .error _ => none
  | .endBlock ctx =>
    match s.EndBlocker ctx with
    | .ok (_, s') => some s'
    | .error _ => none

/-- The state after a list of actions. -/
def run (s : State A P) : List (Action A P) → Option (State A P)
  | [] => some s
  | a :: as => (s.act a).bind fun s' => s'.run as

end State

theorem Step.of_act {s s' : State A P} {a : Action A P} (h : s.act a = some s') : Step s s' := by
  cases a with
  | deliver ctx msg =>
    cases h
    exact .deliver ctx s msg
  | unjail ctx validatorAddr =>
    cases h
    exact .unjail ctx s validatorAddr
  | beginBlock ctx votes evidence =>
    simp only [State.act] at h
    split at h
    · rename_i hcall
      cases h
      exact .beginBlock ctx votes evidence hcall
    · cases h
  | endBlock ctx =>
    simp only [State.act] at h
    split at h
    · rename_i updates _ hcall
      cases h
      exact .endBlock ctx updates hcall
    · cases h

/-- A run of actions that does not panic is a run of steps. -/
theorem reachable_of_run {s t : State A P} :
    ∀ {as : List (Action A P)}, s.run as = some t → Reachable s t
  | [], h => by
    cases h
    exact .refl
  | a :: as, h => by
    obtain ⟨s', hact, hrun⟩ := Option.bind_eq_some_iff.1 h
    exact .head (Step.of_act hact) (reachable_of_run hrun)

/-! ### A tombstone is permanent -/

/-- The signing info of `c` is tombstoned. -/
def Tombstoned (s : State A P) (c : P) : Prop :=
  (s.getValidatorSigningInfo c).map (·.Tombstoned) = some true

namespace Tombstoned

variable {s s' : State A P} {c : P}

/-- A write that keeps the tombstone of every signing info it replaces keeps
`c`'s. -/
theorem of_signingInfos (h : Tombstoned s c)
    (hkeep : ∀ info, s.getValidatorSigningInfo c = some info → info.Tombstoned = true →
      ∃ info', s'.getValidatorSigningInfo c = some info' ∧ info'.Tombstoned = true) :
    Tombstoned s' c := by
  obtain ⟨info, hget, htomb⟩ := Option.map_eq_some_iff.1 h
  obtain ⟨info', hget', htomb'⟩ := hkeep info hget htomb
  exact Option.map_eq_some_iff.2 ⟨info', hget', htomb'⟩

theorem of_eq (h : Tombstoned s c) (heq : s'.signingInfos = s.signingInfos) : Tombstoned s' c := by
  unfold Tombstoned State.getValidatorSigningInfo
  rw [heq]
  exact h

/-- Storing signing info that keeps the tombstone of what was there keeps it. -/
theorem set (h : Tombstoned s c) {a : P} {info₀ info : ValidatorSigningInfo}
    (ha : s.getValidatorSigningInfo a = some info₀)
    (hinfo : info₀.Tombstoned = true → info.Tombstoned = true) :
    Tombstoned (s.SetValidatorSigningInfo a info) c := by
  refine h.of_signingInfos fun infoc hget htomb => ?_
  rw [State.getValidatorSigningInfo_SetValidatorSigningInfo]
  by_cases hca : c = a
  · subst hca
    obtain rfl : info₀ = infoc := Option.some.inj (ha.symm.trans hget)
    exact ⟨info, by simp, hinfo htomb⟩
  · exact ⟨infoc, by simp [hca, hget], htomb⟩

end Tombstoned

/-- The hooks only create signing info where there is none. -/
theorem signingInfo_runHooks (ctx : Context P) (before : Staking.State A P) (s : State A P) (c : P)
    {info : ValidatorSigningInfo} (h : s.getValidatorSigningInfo c = some info) :
    (s.runHooks ctx before).getValidatorSigningInfo c = some info := by
  unfold State.runHooks
  dsimp only
  -- created and removed validators touch only the address-pubkey relation
  have hcreated : ∀ (l : List (A × Validator A P)) (t : State A P),
      (l.foldl (fun s e => s.AfterValidatorCreated e.1) t).signingInfos = t.signingInfos := by
    intro l
    induction l with
    | nil => intro t; rfl
    | cons e l ih =>
      intro t
      rw [List.foldl_cons, ih]
      unfold State.AfterValidatorCreated
      split <;> rfl
  have hbonded : ∀ (l : List (A × Validator A P)) (t : State A P),
      t.getValidatorSigningInfo c = some info →
      (l.foldl (fun s e => s.AfterValidatorBonded ctx e.2.ConsPubKey) t).getValidatorSigningInfo c =
        some info := by
    intro l
    induction l with
    | nil => intro t ht; exact ht
    | cons e l ih =>
      intro t ht
      rw [List.foldl_cons]
      refine ih _ ?_
      unfold State.AfterValidatorBonded
      split
      · exact ht
      · rename_i hnone
        rw [State.getValidatorSigningInfo_SetValidatorSigningInfo]
        split_ifs with hc
        · subst hc
          rw [ht] at hnone
          cases hnone
        · exact ht
  have hremoved : ∀ (l : List (A × Validator A P)) (t : State A P),
      (l.foldl (fun s e => s.AfterValidatorRemoved e.2.ConsPubKey) t).signingInfos =
        t.signingInfos := by
    intro l
    induction l with
    | nil => intro t; rfl
    | cons e l ih => intro t; rw [List.foldl_cons, ih]; rfl
  unfold State.getValidatorSigningInfo
  rw [hremoved]
  refine hbonded _ _ ?_
  unfold State.getValidatorSigningInfo
  rw [hcreated]
  exact h

theorem Tombstoned.runHooks {s : State A P} {c : P} (h : Tombstoned s c) (ctx : Context P)
    (before : Staking.State A P) : Tombstoned (s.runHooks ctx before) c :=
  h.of_signingInfos fun info hget htomb => ⟨info, signingInfo_runHooks ctx before s c hget, htomb⟩

/-- A signature call keeps every tombstone: it only moves the counters. -/
theorem Tombstoned.handleValidatorSignature {s s' : State A P} {c : P} (h : Tombstoned s c)
    {ctx : Context P} {addr : P} {power : ℤ} {signed : Bool}
    (hcall : s.handleValidatorSignature ctx addr power signed = .ok s') : Tombstoned s' c := by
  obtain ⟨info, hinfo, hcases⟩ := State.handleValidatorSignature_eq hcall
  obtain ⟨-, hinfos, -, hrecord⟩ := s.updateMissedBlocks_spec addr
    (info.IndexOffset % s.SignedBlocksWindow) (!signed) { info with IndexOffset := info.IndexOffset + 1 }
  have hrecorded : Tombstoned (s.updateMissedBlocks addr (info.IndexOffset % s.SignedBlocksWindow)
      (!signed) { info with IndexOffset := info.IndexOffset + 1 }).1 c := h.of_eq hinfos
  have hinfo' : (s.updateMissedBlocks addr (info.IndexOffset % s.SignedBlocksWindow) (!signed)
      { info with IndexOffset := info.IndexOffset + 1 }).1.getValidatorSigningInfo addr = some info := by
    unfold State.getValidatorSigningInfo
    rw [hinfos]
    exact hinfo
  rcases hcases with rfl | ⟨t, info', -, hslash, rfl⟩
  · exact hrecorded.set hinfo' fun htomb => by rw [hrecord]; exact htomb
  · -- the downtime slash resets the counters, not the tombstone
    have htomb : info'.Tombstoned = info.Tombstoned := by
      simp only [State.slashDowntime, bind, Except.bind] at hslash
      split at hslash
      · cases hslash
      · split at hslash
        · cases hslash
        · simp only [pure, Except.pure, Except.ok.injEq, Prod.mk.injEq] at hslash
          rw [← hslash.2, hrecord]
    obtain ⟨⟨staking, rfl⟩, -⟩ := State.slashDowntime_eq hslash
    have hcleared : Tombstoned ({ (s.updateMissedBlocks addr (info.IndexOffset % s.SignedBlocksWindow)
        (!signed) { info with IndexOffset := info.IndexOffset + 1 }).1 with
          staking := staking }.clearValidatorMissedBlockBitArray addr) c := hrecorded.of_eq rfl
    exact hcleared.set hinfo' fun htomb' => by rw [htomb]; exact htomb'

namespace State

/-- **What evidence of a double sign does**: it is ignored, or it slashes and
jails through the staking keeper and tombstones the signing info it found. -/
theorem handleDoubleSign_eq {s s' : State A P} {ctx : Context P} {addr : P}
    {infractionHeight : ℤ} {timestamp : Time} {power : ℤ}
    (h : s.handleDoubleSign ctx addr infractionHeight timestamp power = .ok s') :
    s' = s ∨ ∃ signInfo staking, s.getValidatorSigningInfo addr = some signInfo ∧
      s' = { s with staking := staking }.SetValidatorSigningInfo addr
        { signInfo with Tombstoned := true, JailedUntil := DoubleSignJailEndTime } := by
  unfold handleDoubleSign at h
  simp only [bind, Except.bind, pure, Except.pure] at h
  -- each early return gives the state back; a panic gives no state
  repeat' split at h
  all_goals first
    | exact .inl (Except.ok.inj h).symm
    | exact .inr ⟨_, _, ‹s.getValidatorSigningInfo addr = some _›, (Except.ok.inj h).symm⟩
    | cases h

/-- An unjail transaction changes only the staking store. -/
theorem handleMsgUnjail_eq {s s' : State A P} {ctx : Context P} {validatorAddr : A}
    (h : s.handleMsgUnjail ctx validatorAddr = .ok s') :
    ∃ staking, s' = { s with staking := staking } := by
  unfold handleMsgUnjail at h
  simp only [bind, Except.bind, pure, Except.pure] at h
  repeat' split at h
  all_goals first
    | exact ⟨_, (Except.ok.inj h).symm⟩
    | exact ⟨s.staking, (Except.ok.inj h).symm⟩
    | cases h

/-- The EndBlocker runs the staking EndBlocker, then the hooks. -/
theorem EndBlocker_eq {s s' : State A P} {ctx : Context P} {updates : List (P × ℤ)}
    (h : s.EndBlocker ctx = .ok (updates, s')) :
    ∃ staking, s' = runHooks ctx s.staking { s with staking := staking } := by
  unfold EndBlocker at h
  simp only [bind, Except.bind, pure, Except.pure] at h
  split at h
  · cases h
  · simp only [Except.ok.injEq, Prod.mk.injEq] at h
    exact ⟨_, h.2.symm⟩

end State

/-- Evidence of a double sign only sets tombstones. -/
theorem Tombstoned.handleDoubleSign {s s' : State A P} {c : P} (h : Tombstoned s c)
    {ctx : Context P} {addr : P} {infractionHeight : ℤ} {timestamp : Time} {power : ℤ}
    (hcall : s.handleDoubleSign ctx addr infractionHeight timestamp power = .ok s') :
    Tombstoned s' c := by
  rcases State.handleDoubleSign_eq hcall with rfl | ⟨signInfo, staking, hinfo, rfl⟩
  · exact h
  · have hstaking : Tombstoned { s with staking := staking } c := h.of_eq rfl
    exact hstaking.set hinfo fun _ => rfl

/-- The slashing BeginBlocker keeps every tombstone. -/
theorem Tombstoned.BeginBlocker {s s' : State A P} {c : P} (h : Tombstoned s c) {ctx : Context P}
    {votes : List (P × ℤ × Bool)} {evidence : List (P × ℤ × Time × ℤ)}
    (hcall : s.BeginBlocker ctx votes evidence = .ok s') : Tombstoned s' c := by
  unfold State.BeginBlocker at hcall
  -- each loop keeps the tombstone, round by round
  have hvotes := Except.sat_foldlM_of_step (E := fun _ => True) (Q := (Tombstoned · c))
    (f := fun s v => s.handleValidatorSignature ctx v.1 v.2.1 v.2.2)
    (fun t v ht => by
      cases hv : t.handleValidatorSignature ctx v.1 v.2.1 v.2.2 with
      | error e => trivial
      | ok t' => exact ht.handleValidatorSignature hv) votes s h
  have hevidence : ∀ t : State A P, Tombstoned t c →
      (evidence.foldlM (fun (s : State A P) (e : P × ℤ × Time × ℤ) =>
        s.handleDoubleSign ctx e.1 e.2.1 e.2.2.1 e.2.2.2) t).Sat (fun _ => True) (Tombstoned · c) :=
    Except.sat_foldlM_of_step (fun t e ht => by
      cases he : t.handleDoubleSign ctx e.1 e.2.1 e.2.2.1 e.2.2.2 with
      | error e => trivial
      | ok t' => exact ht.handleDoubleSign he) evidence
  simp only [bind, Except.bind, pure, Except.pure] at hcall
  split at hcall
  · cases hcall
  · rename_i t hvt
    split at hcall
    · cases hcall
    · rename_i t' het'
      cases hcall
      exact ((hevidence t (hvotes.of_ok hvt)).of_ok het').runHooks ctx s.staking

/-- **A tombstone is never lifted**, over any step of the chain. -/
theorem Tombstoned.step {s s' : State A P} {c : P} (h : Tombstoned s c) (hstep : Step s s') :
    Tombstoned s' c := by
  cases hstep with
  | deliver ctx s msg =>
    have hstaking : Tombstoned { s with staking := s.staking.DeliverMsg ctx msg } c := h.of_eq rfl
    exact hstaking.runHooks ctx s.staking
  | unjail ctx s validatorAddr =>
    unfold State.DeliverMsgUnjail
    split
    · rename_i s' hunjail
      obtain ⟨staking, rfl⟩ := State.handleMsgUnjail_eq hunjail
      exact h.of_eq rfl
    · exact h
  | beginBlock ctx votes evidence hcall => exact h.BeginBlocker hcall
  | endBlock ctx updates hcall =>
    obtain ⟨staking, rfl⟩ := State.EndBlocker_eq hcall
    have hstaking : Tombstoned { s with staking := staking } c := h.of_eq rfl
    exact hstaking.runHooks ctx s.staking

theorem tombstoned_reachable {s₀ s : State A P} {c : P} (hs : Reachable s₀ s)
    (h : Tombstoned s₀ c) : Tombstoned s c := by
  induction hs with
  | refl => exact h
  | tail _ hstep ih => exact ih.step hstep

/-- Evidence against a tombstoned key changes nothing. -/
theorem handleDoubleSign_of_tombstoned {s : State A P} {addr : P} (h : Tombstoned s addr)
    (ctx : Context P) (infractionHeight : ℤ) (timestamp : Time) (power : ℤ) :
    s.handleDoubleSign ctx addr infractionHeight timestamp power = .ok s := by
  obtain ⟨info, hget, htomb⟩ := Option.map_eq_some_iff.1 h
  unfold State.handleDoubleSign
  simp only [bind, Except.bind, pure, Except.pure]
  -- the checks before the tombstone's return the state too
  cases s.getPubkey addr with
  | none => rfl
  | some _ =>
    dsimp only
    split
    · rfl
    cases s.staking.GetValidatorByConsAddr addr with
    | none => rfl
    | some validator =>
      dsimp only
      split
      · rfl
      rw [hget]
      dsimp only
      rw [if_pos htomb]

/-! ### A tombstone that shields a new validator -/

/-- Fourteen days, the default unbonding time. -/
def sampleUnbondingTime : Time := 60 * 60 * 24 * 14 * 10 ^ 9

/-- A chain where accounts 1 and 2 hold `10^11` each and nothing is staked; a
double sign is slashed by a twentieth. -/
def sampleChain : State ℕ ℕ where
  staking := { Staking.genesis with
    pool := ⟨200000000000, 0⟩
    coins := fun a => if a = 1 ∨ a = 2 then 100000000000 else 0 }
  params := ⟨60 * 60 * 24 * 21 * 10 ^ 9, 100, ⟨5 * 10 ^ 17⟩, 600 * 10 ^ 9, ⟨5 * 10 ^ 16⟩, ⟨10 ^ 16⟩⟩
  signingInfos := .empty
  missedBlockBitArray := .empty
  addrPubkeyRelation := .empty

/-- The description and commission of the sample validators. -/
def sampleDescription : Description := ⟨"validator", "", "", ""⟩

def sampleCommission : CommissionMsg := ⟨ZeroDec, ZeroDec, ZeroDec⟩

/-- The run of the sample chain: validator 1 is created, bonded, caught double
signing, unbonded and removed; validator 2 is created with its key and bonded. -/
def sampleRun : List (Action ℕ ℕ) :=
  [.deliver ⟨1, 0, none⟩
      (.MsgCreateValidator sampleDescription sampleCommission 1 1 1 7 ⟨"uclr", 100000000000⟩),
    .endBlock ⟨1, 0, none⟩,
    .beginBlock ⟨2, 0, none⟩ [] [(7, 1, 0, 100000)],
    .endBlock ⟨2, 0, none⟩,
    .deliver ⟨3, 0, none⟩ (.MsgUndelegate 1 1 ⟨"uclr", 95000000000⟩),
    .endBlock ⟨4, sampleUnbondingTime, none⟩,
    .deliver ⟨5, sampleUnbondingTime, none⟩
      (.MsgCreateValidator sampleDescription sampleCommission 1 2 2 7 ⟨"uclr", 100000000000⟩),
    .endBlock ⟨5, sampleUnbondingTime, none⟩]

/-- **A tombstone outlives its validator and shields the next one.**  Account 1
creates validator 1 with key 7, which is bonded at height 1.  At height 2 it is
caught double signing: slashed, jailed and tombstoned, and the EndBlocker starts
its unbonding.  At height 3 its operator undelegates everything; once the
unbonding time has passed, the EndBlocker unbonds and removes it.  Account 2
then creates validator 2 with the same key 7, which is bonded.  Validator 2 is
bonded, not jailed and never slashed, yet key 7 is tombstoned, and new evidence
of a double sign by key 7 is ignored. -/
theorem tombstone_outlives_validator :
    ∃ s, Reachable sampleChain s ∧ s.staking.GetValidator 1 = none ∧
      (s.staking.GetValidator 2).map (fun v => (v.ConsPubKey, v.Status, v.Jailed, v.Tokens)) =
        some (7, .Bonded, false, 100000000000) ∧
      Tombstoned s 7 ∧
      s.handleDoubleSign ⟨6, sampleUnbondingTime, none⟩ 7 5 sampleUnbondingTime 100000 = .ok s := by
  -- the run, evaluated once by the kernel
  have hcheck : (sampleChain.run sampleRun).any (fun s => decide (s.staking.GetValidator 1 = none ∧
      (s.staking.GetValidator 2).map (fun v => (v.ConsPubKey, v.Status, v.Jailed, v.Tokens)) =
        some (7, .Bonded, false, 100000000000) ∧
      (s.getValidatorSigningInfo 7).map (·.Tombstoned) = some true)) = true := by
    decide +kernel
  obtain ⟨s, hrun, hs⟩ := (Option.any_eq_true _ _).1 hcheck
  obtain ⟨hremoved, hbonded, htomb⟩ := of_decide_eq_true hs
  exact ⟨s, reachable_of_run hrun, hremoved, hbonded, htomb,
    handleDoubleSign_of_tombstoned htomb _ _ _ _⟩

end Slashing
end ColorSdk
