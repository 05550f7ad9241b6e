import ColorSdk.Distribution.Keeper
import ColorSdk.Staking.Council
import ColorSdk.Lib.ExceptSpec
import Mathlib

/-!
# The distribution keeper moves value, it neither makes nor loses it

The distribution module holds value of the bond denomination in three places:
the outstanding rewards of each validator, the community pool, and the fees
collected in the previous block.  A validator's accumulated commission and
current rewards are parts of its outstanding rewards, not additions to them.
The keeper's operations move value between these places, and pay whole coins
out of the outstanding rewards to accounts, the fractional remainder of a
payment going to the community pool.  `State.held` counts the value in units
of 10⁻¹⁸ of the bond denomination.

`Pays s s'` says that from `s` to `s'` the coins of finitely many accounts
changed, and the value the module holds fell by exactly what they gained.  It
is reflexive and transitive, and every step of the keeper satisfies it, but
one: the creation hook writes a zero over the outstanding rewards of the
validator it initializes, so that it keeps the value only for a validator with
no outstanding rewards recorded.  The staking keeper calls it for a validator
it has just created, whose record, if it ever had one, was deleted by
`AfterValidatorRemoved`; `FreshStep` is a step with this precondition.

## Main definitions

* `State.held` — the value the module holds.
* `Keeps`, `Pays` — a change that keeps that value and the coins, and one that
  pays it out to accounts.
* `FreshStep` — a step whose creation hook, if it is one, finds no outstanding
  rewards.

## Main results

* `State.AllocateTokens_keeps` — the allocation of a block's fees moves them,
  to the last 10⁻¹⁸, to the validators' outstanding rewards and the community
  pool.
* `State.withdrawDelegationRewards_pays`, `State.WithdrawValidatorCommission_pays`,
  `State.AfterValidatorRemoved_pays` — a withdrawal pays what leaves the module.
* `FreshStep.pays`, `distribution_conserves_value` — along every run.

## References

* src/x/distribution/keeper/allocation.go, src/x/distribution/keeper/delegation.go,
  src/x/distribution/keeper/hooks.go, src/x/distribution/keeper/keeper.go,
  src/x/distribution/keeper/validator.go
-/

namespace ColorSdk
namespace Distribution

open Staking (Validator Delegation Context)

variable {A P : Type} [LinearOrder A]

/-! ### The value the module holds -/

namespace State

/-- The outstanding rewards, the community pool and the collected fees, in
units of 10⁻¹⁸. -/
def held (s : State A) : ℤ :=
  s.outstandingRewards.sumBy Dec.i + s.communityPool.i + (ToDec s.collectedFees).i

/-- The value reads the outstanding rewards, the community pool and the
collected fees only. -/
theorem held_eq_of {s s' : State A} (ho : s'.outstandingRewards = s.outstandingRewards)
    (hc : s'.communityPool = s.communityPool) (hf : s'.collectedFees = s.collectedFees) :
    s'.held = s.held := by
  rw [held, held, ho, hc, hf]

/-- Writing a validator's outstanding rewards replaces what it had. -/
theorem held_SetValidatorOutstandingRewards {s : State A} {val : A} {o : Dec}
    (h : s.outstandingRewards.get val = some o) (rewards : Dec) :
    (s.SetValidatorOutstandingRewards val rewards).held = s.held - o.i + rewards.i := by
  have hsum := SortedKV.sumBy_eq_add_delete Dec.i h
  simp only [held, SetValidatorOutstandingRewards, SortedKV.sumBy_set] at hsum ⊢
  omega

theorem GetValidatorOutstandingRewards_eq_ok {s : State A} {val : A} {o : Dec} :
    s.GetValidatorOutstandingRewards val = .ok o ↔ s.outstandingRewards.get val = some o := by
  unfold GetValidatorOutstandingRewards
  split <;> simp_all

theorem subCoins_eq_ok {coins coinsB d : Dec} :
    subCoins coins coinsB = .ok d ↔ 0 ≤ coins.i - coinsB.i ∧ d = coins.Sub coinsB := by
  unfold subCoins
  dsimp only
  split_ifs with h
  · simp_all [Dec.IsNegative]
  · simp_all [Dec.IsNegative, eq_comm]

@[simp] theorem held_AddCoins (s : State A) (addr : A) (amt : ℤ) :
    (s.AddCoins addr amt).held = s.held := rfl

/-- A payment that is skipped when it is zero changes the coins as one that is not. -/
theorem coins_AddCoins_ite (s : State A) (addr : A) (amt : ℤ) :
    (if amt ≠ 0 then s.AddCoins addr amt else s).coins =
      Function.update s.coins addr (s.coins addr + amt) := by
  split_ifs with hamt
  · rfl
  · push Not at hamt
    rw [hamt, add_zero, Function.update_eq_self]

theorem held_AddCoins_ite (s : State A) (addr : A) (amt : ℤ) :
    (if amt ≠ 0 then s.AddCoins addr amt else s).held = s.held := by
  split_ifs <;> rfl

end State

/-- `s'` changes nothing of `s` that holds value, and no account's coins. -/
structure Frame (s s' : State A) : Prop where
  outstanding : s'.outstandingRewards = s.outstandingRewards
  community : s'.communityPool = s.communityPool
  fees : s'.collectedFees = s.collectedFees
  coins : s'.coins = s.coins

/-- `s'` holds the value `s` holds, and no account's coins changed. -/
def Keeps (s s' : State A) : Prop := s'.held = s.held ∧ s'.coins = s.coins

/-- `s'` holds less value than `s` by what finitely many accounts gained. -/
def Pays (s s' : State A) : Prop :=
  ∃ S : Finset A, (∀ a ∉ S, s'.coins a = s.coins a) ∧
    s.held = s'.held + (∑ a ∈ S, (s'.coins a - s.coins a)) * precisionReuse

namespace Frame

theorem refl (s : State A) : Frame s s := ⟨rfl, rfl, rfl, rfl⟩

theorem trans {s₁ s₂ s₃ : State A} (h₁ : Frame s₁ s₂) (h₂ : Frame s₂ s₃) : Frame s₁ s₃ :=
  ⟨h₂.1.trans h₁.1, h₂.2.trans h₁.2, h₂.3.trans h₁.3, h₂.4.trans h₁.4⟩

theorem keeps {s s' : State A} (h : Frame s s') : Keeps s s' :=
  ⟨State.held_eq_of h.outstanding h.community h.fees, h.coins⟩

end Frame

namespace Keeps

theorem refl (s : State A) : Keeps s s := ⟨rfl, rfl⟩

theorem trans {s₁ s₂ s₃ : State A} (h₁ : Keeps s₁ s₂) (h₂ : Keeps s₂ s₃) : Keeps s₁ s₃ :=
  ⟨h₂.1.trans h₁.1, h₂.2.trans h₁.2⟩

theorem pays {s s' : State A} (h : Keeps s s') : Pays s s' :=
  ⟨∅, fun a _ => by rw [h.2], by simp [h.1]⟩

end Keeps

namespace Pays

theorem refl (s : State A) : Pays s s := (Keeps.refl s).pays

/-- The coins paid in two changes add up over the accounts either touched. -/
theorem trans {s₁ s₂ s₃ : State A} (h₁ : Pays s₁ s₂) (h₂ : Pays s₂ s₃) : Pays s₁ s₃ := by
  obtain ⟨S₁, hout₁, hheld₁⟩ := h₁
  obtain ⟨S₂, hout₂, hheld₂⟩ := h₂
  refine ⟨S₁ ∪ S₂, fun a ha => ?_, ?_⟩
  · rw [Finset.mem_union, not_or] at ha
    rw [hout₂ a ha.2, hout₁ a ha.1]
  -- outside its own accounts each change paid nothing
  have hsum₁ : ∑ a ∈ S₁ ∪ S₂, (s₂.coins a - s₁.coins a) = ∑ a ∈ S₁, (s₂.coins a - s₁.coins a) :=
    (Finset.sum_subset Finset.subset_union_left fun a _ ha => by rw [hout₁ a ha, sub_self]).symm
  have hsum₂ : ∑ a ∈ S₁ ∪ S₂, (s₃.coins a - s₂.coins a) = ∑ a ∈ S₂, (s₃.coins a - s₂.coins a) :=
    (Finset.sum_subset Finset.subset_union_right fun a _ ha => by rw [hout₂ a ha, sub_self]).symm
  have hsplit : ∑ a ∈ S₁ ∪ S₂, (s₃.coins a - s₁.coins a) =
      ∑ a ∈ S₁ ∪ S₂, (s₃.coins a - s₂.coins a) + ∑ a ∈ S₁ ∪ S₂, (s₂.coins a - s₁.coins a) := by
    rw [← Finset.sum_add_distrib]
    exact Finset.sum_congr rfl fun a _ => by ring
  rw [hsplit, hsum₁, hsum₂, hheld₁, hheld₂]
  ring

/-- A payment of `amt` coins to one account, which took their value out of the
module. -/
theorem of_update {s t : State A} {addr : A} {amt : ℤ}
    (hcoins : t.coins = Function.update s.coins addr (s.coins addr + amt))
    (hheld : s.held = t.held + amt * precisionReuse) : Pays s t := by
  refine ⟨{addr}, fun a ha => ?_, ?_⟩
  · rw [Finset.mem_singleton] at ha
    rw [hcoins, Function.update_of_ne ha]
  · rw [Finset.sum_singleton, hcoins, Function.update_self, hheld]
    ring

/-- A payment of `amt` coins that may be skipped, after a change that took
their value out of the module. -/
theorem addCoins_ite {s t : State A} {addr : A} {amt : ℤ} (hcoins : t.coins = s.coins)
    (hheld : s.held = t.held + amt * precisionReuse) :
    Pays s (if amt ≠ 0 then t.AddCoins addr amt else t) :=
  of_update (by rw [State.coins_AddCoins_ite, hcoins]) (by rw [State.held_AddCoins_ite]; exact hheld)

end Pays

namespace State

@[simp] theorem held_SetValidatorCurrentRewards (s : State A) (val : A)
    (rewards : ValidatorCurrentRewards) : (s.SetValidatorCurrentRewards val rewards).held = s.held :=
  rfl

@[simp] theorem held_SetValidatorAccumulatedCommission (s : State A) (val : A) (commission : Dec) :
    (s.SetValidatorAccumulatedCommission val commission).held = s.held := rfl

/-- Writing the outstanding rewards of a validator that has none adds them. -/
theorem held_SetValidatorOutstandingRewards_of_none {s : State A} {val : A}
    (h : s.outstandingRewards.get val = none) (rewards : Dec) :
    (s.SetValidatorOutstandingRewards val rewards).held = s.held + rewards.i := by
  simp only [held, SetValidatorOutstandingRewards, SortedKV.sumBy_set,
    SortedKV.delete_of_get_eq_none h]
  ring

theorem held_addCommunityPool (s : State A) (amt : Dec) :
    ({ s with communityPool := s.communityPool.Add amt } : State A).held = s.held + amt.i := by
  simp only [held, Dec.add_i]
  ring

/-- Moving an amount from a validator's outstanding rewards to the community
pool keeps the value. -/
theorem keeps_toCommunityPool {s : State A} {val : A} {o amt : Dec}
    (ho : s.outstandingRewards.get val = some o) :
    Keeps s (({ s with communityPool := s.communityPool.Add amt } : State A).SetValidatorOutstandingRewards
      val (o.Sub amt)) := by
  refine ⟨?_, rfl⟩
  rw [held_SetValidatorOutstandingRewards (s := { s with communityPool := s.communityPool.Add amt }) ho,
    held_addCommunityPool, Dec.sub_i]
  ring

/-- The whole coins and the change of an amount add up to it. -/
theorem truncateDecimal_i (d : Dec) :
    (truncateDecimal d).2.i = d.i - (truncateDecimal d).1 * precisionReuse := by
  simp [truncateDecimal]

/-! ### Reference counts and periods -/

theorem decrementReferenceCount_frame {s s' : State A} {valAddr : A} {period : ℕ}
    (h : s.decrementReferenceCount valAddr period = .ok s') : Frame s s' := by
  unfold decrementReferenceCount at h
  rw [Except.bind_eq_ok] at h
  obtain ⟨historical, -, h⟩ := h
  dsimp only at h
  -- the record is deleted or rewritten, or the count was already zero
  split_ifs at h <;>
    first
    | exact absurd h Except.error_bind_ne_ok
    | (cases h; exact ⟨rfl, rfl, rfl, rfl⟩)

theorem incrementReferenceCount_frame {s s' : State A} {valAddr : A} {period : ℕ}
    (h : s.incrementReferenceCount valAddr period = .ok s') : Frame s s' := by
  unfold incrementReferenceCount at h
  rw [Except.bind_eq_ok] at h
  obtain ⟨historical, -, h⟩ := h
  dsimp only at h
  split_ifs at h <;>
    first
    | exact absurd h Except.error_bind_ne_ok
    | (cases h; exact ⟨rfl, rfl, rfl, rfl⟩)

/-- Ending a period keeps the value: the rewards of a validator with no tokens
move from its outstanding rewards to the community pool. -/
theorem incrementValidatorPeriod_keeps {s s' : State A} {val : Validator A P} {n : ℕ}
    (h : s.incrementValidatorPeriod val = .ok (n, s')) : Keeps s s' := by
  unfold incrementValidatorPeriod at h
  rw [Except.bind_eq_ok] at h
  obtain ⟨rewards, -, h⟩ := h
  dsimp only at h
  split_ifs at h with htok
  · simp only [Except.bind_eq_ok, Except.pure_eq_ok] at h
    obtain ⟨o, ho, o', ho', _, rfl, _, -, s₂, h₂, hfin⟩ := h
    cases hfin
    rw [(subCoins_eq_ok.1 ho').2] at h₂
    exact (keeps_toCommunityPool (GetValidatorOutstandingRewards_eq_ok.1 ho)).trans
      ((decrementReferenceCount_frame h₂).trans ⟨rfl, rfl, rfl, rfl⟩).keeps
  · simp only [Except.bind_eq_ok, Except.pure_eq_ok] at h
    obtain ⟨_, -, _, rfl, _, -, s₂, h₂, hfin⟩ := h
    cases hfin
    exact ((decrementReferenceCount_frame h₂).trans ⟨rfl, rfl, rfl, rfl⟩).keeps

/-- A slash ends the period at most, and records the slash event. -/
theorem updateValidatorSlashFraction_keeps [LinearOrder P] {ctx : Context P}
    {sk : Staking.State A P} {s s' : State A} {valAddr : A} {fraction : Dec}
    (h : s.updateValidatorSlashFraction ctx sk valAddr fraction = .ok s') : Keeps s s' := by
  unfold updateValidatorSlashFraction at h
  dsimp only at h
  split_ifs at h
  · exact absurd h Except.error_bind_ne_ok
  rw [Except.bind_eq_ok] at h
  obtain ⟨_, -, h⟩ := h
  split at h
  · -- there has already been a slash event this height: only the fraction changes
    simp only [Except.bind_eq_ok, Except.pure_eq_ok] at h
    obtain ⟨_, rfl, h⟩ := h
    split_ifs at h
    · exact absurd h Except.error_bind_ne_ok
    cases h
    exact (Frame.refl s).keeps.trans ⟨rfl, rfl⟩
  · split at h
    · -- the first slash of the height ends the period and takes a reference on it
      simp only [Except.bind_eq_ok, Except.pure_eq_ok] at h
      obtain ⟨⟨endedPeriod, s₁⟩, h₁, s₂, h₂, _, rfl, h⟩ := h
      split_ifs at h
      · exact absurd h Except.error_bind_ne_ok
      cases h
      exact (incrementValidatorPeriod_keeps h₁).trans
        ((incrementReferenceCount_frame h₂).trans ⟨rfl, rfl, rfl, rfl⟩).keeps
    · exact absurd h Except.error_bind_ne_ok

/-- Starting to track a delegation takes a reference and records its stake. -/
theorem initializeDelegation_frame [LinearOrder P] {ctx : Context P} {sk : Staking.State A P}
    {s s' : State A} {val del : A} (h : s.initializeDelegation ctx sk val del = .ok s') :
    Frame s s' := by
  unfold initializeDelegation at h
  simp only [Except.bind_eq_ok] at h
  obtain ⟨_, -, s₁, h₁, h⟩ := h
  -- the validator and the delegation are there, or a nil is dereferenced
  split at h
  · split at h
    · cases h
      exact (incrementReferenceCount_frame h₁).trans ⟨rfl, rfl, rfl, rfl⟩
    · cases h
  · cases h

/-! ### Allocation -/

/-- An allocation to a validator adds the tokens to its outstanding rewards,
the commission and the shared rewards being parts of them. -/
theorem AllocateTokensToValidator_held {s s' : State A} {val : Validator A P} {tokens : Dec}
    (h : s.AllocateTokensToValidator val tokens = .ok s') :
    s'.held = s.held + tokens.i ∧ s'.coins = s.coins := by
  unfold AllocateTokensToValidator at h
  simp only [Except.bind_eq_ok, Except.pure_eq_ok] at h
  obtain ⟨_, -, _, -, o, ho, rfl⟩ := h
  refine ⟨?_, rfl⟩
  rw [held_SetValidatorOutstandingRewards (GetValidatorOutstandingRewards_eq_ok.1 ho), Dec.add_i,
    held_SetValidatorCurrentRewards, held_SetValidatorAccumulatedCommission]
  ring

/-- The loop over the votes: each round adds a reward to a validator's
outstanding rewards and takes it from what remains to allocate. -/
theorem foldlM_allocate_keeps [LinearOrder P] (sk : Staking.State A P) (reward : P × ℤ → Dec)
    (votes : List (P × ℤ)) {acc acc' : Dec × State A}
    (h : votes.foldlM (fun (acc : Dec × State A) vote =>
        match sk.GetValidatorByConsAddr vote.1 with
        | some validator => do
          let s ← acc.2.AllocateTokensToValidator validator (reward vote)
          let remaining ← subCoins acc.1 (reward vote)
          pure (remaining, s)
        | _ => throw Panic.nilDereference) acc = .ok acc') :
    acc'.2.held + acc'.1.i = acc.2.held + acc.1.i ∧ acc'.2.coins = acc.2.coins := by
  -- what remains plus what is held is constant, round by round
  refine (Except.sat_foldlM_of_step (E := fun _ => True)
    (Q := fun x : Dec × State A => x.2.held + x.1.i = acc.2.held + acc.1.i ∧ x.2.coins = acc.2.coins)
    ?_ votes acc ⟨rfl, rfl⟩).of_ok h
  intro x vote hx
  refine Except.sat_of_eq_ok fun y hy => ?_
  split at hy
  · simp only [Except.bind_eq_ok, Except.pure_eq_ok] at hy
    obtain ⟨s₁, h₁, rem, hrem, rfl⟩ := hy
    obtain ⟨hheld, hcoins⟩ := AllocateTokensToValidator_held h₁
    obtain ⟨-, rfl⟩ := subCoins_eq_ok.1 hrem
    refine ⟨?_, hcoins.trans hx.2⟩
    rw [hheld, Dec.sub_i, ← hx.1]
    ring
  · cases hy

theorem AllocateTokens_keeps [LinearOrder P] {sk : Staking.State A P} {s s' : State A}
    {sumPreviousPrecommitPower totalPreviousPower : ℤ} {previousProposer : P}
    {previousVotes : List (P × ℤ)}
    (h : s.AllocateTokens sk sumPreviousPrecommitPower totalPreviousPower previousProposer
      previousVotes = .ok s') : Keeps s s' := by
  unfold AllocateTokens at h
  dsimp only at h
  -- the collected fees leave their place, all of them to be allocated
  have hcleared : ({ s with collectedFees := 0 } : State A).held + (ToDec s.collectedFees).i = s.held := by
    simp only [held, Dec.toDec_i]
    ring
  split_ifs at h with hpow
  · cases h
    refine ⟨?_, rfl⟩
    rw [← hcleared]
    simp only [held, Dec.add_i]
    ring
  split at h
  · -- the previous proposer is known and takes its reward first
    simp only [Except.bind_eq_ok, Except.pure_eq_ok] at h
    obtain ⟨s₁, h₁, rem, hrem, _, rfl, ⟨rem₂, s₂⟩, hloop, rfl⟩ := h
    obtain ⟨hheld₁, hcoins₁⟩ := AllocateTokensToValidator_held h₁
    obtain ⟨-, rfl⟩ := subCoins_eq_ok.1 hrem
    obtain ⟨hheld₂, hcoins₂⟩ := foldlM_allocate_keeps sk _ previousVotes hloop
    refine ⟨?_, hcoins₂.trans hcoins₁⟩
    dsimp only
    rw [held_addCommunityPool, hheld₂, hheld₁, Dec.sub_i, ← hcleared]
    ring
  · simp only [Except.bind_eq_ok, Except.pure_eq_ok] at h
    obtain ⟨_, rfl, ⟨rem₂, s₂⟩, hloop, rfl⟩ := h
    obtain ⟨hheld₂, hcoins₂⟩ := foldlM_allocate_keeps sk _ previousVotes hloop
    refine ⟨?_, hcoins₂⟩
    dsimp only
    rw [held_addCommunityPool, hheld₂, ← hcleared]

/-! ### Withdrawals -/

theorem withdrawDelegationRewards_pays [LinearOrder P] {ctx : Context P} {s s' : State A}
    {val : Validator A P} {del : Delegation A} {coins : ℤ}
    (h : s.withdrawDelegationRewards ctx val del = .ok (coins, s')) : Pays s s' := by
  unfold withdrawDelegationRewards at h
  dsimp only at h
  split_ifs at h
  · exact absurd h Except.error_bind_ne_ok
  rw [Except.mapError_eq_ok] at h
  simp only [Except.bind_eq_ok, Except.pure_eq_ok] at h
  obtain ⟨⟨endingPeriod, s₁⟩, h₁, raw, -, o, ho, info, -, s₂, h₂, o', ho', hfin⟩ := h
  have hk₁ := incrementValidatorPeriod_keeps h₁
  have hf₂ := decrementReferenceCount_frame h₂
  -- the outstanding rewards read after the period ended are those the reference count left
  have ho₂ : s₂.outstandingRewards.get del.ValidatorAddress = some o := by
    rw [hf₂.outstanding]
    exact GetValidatorOutstandingRewards_eq_ok.1 ho
  obtain ⟨-, rfl⟩ := subCoins_eq_ok.1 ho'
  cases hfin
  -- the whole coins are paid, the change goes to the community pool
  refine Pays.trans ?_ (Frame.keeps ⟨rfl, rfl, rfl, rfl⟩).pays
  refine Pays.addCoins_ite (hf₂.coins.trans hk₁.2) ?_
  rw [held_addCommunityPool, held_SetValidatorOutstandingRewards ho₂, truncateDecimal_i, Dec.sub_i,
    ← hk₁.1, ← (Frame.keeps hf₂).1]
  ring
/-- A payment that may be skipped changes no place of the value. -/
theorem holdings_AddCoins_ite (t : State A) (addr : A) (amt : ℤ) :
    (if amt ≠ 0 then t.AddCoins addr amt else t).outstandingRewards = t.outstandingRewards ∧
      (if amt ≠ 0 then t.AddCoins addr amt else t).communityPool = t.communityPool ∧
      (if amt ≠ 0 then t.AddCoins addr amt else t).collectedFees = t.collectedFees := by
  split_ifs <;> exact ⟨rfl, rfl, rfl⟩

theorem WithdrawValidatorCommission_pays {s s' : State A} {valAddr : A} {coins : ℤ}
    (h : s.WithdrawValidatorCommission valAddr = .ok (coins, s')) : Pays s s' := by
  unfold WithdrawValidatorCommission at h
  dsimp only at h
  by_cases hz : (s.GetValidatorAccumulatedCommission valAddr).IsZero = true
  · rw [if_pos hz] at h
    exact absurd h Except.error_bind_ne_ok
  rw [if_neg hz] at h
  simp only [Except.bind_eq_ok, Except.pure_eq_ok, Except.mapError_eq_ok] at h
  obtain ⟨o, ho, o', ho', hfin⟩ := h
  obtain ⟨-, rfl⟩ := subCoins_eq_ok.1 ho'
  cases hfin
  -- the whole coins leave the outstanding rewards, the change stays as commission
  refine Pays.addCoins_ite rfl ?_
  rw [held_SetValidatorOutstandingRewards (GetValidatorOutstandingRewards_eq_ok.1 ho),
    held_SetValidatorAccumulatedCommission, Dec.sub_i, Dec.toDec_i]
  ring

theorem AfterValidatorRemoved_pays {s s' : State A} {valAddr : A}
    (h : s.AfterValidatorRemoved valAddr = .ok s') : Pays s s' := by
  unfold AfterValidatorRemoved at h
  rw [Except.bind_eq_ok] at h
  obtain ⟨o, ho, h⟩ := h
  replace ho := GetValidatorOutstandingRewards_eq_ok.1 ho
  dsimp only at h
  -- what goes to the community pool besides the record's remaining outstanding
  -- rewards, after a payment of `amt` coins to `addr`
  have hfinal : ∀ (addr : A) (amt : ℤ) (o₁ : Dec) (s₁ : State A),
      s₁.coins = Function.update s.coins addr (s.coins addr + amt) →
      s₁.outstandingRewards = s.outstandingRewards → s₁.collectedFees = s.collectedFees →
      s₁.communityPool.i + o₁.i = s.communityPool.i + o.i - amt * precisionReuse →
      Pays s { s₁ with
        communityPool := s₁.communityPool.Add o₁
        outstandingRewards := s₁.outstandingRewards.delete valAddr
        accumulatedCommission := s₁.accumulatedCommission.delete valAddr
        slashEvents := ⟨s₁.slashEvents.entries.filter fun e => (ofLex e.1).1 ≠ valAddr,
          s₁.slashEvents.sorted.filter _⟩
        historicalRewards := ⟨s₁.historicalRewards.entries.filter fun e => (ofLex e.1).1 ≠ valAddr,
          s₁.historicalRewards.sorted.filter _⟩
        currentRewards := s₁.currentRewards.delete valAddr } := by
    intro addr amt o₁ s₁ hcoins hout hfees hcomm
    refine Pays.of_update hcoins ?_
    have hsum := SortedKV.sumBy_eq_add_delete Dec.i ho
    simp only [held, Dec.add_i, hout, hfees] at hsum ⊢
    rw [hsum]
    linarith
  by_cases hc : (!(s.GetValidatorAccumulatedCommission valAddr).IsZero) = true
  · -- the commission is paid, its change going to the community pool
    rw [if_pos hc] at h
    simp only [Except.bind_eq_ok, Except.pure_eq_ok] at h
    obtain ⟨o', ho', _, rfl, rfl⟩ := h
    obtain ⟨-, rfl⟩ := subCoins_eq_ok.1 ho'
    refine hfinal _ _ _ _ (coins_AddCoins_ite _ _ _) (holdings_AddCoins_ite _ _ _).1
      (holdings_AddCoins_ite _ _ _).2.2 ?_
    rw [(holdings_AddCoins_ite _ _ _).2.1, Dec.add_i, Dec.sub_i, truncateDecimal_i]
    ring
  · rw [if_neg hc] at h
    simp only [Except.bind_eq_ok, Except.pure_eq_ok] at h
    obtain ⟨_, rfl, rfl⟩ := h
    exact hfinal valAddr 0 o s (by simp) rfl rfl (by simp)
/-- Initializing a validator with no outstanding rewards recorded keeps the
value: its outstanding rewards start at zero. -/
theorem initializeValidator_keeps {s : State A} {val : Validator A P}
    (hfresh : s.outstandingRewards.get val.OperatorAddress = none) :
    Keeps s (s.initializeValidator val) := by
  refine ⟨?_, rfl⟩
  simp only [initializeValidator, held, SetValidatorOutstandingRewards,
    SetValidatorAccumulatedCommission, SetValidatorCurrentRewards, SetValidatorHistoricalRewards,
    SortedKV.sumBy_set, SortedKV.delete_of_get_eq_none hfresh, Dec.zeroDec_i, zero_add]

end State

/-! ### Runs -/

variable [LinearOrder P]

/-- A step of the distribution keeper whose creation hook, when the step is
one, initializes a validator with no outstanding rewards recorded. -/
def FreshStep (s s' : State A) : Prop :=
  Step (P := P) s s' ∧
    ∀ val : Validator A P, s.initializeValidator val = s' →
      s.outstandingRewards.get val.OperatorAddress = none

open State in
/-- **Every step moves value.**  A step pays out of the module's value what
the accounts it credits gain, and keeps the rest. -/
theorem FreshStep.pays {s s' : State A} (h : FreshStep (P := P) s s') : Pays s s' := by
  obtain ⟨hstep, hfresh⟩ := h
  cases hstep with
  | afterValidatorCreated sk valAddr h =>
    unfold AfterValidatorCreated at h
    split at h
    · cases h
      exact (initializeValidator_keeps (hfresh _ rfl)).pays
    · cases h
  | afterValidatorRemoved valAddr h => exact AfterValidatorRemoved_pays h
  | beforeDelegationCreated sk valAddr h =>
    unfold BeforeDelegationCreated at h
    split at h
    · obtain ⟨⟨n, s₁⟩, h₁, rfl⟩ := Except.map_eq_ok.1 h
      exact (incrementValidatorPeriod_keeps h₁).pays
    · cases h
  | beforeDelegationSharesModified ctx sk delAddr valAddr h =>
    unfold BeforeDelegationSharesModified at h
    split at h
    · split at h
      · cases h
        exact withdrawDelegationRewards_pays ‹_›
      · cases h
      · cases h
    · cases h
  | afterDelegationModified ctx sk delAddr valAddr h =>
    exact (initializeDelegation_frame h).keeps.pays
  | beforeValidatorSlashed ctx sk valAddr fraction h =>
    exact (updateValidatorSlashFraction_keeps h).pays
  | allocateTokens sk sumPreviousPrecommitPower totalPreviousPower previousProposer previousVotes h =>
    exact (AllocateTokens_keeps h).pays
  | withdrawDelegationRewards ctx sk delAddr valAddr rewards h =>
    unfold WithdrawDelegationRewards at h
    split at h
    · split at h
      · simp only [Except.bind_eq_ok, Except.pure_eq_ok, Except.mapError_eq_ok] at h
        obtain ⟨⟨coins, s₁⟩, h₁, s₂, h₂, hfin⟩ := h
        cases hfin
        exact (withdrawDelegationRewards_pays h₁).trans (initializeDelegation_frame h₂).keeps.pays
      · cases h
    · cases h
  | withdrawValidatorCommission valAddr coins h => exact WithdrawValidatorCommission_pays h

/-- **The distribution keeper neither makes nor loses value.**  Along every run
whose validator creations find no outstanding rewards, only finitely many
accounts' coins change, and the value the module holds (outstanding rewards,
community pool, collected fees) falls by exactly what they gain. -/
theorem distribution_conserves_value {s₀ s : State A}
    (h : Relation.ReflTransGen (FreshStep (P := P)) s₀ s) : Pays s₀ s := by
  induction h with
  | refl => exact Pays.refl s₀
  | tail _ hstep ih => exact ih.trans hstep.pays

/-- A distribution store with nothing recorded. -/
def emptyStore : State ℕ where
  communityPool := ZeroDec
  historicalRewards := .empty
  currentRewards := .empty
  accumulatedCommission := .empty
  outstandingRewards := .empty
  startingInfos := .empty
  slashEvents := .empty
  withdrawAddrs := .empty
  params := ⟨ZeroDec, ZeroDec, ZeroDec, true⟩
  collectedFees := 0
  coins := fun _ => 0

/-- `100` tokens of fees collected, and nothing else recorded. -/
def sampleFees : State ℕ := { emptyStore with collectedFees := 100 }

/-- Validator 1, of consensus key 7, with a commission of one half. -/
def sampleValidator : Validator ℕ ℕ :=
  { Staking.NewValidator 1 7 with
    Commission := { (Staking.NewValidator 1 7 : Validator ℕ ℕ).Commission with Rate := ⟨5 * 10 ^ 17⟩ } }

/-- The staking store holding the sample validator. -/
def sampleStaking : Staking.State ℕ ℕ :=
  (Staking.genesis.SetValidator sampleValidator).SetValidatorByConsAddr sampleValidator

/-- A run that creates validator 1, allocates the fees to it as the proposer
and only voter of the block, and withdraws its commission of `50` to account 1:
each step is fresh, and the store pays out what account 1 gains. -/
theorem distribution_conserves_value_allocated :
    ∃ s₁ s₂ s₃ : State ℕ,
      sampleFees.AfterValidatorCreated sampleStaking 1 = .ok s₁ ∧
      s₁.AllocateTokens sampleStaking 1 1 7 [(7, 1)] = .ok s₂ ∧
      s₂.WithdrawValidatorCommission 1 = .ok (50, s₃) ∧
      Relation.ReflTransGen (FreshStep (P := ℕ)) sampleFees s₃ ∧ Pays sampleFees s₃ := by
  refine ⟨_, _, _, rfl, rfl, rfl, ?_⟩
  -- the creation finds no outstanding rewards; re-creating the validator would
  -- neither empty the fees, as the allocation does, nor pay account 1
  have hrun : Relation.ReflTransGen (FreshStep (P := ℕ)) sampleFees _ :=
    .tail (.tail (.single ⟨.afterValidatorCreated sampleStaking 1 rfl, fun _ _ => rfl⟩)
        ⟨.allocateTokens sampleStaking 1 1 7 [(7, 1)] rfl,
          fun _ h => absurd (show (100 : ℤ) = 0 from congrArg State.collectedFees h) (by decide)⟩)
      ⟨.withdrawValidatorCommission 1 50 rfl,
        fun _ h => absurd (show (0 : ℤ) = 50 from congrFun (congrArg State.coins h) 1) (by decide)⟩
  exact ⟨hrun, distribution_conserves_value hrun⟩

end Distribution
end ColorSdk
