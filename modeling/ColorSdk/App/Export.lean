import ColorSdk.Staking.PowerIndex
import Mathlib

/-!
# Export for a restart at height zero

`prepForZeroHeightGenesis` prepares the state of a chain for an export from
which a new chain starts at height zero.  In the staking store it resets the
creation heights of the redelegation and unbonding entries, then walks the
validators by address, resets each one's unbonding height and, when a jail
whitelist is given, jails every validator the whitelist leaves out.  It writes
each validator back with `SetValidator`, which writes the record alone: a
validator jailed here keeps its key in the power index.  It then runs
`ApplyAndReturnValidatorSetUpdates`, which panics on the first jailed validator
it finds in the power index.

The distribution and slashing parts of the export write neither the validators
nor the power index and are not modelled.  The whitelist holds validator
addresses: an address that does not decode stops the process (`log.Fatal`)
before any of this runs.

## Main definitions

* `prepValidator` — one round of the loop over the validators.
* `prepForZeroHeightStaking` — the staking part of `prepForZeroHeightGenesis`.

## Main results

* `prepValidators_sat` — the loop over the validators succeeds, keeps the power
  index and jails the validators left out of the whitelist.
* `prepForZeroHeightStaking_panics` — when the whitelist leaves out the
  validator of the highest key of the power index, the export panics.
* `zero_height_export_panics` — it does so on a chain with one validator.

## References

* src/cmd/gaia/app/export.go, src/x/staking/keeper/val_state_change.go
-/

namespace ColorSdk
namespace App

open Staking

variable {A P : Type} [LinearOrder A] [LinearOrder P]

/-- One round of the loop over the validators: the record read at the address,
its unbonding height reset, and jailed when the whitelist leaves it out. -/
def prepValidator (applyWhiteList : Bool) (jailWhiteList : List A) (s : State A P) (addr : A) :
    Except Panic (State A P) :=
  match s.GetValidator addr with
  | none => .error .expectedValidator
  | some validator =>
    let validator := { validator with UnbondingHeight := 0 }
    let validator :=
      if applyWhiteList && addr ∉ jailWhiteList then { validator with Jailed := true } else validator
    .ok (s.SetValidator validator)

/-- The creation heights of every redelegation entry and every unbonding entry
reset to zero, record by record. -/
def resetCreationHeights (s : State A P) : State A P :=
  -- iterate through redelegations, reset creation height
  let s := s.redelegations.entries.foldl (fun (s : State A P) e =>
    s.SetRedelegation
      { e.2 with Entries := e.2.Entries.map fun entry => { entry with CreationHeight := 0 } }) s
  -- iterate through unbonding delegations, reset creation height
  s.unbondingDelegations.entries.foldl (fun (s : State A P) e =>
    s.SetUnbondingDelegation
      { e.2 with Entries := e.2.Entries.map fun entry => { entry with CreationHeight := 0 } }) s

/-- The staking part of `prepForZeroHeightGenesis`. -/
def prepForZeroHeightStaking (ctx : Context P) (jailWhiteList : List A) (s : State A P) :
    Except Panic (State A P) := do
  let applyWhiteList := !jailWhiteList.isEmpty
  let s := resetCreationHeights s
  -- the validators by descending address, through the reverse prefix iterator
  let s ← (s.validators.entries.reverse.map Prod.fst).foldlM
    (prepValidator applyWhiteList jailWhiteList) s
  let (_, s) ← s.ApplyAndReturnValidatorSetUpdates ctx
  pure s

/-- The resets write neither the validators, nor the power index, nor the
parameters. -/
theorem resetCreationHeights_keeps (s : State A P) :
    (resetCreationHeights s).validators = s.validators ∧
      (resetCreationHeights s).validatorsByPowerIndex = s.validatorsByPowerIndex ∧
      (resetCreationHeights s).params = s.params := by
  let Q : State A P → Prop := fun t =>
    t.validators = s.validators ∧ t.validatorsByPowerIndex = s.validatorsByPowerIndex ∧
      t.params = s.params
  -- each round writes one record of the redelegations or unbonding delegations
  unfold resetCreationHeights
  dsimp only
  refine List.foldl_invariant (Q := Q) ?ubd _ _
    (List.foldl_invariant (Q := Q) ?red _ _ ⟨rfl, rfl, rfl⟩)
  · exact fun _ _ ht => ht
  · exact fun _ _ ht => ht

/-! ### The loop over the validators -/

/-- What the loop over the validators keeps, with the addresses `l` still to
come: every record at its operator address, a record at each address to come,
the power index and the parameters of `s₀`, and, once the address `a` is done,
a jailed record at `a`. -/
structure PrepInv (s₀ : State A P) (a : A) (t : State A P) (l : List A) : Prop where
  operator : ∀ b v, t.GetValidator b = some v → v.OperatorAddress = b
  stored : ∀ b ∈ l, (t.GetValidator b).isSome
  index : t.validatorsByPowerIndex = s₀.validatorsByPowerIndex
  params : t.params = s₀.params
  jailed : a ∉ l → ∃ v, t.GetValidator a = some v ∧ v.Jailed = true

/-- A round reads a record, since one is stored at every address to come, and
writes it back at its address, jailed when it is `a`'s. -/
theorem prepValidator_sat {applyWhiteList : Bool} {jailWhiteList : List A} {s₀ : State A P}
    {a : A} (hjail : (applyWhiteList && a ∉ jailWhiteList) = true) (t : State A P) (b : A)
    (l : List A) (hI : PrepInv s₀ a t (b :: l)) :
    (prepValidator applyWhiteList jailWhiteList t b).Sat (fun _ => False) (PrepInv s₀ a · l) := by
  obtain ⟨v, hv⟩ := Option.isSome_iff_exists.1 (hI.stored b List.mem_cons_self)
  have hop : v.OperatorAddress = b := hI.operator b v hv
  -- the record is written back at the address it was read from
  have hround : ∃ v', prepValidator applyWhiteList jailWhiteList t b = .ok (t.SetValidator v') ∧
      v'.OperatorAddress = b ∧ ((applyWhiteList && b ∉ jailWhiteList) = true → v'.Jailed = true) := by
    by_cases hc : (applyWhiteList && b ∉ jailWhiteList) = true
    · refine ⟨{ v with UnbondingHeight := 0, Jailed := true }, ?_, hop, fun _ => rfl⟩
      simp only [prepValidator, hv, hc, if_true]
    · refine ⟨{ v with UnbondingHeight := 0 }, ?_, hop, fun h => absurd h hc⟩
      simp only [prepValidator, hv, hc, Bool.false_eq_true, if_false]
  obtain ⟨v', hround, hop', hjail'⟩ := hround
  rw [hround]
  have hget : ∀ c, (t.SetValidator v').GetValidator c = if c = b then some v' else t.GetValidator c := by
    intro c
    simp only [State.GetValidator, State.SetValidator, SortedKV.get_set, hop']
  refine ⟨fun c w hw => ?_, fun c hc => ?_, hI.index, hI.params, fun ha => ?_⟩
  · rw [hget] at hw
    split_ifs at hw with hc
    · cases hw
      rw [hop', hc]
    · exact hI.operator c w hw
  · rw [hget]
    split_ifs
    · rfl
    · exact hI.stored c (List.mem_cons_of_mem b hc)
  · rw [hget]
    by_cases hab : a = b
    · -- `a` is done in this round
      subst hab
      exact ⟨v', if_pos rfl, hjail' hjail⟩
    · rw [if_neg hab]
      exact hI.jailed (by simp [hab, ha])

/-- **The loop over the validators.**  Over the addresses of stored records,
every round succeeds; the loop keeps the power index and the parameters, and
leaves a jailed record at `a` when the whitelist leaves `a` out. -/
theorem prepValidators_sat {applyWhiteList : Bool} {jailWhiteList : List A} {s : State A P}
    {a : A} (hjail : (applyWhiteList && a ∉ jailWhiteList) = true)
    (hop : ∀ b v, s.GetValidator b = some v → v.OperatorAddress = b) {l : List A}
    (hl : ∀ b ∈ l, (s.GetValidator b).isSome) (ha : a ∈ l) :
    (l.foldlM (prepValidator applyWhiteList jailWhiteList) s).Sat (fun _ => False)
      fun t => t.validatorsByPowerIndex = s.validatorsByPowerIndex ∧ t.params = s.params ∧
        ∃ v, t.GetValidator a = some v ∧ v.Jailed = true := by
  have hinit : PrepInv s a s l := ⟨hop, hl, rfl, rfl, fun ha' => absurd ha ha'⟩
  refine (Except.sat_foldlM (PrepInv s a) (prepValidator_sat hjail) l s hinit).mono
    (fun _ h => h) fun t ht => ⟨ht.index, ht.params, ht.jailed List.not_mem_nil⟩

/-! ### The export panics -/

/-- `ApplyAndReturnValidatorSetUpdates` panics when the validator of the highest
key of the power index is jailed. -/
theorem ApplyAndReturnValidatorSetUpdates_jailed {ctx : Context P} {t : State A P}
    (hmax : 0 < t.params.MaxValidators) {k : ℤ ×ₗ Aᵒᵈ} {a : A}
    {rest : List ((ℤ ×ₗ Aᵒᵈ) × A)} (htop : t.validatorsByPowerIndex.entries.reverse = (k, a) :: rest)
    {v : Validator A P} (hv : t.GetValidator a = some v) (hjailed : v.Jailed = true) :
    t.ApplyAndReturnValidatorSetUpdates ctx = .error .jailedValidatorInPowerStore := by
  have hloop : State.applyPowerIndex t.params.MaxValidators ((k, a) :: rest)
      ⟨t, t.lastValidatorPowers, [], 0, 0⟩ = .error .jailedValidatorInPowerStore := by
    have hcount : ¬ t.params.MaxValidators ≤ 0 := by omega
    simp only [State.applyPowerIndex, hcount, if_false, State.mustGetValidator, hv,
      Except.ok_bind, hjailed, if_true]
    -- a panic ends the loop
    rfl
  unfold State.ApplyAndReturnValidatorSetUpdates
  dsimp only
  rw [htop, hloop]
  rfl

/-- **The export jails a validator the power index still holds.**  In a state
whose power index is consistent, such as every state reachable from genesis,
with at least one bonded seat, when the whitelist is not empty and leaves out the
validator of the highest key of the power index, the export jails that validator
with `SetValidator`, its key stays in the index, and
`ApplyAndReturnValidatorSetUpdates` panics on it. -/
theorem prepForZeroHeightStaking_panics {ctx : Context P} {jailWhiteList : List A}
    {s : State A P} (h : PowerIndexed s) (hmax : 0 < s.params.MaxValidators)
    (hwl : jailWhiteList ≠ []) {k : ℤ ×ₗ Aᵒᵈ} {a : A} {rest : List ((ℤ ×ₗ Aᵒᵈ) × A)}
    (htop : s.validatorsByPowerIndex.entries.reverse = (k, a) :: rest)
    (ha : a ∉ jailWhiteList) :
    prepForZeroHeightStaking ctx jailWhiteList s = .error .jailedValidatorInPowerStore := by
  -- the validator at the top of the index is stored
  have hka : s.validatorsByPowerIndex.get k = some a :=
    SortedKV.get_eq_some_iff.2 (List.mem_reverse.1 (htop ▸ List.mem_cons_self))
  obtain ⟨v, hv, -, -⟩ := (h.get_eq_some_iff k a).1 hka
  obtain ⟨hvals, hindex, hparams⟩ := resetCreationHeights_keeps s
  have hget : ∀ b, (resetCreationHeights s).GetValidator b = s.GetValidator b := by
    intro b
    rw [State.GetValidator, hvals, State.GetValidator]
  -- the loop visits the stored addresses, `a` among them
  have hstored : ∀ b ∈ (resetCreationHeights s).validators.entries.reverse.map Prod.fst,
      ((resetCreationHeights s).GetValidator b).isSome := by
    intro b hb
    obtain ⟨⟨b', w⟩, hw, rfl⟩ := List.mem_map.1 hb
    rw [State.GetValidator, SortedKV.get_eq_some_iff.2 (List.mem_reverse.1 hw)]
    rfl
  have hmem : a ∈ (resetCreationHeights s).validators.entries.reverse.map Prod.fst := by
    rw [hvals]
    exact List.mem_map.2 ⟨(a, v), List.mem_reverse.2 (SortedKV.get_eq_some_iff.1 hv), rfl⟩
  have hjail : ((!jailWhiteList.isEmpty) && a ∉ jailWhiteList) = true := by
    simpa [List.isEmpty_iff] using ⟨hwl, ha⟩
  have hloop := prepValidators_sat hjail (fun b w hw => h.operator b w ((hget b) ▸ hw)) hstored hmem
  unfold prepForZeroHeightStaking
  dsimp only
  cases hres : ((resetCreationHeights s).validators.entries.reverse.map Prod.fst).foldlM
      (prepValidator (!jailWhiteList.isEmpty) jailWhiteList) (resetCreationHeights s) with
  | error e => exact (hloop.of_error hres).elim
  | ok t =>
    -- the index and the seats are as they were, and `a`'s record is jailed
    obtain ⟨hindex', hparams', w, hw, hjailed⟩ := hloop.of_ok hres
    have htop' : t.validatorsByPowerIndex.entries.reverse = (k, a) :: rest := by
      rw [hindex', hindex, htop]
    have hmax' : 0 < t.params.MaxValidators := by
      rw [hparams', hparams]
      exact hmax
    simp only [Except.ok_bind]
    rw [ApplyAndReturnValidatorSetUpdates_jailed hmax' htop' hw hjailed]
    rfl

/-- **The export panics on a chain with one validator.**  Account 1 creates
validator 1 at height 1, one transaction from genesis.  An export with the
whitelist `[2]` jails validator 1 while the power index still holds it, and
`ApplyAndReturnValidatorSetUpdates` panics. -/
theorem zero_height_export_panics :
    Reachable genesis sampleCreated ∧
    prepForZeroHeightStaking ⟨1, 0, none⟩ [2] sampleCreated = .error .jailedValidatorInPowerStore := by
  have hreach : Reachable genesis sampleCreated := .single (.deliver _ _ _)
  -- validator 1 holds the only key of the power index, that of its `1.9·10⁶` tokens
  have htop : sampleCreated.validatorsByPowerIndex.entries.reverse =
      [(toLex (1900000, OrderDual.toDual 1), 1)] := by
    decide +kernel
  refine ⟨hreach, prepForZeroHeightStaking_panics (genesis_powerIndexed.reachable hreach) ?_
    (by simp) htop (by simp)⟩
  decide +kernel

end App
end ColorSdk
