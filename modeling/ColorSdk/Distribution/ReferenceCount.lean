import ColorSdk.Distribution.Keeper
import ColorSdk.Staking.Council
import ColorSdk.Lib.ExceptSpec

/-!
# Reference counts of historical rewards

Each historical record `(v, p)` is meant to count its referrers: one if `p` is
the period the validator ended last, one for each delegation to `v` that
started after `p`, and one for each slash event of `v` that ended `p`.

`updateValidatorSlashFraction` breaks this when a validator is slashed twice
at one height and its period moves on in between, which happens when a
redelegation slash unbonds from it within the same BeginBlock.  The second
slash finds the event of the first and rewrites it with the period ended last,
without taking a reference on that period or dropping the one the event held
on the period of the first slash.  The first period keeps a record nothing
refers to, and the second counts one referrer less than it has: once the
delegation moves on, its record is deleted while the slash event still needs
it.

## Main definitions

* `referrers` — the referrers of a period of a validator.
* `ReferenceCountsExact` — every record counts its referrers, one or two.
* `emptyState` and the staking views of the run `slashTwiceSameHeight`.
* `slashTwiceSameHeight` — the hooks of the run, one after the other.

## Main results

* `reference_count_mismatch` — a run of hooks from `emptyState` ends with a
  record without referrers and a record with three referrers counting two.
* `reachable_of_slashTwiceSameHeight` — the run is a run of `Step`s.
* `reconstructed_stake_exceeds_current` — withdrawing the delegation's rewards
  one block later panics with "calculated final stake ... greater than current
  stake".

## References

* src/x/distribution/keeper/validator.go, src/x/distribution/keeper/hooks.go,
  src/x/distribution/keeper/invariants.go, src/x/staking/keeper/slash.go,
  src/x/distribution/keeper/delegation.go
-/

namespace ColorSdk
namespace Distribution

variable {A : Type} [LinearOrder A]

/-- The referrers of period `p` of validator `v`: the last ended period, the
delegations that started after it, and the slash events that ended it. -/
def referrers (s : State A) (v : A) (p : ℕ) : ℕ :=
  (if (s.currentRewards.get v).map (fun rewards => uint64Pred rewards.Period) = some p then 1
    else 0) +
  (s.startingInfos.entries.filter fun e =>
    decide ((ofLex e.1).1 = v ∧ e.2.PreviousPeriod = p)).length +
  (s.slashEvents.entries.filter fun e =>
    decide ((ofLex e.1).1 = v ∧ e.2.ValidatorPeriod = p)).length

/-- Every historical record counts its referrers, which are one or two. -/
def ReferenceCountsExact (s : State A) : Prop :=
  ∀ v p rewards, s.historicalRewards.get (toLex (v, p)) = some rewards →
    rewards.ReferenceCount = referrers s v p ∧ 1 ≤ rewards.ReferenceCount ∧
      rewards.ReferenceCount ≤ 2

/-- A record whose count is not the number of its referrers breaks the
invariant. -/
theorem not_referenceCountsExact_of_count_ne {s : State A} {v : A} {p n : ℕ}
    (hcount : (s.historicalRewards.get (toLex (v, p))).map (·.ReferenceCount) = some n)
    (hne : referrers s v p ≠ n) : ¬ ReferenceCountsExact s := by
  intro h
  obtain ⟨rewards, hget, rfl⟩ := Option.map_eq_some_iff.1 hcount
  exact hne (h v p rewards hget).1.symm

/-! ### Two slashes at one height -/

/-- Distribution at genesis, with no validator. -/
def emptyState : State ℕ where
  communityPool := ZeroDec
  historicalRewards := .empty
  currentRewards := .empty
  accumulatedCommission := .empty
  outstandingRewards := .empty
  startingInfos := .empty
  slashEvents := .empty
  withdrawAddrs := .empty
  params := ⟨ZeroDec, ZeroDec, ZeroDec, true⟩
  collectedFees := 0
  coins := fun _ => 0

theorem emptyState_referenceCountsExact : ReferenceCountsExact emptyState := by
  intro v p rewards h
  simp [emptyState] at h

/-- Validator 1 as `MsgCreateValidator` stores it, before its self-delegation. -/
def createdValidator : Staking.Validator ℕ ℕ :=
  { Staking.NewValidator 1 7 with MinSelfDelegation := 1 }

/-- Staking once validator 1 is created: what `BeforeDelegationCreated` reads. -/
def createdView : Staking.State ℕ ℕ := Staking.genesis.SetValidator createdValidator

/-- Staking once account 2 has delegated `10⁸` tokens to validator 1. -/
def delegatedView : Staking.State ℕ ℕ :=
  (Staking.genesis.SetValidator { createdValidator with
    Tokens := 100000000, DelegatorShares := ToDec 100000000 }).SetDelegation
    ⟨2, 1, ToDec 100000000⟩

/-- Staking after the first slash of validator 1 has burnt half its tokens. -/
def slashedView : Staking.State ℕ ℕ :=
  (Staking.genesis.SetValidator { createdValidator with
    Tokens := 50000000, DelegatorShares := ToDec 100000000 }).SetDelegation
    ⟨2, 1, ToDec 100000000⟩

/-- Staking while a redelegation slash unbonds half of account 2's shares from
validator 1: the delegation is written before the validator. -/
def unbondingView : Staking.State ℕ ℕ :=
  (Staking.genesis.SetValidator { createdValidator with
    Tokens := 50000000, DelegatorShares := ToDec 100000000 }).SetDelegation
    ⟨2, 1, ToDec 50000000⟩

/-- Staking once the unbonding is done. -/
def unbondedView : Staking.State ℕ ℕ :=
  (Staking.genesis.SetValidator { createdValidator with
    Tokens := 25000000, DelegatorShares := ToDec 50000000 }).SetDelegation
    ⟨2, 1, ToDec 50000000⟩

/-- The slash fraction one half. -/
def halfDec : Dec := ⟨500000000000000000⟩

/-- The hooks of the run, one after the other. -/
def slashTwiceSameHeight : Except Panic (State ℕ) := do
  let s₁ ← emptyState.AfterValidatorCreated createdView 1
  let s₂ ← s₁.BeforeDelegationCreated createdView 1
  let s₃ ← s₂.AfterDelegationModified ⟨1, 0, none⟩ delegatedView 2 1
  let s₄ ← s₃.BeforeValidatorSlashed ⟨2, 0, none⟩ delegatedView 1 halfDec
  let s₅ ← s₄.BeforeDelegationSharesModified ⟨2, 0, none⟩ slashedView 2 1
  let s₆ ← s₅.AfterDelegationModified ⟨2, 0, none⟩ unbondingView 2 1
  s₆.BeforeValidatorSlashed ⟨2, 0, none⟩ unbondedView 1 halfDec

/-- Each hook of the run is a step, so the run reaches the state it returns. -/
theorem reachable_of_slashTwiceSameHeight {s : State ℕ} (h : slashTwiceSameHeight = .ok s) :
    Reachable (P := ℕ) emptyState s := by
  obtain ⟨s₁, h₁, h⟩ := Except.bind_eq_ok.1 h
  obtain ⟨s₂, h₂, h⟩ := Except.bind_eq_ok.1 h
  obtain ⟨s₃, h₃, h⟩ := Except.bind_eq_ok.1 h
  obtain ⟨s₄, h₄, h⟩ := Except.bind_eq_ok.1 h
  obtain ⟨s₅, h₅, h⟩ := Except.bind_eq_ok.1 h
  obtain ⟨s₆, h₆, h₇⟩ := Except.bind_eq_ok.1 h
  exact .tail (.tail (.tail (.tail (.tail (.tail (.single
    (.afterValidatorCreated _ _ h₁))
    (.beforeDelegationCreated _ _ h₂))
    (.afterDelegationModified _ _ _ _ h₃))
    (.beforeValidatorSlashed _ _ _ _ h₄))
    (.beforeDelegationSharesModified _ _ _ _ h₅))
    (.afterDelegationModified _ _ _ _ h₆))
    (.beforeValidatorSlashed _ _ _ _ h₇)

/-- **Reference counts go wrong.**  Validator 1 is created and account 2
delegates to it at height 1.  At height 2, in one BeginBlock, validator 1 is
slashed; another validator's slash then unbonds half of account 2's
redelegated shares from validator 1; and validator 1 is slashed again.  The
second slash moves the slash event of height 2 from period 2 to period 3: the
record of period 2 is left with a count of one and no referrer, and the record
of period 3 counts two of its three referrers. -/
theorem reference_count_mismatch :
    ∃ s₁ s₂ s₃ s₄ s₅ s₆ s₇ : State ℕ,
      emptyState.AfterValidatorCreated createdView 1 = .ok s₁ ∧
      s₁.BeforeDelegationCreated createdView 1 = .ok s₂ ∧
      s₂.AfterDelegationModified ⟨1, 0, none⟩ delegatedView 2 1 = .ok s₃ ∧
      s₃.BeforeValidatorSlashed ⟨2, 0, none⟩ delegatedView 1 halfDec = .ok s₄ ∧
      s₄.BeforeDelegationSharesModified ⟨2, 0, none⟩ slashedView 2 1 = .ok s₅ ∧
      s₅.AfterDelegationModified ⟨2, 0, none⟩ unbondingView 2 1 = .ok s₆ ∧
      s₆.BeforeValidatorSlashed ⟨2, 0, none⟩ unbondedView 1 halfDec = .ok s₇ ∧
      ReferenceCountsExact emptyState ∧ Reachable (P := ℕ) emptyState s₇ ∧
      (s₇.historicalRewards.get (toLex (1, 2))).map (·.ReferenceCount) = some 1 ∧
      referrers s₇ 1 2 = 0 ∧
      (s₇.historicalRewards.get (toLex (1, 3))).map (·.ReferenceCount) = some 2 ∧
      referrers s₇ 1 3 = 3 ∧ ¬ ReferenceCountsExact s₇ := by
  -- each hook's result is computed, and the run is `slashTwiceSameHeight`
  refine ⟨_, _, _, _, _, _, _, rfl, rfl, rfl, rfl, rfl, rfl, rfl, emptyState_referenceCountsExact,
    reachable_of_slashTwiceSameHeight rfl, by decide, by decide, by decide, by decide, ?_⟩
  -- the record of period 2 counts one referrer and has none
  exact not_referenceCountsExact_of_count_ne (v := 1) (p := 2) (n := 1) (by decide) (by decide)

/-! ### A stake above the current one -/

/-- Staking one block later, once the second slash of validator 1 has burnt half
of what was left. -/
def slashedAgainView : Staking.State ℕ ℕ :=
  (Staking.genesis.SetValidator { createdValidator with
    Tokens := 12500000, DelegatorShares := ToDec 50000000 }).SetDelegation
    ⟨2, 1, ToDec 50000000⟩

/-- **The reconstructed stake exceeds the current one.**  After the run, the
delegation of account 2 started at height 2 from period 3 with a stake of
`2.5 × 10⁷`, and the slash event of height 2 names period 3 with fraction `3/4`.
Withdrawing its rewards at height 3 walks that event, finds that it ends no
period after the start, and keeps the stake; the current stake is `1.25 × 10⁷`,
so the sanity check panics. -/
theorem reconstructed_stake_exceeds_current :
    ∃ s : State ℕ, Reachable (P := ℕ) emptyState s ∧
      (s.GetDelegatorStartingInfo 1 2).map (fun info => (info.PreviousPeriod, info.Stake)) =
        .ok (3, ToDec 25000000) ∧
      (s.GetValidatorSlashEvent 1 2).map (·.ValidatorPeriod) = some 3 ∧
      s.WithdrawDelegationRewards ⟨3, 0, none⟩ slashedAgainView 2 1 =
        .error (.panic .stakeGreaterThanCurrent) :=
  ⟨_, reachable_of_slashTwiceSameHeight rfl, rfl, rfl, rfl⟩

end Distribution
end ColorSdk
