import ColorSdk.Staking.Handler
import Mathlib.Algebra.BigOperators.Group.List.Basic

/-!
# Council members

Gov's tally counts the `Shares` of a council member's record as its voting
power, so the records are meant to follow the delegations: an address has a
record exactly when its delegations total at least `CouncilMemberMinCoin`, and
the record's shares are that total.  `Delegate` writes the total into the
record; `unbond` only deletes a record whose total has fallen below the
minimum, and leaves the shares of every other record as they were.  A partial
undelegation that keeps the total above the minimum therefore leaves the
record with the shares the delegator no longer has.

## Main definitions

* `delegatedShares` — the sum of the shares of an address's delegations.
* `CouncilConsistent` — the records follow the delegations.
* `genesis` — a chain with one funded account and nothing staked.

## Main results

* `getTotalDelegatorDelegations_eq` — the keeper's total is that sum.
* `council_shares_stale` — from `genesis`, a self-delegation of twice the
  minimum followed by an undelegation of the minimum leaves a record whose
  shares are twice the delegator's total.

## References

* src/x/staking/keeper/delegation.go, src/x/staking/keeper/query_utils.go,
  src/x/gov/tally.go
-/

namespace ColorSdk
namespace Staking

variable {A P : Type} [LinearOrder A] [LinearOrder P]

/-- The sum of the shares of all of an address's delegations. -/
def delegatedShares (s : State A P) (a : A) : Dec :=
  ⟨((s.GetDelegatorDelegations a).map fun e => e.2.Shares.i).sum⟩

/-- The council records follow the delegations: an address has a record
exactly when its delegations total at least the minimum, and the record holds
that total. -/
structure CouncilConsistent (s : State A P) : Prop where
  member_iff : ∀ a, (s.GetCouncilMember a).isSome ↔
    s.params.CouncilMemberMinCoin.i ≤ (delegatedShares s a).i
  shares_eq : ∀ a cm, s.GetCouncilMember a = some cm → cm.Shares = delegatedShares s a

omit [LinearOrder A] in
/-- Summing shares onto a running total adds the sum of the shares. -/
theorem foldl_add_shares (l : List ((A ×ₗ A) × Delegation A)) (total : Dec) :
    l.foldl (fun total e => total.Add e.2.Shares) total =
      ⟨total.i + (l.map fun e => e.2.Shares.i).sum⟩ := by
  induction l generalizing total with
  | nil => simp
  | cons e l ih =>
    rw [List.foldl_cons, ih]
    simp [Int.add_assoc]

/-- The keeper's total of a delegator's delegations is the sum of their
shares. -/
theorem getTotalDelegatorDelegations_eq (s : State A P) (a : A) :
    s.GetTotalDelegatorDelegations a = delegatedShares s a := by
  rw [State.GetTotalDelegatorDelegations, foldl_add_shares]
  simp [delegatedShares]

/-! ### A stale record -/

/-- A chain at genesis: one account holds `10¹¹` tokens, counted in the
not-bonded pool, and nothing is staked. -/
def genesis : State ℕ ℕ where
  pool := ⟨100000000000, 0⟩
  params := DefaultParams
  lastTotalPower := 0
  validators := .empty
  validatorsByConsAddr := .empty
  validatorsByPowerIndex := .empty
  lastValidatorPowers := .empty
  delegations := .empty
  unbondingDelegations := .empty
  redelegations := .empty
  ubdQueue := .empty
  redelegationQueue := .empty
  validatorQueue := .empty
  councilMembers := .empty
  coins := fun a => if a = 1 then 100000000000 else 0

/-- Nothing is staked at genesis, so no address has or needs a record. -/
theorem genesis_councilConsistent : CouncilConsistent genesis where
  member_iff a := by
    simp [genesis, State.GetCouncilMember, delegatedShares, State.GetDelegatorDelegations,
      SortedKV.get, SortedKV.empty, DefaultParams, precisionReuse, Precision]
  shares_eq a cm h := by
    simp [genesis, State.GetCouncilMember, SortedKV.get, SortedKV.empty] at h

/-- **A stale council record.**  Account 1 creates a validator with a
self-delegation of `10¹¹`, twice the minimum, and becomes a council member with
those shares; it then undelegates `5·10¹⁰`.  Its delegations still total the
minimum, so `unbond` keeps the record, with the shares of before. -/
theorem council_shares_stale :
    let ctx : Context ℕ := ⟨UndelegatePatchHeight, 0, none⟩
    let created := genesis.DeliverMsg ctx
      (.MsgCreateValidator ⟨"validator", "", "", ""⟩ ⟨ZeroDec, ZeroDec, ZeroDec⟩ 1 1 1 7
        ⟨"uclr", 100000000000⟩)
    let undelegated := created.DeliverMsg ctx (.MsgUndelegate 1 1 ⟨"uclr", 50000000000⟩)
    CouncilConsistent genesis ∧ Reachable genesis undelegated ∧
      undelegated.GetCouncilMember 1 = some ⟨1, ToDec 100000000000⟩ ∧
      delegatedShares undelegated 1 = ToDec 50000000000 ∧ ¬ CouncilConsistent undelegated := by
  intro ctx created undelegated
  have hreach : Reachable genesis undelegated :=
    .tail (.single (.deliver ctx genesis _)) (.deliver ctx created _)
  have hmember : undelegated.GetCouncilMember 1 = some ⟨1, ToDec 100000000000⟩ := by decide
  have hshares : delegatedShares undelegated 1 = ToDec 50000000000 := by decide
  refine ⟨genesis_councilConsistent, hreach, hmember, hshares, fun h => ?_⟩
  have hstale := h.shares_eq 1 _ hmember
  rw [hshares] at hstale
  exact absurd hstale (by decide)

end Staking
end ColorSdk
