import ColorSdk.Staking.Keeper
import Mathlib.Logic.Relation

/-!
# The distribution keeper

Rewards of a validator accumulate in its current period; ending a period adds
the rewards per token of the period to a cumulative ratio stored as the
period's historical record.  A delegation remembers the period before it
started, and its rewards are its stake times the growth of the ratio since,
cut at each slash event of the validator in between.  A historical record is
kept while something refers to it: the validator's last ended period, the
starting period of a delegation, or the period a slash event ended; its
`ReferenceCount` counts these, and the record is deleted when the count drops
to zero.

Rewards are modelled in the bond denomination only, each `sdk.DecCoins` as one
`Dec`.  The staking keeper the hooks read is the staking state of
`ColorSdk.Staking`.

## Main definitions

* `State`, the store accessors.
* `initializeValidator`, `incrementValidatorPeriod`, `incrementReferenceCount`,
  `decrementReferenceCount`, `updateValidatorSlashFraction`.
* `initializeDelegation`, `calculateDelegationRewards`,
  `withdrawDelegationRewards`.
* The hooks, `AllocateTokens`, `WithdrawDelegationRewards`,
  `WithdrawValidatorCommission`.
* `Step`, `Reachable` — runs of hooks, allocations and withdrawals.

## References

* src/x/distribution/keeper/validator.go, src/x/distribution/keeper/delegation.go,
  src/x/distribution/keeper/hooks.go, src/x/distribution/keeper/allocation.go,
  src/x/distribution/keeper/keeper.go, src/x/distribution/keeper/store.go,
  src/types/dec_coin.go
-/

namespace ColorSdk
namespace Distribution

open Staking (Validator Delegation Context)

/-- `uint64` subtraction of one, which wraps at zero. -/
def uint64Pred (n : ℕ) : ℕ := if n = 0 then 2 ^ 64 - 1 else n - 1

structure ValidatorHistoricalRewards where
  CumulativeRewardRatio : Dec
  ReferenceCount : ℕ
  deriving DecidableEq, Repr

structure ValidatorCurrentRewards where
  Rewards : Dec
  Period : ℕ
  deriving DecidableEq, Repr

structure DelegatorStartingInfo where
  PreviousPeriod : ℕ
  Stake : Dec
  Height : ℕ
  deriving DecidableEq, Repr

structure ValidatorSlashEvent where
  ValidatorPeriod : ℕ
  Fraction : Dec
  deriving DecidableEq, Repr

structure Params where
  CommunityTax : Dec
  BaseProposerReward : Dec
  BonusProposerReward : Dec
  WithdrawAddrEnabled : Bool
  deriving DecidableEq, Repr

/-- Errors of the distribution keeper. -/
inductive DistrError
  /-- "no delegation distribution info" -/
  | ErrNoDelegationDistInfo
  /-- "no validator distribution info" -/
  | ErrNoValidatorDistInfo
  /-- "no validator commission to withdraw" -/
  | ErrNoValidatorCommission
  deriving DecidableEq, Repr

/-- Panics of the distribution keeper. -/
inductive Panic
  /-- Amino refuses to decode the empty value of a missing record. -/
  | missingRecord
  /-- "reference count should never exceed 2" -/
  | referenceCountExceeds
  /-- "cannot set negative reference count" -/
  | negativeReferenceCount
  /-- "fraction greater than one" -/
  | fractionGreaterThanOne
  /-- "negative slash fraction" -/
  | negativeSlashFraction
  /-- "startingPeriod cannot be greater than endingPeriod" -/
  | startingPeriodGreater
  /-- "stake should not be negative" -/
  | negativeStake
  /-- "negative rewards should not be possible" -/
  | negativeRewards
  /-- "calculated final stake for delegator %s greater than current stake" -/
  | stakeGreaterThanCurrent
  /-- `DecCoins.Sub`: "negative coin amount" -/
  | negativeCoinAmount
  /-- `DecCoins.QuoDecTruncate`: "invalid zero decimal" -/
  | invalidZeroDecimal
  /-- A nil validator or delegation from the staking keeper is dereferenced. -/
  | nilDereference
  /-- `panic(err)` on an error of `withdrawDelegationRewards` in a hook. -/
  | error (err : DistrError)
  deriving DecidableEq, Repr

inductive Failure
  | error (err : DistrError)
  | panic (p : Panic)
  deriving DecidableEq, Repr

/-- `DecCoins.Sub`, which panics on a negative result. -/
def subCoins (coins coinsB : Dec) : Except Panic Dec :=
  let diff := coins.Sub coinsB
  if diff.IsNegative then .error .negativeCoinAmount else .ok diff

/-- `DecCoins.QuoDecTruncate`, which panics on a zero divisor. -/
def quoDecTruncate (coins d : Dec) : Except Panic Dec :=
  if d.IsZero then .error .invalidZeroDecimal else .ok (coins.QuoTruncate d)

/-- `DecCoins.TruncateDecimal`: the whole coins and the change. -/
def truncateDecimal (coins : Dec) : ℤ × Dec :=
  let truncated := coins.TruncateInt
  (truncated, coins.Sub (ToDec truncated))

/-- The distribution store, with the fee collector's and the bank's balances
of the bond denomination. -/
structure State (A : Type) [LinearOrder A] where
  /-- The community pool of the fee pool. -/
  communityPool : Dec
  /-- Historical rewards, keyed by validator and period. -/
  historicalRewards : SortedKV (A ×ₗ ℕ) ValidatorHistoricalRewards
  currentRewards : SortedKV A ValidatorCurrentRewards
  accumulatedCommission : SortedKV A Dec
  outstandingRewards : SortedKV A Dec
  /-- Starting infos, keyed by validator and delegator. -/
  startingInfos : SortedKV (A ×ₗ A) DelegatorStartingInfo
  /-- Slash events, keyed by validator and height. -/
  slashEvents : SortedKV (A ×ₗ ℕ) ValidatorSlashEvent
  withdrawAddrs : SortedKV A A
  params : Params
  collectedFees : ℤ
  coins : A → ℤ

namespace State

variable {A P : Type} [LinearOrder A] [LinearOrder P]

/-! ### Store accessors -/

def GetValidatorHistoricalRewards (s : State A) (val : A) (period : ℕ) :
    Except Panic ValidatorHistoricalRewards :=
  match s.historicalRewards.get (toLex (val, period)) with
  | some rewards => .ok rewards
  | none => .error .missingRecord

def SetValidatorHistoricalRewards (s : State A) (val : A) (period : ℕ)
    (rewards : ValidatorHistoricalRewards) : State A :=
  { s with historicalRewards := s.historicalRewards.set (toLex (val, period)) rewards }

def DeleteValidatorHistoricalReward (s : State A) (val : A) (period : ℕ) : State A :=
  { s with historicalRewards := s.historicalRewards.delete (toLex (val, period)) }

def GetValidatorCurrentRewards (s : State A) (val : A) : Except Panic ValidatorCurrentRewards :=
  match s.currentRewards.get val with
  | some rewards => .ok rewards
  | none => .error .missingRecord

def SetValidatorCurrentRewards (s : State A) (val : A) (rewards : ValidatorCurrentRewards) :
    State A :=
  { s with currentRewards := s.currentRewards.set val rewards }

def GetValidatorOutstandingRewards (s : State A) (val : A) : Except Panic Dec :=
  match s.outstandingRewards.get val with
  | some rewards => .ok rewards
  | none => .error .missingRecord

def SetValidatorOutstandingRewards (s : State A) (val : A) (rewards : Dec) : State A :=
  { s with outstandingRewards := s.outstandingRewards.set val rewards }

/-- A missing commission reads as none. -/
def GetValidatorAccumulatedCommission (s : State A) (val : A) : Dec :=
  (s.accumulatedCommission.get val).getD ZeroDec

def SetValidatorAccumulatedCommission (s : State A) (val : A) (commission : Dec) : State A :=
  { s with accumulatedCommission := s.accumulatedCommission.set val commission }

def GetDelegatorStartingInfo (s : State A) (val del : A) : Except Panic DelegatorStartingInfo :=
  match s.startingInfos.get (toLex (val, del)) with
  | some period => .ok period
  | none => .error .missingRecord

def HasDelegatorStartingInfo (s : State A) (val del : A) : Bool :=
  (s.startingInfos.get (toLex (val, del))).isSome

def SetDelegatorStartingInfo (s : State A) (val del : A) (period : DelegatorStartingInfo) :
    State A :=
  { s with startingInfos := s.startingInfos.set (toLex (val, del)) period }

def DeleteDelegatorStartingInfo (s : State A) (val del : A) : State A :=
  { s with startingInfos := s.startingInfos.delete (toLex (val, del)) }

def GetValidatorSlashEvent (s : State A) (val : A) (height : ℕ) : Option ValidatorSlashEvent :=
  s.slashEvents.get (toLex (val, height))

def SetValidatorSlashEvent (s : State A) (val : A) (height : ℕ) (event : ValidatorSlashEvent) :
    State A :=
  { s with slashEvents := s.slashEvents.set (toLex (val, height)) event }

/-- The slash events of a validator between two heights, inclusive, by height. -/
def ValidatorSlashEventsBetween (s : State A) (val : A) (startingHeight endingHeight : ℕ) :
    List ValidatorSlashEvent :=
  (s.slashEvents.entries.filter fun e =>
    decide ((ofLex e.1).1 = val ∧ startingHeight ≤ (ofLex e.1).2 ∧ (ofLex e.1).2 ≤ endingHeight)).map
      (·.2)

def GetDelegatorWithdrawAddr (s : State A) (delAddr : A) : A :=
  (s.withdrawAddrs.get delAddr).getD delAddr

def AddCoins (s : State A) (addr : A) (amt : ℤ) : State A :=
  { s with coins := Function.update s.coins addr (s.coins addr + amt) }

/-! ### Periods and reference counts -/

/-- Initialize rewards for a new validator: period 0 is tracked with one
reference and period 1 begins. -/
def initializeValidator (s : State A) (val : Validator A P) : State A :=
  let s := s.SetValidatorHistoricalRewards val.OperatorAddress 0 ⟨ZeroDec, 1⟩
  let s := s.SetValidatorCurrentRewards val.OperatorAddress ⟨ZeroDec, 1⟩
  let s := s.SetValidatorAccumulatedCommission val.OperatorAddress ZeroDec
  s.SetValidatorOutstandingRewards val.OperatorAddress ZeroDec

/-- Decrement the reference count of a historical record, deleting it when no
reference remains. -/
def decrementReferenceCount (s : State A) (valAddr : A) (period : ℕ) : Except Panic (State A) := do
  let historical ← s.GetValidatorHistoricalRewards valAddr period
  if historical.ReferenceCount = 0 then throw .negativeReferenceCount
  let historical := { historical with ReferenceCount := historical.ReferenceCount - 1 }
  if historical.ReferenceCount = 0 then return s.DeleteValidatorHistoricalReward valAddr period
  else return s.SetValidatorHistoricalRewards valAddr period historical

/-- Increment the reference count of a historical record. -/
def incrementReferenceCount (s : State A) (valAddr : A) (period : ℕ) : Except Panic (State A) := do
  let historical ← s.GetValidatorHistoricalRewards valAddr period
  if 2 < historical.ReferenceCount then throw .referenceCountExceeds
  return s.SetValidatorHistoricalRewards valAddr period
    { historical with ReferenceCount := historical.ReferenceCount + 1 }

/-- End the validator's current period, returning it: its rewards per token are
added to the cumulative ratio, stored with one reference, and the previous
period loses the reference of the last ended period. -/
def incrementValidatorPeriod (s : State A) (val : Validator A P) : Except Panic (ℕ × State A) := do
  let rewards ← s.GetValidatorCurrentRewards val.OperatorAddress
  let (current, s) ←
    if val.Tokens = 0 then do
      -- a zero-token validator has no ratio: its rewards go to the community pool
      let outstanding ← s.GetValidatorOutstandingRewards val.OperatorAddress
      let s := { s with communityPool := s.communityPool.Add rewards.Rewards }
      let outstanding ← subCoins outstanding rewards.Rewards
      pure (ZeroDec, s.SetValidatorOutstandingRewards val.OperatorAddress outstanding)
    else do
      -- truncated, so that no more rewards can be withdrawn than owed
      let current ← quoDecTruncate rewards.Rewards (ToDec val.Tokens)
      pure (current, s)
  let historical ← s.GetValidatorHistoricalRewards val.OperatorAddress (uint64Pred rewards.Period)
  let s ← s.decrementReferenceCount val.OperatorAddress (uint64Pred rewards.Period)
  let s := s.SetValidatorHistoricalRewards val.OperatorAddress rewards.Period
    ⟨historical.CumulativeRewardRatio.Add current, 1⟩
  let s := s.SetValidatorCurrentRewards val.OperatorAddress ⟨ZeroDec, rewards.Period + 1⟩
  return (rewards.Period, s)

/-- Record a slash of a validator at the current height: the first slash of a
height ends the current period and takes a reference on it; a later one of the
same height only updates the fraction, and records the period last ended. -/
def updateValidatorSlashFraction (ctx : Context P) (sk : Staking.State A P) (s : State A)
    (valAddr : A) (fraction : Dec) : Except Panic (State A) := do
  if fraction.GT OneDec then throw .fractionGreaterThanOne
  let height := ctx.BlockHeight.toNat
  let rewards ← s.GetValidatorCurrentRewards valAddr
  let (currentFraction, endedPeriod, s) ←
    match s.GetValidatorSlashEvent valAddr height with
    | some current =>
      -- there has already been a slash event this height: only update the fraction
      pure (current.Fraction, uint64Pred rewards.Period, s)
    | none => do
      let some val := sk.GetValidator valAddr | throw .nilDereference
      let (endedPeriod, s) ← s.incrementValidatorPeriod val
      -- take a reference on the period the slash event tracks
      let s ← s.incrementReferenceCount valAddr endedPeriod
      pure (ZeroDec, endedPeriod, s)
  let currentMultiplicand := OneDec.Sub currentFraction
  let newMultiplicand := OneDec.Sub fraction
  -- truncating conservatively increases the slashing amount
  let updatedFraction := OneDec.Sub (currentMultiplicand.MulTruncate newMultiplicand)
  if updatedFraction.LT ZeroDec then throw .negativeSlashFraction
  return s.SetValidatorSlashEvent valAddr height ⟨endedPeriod, updatedFraction⟩

/-! ### Delegations -/

/-- Start tracking a delegation from the period just ended, which takes a
reference. -/
def initializeDelegation (ctx : Context P) (sk : Staking.State A P) (s : State A)
    (val del : A) : Except Panic (State A) := do
  -- the period has already been incremented: track the period it ended
  let rewards ← s.GetValidatorCurrentRewards val
  let previousPeriod := uint64Pred rewards.Period
  let s ← s.incrementReferenceCount val previousPeriod
  let some validator := sk.GetValidator val | throw .nilDereference
  let some delegation := sk.GetDelegation del val | throw .nilDereference
  -- the stake in tokens, truncated so that no more can be withdrawn than owed
  let stake := validator.TokensFromSharesTruncated delegation.Shares
  return s.SetDelegatorStartingInfo val del ⟨previousPeriod, stake, ctx.BlockHeight.toNat⟩

/-- The rewards of a stake between two periods. -/
def calculateDelegationRewardsBetween (s : State A) (val : Validator A P)
    (startingPeriod endingPeriod : ℕ) (stake : Dec) : Except Panic Dec := do
  if endingPeriod < startingPeriod then throw .startingPeriodGreater
  if stake.LT ZeroDec then throw .negativeStake
  let starting ← s.GetValidatorHistoricalRewards val.OperatorAddress startingPeriod
  let ending ← s.GetValidatorHistoricalRewards val.OperatorAddress endingPeriod
  let difference ← subCoins ending.CumulativeRewardRatio starting.CumulativeRewardRatio
  if difference.IsNegative then throw .negativeRewards
  return difference.MulTruncate stake

/-- The total rewards of a delegation up to a period, cut at each slash event
since it started. -/
def calculateDelegationRewards (ctx : Context P) (s : State A) (val : Validator A P)
    (del : Delegation A) (endingPeriod : ℕ) : Except Panic Dec := do
  let startingInfo ← s.GetDelegatorStartingInfo del.ValidatorAddress del.DelegatorAddress
  -- started this height, no rewards yet
  if startingInfo.Height = ctx.BlockHeight.toNat then return ZeroDec
  let startingHeight := startingInfo.Height
  let endingHeight := ctx.BlockHeight.toNat
  let (rewards, startingPeriod, stake) ←
    if startingHeight < endingHeight then
      (s.ValidatorSlashEventsBetween del.ValidatorAddress startingHeight endingHeight).foldlM
        (fun (acc : Dec × ℕ × Dec) event => do
          let (rewards, startingPeriod, stake) := acc
          let endingPeriod := event.ValidatorPeriod
          if startingPeriod < endingPeriod then
            let between ← s.calculateDelegationRewardsBetween val startingPeriod endingPeriod stake
            pure (rewards.Add between, endingPeriod, stake.MulTruncate (OneDec.Sub event.Fraction))
          else pure (rewards, startingPeriod, stake))
        (ZeroDec, startingInfo.PreviousPeriod, startingInfo.Stake)
    else pure (ZeroDec, startingInfo.PreviousPeriod, startingInfo.Stake)
  -- the stake, recalculated through the slashes, may exceed the current stake
  -- by rounding only
  let currentStake := val.TokensFromShares del.Shares
  let stake ←
    if currentStake.LT stake then
      if stake = val.TokensFromSharesRoundUp del.Shares then pure currentStake
      else throw .stakeGreaterThanCurrent
    else pure stake
  let final ← s.calculateDelegationRewardsBetween val startingPeriod endingPeriod stake
  return rewards.Add final

/-- Withdraw the rewards of a delegation: end the period, pay the whole coins,
and drop the delegation's reference on its starting period. -/
def withdrawDelegationRewards (ctx : Context P) (s : State A) (val : Validator A P)
    (del : Delegation A) : Except Failure (ℤ × State A) := do
  if !s.HasDelegatorStartingInfo del.ValidatorAddress del.DelegatorAddress then
    throw (.error .ErrNoDelegationDistInfo)
  (do
    -- end current period and calculate rewards
    let (endingPeriod, s) ← s.incrementValidatorPeriod val
    let rewardsRaw ← s.calculateDelegationRewards ctx val del endingPeriod
    let outstanding ← s.GetValidatorOutstandingRewards del.ValidatorAddress
    -- defensive edge case of the very final digits
    let rewards := if outstanding.LT rewardsRaw then outstanding else rewardsRaw
    -- decrement reference count of starting period
    let startingInfo ← s.GetDelegatorStartingInfo del.ValidatorAddress del.DelegatorAddress
    let s ← s.decrementReferenceCount del.ValidatorAddress startingInfo.PreviousPeriod
    -- truncate coins, return remainder to community pool
    let (coins, remainder) := truncateDecimal rewards
    let outstanding ← subCoins outstanding rewards
    let s := s.SetValidatorOutstandingRewards del.ValidatorAddress outstanding
    let s := { s with communityPool := s.communityPool.Add remainder }
    let s := if coins ≠ 0 then s.AddCoins (s.GetDelegatorWithdrawAddr del.DelegatorAddress) coins
      else s
    return (coins, s.DeleteDelegatorStartingInfo del.ValidatorAddress del.DelegatorAddress)).mapError
    .panic

/-! ### Hooks -/

def AfterValidatorCreated (sk : Staking.State A P) (s : State A) (valAddr : A) :
    Except Panic (State A) :=
  match sk.GetValidator valAddr with
  | some val => .ok (s.initializeValidator val)
  | none => .error .nilDereference

/-- Force-withdraw the commission and clear everything of a removed validator. -/
def AfterValidatorRemoved (s : State A) (valAddr : A) : Except Panic (State A) := do
  let outstanding ← s.GetValidatorOutstandingRewards valAddr
  let commission := s.GetValidatorAccumulatedCommission valAddr
  let (outstanding, s) ←
    if !commission.IsZero then do
      let outstanding ← subCoins outstanding commission
      -- split into integral and remainder; the remainder goes to the community pool
      let (coins, remainder) := truncateDecimal commission
      let s := { s with communityPool := s.communityPool.Add remainder }
      let s := if coins ≠ 0 then s.AddCoins (s.GetDelegatorWithdrawAddr valAddr) coins else s
      pure (outstanding, s)
    else pure (outstanding, s)
  let s := { s with communityPool := s.communityPool.Add outstanding }
  return { s with
    outstandingRewards := s.outstandingRewards.delete valAddr
    accumulatedCommission := s.accumulatedCommission.delete valAddr
    slashEvents := ⟨s.slashEvents.entries.filter fun e => (ofLex e.1).1 ≠ valAddr,
      s.slashEvents.sorted.filter _⟩
    historicalRewards := ⟨s.historicalRewards.entries.filter fun e => (ofLex e.1).1 ≠ valAddr,
      s.historicalRewards.sorted.filter _⟩
    currentRewards := s.currentRewards.delete valAddr }

def BeforeDelegationCreated (sk : Staking.State A P) (s : State A) (valAddr : A) :
    Except Panic (State A) :=
  match sk.GetValidator valAddr with
  | some val => (·.2) <$> s.incrementValidatorPeriod val
  | none => .error .nilDereference

def BeforeDelegationSharesModified (ctx : Context P) (sk : Staking.State A P) (s : State A)
    (delAddr valAddr : A) : Except Panic (State A) :=
  match sk.GetValidator valAddr, sk.GetDelegation delAddr valAddr with
  | some val, some del =>
    -- withdraw delegation rewards, which also increments the period
    match s.withdrawDelegationRewards ctx val del with
    | .ok (_, s) => .ok s
    | .error (.error err) => .error (.error err)
    | .error (.panic p) => .error p
  | _, _ => .error .nilDereference

def AfterDelegationModified (ctx : Context P) (sk : Staking.State A P) (s : State A)
    (delAddr valAddr : A) : Except Panic (State A) :=
  s.initializeDelegation ctx sk valAddr delAddr

def BeforeValidatorSlashed (ctx : Context P) (sk : Staking.State A P) (s : State A)
    (valAddr : A) (fraction : Dec) : Except Panic (State A) :=
  s.updateValidatorSlashFraction ctx sk valAddr fraction

/-! ### Allocation and withdrawals -/

/-- Allocate tokens to a validator, split according to its commission. -/
def AllocateTokensToValidator (s : State A) (val : Validator A P) (tokens : Dec) :
    Except Panic (State A) := do
  let commission := tokens.Mul val.Commission.Rate
  let shared ← subCoins tokens commission
  let currentCommission := s.GetValidatorAccumulatedCommission val.OperatorAddress
  let s := s.SetValidatorAccumulatedCommission val.OperatorAddress (currentCommission.Add commission)
  let currentRewards ← s.GetValidatorCurrentRewards val.OperatorAddress
  let s := s.SetValidatorCurrentRewards val.OperatorAddress
    { currentRewards with Rewards := currentRewards.Rewards.Add shared }
  let outstanding ← s.GetValidatorOutstandingRewards val.OperatorAddress
  return s.SetValidatorOutstandingRewards val.OperatorAddress (outstanding.Add tokens)

/-- Distribute the fees collected in the previous block: to its proposer, to the
validators that voted in proportion to their power, and the rest to the
community pool. -/
def AllocateTokens (sk : Staking.State A P) (s : State A) (sumPreviousPrecommitPower
    totalPreviousPower : ℤ) (previousProposer : P) (previousVotes : List (P × ℤ)) :
    Except Panic (State A) := do
  let feesCollected := ToDec s.collectedFees
  let s := { s with collectedFees := 0 }
  if totalPreviousPower = 0 then
    return { s with communityPool := s.communityPool.Add feesCollected }
  let previousFractionVotes := (ToDec sumPreviousPrecommitPower).Quo (ToDec totalPreviousPower)
  let proposerMultiplier := s.params.BaseProposerReward.Add
    (s.params.BonusProposerReward.MulTruncate previousFractionVotes)
  let proposerReward := feesCollected.MulTruncate proposerMultiplier
  -- pay the previous proposer, when it is still known
  let (remaining, s) ←
    match sk.GetValidatorByConsAddr previousProposer with
    | some proposerValidator => do
      let s ← s.AllocateTokensToValidator proposerValidator proposerReward
      let remaining ← subCoins feesCollected proposerReward
      pure (remaining, s)
    | none => pure (feesCollected, s)
  let voteMultiplier := (OneDec.Sub proposerMultiplier).Sub s.params.CommunityTax
  -- allocate tokens proportionally to voting power
  let (remaining, s) ← previousVotes.foldlM
    (fun (acc : Dec × State A) vote => do
      let (remaining, s) := acc
      let some validator := sk.GetValidatorByConsAddr vote.1 | throw .nilDereference
      let powerFraction := (ToDec vote.2).QuoTruncate (ToDec totalPreviousPower)
      let reward := (feesCollected.MulTruncate voteMultiplier).MulTruncate powerFraction
      let s ← s.AllocateTokensToValidator validator reward
      let remaining ← subCoins remaining reward
      pure (remaining, s))
    (remaining, s)
  return { s with communityPool := s.communityPool.Add remaining }

/-- Withdraw the rewards of a delegation and start tracking it anew. -/
def WithdrawDelegationRewards (ctx : Context P) (sk : Staking.State A P) (s : State A)
    (delAddr valAddr : A) : Except Failure (ℤ × State A) := do
  let some val := sk.GetValidator valAddr | throw (.error .ErrNoValidatorDistInfo)
  let some del := sk.GetDelegation delAddr valAddr | throw (.error .ErrNoDelegationDistInfo)
  let (rewards, s) ← s.withdrawDelegationRewards ctx val del
  -- reinitialize the delegation
  let s ← (s.initializeDelegation ctx sk valAddr delAddr).mapError .panic
  return (rewards, s)

/-- Withdraw the whole coins of a validator's commission, leaving the change. -/
def WithdrawValidatorCommission (s : State A) (valAddr : A) : Except Failure (ℤ × State A) := do
  let commission := s.GetValidatorAccumulatedCommission valAddr
  if commission.IsZero then throw (.error .ErrNoValidatorCommission)
  let (coins, remainder) := truncateDecimal commission
  let s := s.SetValidatorAccumulatedCommission valAddr remainder
  let outstanding ← (s.GetValidatorOutstandingRewards valAddr).mapError .panic
  let outstanding ← (subCoins outstanding (ToDec coins)).mapError .panic
  let s := s.SetValidatorOutstandingRewards valAddr outstanding
  let s := if coins ≠ 0 then s.AddCoins (s.GetDelegatorWithdrawAddr valAddr) coins else s
  return (coins, s)

end State

/-! ### Runs -/

variable {A P : Type} [LinearOrder A] [LinearOrder P]

/-- One step of the distribution state: a hook the staking keeper calls, the
allocation of a block's fees, or a withdrawal, each against the staking state
of the moment, and none of them panicking. -/
inductive Step : State A → State A → Prop
  | afterValidatorCreated (sk : Staking.State A P) {s s' : State A} (valAddr : A)
      (h : s.AfterValidatorCreated sk valAddr = .ok s') : Step s s'
  | afterValidatorRemoved {s s' : State A} (valAddr : A)
      (h : s.AfterValidatorRemoved valAddr = .ok s') : Step s s'
  | beforeDelegationCreated (sk : Staking.State A P) {s s' : State A} (valAddr : A)
      (h : s.BeforeDelegationCreated sk valAddr = .ok s') : Step s s'
  | beforeDelegationSharesModified (ctx : Context P) (sk : Staking.State A P) {s s' : State A}
      (delAddr valAddr : A) (h : s.BeforeDelegationSharesModified ctx sk delAddr valAddr = .ok s') :
      Step s s'
  | afterDelegationModified (ctx : Context P) (sk : Staking.State A P) {s s' : State A}
      (delAddr valAddr : A) (h : s.AfterDelegationModified ctx sk delAddr valAddr = .ok s') :
      Step s s'
  | beforeValidatorSlashed (ctx : Context P) (sk : Staking.State A P) {s s' : State A}
      (valAddr : A) (fraction : Dec)
      (h : s.BeforeValidatorSlashed ctx sk valAddr fraction = .ok s') : Step s s'
  | allocateTokens (sk : Staking.State A P) {s s' : State A} (sumPreviousPrecommitPower
      totalPreviousPower : ℤ) (previousProposer : P) (previousVotes : List (P × ℤ))
      (h : s.AllocateTokens sk sumPreviousPrecommitPower totalPreviousPower previousProposer
        previousVotes = .ok s') : Step s s'
  | withdrawDelegationRewards (ctx : Context P) (sk : Staking.State A P) {s s' : State A}
      (delAddr valAddr : A) (rewards : ℤ)
      (h : s.WithdrawDelegationRewards ctx sk delAddr valAddr = .ok (rewards, s')) : Step s s'
  | withdrawValidatorCommission {s s' : State A} (valAddr : A) (coins : ℤ)
      (h : s.WithdrawValidatorCommission valAddr = .ok (coins, s')) : Step s s'

/-- The distribution states reachable from s₀. -/
def Reachable (s₀ s : State A) : Prop := Relation.ReflTransGen (Step (P := P)) s₀ s

end Distribution
end ColorSdk
