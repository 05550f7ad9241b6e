import ColorSdk.Staking.Types
import ColorSdk.Lib.SortedKV
import Mathlib.Data.Prod.Lex
import Mathlib.Order.OrderDual

/-!
# The staking keeper

The store of the staking module and the keeper functions that change it, one
definition per Go function.  A delegator's tokens become shares of a validator
in `Delegate` and come back, through an unbonding delegation that matures in
the EndBlocker, in `unbond` and `Undelegate`; `BeginRedelegation` moves them
from one validator to another at once.  Color adds council members: whenever
`Delegate` leaves a delegator with at least `CouncilMemberMinCoin` shares in
total it records that total as the member's shares, and `unbond` removes the
member once its total falls below the minimum.

Validators are indexed three more times: by consensus address, by power (a key
made of the validator's tokens and its address, which every change of tokens
or of jailing has to move), and in the queue of unbonding validators.

The state also holds the bond-denomination balances of the bank, which
`Delegate` draws from and matured unbondings pay back to.  The hooks the keeper
calls (distribution, slashing) change no staking data and are left out here.

## Main definitions

* `State`, `Context`, the store accessors, `GetValidatorsByPowerIndexKey`.
* `AddValidatorTokensAndShares`, `RemoveValidatorTokensAndShares`,
  `RemoveValidatorTokens`, `RemoveValidator`.
* `jailValidator`, `unjailValidator`, `bondValidator`,
  `beginUnbondingValidator`, `completeUnbondingValidator`.
* `GetTotalDelegatorDelegations` and the council member functions.
* `Delegate`, `unbond`, `Undelegate`, `BeginRedelegation`,
  `CompleteUnbonding`, `CompleteRedelegation`, `ValidateUnbondAmount`.

## References

* src/x/staking/keeper/delegation.go, src/x/staking/keeper/validator.go,
  src/x/staking/keeper/val_state_change.go, src/x/staking/keeper/council.go,
  src/x/staking/keeper/query_utils.go, src/x/staking/keeper/key.go,
  src/x/bank/keeper.go
-/

namespace ColorSdk
namespace Staking

/-- Go's zero `time.Time`: January 1 of year 1, UTC. -/
def zeroTime : Time := -62135596800 * 10 ^ 9

/-- The height from which undelegating obeys the unbonding period whatever the
validator's status. -/
def UndelegatePatchHeight : ℤ := 482100

/-- What a keeper call reads from the block: its height and time, and the key
types the consensus parameters allow, when they are set. -/
structure Context (P : Type) where
  BlockHeight : ℤ
  BlockTime : Time
  ConsensusParams : Option (P → Bool)

/-- The staking store and the bank's balances of the bond denomination. -/
structure State (A P : Type) [LinearOrder A] [LinearOrder P] where
  pool : Pool
  params : Params
  lastTotalPower : ℤ
  validators : SortedKV A (Validator A P)
  validatorsByConsAddr : SortedKV P A
  /-- The power index: the key is the validator's tokens and its operator
  address with every byte inverted, so that equal powers list addresses in
  descending order. -/
  validatorsByPowerIndex : SortedKV (ℤ ×ₗ Aᵒᵈ) A
  lastValidatorPowers : SortedKV A ℤ
  /-- Delegations, keyed by delegator and validator. -/
  delegations : SortedKV (A ×ₗ A) (Delegation A)
  unbondingDelegations : SortedKV (A ×ₗ A) (UnbondingDelegation A)
  /-- Redelegations, keyed by delegator, source and destination. -/
  redelegations : SortedKV (A ×ₗ A ×ₗ A) (Redelegation A)
  ubdQueue : SortedKV Time (List (DVPair A))
  redelegationQueue : SortedKV Time (List (DVVTriplet A))
  validatorQueue : SortedKV Time (List A)
  councilMembers : SortedKV A (CouncilMember A)
  /-- The bank's balances of the bond denomination. -/
  coins : A → ℤ

/-- The power index key of a validator. -/
def GetValidatorsByPowerIndexKey {A P : Type} (validator : Validator A P) : ℤ ×ₗ Aᵒᵈ :=
  toLex (validator.Tokens, OrderDual.toDual validator.OperatorAddress)

namespace State

variable {A P : Type} [LinearOrder A] [LinearOrder P]

/-! ### Validators and their indexes -/

def GetValidator (s : State A P) (addr : A) : Option (Validator A P) := s.validators.get addr

def mustGetValidator (s : State A P) (addr : A) : Except Panic (Validator A P) :=
  match s.GetValidator addr with
  | some validator => .ok validator
  | none => .error .validatorRecordNotFound

def GetValidatorByConsAddr (s : State A P) (consAddr : P) : Option (Validator A P) :=
  (s.validatorsByConsAddr.get consAddr).bind s.GetValidator

def mustGetValidatorByConsAddr (s : State A P) (consAddr : P) : Except Panic (Validator A P) :=
  match s.GetValidatorByConsAddr consAddr with
  | some validator => .ok validator
  | none => .error .validatorByConsAddrNotFound

/-- Set the main record holding validator details. -/
def SetValidator (s : State A P) (validator : Validator A P) : State A P :=
  { s with validators := s.validators.set validator.OperatorAddress validator }

def SetValidatorByConsAddr (s : State A P) (validator : Validator A P) : State A P :=
  { s with validatorsByConsAddr :=
      s.validatorsByConsAddr.set validator.ConsPubKey validator.OperatorAddress }

/-- Jailed validators are not kept in the power index. -/
def SetValidatorByPowerIndex (s : State A P) (validator : Validator A P) : State A P :=
  if validator.Jailed then s
  else { s with validatorsByPowerIndex :=
    (s.validatorsByPowerIndex.set (GetValidatorsByPowerIndexKey validator) validator.OperatorAddress) }

/-- `SetValidatorByPowerIndex` writes the power index alone. -/
theorem SetValidatorByPowerIndex_eq (s : State A P) (validator : Validator A P) :
    s.SetValidatorByPowerIndex validator = { s with validatorsByPowerIndex :=
      (if validator.Jailed then s.validatorsByPowerIndex
      else s.validatorsByPowerIndex.set (GetValidatorsByPowerIndexKey validator)
        validator.OperatorAddress) } := by
  unfold SetValidatorByPowerIndex
  split <;> rfl

def DeleteValidatorByPowerIndex (s : State A P) (validator : Validator A P) : State A P :=
  { s with validatorsByPowerIndex :=
      s.validatorsByPowerIndex.delete (GetValidatorsByPowerIndexKey validator) }

def SetNewValidatorByPowerIndex (s : State A P) (validator : Validator A P) : State A P :=
  { s with validatorsByPowerIndex :=
      (s.validatorsByPowerIndex.set (GetValidatorsByPowerIndexKey validator) validator.OperatorAddress) }

def SetPool (s : State A P) (pool : Pool) : State A P := { s with pool := pool }

/-- Update the tokens of an existing validator, updating its power index key. -/
def AddValidatorTokensAndShares (s : State A P) (validator : Validator A P) (tokensToAdd : ℤ) :
    Except Panic (Validator A P × Dec × State A P) := do
  let s := s.DeleteValidatorByPowerIndex validator
  let (validator, pool, addedShares) ← validator.AddTokensFromDel s.pool tokensToAdd
  let s := s.SetValidator validator
  let s := s.SetPool pool
  let s := s.SetValidatorByPowerIndex validator
  return (validator, addedShares, s)

/-- Remove shares and their tokens from a validator, updating its power index
key. -/
def RemoveValidatorTokensAndShares (s : State A P) (validator : Validator A P)
    (sharesToRemove : Dec) : Except Panic (Validator A P × ℤ × State A P) := do
  let s := s.DeleteValidatorByPowerIndex validator
  let (validator, pool, removedTokens) ← validator.RemoveDelShares s.pool sharesToRemove
  let s := s.SetValidator validator
  let s := s.SetPool pool
  let s := s.SetValidatorByPowerIndex validator
  return (validator, removedTokens, s)

/-- Remove tokens from a validator, updating its power index key. -/
def RemoveValidatorTokens (s : State A P) (validator : Validator A P) (tokensToRemove : ℤ) :
    Except Panic (Validator A P × State A P) := do
  let s := s.DeleteValidatorByPowerIndex validator
  let (validator, pool) ← validator.RemoveTokens s.pool tokensToRemove
  let s := s.SetValidator validator
  let s := s.SetPool pool
  let s := s.SetValidatorByPowerIndex validator
  return (validator, s)

/-- Remove the validator record and associated indexes. -/
def RemoveValidator (s : State A P) (address : A) : Except Panic (State A P) :=
  match s.GetValidator address with
  | none => .ok s
  | some validator =>
    if validator.Status ≠ .Unbonded then .error .removeValidatorNotUnbonded
    else if 0 < validator.Tokens then .error .removeValidatorWithTokens
    -- Go checks the same condition a second time, with another message
    else if 0 < validator.Tokens then .error .removeValidatorWithTokens
    else .ok { s with
      validators := s.validators.delete address
      validatorsByConsAddr := s.validatorsByConsAddr.delete validator.ConsPubKey
      validatorsByPowerIndex :=
        s.validatorsByPowerIndex.delete (GetValidatorsByPowerIndexKey validator) }

/-! ### The last validator set -/

def SetLastValidatorPower (s : State A P) (operator : A) (power : ℤ) : State A P :=
  { s with lastValidatorPowers := s.lastValidatorPowers.set operator power }

def DeleteLastValidatorPower (s : State A P) (operator : A) : State A P :=
  { s with lastValidatorPowers := s.lastValidatorPowers.delete operator }

/-! ### The validator queue -/

def GetValidatorQueueTimeSlice (s : State A P) (timestamp : Time) : List A :=
  (s.validatorQueue.get timestamp).getD []

def SetValidatorQueueTimeSlice (s : State A P) (timestamp : Time) (keys : List A) : State A P :=
  { s with validatorQueue := s.validatorQueue.set timestamp keys }

def DeleteValidatorQueueTimeSlice (s : State A P) (timestamp : Time) : State A P :=
  { s with validatorQueue := s.validatorQueue.delete timestamp }

/-- Insert a validator address into its timeslice of the validator queue. -/
def InsertValidatorQueue (s : State A P) (val : Validator A P) : State A P :=
  let timeSlice := s.GetValidatorQueueTimeSlice val.UnbondingCompletionTime
  let keys := if timeSlice.isEmpty then [val.OperatorAddress] else timeSlice ++ [val.OperatorAddress]
  s.SetValidatorQueueTimeSlice val.UnbondingCompletionTime keys

/-- Delete a validator address from the validator queue. -/
def DeleteValidatorQueue (s : State A P) (val : Validator A P) : State A P :=
  let timeSlice := s.GetValidatorQueueTimeSlice val.UnbondingCompletionTime
  let newTimeSlice := timeSlice.filter fun addr => addr ≠ val.OperatorAddress
  if newTimeSlice.isEmpty then s.DeleteValidatorQueueTimeSlice val.UnbondingCompletionTime
  else s.SetValidatorQueueTimeSlice val.UnbondingCompletionTime newTimeSlice

/-- The timeslices of the validator queue up to endTime, inclusive. -/
def ValidatorQueueIterator (s : State A P) (endTime : Time) : List (Time × List A) :=
  s.validatorQueue.entries.filter fun e => decide (e.1 ≤ endTime)

/-! ### Validator state changes -/

/-- Send a validator to jail. -/
def jailValidator (s : State A P) (validator : Validator A P) : Except Panic (State A P) :=
  if validator.Jailed then .error .cannotJailJailed
  else
    let validator := { validator with Jailed := true }
    let s := s.SetValidator validator
    .ok (s.DeleteValidatorByPowerIndex validator)

/-- Remove a validator from jail. -/
def unjailValidator (s : State A P) (validator : Validator A P) : Except Panic (State A P) :=
  if !validator.Jailed then .error .cannotUnjailUnjailed
  else
    let validator := { validator with Jailed := false }
    let s := s.SetValidator validator
    .ok (s.SetValidatorByPowerIndex validator)

/-- All the store operations for when a validator becomes bonded. -/
def bondValidator (s : State A P) (validator : Validator A P) :
    Except Panic (Validator A P × State A P) := do
  -- delete the validator by power index, as the key will change
  let s := s.DeleteValidatorByPowerIndex validator
  let (validator, pool) ← validator.UpdateStatus s.pool .Bonded
  let s := s.SetPool pool
  let s := s.SetValidator validator
  let s := s.SetValidatorByPowerIndex validator
  -- delete from queue if present
  let s := s.DeleteValidatorQueue validator
  return (validator, s)

/-- All the store operations for when a validator begins unbonding. -/
def beginUnbondingValidator (ctx : Context P) (s : State A P) (validator : Validator A P) :
    Except Panic (Validator A P × State A P) := do
  let params := s.params
  let s := s.DeleteValidatorByPowerIndex validator
  if validator.Status ≠ .Bonded then throw .badStateTransition
  let (validator, pool) ← validator.UpdateStatus s.pool .Unbonding
  let s := s.SetPool pool
  let validator := { validator with
    UnbondingCompletionTime := ctx.BlockTime + params.UnbondingTime
    UnbondingHeight := ctx.BlockHeight }
  let s := s.SetValidator validator
  let s := s.SetValidatorByPowerIndex validator
  let s := s.InsertValidatorQueue validator
  return (validator, s)

/-- All the store operations for when a validator becomes unbonded. -/
def completeUnbondingValidator (s : State A P) (validator : Validator A P) :
    Except Panic (Validator A P × State A P) := do
  let (validator, pool) ← validator.UpdateStatus s.pool .Unbonded
  let s := s.SetPool pool
  return (validator, s.SetValidator validator)

def bondedToUnbonding (ctx : Context P) (s : State A P) (validator : Validator A P) :
    Except Panic (Validator A P × State A P) :=
  if validator.Status ≠ .Bonded then .error .badStateTransition
  else s.beginUnbondingValidator ctx validator

def unbondingToBonded (s : State A P) (validator : Validator A P) :
    Except Panic (Validator A P × State A P) :=
  if validator.Status ≠ .Unbonding then .error .badStateTransition
  else s.bondValidator validator

def unbondedToBonded (s : State A P) (validator : Validator A P) :
    Except Panic (Validator A P × State A P) :=
  if validator.Status ≠ .Unbonded then .error .badStateTransition
  else s.bondValidator validator

def unbondingToUnbonded (s : State A P) (validator : Validator A P) :
    Except Panic (Validator A P × State A P) :=
  if validator.Status ≠ .Unbonding then .error .badStateTransition
  else s.completeUnbondingValidator validator

/-! ### The bank -/

/-- `DelegateCoins`: the delegated coins leave the delegator's account. -/
def DelegateCoins (s : State A P) (addr : A) (amt : ℤ) : Except StakingError (State A P) :=
  if amt ≤ 0 then .error .ErrInvalidCoins
  else if s.coins addr < amt then .error .ErrInsufficientCoins
  else .ok { s with coins := Function.update s.coins addr (s.coins addr - amt) }

/-- `UndelegateCoins`: unbonded coins come back to the delegator's account. -/
def UndelegateCoins (s : State A P) (addr : A) (amt : ℤ) : Except StakingError (State A P) :=
  if amt ≤ 0 then .error .ErrInvalidCoins
  else .ok { s with coins := Function.update s.coins addr (s.coins addr + amt) }

/-- `UndelegateCoins` of `sdk.Coins{sdk.NewCoin(BondDenom, amt)}`: `NewCoin`
panics on a negative amount before the bank sees it. -/
def undelegateBalance (s : State A P) (addr : A) (amt : ℤ) : Except Failure (State A P) :=
  if amt < 0 then .error (.panic .negativeCoinAmount) else (s.UndelegateCoins addr amt).mapError .error

theorem undelegateBalance_eq_ok {s t : State A P} {addr : A} {amt : ℤ}
    (h : s.undelegateBalance addr amt = .ok t) : s.UndelegateCoins addr amt = .ok t := by
  unfold undelegateBalance at h
  split_ifs at h
  cases hu : s.UndelegateCoins addr amt <;> rw [hu] at h <;> cases h
  rfl

theorem undelegateBalance_of_neg (s : State A P) (addr : A) {amt : ℤ} (h : amt < 0) :
    s.undelegateBalance addr amt = .error (.panic .negativeCoinAmount) := by
  rw [undelegateBalance, if_pos h]

theorem undelegateBalance_of_pos (s : State A P) (addr : A) {amt : ℤ} (h : 0 < amt) :
    s.undelegateBalance addr amt = .ok { s with coins := Function.update s.coins addr (s.coins addr + amt) } := by
  rw [undelegateBalance, if_neg (by omega), UndelegateCoins, if_neg (by omega)]
  rfl

/-! ### Delegations -/

def GetDelegation (s : State A P) (delAddr valAddr : A) : Option (Delegation A) :=
  s.delegations.get (toLex (delAddr, valAddr))

def SetDelegation (s : State A P) (delegation : Delegation A) : State A P :=
  { s with delegations :=
      (s.delegations.set (toLex (delegation.DelegatorAddress, delegation.ValidatorAddress)) delegation) }

def RemoveDelegation (s : State A P) (delegation : Delegation A) : State A P :=
  { s with delegations :=
      (s.delegations.delete (toLex (delegation.DelegatorAddress, delegation.ValidatorAddress))) }

/-- The delegations of a delegator, in key order: Go iterates the prefix of the
delegator's address. -/
def GetDelegatorDelegations (s : State A P) (delegator : A) : List ((A ×ₗ A) × Delegation A) :=
  s.delegations.entries.filter fun e => decide ((ofLex e.1).1 = delegator)

/-- The total shares of a delegator's delegations. -/
def GetTotalDelegatorDelegations (s : State A P) (delegator : A) : Dec :=
  (s.GetDelegatorDelegations delegator).foldl (fun total e => total.Add e.2.Shares) ZeroDec

/-! ### Council members -/

def SetCouncilMember (s : State A P) (member : CouncilMember A) : State A P :=
  { s with councilMembers := s.councilMembers.set member.MemberAddress member }

def GetCouncilMember (s : State A P) (memAddr : A) : Option (CouncilMember A) :=
  s.councilMembers.get memAddr

/-- Sets new shares value of the council member; whether the member exists. -/
def SetCouncilMemberShares (s : State A P) (memAddr : A) (newVal : Dec) : State A P × Bool :=
  match s.GetCouncilMember memAddr with
  | some cm => (s.SetCouncilMember { cm with Shares := newVal }, true)
  | none => (s, false)

def DeleteCouncilMember (s : State A P) (memAddr : A) : State A P :=
  { s with councilMembers := s.councilMembers.delete memAddr }

/-- The shares of a council member, which gov's tally counts as its voting
power. -/
def GetCouncilMemberShares (s : State A P) (memAddr : A) : Dec × Bool :=
  match s.GetCouncilMember memAddr with
  | some cm => (cm.Shares, true)
  | none => (ZeroDec, false)

/-! ### Unbonding delegations and their queue -/

def GetUnbondingDelegation (s : State A P) (delAddr valAddr : A) :
    Option (UnbondingDelegation A) :=
  s.unbondingDelegations.get (toLex (delAddr, valAddr))

def SetUnbondingDelegation (s : State A P) (ubd : UnbondingDelegation A) : State A P :=
  { s with unbondingDelegations :=
      (s.unbondingDelegations.set (toLex (ubd.DelegatorAddress, ubd.ValidatorAddress)) ubd) }

def RemoveUnbondingDelegation (s : State A P) (ubd : UnbondingDelegation A) : State A P :=
  { s with unbondingDelegations :=
      (s.unbondingDelegations.delete (toLex (ubd.DelegatorAddress, ubd.ValidatorAddress))) }

/-- The unbonding delegations from a validator, by delegator: the order of the
index keyed by validator and delegator. -/
def GetUnbondingDelegationsFromValidator (s : State A P) (valAddr : A) :
    List (UnbondingDelegation A) :=
  (s.unbondingDelegations.entries.filter fun e => decide ((ofLex e.1).2 = valAddr)).map (·.2)

def HasMaxUnbondingDelegationEntries (s : State A P) (delegatorAddr validatorAddr : A) : Bool :=
  match s.GetUnbondingDelegation delegatorAddr validatorAddr with
  | none => false
  | some ubd => decide (s.params.MaxEntries ≤ ubd.Entries.length)

/-- Adds an entry to the unbonding delegation of a pair, creating it if it does
not exist. -/
def SetUnbondingDelegationEntry (s : State A P) (delegatorAddr validatorAddr : A)
    (creationHeight : ℤ) (minTime : Time) (balance : ℤ) : UnbondingDelegation A × State A P :=
  let entry := NewUnbondingDelegationEntry creationHeight minTime balance
  let ubd := match s.GetUnbondingDelegation delegatorAddr validatorAddr with
    | some ubd => { ubd with Entries := ubd.Entries ++ [entry] }
    | none => ⟨delegatorAddr, validatorAddr, [entry]⟩
  (ubd, s.SetUnbondingDelegation ubd)

def GetUBDQueueTimeSlice (s : State A P) (timestamp : Time) : List (DVPair A) :=
  (s.ubdQueue.get timestamp).getD []

def SetUBDQueueTimeSlice (s : State A P) (timestamp : Time) (keys : List (DVPair A)) :
    State A P :=
  { s with ubdQueue := s.ubdQueue.set timestamp keys }

/-- Insert an unbonding delegation into its timeslice of the unbonding queue. -/
def InsertUBDQueue (s : State A P) (ubd : UnbondingDelegation A) (completionTime : Time) :
    State A P :=
  let timeSlice := s.GetUBDQueueTimeSlice completionTime
  let dvPair : DVPair A := ⟨ubd.DelegatorAddress, ubd.ValidatorAddress⟩
  if timeSlice.isEmpty then s.SetUBDQueueTimeSlice completionTime [dvPair]
  else s.SetUBDQueueTimeSlice completionTime (timeSlice ++ [dvPair])

/-- `InsertUBDQueue` writes the unbonding queue alone. -/
theorem InsertUBDQueue_eq (s : State A P) (ubd : UnbondingDelegation A) (completionTime : Time) :
    s.InsertUBDQueue ubd completionTime = { s with ubdQueue := (s.ubdQueue.set completionTime
      (s.GetUBDQueueTimeSlice completionTime ++ [⟨ubd.DelegatorAddress, ubd.ValidatorAddress⟩])) } := by
  unfold InsertUBDQueue
  dsimp only
  split
  · rename_i hempty
    rw [List.isEmpty_iff] at hempty
    rw [hempty]
    rfl
  · rfl

/-- All the pairs of the unbonding queue up to currTime, inclusive, which are
deleted from the queue. -/
def DequeueAllMatureUBDQueue (s : State A P) (currTime : Time) : List (DVPair A) × State A P :=
  let mature := s.ubdQueue.entries.filter fun e => decide (e.1 ≤ currTime)
  (mature.flatMap (·.2),
   { s with ubdQueue := mature.foldl (fun q e => q.delete e.1) s.ubdQueue })

/-! ### Redelegations and their queue -/

def GetRedelegation (s : State A P) (delAddr valSrcAddr valDstAddr : A) :
    Option (Redelegation A) :=
  s.redelegations.get (toLex (delAddr, toLex (valSrcAddr, valDstAddr)))

def SetRedelegation (s : State A P) (red : Redelegation A) : State A P :=
  { s with redelegations := (s.redelegations.set
      (toLex (red.DelegatorAddress, toLex (red.ValidatorSrcAddress, red.ValidatorDstAddress))) red) }

def RemoveRedelegation (s : State A P) (red : Redelegation A) : State A P :=
  { s with redelegations := (s.redelegations.delete
      (toLex (red.DelegatorAddress, toLex (red.ValidatorSrcAddress, red.ValidatorDstAddress)))) }

/-- The redelegations from a validator, by delegator and destination: the
order of the index keyed by source, delegator and destination. -/
def GetRedelegationsFromValidator (s : State A P) (valAddr : A) : List (Redelegation A) :=
  (s.redelegations.entries.filter fun e => decide (e.2.ValidatorSrcAddress = valAddr)).map (·.2)

/-- Whether a validator is receiving a redelegation from the delegator. -/
def HasReceivingRedelegation (s : State A P) (delAddr valDstAddr : A) : Bool :=
  s.redelegations.entries.any fun e =>
    e.2.DelegatorAddress = delAddr && e.2.ValidatorDstAddress = valDstAddr

def HasMaxRedelegationEntries (s : State A P) (delegatorAddr validatorSrcAddr
    validatorDstAddr : A) : Bool :=
  match s.GetRedelegation delegatorAddr validatorSrcAddr validatorDstAddr with
  | none => false
  | some red => decide (s.params.MaxEntries ≤ red.Entries.length)

/-- Adds an entry to the redelegation of a trio, creating it if it does not
exist. -/
def SetRedelegationEntry (s : State A P) (delegatorAddr validatorSrcAddr validatorDstAddr : A)
    (creationHeight : ℤ) (minTime : Time) (balance : ℤ) (sharesDst : Dec) :
    Redelegation A × State A P :=
  let entry : RedelegationEntry := ⟨creationHeight, minTime, balance, sharesDst⟩
  let red := match s.GetRedelegation delegatorAddr validatorSrcAddr validatorDstAddr with
    | some red => { red with Entries := red.Entries ++ [entry] }
    | none => ⟨delegatorAddr, validatorSrcAddr, validatorDstAddr, [entry]⟩
  (red, s.SetRedelegation red)

def GetRedelegationQueueTimeSlice (s : State A P) (timestamp : Time) : List (DVVTriplet A) :=
  (s.redelegationQueue.get timestamp).getD []

def SetRedelegationQueueTimeSlice (s : State A P) (timestamp : Time)
    (keys : List (DVVTriplet A)) : State A P :=
  { s with redelegationQueue := s.redelegationQueue.set timestamp keys }

/-- Insert a redelegation into its timeslice of the redelegation queue. -/
def InsertRedelegationQueue (s : State A P) (red : Redelegation A) (completionTime : Time) :
    State A P :=
  let timeSlice := s.GetRedelegationQueueTimeSlice completionTime
  let dvvTriplet : DVVTriplet A :=
    ⟨red.DelegatorAddress, red.ValidatorSrcAddress, red.ValidatorDstAddress⟩
  if timeSlice.isEmpty then s.SetRedelegationQueueTimeSlice completionTime [dvvTriplet]
  else s.SetRedelegationQueueTimeSlice completionTime (timeSlice ++ [dvvTriplet])

/-- `InsertRedelegationQueue` writes the redelegation queue alone. -/
theorem InsertRedelegationQueue_eq (s : State A P) (red : Redelegation A) (completionTime : Time) :
    s.InsertRedelegationQueue red completionTime = { s with redelegationQueue :=
      (s.redelegationQueue.set completionTime (s.GetRedelegationQueueTimeSlice completionTime ++
        [⟨red.DelegatorAddress, red.ValidatorSrcAddress, red.ValidatorDstAddress⟩])) } := by
  unfold InsertRedelegationQueue
  dsimp only
  split
  · rename_i hempty
    rw [List.isEmpty_iff] at hempty
    rw [hempty]
    rfl
  · rfl

/-- All the triplets of the redelegation queue up to currTime, inclusive,
which are deleted from the queue. -/
def DequeueAllMatureRedelegationQueue (s : State A P) (currTime : Time) :
    List (DVVTriplet A) × State A P :=
  let mature := s.redelegationQueue.entries.filter fun e => decide (e.1 ≤ currTime)
  (mature.flatMap (·.2),
   { s with redelegationQueue := mature.foldl (fun q e => q.delete e.1) s.redelegationQueue })

/-! ### Delegating and unbonding -/

/-- Perform a delegation, and add or update the delegator's council member
record. -/
def Delegate (s : State A P) (delAddr : A) (bondAmt : ℤ) (validator : Validator A P)
    (subtractAccount : Bool) : Except Failure (Dec × State A P) := do
  -- when the validator has lost all its tokens the exchange rate is invalid
  if validator.InvalidExRate then throw (.error .ErrDelegatorShareExRateInvalid)
  -- get or create the delegation object
  let delegation := (s.GetDelegation delAddr validator.OperatorAddress).getD
    ⟨delAddr, validator.OperatorAddress, ZeroDec⟩
  let s ← if subtractAccount then
      (s.DelegateCoins delegation.DelegatorAddress bondAmt).mapError .error
    else pure s
  let (_, newShares, s) ← (s.AddValidatorTokensAndShares validator bondAmt).mapError .panic
  let delegation := { delegation with Shares := delegation.Shares.Add newShares }
  let s := s.SetDelegation delegation
  -- add or update the council member
  let totalDelegation := s.GetTotalDelegatorDelegations delAddr
  let params := s.params
  let s :=
    if totalDelegation.GTE params.CouncilMemberMinCoin then
      if (s.GetCouncilMember delAddr).isSome then (s.SetCouncilMemberShares delAddr totalDelegation).1
      else s.SetCouncilMember ⟨delAddr, s.GetTotalDelegatorDelegations delAddr⟩
    else s
  return (newShares, s)

/-- Unbond shares of a delegation; remove the delegator's council member record
when its total falls below the minimum. -/
def unbond (s : State A P) (delAddr valAddr : A) (shares : Dec) :
    Except Failure (ℤ × State A P) := do
  let some delegation := s.GetDelegation delAddr valAddr
    | throw (.error .ErrNoDelegatorForAddress)
  -- ensure that we have enough shares to remove
  if delegation.Shares.LT shares then
    throw (.error (.ErrNotEnoughDelegationShares delegation.Shares))
  let some validator := s.GetValidator valAddr
    | throw (.error .ErrNoValidatorFound)
  let delegation := { delegation with Shares := delegation.Shares.Sub shares }
  let isValidatorOperator := decide (delegation.DelegatorAddress = validator.OperatorAddress)
  -- jail the operator whose self-delegation falls below its minimum
  let (validator, s) ←
    if isValidatorOperator && !validator.Jailed &&
        decide ((validator.TokensFromShares delegation.Shares).TruncateInt <
          validator.MinSelfDelegation) then
      (do
        let s ← s.jailValidator validator
        let validator ← s.mustGetValidator validator.OperatorAddress
        pure (validator, s)).mapError .panic
    else pure (validator, s)
  let s := if delegation.Shares.IsZero then s.RemoveDelegation delegation
    else s.SetDelegation delegation
  let (validator, amount, s) ←
    (s.RemoveValidatorTokensAndShares validator shares).mapError .panic
  -- a validator that is not unbonded is removed by the EndBlocker instead
  let s ← if validator.DelegatorShares.IsZero && validator.Status = .Unbonded then
      (s.RemoveValidator validator.OperatorAddress).mapError .panic
    else pure s
  let totalDelegation := s.GetTotalDelegatorDelegations delAddr
  let params := s.params
  let s := if totalDelegation.LT params.CouncilMemberMinCoin then s.DeleteCouncilMember delAddr
    else s
  return (amount, s)

/-- The completion time and height of a redelegation from a validator, and
whether it completes at once. -/
def getBeginInfo (ctx : Context P) (s : State A P) (valSrcAddr : A) : Time × ℤ × Bool :=
  match s.GetValidator valSrcAddr with
  | some validator =>
    match validator.Status with
    | .Bonded => (ctx.BlockTime + s.params.UnbondingTime, ctx.BlockHeight, false)
    | .Unbonded => (zeroTime, 0, true)
    | .Unbonding => (validator.UnbondingCompletionTime, validator.UnbondingHeight, false)
  | none => (ctx.BlockTime + s.params.UnbondingTime, ctx.BlockHeight, false)

/-- Unbond shares of a delegation into an unbonding delegation that matures
after the unbonding period; before `UndelegatePatchHeight`, shares of an
unbonded validator come back at once. -/
def Undelegate (ctx : Context P) (s : State A P) (delAddr valAddr : A) (sharesAmount : Dec) :
    Except Failure (Time × State A P) := do
  if ctx.BlockHeight < UndelegatePatchHeight then
    let (completionTime, height, completeNow) := s.getBeginInfo ctx valAddr
    let (returnAmount, s) ← s.unbond delAddr valAddr sharesAmount
    -- `sdk.NewCoin` of the amount panics on a negative one
    if returnAmount < 0 then throw (.panic .negativeCoinAmount)
    if completeNow then
      -- no need to create the unbonding delegation, just complete now
      let s ← if returnAmount ≠ 0 then (s.UndelegateCoins delAddr returnAmount).mapError .error
        else pure s
      return (completionTime, s)
    if s.HasMaxUnbondingDelegationEntries delAddr valAddr then
      throw (.error .ErrMaxUnbondingDelegationEntries)
    let (ubd, s) := s.SetUnbondingDelegationEntry delAddr valAddr height completionTime returnAmount
    return (completionTime, s.InsertUBDQueue ubd completionTime)
  else
    let (returnAmount, s) ← s.unbond delAddr valAddr sharesAmount
    if s.HasMaxUnbondingDelegationEntries delAddr valAddr then
      throw (.error .ErrMaxUnbondingDelegationEntries)
    let completionTime := ctx.BlockTime + s.params.UnbondingTime
    let (ubd, s) :=
      s.SetUnbondingDelegationEntry delAddr valAddr ctx.BlockHeight completionTime returnAmount
    return (completionTime, s.InsertUBDQueue ubd completionTime)

/-- Pay out the mature entries of an unbonding delegation; it is removed once no
entry is left. -/
def CompleteUnbonding (ctx : Context P) (s : State A P) (delAddr valAddr : A) :
    Except Failure (State A P) := do
  let some ubd := s.GetUnbondingDelegation delAddr valAddr | throw (.error .ErrNoUnbondingDelegation)
  let step := fun (acc : List UnbondingDelegationEntry × State A P) entry =>
    let (kept, s) := acc
    if entry.IsMature ctx.BlockTime then
      -- track undelegation only when remaining or truncated shares are non-zero
      if entry.Balance ≠ 0 then (kept, ·) <$> s.undelegateBalance ubd.DelegatorAddress entry.Balance
      else pure (kept, s)
    else pure (kept ++ [entry], s)
  let (entries, s) ← ubd.Entries.foldlM step ([], s)
  let ubd := { ubd with Entries := entries }
  return if entries.isEmpty then s.RemoveUnbondingDelegation ubd else s.SetUnbondingDelegation ubd

/-- Begin a redelegation: unbond from the source and delegate the tokens to the
destination, recording the redelegation unless the source is unbonded. -/
def BeginRedelegation (ctx : Context P) (s : State A P) (delAddr valSrcAddr valDstAddr : A)
    (sharesAmount : Dec) : Except Failure (Time × State A P) := do
  if valSrcAddr = valDstAddr then throw (.error .ErrSelfRedelegation)
  -- check if this is a transitive redelegation
  if s.HasReceivingRedelegation delAddr valSrcAddr then throw (.error .ErrTransitiveRedelegation)
  if s.HasMaxRedelegationEntries delAddr valSrcAddr valDstAddr then
    throw (.error .ErrMaxRedelegationEntries)
  let (returnAmount, s) ← s.unbond delAddr valSrcAddr sharesAmount
  if returnAmount = 0 then throw (.error .ErrVerySmallRedelegation)
  let some dstValidator := s.GetValidator valDstAddr | throw (.error .ErrBadRedelegationDst)
  let (sharesCreated, s) ← s.Delegate delAddr returnAmount dstValidator false
  let (completionTime, height, completeNow) := s.getBeginInfo ctx valSrcAddr
  -- no need to create the redelegation object
  if completeNow then return (completionTime, s)
  let (red, s) := s.SetRedelegationEntry delAddr valSrcAddr valDstAddr height completionTime
    returnAmount sharesCreated
  return (completionTime, s.InsertRedelegationQueue red completionTime)

/-- Drop the mature entries of a redelegation; it is removed once no entry is
left. -/
def CompleteRedelegation (ctx : Context P) (s : State A P) (delAddr valSrcAddr valDstAddr : A) :
    Except StakingError (State A P) := do
  let some red := s.GetRedelegation delAddr valSrcAddr valDstAddr | throw .ErrNoRedelegation
  let red := { red with Entries := red.Entries.filter fun entry => !entry.IsMature ctx.BlockTime }
  return if red.Entries.isEmpty then s.RemoveRedelegation red else s.SetRedelegation red

/-- The shares to unbond for an amount of tokens, capped at the delegation's
shares. -/
def ValidateUnbondAmount (s : State A P) (delAddr valAddr : A) (amt : ℤ) :
    Except StakingError Dec := do
  let some validator := s.GetValidator valAddr | throw .ErrNoValidatorFound
  let some del := s.GetDelegation delAddr valAddr | throw .ErrNoDelegation
  let shares ← validator.SharesFromTokens amt
  let sharesTruncated ← validator.SharesFromTokensTruncated amt
  let delShares := del.Shares
  if sharesTruncated.GT delShares then throw .ErrBadSharesAmount
  -- cap the shares at the delegation's shares, which rounding could exceed
  return if shares.GT delShares then delShares else shares

end State

end Staking
end ColorSdk
