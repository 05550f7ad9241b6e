import ColorSdk.Staking.Keeper
import Mathlib.Logic.Relation

/-!
# Staking messages, slashing and the EndBlocker

The four messages of the staking module that move stake (creating a validator,
delegating, undelegating, redelegating), the keeper functions the slashing
module calls (`Slash`, `Jail`, `Unjail`), and the EndBlocker, which applies the
new validator set, unbonds the mature unbonding validators and completes the
mature unbonding delegations and redelegations.

A transaction runs its message on a copy of the store: when the handler fails,
with an error or a panic, nothing it wrote is kept.  `Step` is one transaction,
one call of the slashing module, or one EndBlocker.

## Main definitions

* `Msg`, `Msg.ValidateBasic`, the handlers and `DeliverMsg`.
* `slashUnbondingDelegation`, `slashRedelegation`, `Slash`, `Jail`, `Unjail`.
* `ApplyAndReturnValidatorSetUpdates`, `UnbondAllMatureValidatorQueue`,
  `EndBlocker`.
* `Step`, `Reachable`.

## References

* src/x/staking/handler.go, src/x/staking/types/msg.go,
  src/x/staking/keeper/slash.go, src/x/staking/keeper/val_state_change.go,
  src/x/staking/keeper/validator.go
-/

namespace ColorSdk
namespace Staking

/-! ### Messages -/

/-- The commission a new validator asks for. -/
structure CommissionMsg where
  Rate : Dec
  MaxRate : Dec
  MaxChangeRate : Dec
  deriving DecidableEq, Repr

inductive Msg (A P : Type)
  | MsgCreateValidator (Description : Description) (Commission : CommissionMsg)
      (MinSelfDelegation : ℤ) (DelegatorAddress ValidatorAddress : A) (PubKey : P) (Value : Coin)
  | MsgDelegate (DelegatorAddress ValidatorAddress : A) (Amount : Coin)
  | MsgBeginRedelegate (DelegatorAddress ValidatorSrcAddress ValidatorDstAddress : A)
      (Amount : Coin)
  | MsgUndelegate (DelegatorAddress ValidatorAddress : A) (Amount : Coin)
  deriving DecidableEq, Repr

namespace Msg

variable {A P : Type} [DecidableEq A]

/-- The stateless checks of a message.  Go's emptiness checks of addresses
have no counterpart here; its check that the commission was included compares
the message's decimal pointers with nil ones, which a decoded message never
has, and is left out. -/
def ValidateBasic : Msg A P → Option StakingError
  | MsgCreateValidator description _ minSelfDelegation delegatorAddress validatorAddress _ value =>
    if validatorAddress ≠ delegatorAddress then some .ErrBadValidatorAddr
    else if value.Amount ≤ 0 then some .ErrBadDelegationAmount
    else if description = ⟨"", "", "", ""⟩ then some (.ErrInvalidInput "description must be included")
    else if minSelfDelegation ≤ 0 then some .ErrMinSelfDelegationInvalid
    else if value.Amount < minSelfDelegation then some .ErrSelfDelegationBelowMinimum
    else none
  | MsgDelegate _ _ amount =>
    if amount.Amount ≤ 0 then some .ErrBadDelegationAmount else none
  | MsgBeginRedelegate _ _ _ amount =>
    if amount.Amount ≤ 0 then some .ErrBadSharesAmount else none
  | MsgUndelegate _ _ amount =>
    if amount.Amount ≤ 0 then some .ErrBadSharesAmount else none

end Msg

namespace State

variable {A P : Type} [LinearOrder A] [LinearOrder P]

/-! ### Handlers -/

def handleMsgCreateValidator (ctx : Context P) (s : State A P) (description : Description)
    (commissionMsg : CommissionMsg) (minSelfDelegation : ℤ) (delegatorAddress validatorAddress : A)
    (pubKey : P) (value : Coin) : Except Failure (State A P) := do
  -- check to see if the pubkey or sender has been registered before
  if (s.GetValidator validatorAddress).isSome then throw (.error .ErrValidatorOwnerExists)
  if (s.GetValidatorByConsAddr pubKey).isSome then throw (.error .ErrValidatorPubKeyExists)
  if value.Denom ≠ s.params.BondDenom then throw (.error .ErrBadDenom)
  if let some err := description.EnsureLength then throw (.error err)
  if let some pubKeyTypeSupported := ctx.ConsensusParams then
    if !pubKeyTypeSupported pubKey then throw (.error .ErrValidatorPubKeyTypeNotSupported)
  let commission : Commission :=
    ⟨commissionMsg.Rate, commissionMsg.MaxRate, commissionMsg.MaxChangeRate, ctx.BlockTime⟩
  if let some err := commission.Validate then throw (.error err)
  let validator := { NewValidator validatorAddress pubKey with
    Commission := commission
    MinSelfDelegation := minSelfDelegation }
  let s := s.SetValidator validator
  let s := s.SetValidatorByConsAddr validator
  let s := s.SetNewValidatorByPowerIndex validator
  -- move coins from the delegator's account to a self-delegation
  let (_, s) ← s.Delegate delegatorAddress value.Amount validator true
  return s

def handleMsgDelegate (s : State A P) (delegatorAddress validatorAddress : A) (amount : Coin) :
    Except Failure (State A P) := do
  let some validator := s.GetValidator validatorAddress | throw (.error .ErrNoValidatorFound)
  if amount.Denom ≠ s.params.BondDenom then throw (.error .ErrBadDenom)
  let (_, s) ← s.Delegate delegatorAddress amount.Amount validator true
  return s

def handleMsgUndelegate (ctx : Context P) (s : State A P) (delegatorAddress validatorAddress : A)
    (amount : Coin) : Except Failure (State A P) := do
  let shares ← (s.ValidateUnbondAmount delegatorAddress validatorAddress amount.Amount).mapError .error
  let (_, s) ← s.Undelegate ctx delegatorAddress validatorAddress shares
  return s

def handleMsgBeginRedelegate (ctx : Context P) (s : State A P)
    (delegatorAddress validatorSrcAddress validatorDstAddress : A) (amount : Coin) :
    Except Failure (State A P) := do
  let shares ←
    (s.ValidateUnbondAmount delegatorAddress validatorSrcAddress amount.Amount).mapError .error
  let (_, s) ←
    s.BeginRedelegation ctx delegatorAddress validatorSrcAddress validatorDstAddress shares
  return s

/-- Route a message to its handler. -/
def handle (ctx : Context P) (s : State A P) : Msg A P → Except Failure (State A P)
  | .MsgCreateValidator description commission minSelfDelegation delegatorAddress
      validatorAddress pubKey value =>
    s.handleMsgCreateValidator ctx description commission minSelfDelegation delegatorAddress
      validatorAddress pubKey value
  | .MsgDelegate delegatorAddress validatorAddress amount =>
    s.handleMsgDelegate delegatorAddress validatorAddress amount
  | .MsgBeginRedelegate delegatorAddress validatorSrcAddress validatorDstAddress amount =>
    s.handleMsgBeginRedelegate ctx delegatorAddress validatorSrcAddress validatorDstAddress amount
  | .MsgUndelegate delegatorAddress validatorAddress amount =>
    s.handleMsgUndelegate ctx delegatorAddress validatorAddress amount

/-- A transaction of one message: its stateless checks, then its handler on a
copy of the store, which is kept only when the handler succeeds. -/
def DeliverMsg (ctx : Context P) (s : State A P) (msg : Msg A P) : State A P :=
  if msg.ValidateBasic.isSome then s
  else match s.handle ctx msg with
    | .ok s' => s'
    | .error _ => s

/-! ### Slashing -/

/-- Slash the entries of an unbonding delegation that began at or after the
infraction, burning from the not-bonded pool; the amount that would have been
slashed had each entry enough left. -/
def slashUnbondingDelegation (ctx : Context P) (s : State A P)
    (unbondingDelegation : UnbondingDelegation A) (infractionHeight : ℤ) (slashFactor : Dec) :
    ℤ × State A P :=
  let now := ctx.BlockTime
  let step := fun (acc : ℤ × List UnbondingDelegationEntry × State A P)
      (entry : UnbondingDelegationEntry) =>
    let (totalSlashAmount, done, s) := acc
    -- if unbonding started before this height, stake didn't contribute to infraction
    if entry.CreationHeight < infractionHeight then (totalSlashAmount, done ++ [entry], s)
    else if entry.IsMature now then (totalSlashAmount, done ++ [entry], s)
    else
      let slashAmountDec := slashFactor.MulInt entry.InitialBalance
      let slashAmount := slashAmountDec.TruncateInt
      let totalSlashAmount := totalSlashAmount + slashAmount
      -- don't slash more tokens than held
      let unbondingSlashAmount := MinInt slashAmount entry.Balance
      if unbondingSlashAmount = 0 then (totalSlashAmount, done ++ [entry], s)
      else
        let entry := { entry with Balance := entry.Balance - unbondingSlashAmount }
        let ubd := { unbondingDelegation with
          Entries := (done ++ [entry] ++ unbondingDelegation.Entries.drop (done.length + 1)) }
        let s := s.SetUnbondingDelegation ubd
        -- burn not-bonded tokens
        let s := s.SetPool { s.pool with NotBondedTokens := s.pool.NotBondedTokens - unbondingSlashAmount }
        (totalSlashAmount, done ++ [entry], s)
  let (totalSlashAmount, _, s) := unbondingDelegation.Entries.foldl step (0, [], s)
  (totalSlashAmount, s)

/-- Slash the entries of a redelegation that began at or after the infraction,
unbonding the redelegated shares from the destination and burning their
tokens. -/
def slashRedelegation (ctx : Context P) (s : State A P) (redelegation : Redelegation A)
    (infractionHeight : ℤ) (slashFactor : Dec) : Except Panic (ℤ × State A P) :=
  let now := ctx.BlockTime
  let step := fun (acc : ℤ × State A P) (entry : RedelegationEntry) =>
    let (totalSlashAmount, s) := acc
    if entry.CreationHeight < infractionHeight then pure (totalSlashAmount, s)
    else if entry.IsMature now then pure (totalSlashAmount, s)
    else
      let slashAmountDec := slashFactor.MulInt entry.InitialBalance
      let slashAmount := slashAmountDec.TruncateInt
      let totalSlashAmount := totalSlashAmount + slashAmount
      -- unbond from the destination validator
      let sharesToUnbond := slashFactor.Mul entry.SharesDst
      if sharesToUnbond.IsZero then pure (totalSlashAmount, s)
      else
        match s.GetDelegation redelegation.DelegatorAddress redelegation.ValidatorDstAddress with
        -- if deleted, the delegation has zero shares and we can't unbond any more
        | none => pure (totalSlashAmount, s)
        | some delegation =>
          let sharesToUnbond :=
            if sharesToUnbond.GT delegation.Shares then delegation.Shares else sharesToUnbond
          match s.unbond redelegation.DelegatorAddress redelegation.ValidatorDstAddress
              sharesToUnbond with
          | .error (.error err) => throw (.errorUnbondingDelegator err)
          | .error (.panic p) => throw p
          | .ok (tokensToBurn, s) =>
            -- burn not-bonded tokens
            let s := s.SetPool
              { s.pool with NotBondedTokens := s.pool.NotBondedTokens - tokensToBurn }
            pure (totalSlashAmount, s)
  redelegation.Entries.foldlM step (0, s)

/-- Slash a validator for an infraction committed at a known height: burn the
slash factor of its stake at that height, from the unbonding delegations and
redelegations that began since, and the rest from the validator. -/
def Slash (ctx : Context P) (s : State A P) (consAddr : P) (infractionHeight power : ℤ)
    (slashFactor : Dec) : Except Panic (State A P) := do
  if slashFactor.LT ZeroDec then throw .negativeSlashFactor
  -- amount of slashing = slash slashFactor * power at time of infraction
  let amount := TokensFromTendermintPower power
  let slashAmountDec := (ToDec amount).Mul slashFactor
  let slashAmount := slashAmountDec.TruncateInt
  -- a validator that is not found has been overslashed and removed
  let some validator := s.GetValidatorByConsAddr consAddr | return s
  if validator.Status = .Unbonded then throw .slashingUnbondedValidator
  let operatorAddress := validator.OperatorAddress
  if ctx.BlockHeight < infractionHeight then throw .futureInfraction
  let (remainingSlashAmount, s) ←
    if infractionHeight < ctx.BlockHeight then do
      -- iterate through unbonding delegations from the slashed validator
      let (remainingSlashAmount, s) :=
        (s.GetUnbondingDelegationsFromValidator operatorAddress).foldl
          (fun (acc : ℤ × State A P) unbondingDelegation =>
            let (remainingSlashAmount, s) := acc
            let (amountSlashed, s) :=
              s.slashUnbondingDelegation ctx unbondingDelegation infractionHeight slashFactor
            (remainingSlashAmount - amountSlashed, s))
          (slashAmount, s)
      -- iterate through redelegations from the slashed validator
      (s.GetRedelegationsFromValidator operatorAddress).foldlM
        (fun (acc : ℤ × State A P) redelegation => do
          let (remainingSlashAmount, s) := acc
          let (amountSlashed, s) ←
            s.slashRedelegation ctx redelegation infractionHeight slashFactor
          -- Go skips a zero amount, which subtracts nothing
          pure (remainingSlashAmount - amountSlashed, s))
        (remainingSlashAmount, s)
    else
      -- special-case slash at the current height: no unbondings to look through
      pure (slashAmount, s)
  -- cannot decrease balance below zero
  let tokensToBurn := MinInt remainingSlashAmount validator.Tokens
  let tokensToBurn := MaxInt tokensToBurn 0
  -- deduct from the validator's tokens; they are returned to the not-bonded pool
  let (_, s) ← s.RemoveValidatorTokens validator tokensToBurn
  -- burn the slashed tokens, which are now loose
  return s.SetPool { s.pool with NotBondedTokens := s.pool.NotBondedTokens - tokensToBurn }

/-- Jail a validator. -/
def Jail (s : State A P) (consAddr : P) : Except Panic (State A P) := do
  let validator ← s.mustGetValidatorByConsAddr consAddr
  s.jailValidator validator

/-- Unjail a validator. -/
def Unjail (s : State A P) (consAddr : P) : Except Panic (State A P) := do
  let validator ← s.mustGetValidatorByConsAddr consAddr
  s.unjailValidator validator

/-! ### The EndBlocker -/

/-- What `ApplyAndReturnValidatorSetUpdates` carries through its loop over the
power index. -/
structure ApplyAcc (A P : Type) [LinearOrder A] [LinearOrder P] where
  s : State A P
  /-- The last validator set, less the validators seen so far. -/
  last : SortedKV A ℤ
  updates : List (P × ℤ)
  count : ℕ
  totalPower : ℤ

/-- The loop over the power index, highest power first: bond each validator
with power, up to the maximum number of validators. -/
def applyPowerIndex (maxValidators : ℕ) : List ((ℤ ×ₗ Aᵒᵈ) × A) → ApplyAcc A P →
    Except Panic (ApplyAcc A P)
  | [], acc => .ok acc
  | (_, valAddr) :: rest, acc =>
    if maxValidators ≤ acc.count then .ok acc
    else do
      let validator ← acc.s.mustGetValidator valAddr
      if validator.Jailed then throw .jailedValidatorInPowerStore
      -- a zero-power validator ends the bonded validators
      if validator.PotentialTendermintPower = 0 then return acc
      let (validator, s) ← match validator.Status with
        | .Unbonded => acc.s.unbondedToBonded validator
        | .Unbonding => acc.s.unbondingToBonded validator
        | .Bonded => pure (validator, acc.s)
      let newPower := validator.TendermintPower
      -- update the validator set if the power has changed
      let (updates, s) :=
        if acc.last.get valAddr = some newPower then (acc.updates, s)
        else (acc.updates ++ [(validator.ConsPubKey, newPower)],
          s.SetLastValidatorPower valAddr newPower)
      applyPowerIndex maxValidators rest
        ⟨s, acc.last.delete valAddr, updates, acc.count + 1, acc.totalPower + newPower⟩

/-- Apply and return the accumulated updates to the bonded validator set. -/
def ApplyAndReturnValidatorSetUpdates (ctx : Context P) (s : State A P) :
    Except Panic (List (P × ℤ) × State A P) := do
  let maxValidators := s.params.MaxValidators
  let acc ← applyPowerIndex maxValidators s.validatorsByPowerIndex.entries.reverse
    ⟨s, s.lastValidatorPowers, [], 0, 0⟩
  -- the no-longer-bonded validators, sorted by address
  let (updates, s) ← acc.last.entries.foldlM
    (fun (acc : List (P × ℤ) × State A P) e => do
      let (updates, s) := acc
      let validator ← s.mustGetValidator e.1
      let (_, s) ← s.bondedToUnbonding ctx validator
      let s := s.DeleteLastValidatorPower e.1
      pure (updates ++ [(validator.ConsPubKey, 0)], s))
    (acc.updates, acc.s)
  let s := if updates.isEmpty then s else { s with lastTotalPower := acc.totalPower }
  return (updates, s)

/-- Unbond all the unbonding validators that have finished their unbonding
period, removing those without shares. -/
def UnbondAllMatureValidatorQueue (ctx : Context P) (s : State A P) :
    Except Panic (State A P) :=
  (s.ValidatorQueueIterator ctx.BlockTime).foldlM
    (fun (s : State A P) timeslice => do
      let s ← timeslice.2.foldlM
        (fun (s : State A P) valAddr => do
          let some val := s.GetValidator valAddr | throw .validatorInQueueNotFound
          if val.Status ≠ .Unbonding then throw .unexpectedValidatorInQueue
          let (_, s) ← s.unbondingToUnbonded val
          if val.DelegatorShares.IsZero then s.RemoveValidator val.OperatorAddress else pure s)
        s
      pure { s with validatorQueue := s.validatorQueue.delete timeslice.1 })
    s

/-- Called every block: update the validator set, then complete what has
matured. -/
def EndBlocker (ctx : Context P) (s : State A P) : Except Panic (List (P × ℤ) × State A P) := do
  let (validatorUpdates, s) ← s.ApplyAndReturnValidatorSetUpdates ctx
  let s ← s.UnbondAllMatureValidatorQueue ctx
  -- remove all mature unbonding delegations from the unbonding queue
  let (matureUnbonds, s) := s.DequeueAllMatureUBDQueue ctx.BlockTime
  let s ← matureUnbonds.foldlM (fun s dvPair =>
    match s.CompleteUnbonding ctx dvPair.DelegatorAddress dvPair.ValidatorAddress with
    | .ok s => pure s
    | .error (.error _) => pure s
    -- a panic, `sdk.NewCoin`'s, is not recovered
    | .error (.panic p) => throw p) s
  -- remove all mature redelegations from the redelegation queue
  let (matureRedelegations, s) := s.DequeueAllMatureRedelegationQueue ctx.BlockTime
  let s := matureRedelegations.foldl (fun s dvvTriplet =>
    match s.CompleteRedelegation ctx dvvTriplet.DelegatorAddress dvvTriplet.ValidatorSrcAddress
        dvvTriplet.ValidatorDstAddress with
    | .ok s => s
    | .error _ => s) s
  return (validatorUpdates, s)

end State

/-! ### Runs -/

variable {A P : Type} [LinearOrder A] [LinearOrder P]

/-- One step of the staking state: a transaction, a call of the slashing module,
or an EndBlocker that does not panic. -/
inductive Step : State A P → State A P → Prop
  | deliver (ctx : Context P) (s : State A P) (msg : Msg A P) : Step s (s.DeliverMsg ctx msg)
  | slash (ctx : Context P) {s s' : State A P} (consAddr : P) (infractionHeight power : ℤ)
      (slashFactor : Dec) (h : s.Slash ctx consAddr infractionHeight power slashFactor = .ok s') :
      Step s s'
  | jail {s s' : State A P} (consAddr : P) (h : s.Jail consAddr = .ok s') : Step s s'
  | unjail {s s' : State A P} (consAddr : P) (h : s.Unjail consAddr = .ok s') : Step s s'
  | endBlock (ctx : Context P) {s s' : State A P} (updates : List (P × ℤ))
      (h : s.EndBlocker ctx = .ok (updates, s')) : Step s s'

/-- The states reachable from s₀ by steps. -/
def Reachable (s₀ s : State A P) : Prop := Relation.ReflTransGen Step s₀ s

end Staking
end ColorSdk
