import ColorSdk.Types.Decimal

/-!
# Staking types

The records of the staking module and the methods on them that move tokens
and shares: a validator issues shares for the tokens delegated to it at its
exchange rate `DelegatorShares / Tokens`, and the pool follows the tokens of
bonded validators between its not-bonded and bonded halves.

Every method that Go lets panic returns an `Except Panic`; the errors handlers
return are `StakingError`s.  Inside a transaction both abort it and leave the
state as it was; in a block hook a panic halts the chain.

## Main definitions

* `BondStatus`, `Pool` with `notBondedTokensToBonded` and
  `bondedTokensToNotBonded`.
* `Commission.Validate`, `Description.EnsureLength`.
* `Validator` with `UpdateStatus`, `RemoveTokens`, `AddTokensFromDel`,
  `RemoveDelShares`, `TokensFromShares` and `SharesFromTokens`.
* `Delegation`, `UnbondingDelegation`, `Redelegation`, `CouncilMember`,
  `Params`.

## References

* src/x/staking/types/validator.go, src/x/staking/types/pool.go,
  src/x/staking/types/commission.go, src/x/staking/types/delegation.go,
  src/x/staking/types/council.go, src/x/staking/types/params.go,
  src/x/staking/types/errors.go
-/

namespace ColorSdk
namespace Staking

/-- Block times, in nanoseconds since the Unix epoch. -/
abbrev Time := ℤ

/-- Errors a handler returns; its transaction then changes nothing. -/
inductive StakingError
  /-- "validator address is invalid" -/
  | ErrBadValidatorAddr
  /-- "validator does not exist for that address" -/
  | ErrNoValidatorFound
  /-- "validator already exist for this operator address, must use new
  validator operator address" -/
  | ErrValidatorOwnerExists
  /-- "validator already exist for this pubkey, must use new validator
  pubkey" -/
  | ErrValidatorPubKeyExists
  /-- "validator pubkey type is not supported" -/
  | ErrValidatorPubKeyTypeNotSupported
  /-- "description %s is too long": the descriptor, its length and the bound. -/
  | ErrDescriptionLength (descriptor : String) (got max : ℕ)
  /-- "commission must be positive" -/
  | ErrCommissionNegative
  /-- "commission cannot be more than 100%" -/
  | ErrCommissionHuge
  /-- "commission cannot be more than the max rate" -/
  | ErrCommissionGTMaxRate
  /-- "commission change rate must be positive" -/
  | ErrCommissionChangeRateNegative
  /-- "commission change rate cannot be more than the max rate" -/
  | ErrCommissionChangeRateGTMaxRate
  /-- "validator's self delegation must be greater than their minimum self
  delegation" -/
  | ErrSelfDelegationBelowMinimum
  /-- "minimum self delegation must be a positive integer" -/
  | ErrMinSelfDelegationInvalid
  /-- `CodeInvalidInput` with the text it gives: "description must be
  included", "commission must be included". -/
  | ErrInvalidInput (msg : String)
  /-- "invalid coin denomination" -/
  | ErrBadDenom
  /-- "amount must be > 0" -/
  | ErrBadDelegationAmount
  /-- "no delegation for this (address, validator) pair" -/
  | ErrNoDelegation
  /-- "no delegator for address" -/
  | ErrNoDelegatorForAddress
  /-- "insufficient delegation shares" -/
  | ErrInsufficientShares
  /-- "not enough shares only have %v": the delegation's shares. -/
  | ErrNotEnoughDelegationShares (shares : Dec)
  /-- "shares must be > 0" -/
  | ErrBadSharesAmount
  /-- "no unbonding delegation found" -/
  | ErrNoUnbondingDelegation
  /-- "too many unbonding delegation entries in this delegator/validator
  duo, please wait for some entries to mature" -/
  | ErrMaxUnbondingDelegationEntries
  /-- "no redelegation found" -/
  | ErrNoRedelegation
  /-- "cannot redelegate to the same validator" -/
  | ErrSelfRedelegation
  /-- "too few tokens to redelegate, truncates to zero tokens" -/
  | ErrVerySmallRedelegation
  /-- "redelegation validator not found" -/
  | ErrBadRedelegationDst
  /-- "redelegation to this validator already in progress, first redelegation
  to this validator must complete before next redelegation" -/
  | ErrTransitiveRedelegation
  /-- "too many redelegation entries in this delegator/src-validator/
  dst-validator trio, please wait for some entries to mature" -/
  | ErrMaxRedelegationEntries
  /-- "cannot delegate to validators with invalid (zero) ex-rate" -/
  | ErrDelegatorShareExRateInvalid
  /-- The bank's `ErrInvalidCoins`. -/
  | ErrInvalidCoins
  /-- The bank's `ErrInsufficientCoins`: "insufficient account funds". -/
  | ErrInsufficientCoins
  deriving DecidableEq, Repr

/-- Panics of the staking keeper. -/
inductive Panic
  /-- "sanity check: not-bonded tokens negative, pool: %v" -/
  | notBondedTokensNegative
  /-- "sanity check: bonded tokens negative, pool: %v" -/
  | bondedTokensNegative
  /-- "should not happen: trying to remove negative tokens %v" -/
  | removeNegativeTokens
  /-- "should not happen: only have %v tokens, trying to remove %v" -/
  | removeMoreTokensThanHeld
  /-- "attempting to remove more tokens than available in validator" -/
  | removeMoreTokensThanAvailable
  /-- `panic(err)` in `AddTokensFromDel` on an error of `SharesFromTokens`. -/
  | sharesFromTokens (err : StakingError)
  /-- "validator record not found for address: %X" -/
  | validatorRecordNotFound
  /-- `sdk.NewCoin`: "negative coin amount: %v" -/
  | negativeCoinAmount
  /-- "cannot jail already jailed validator, validator: %v" -/
  | cannotJailJailed
  /-- "cannot unjail already unjailed validator, validator: %v" -/
  | cannotUnjailUnjailed
  /-- "cannot call RemoveValidator on bonded or unbonding validators" -/
  | removeValidatorNotUnbonded
  /-- "attempting to remove a validator which still contains tokens" -/
  | removeValidatorWithTokens
  /-- "bad state transition ..." of the validator state changes, and
  "should not already be unbonded or unbonding". -/
  | badStateTransition
  /-- "should never retrieve a jailed validator from the power store" -/
  | jailedValidatorInPowerStore
  /-- "validator in the unbonding queue was not found" -/
  | validatorInQueueNotFound
  /-- "unexpected validator in unbonding queue, status was not unbonding" -/
  | unexpectedValidatorInQueue
  /-- "attempted to slash with a negative slash factor: %v" -/
  | negativeSlashFactor
  /-- "impossible attempt to slash future infraction at height %d but we are
  at height %d" -/
  | futureInfraction
  /-- "should not be slashing unbonded validator: %s" -/
  | slashingUnbondedValidator
  /-- "error unbonding delegator: %v" in `slashRedelegation`. -/
  | errorUnbondingDelegator (err : StakingError)
  /-- "validator with consensus-Address %s not found" -/
  | validatorByConsAddrNotFound
  /-- "expected validator, not found" of `InitGenesis`. -/
  | expectedValidator
  deriving DecidableEq, Repr

/-- What ends a keeper call early. -/
inductive Failure
  | error (err : StakingError)
  | panic (p : Panic)
  deriving DecidableEq, Repr

/-! ### The pool -/

inductive BondStatus
  | Unbonded
  | Unbonding
  | Bonded
  deriving DecidableEq, Repr

/-- Tracking bonded and not-bonded token supply of the bond denomination. -/
structure Pool where
  NotBondedTokens : ℤ
  BondedTokens : ℤ
  deriving DecidableEq, Repr

namespace Pool

def notBondedTokensToBonded (p : Pool) (bondedTokens : ℤ) : Except Panic Pool :=
  let p := { BondedTokens := p.BondedTokens + bondedTokens
             NotBondedTokens := p.NotBondedTokens - bondedTokens : Pool }
  if p.NotBondedTokens < 0 then .error .notBondedTokensNegative else .ok p

def bondedTokensToNotBonded (p : Pool) (bondedTokens : ℤ) : Except Panic Pool :=
  let p := { BondedTokens := p.BondedTokens - bondedTokens
             NotBondedTokens := p.NotBondedTokens + bondedTokens : Pool }
  if p.BondedTokens < 0 then .error .bondedTokensNegative else .ok p

end Pool

/-! ### Commission and description -/

/-- A validator's commission parameters. -/
structure Commission where
  Rate : Dec
  MaxRate : Dec
  MaxChangeRate : Dec
  UpdateTime : Time
  deriving DecidableEq, Repr

/-- Basic sanity checks of initial commission parameters. -/
def Commission.Validate (c : Commission) : Option StakingError :=
  if c.MaxRate.LT ZeroDec then some .ErrCommissionNegative
  else if c.MaxRate.GT OneDec then some .ErrCommissionHuge
  else if c.Rate.LT ZeroDec then some .ErrCommissionNegative
  else if c.Rate.GT c.MaxRate then some .ErrCommissionGTMaxRate
  else if c.MaxChangeRate.LT ZeroDec then some .ErrCommissionChangeRateNegative
  else if c.MaxChangeRate.GT c.MaxRate then some .ErrCommissionChangeRateGTMaxRate
  else none

def MaxMonikerLength : ℕ := 70
def MaxIdentityLength : ℕ := 3000
def MaxWebsiteLength : ℕ := 140
def MaxDetailsLength : ℕ := 280

structure Description where
  Moniker : String
  Identity : String
  Website : String
  Details : String
  deriving DecidableEq, Repr

/-- Checks one field of a description against its bound: Go's `len` counts
bytes. -/
def checkLength (descriptor value : String) (max : ℕ) : Option StakingError :=
  if max < value.utf8ByteSize then some (.ErrDescriptionLength descriptor value.utf8ByteSize max)
  else none

/-- Ensures the length of a validator's description, field by field. -/
def Description.EnsureLength (d : Description) : Option StakingError :=
  checkLength "moniker" d.Moniker MaxMonikerLength <|>
  checkLength "identity" d.Identity MaxIdentityLength <|>
  checkLength "website" d.Website MaxWebsiteLength <|>
  checkLength "details" d.Details MaxDetailsLength

/-! ### Validators -/

/-- A validator, with the fields the keeper reads.  Addresses of accounts and
of validator operators are the same bytes in Go, one type `A` here; `P` is the
consensus address of the validator's key. -/
structure Validator (A P : Type) where
  OperatorAddress : A
  ConsPubKey : P
  Jailed : Bool
  Status : BondStatus
  Tokens : ℤ
  DelegatorShares : Dec
  UnbondingHeight : ℤ
  UnbondingCompletionTime : Time
  Commission : Commission
  MinSelfDelegation : ℤ
  deriving DecidableEq, Repr

/-- Go's `time.Unix(0, 0)`. -/
def unixEpoch : Time := 0

/-- A new validator, unbonded with no tokens. -/
def NewValidator {A P : Type} (operator : A) (pubKey : P) : Validator A P where
  OperatorAddress := operator
  ConsPubKey := pubKey
  Jailed := false
  Status := .Unbonded
  Tokens := 0
  DelegatorShares := ZeroDec
  UnbondingHeight := 0
  UnbondingCompletionTime := unixEpoch
  Commission := ⟨ZeroDec, ZeroDec, ZeroDec, unixEpoch⟩
  MinSelfDelegation := 1

namespace Validator

variable {A P : Type}

/-- Updates the location of the shares within a validator to reflect the new
status. -/
def UpdateStatus (v : Validator A P) (pool : Pool) (NewStatus : BondStatus) :
    Except Panic (Validator A P × Pool) :=
  match v.Status, NewStatus with
  | .Unbonded, .Unbonded | .Unbonding, .Unbonding | .Bonded, .Bonded => .ok (v, pool)
  | .Unbonded, .Bonded | .Unbonding, .Bonded =>
    (pool.notBondedTokensToBonded v.Tokens).map fun pool => ({ v with Status := NewStatus }, pool)
  | .Bonded, _ =>
    (pool.bondedTokensToNotBonded v.Tokens).map fun pool => ({ v with Status := NewStatus }, pool)
  | _, _ => .ok ({ v with Status := NewStatus }, pool)

/-- Removes tokens from a validator. -/
def RemoveTokens (v : Validator A P) (pool : Pool) (tokens : ℤ) :
    Except Panic (Validator A P × Pool) := do
  if tokens < 0 then throw .removeNegativeTokens
  if v.Tokens < tokens then throw .removeMoreTokensThanHeld
  let v := { v with Tokens := v.Tokens - tokens }
  let pool ← if v.Status = .Bonded then pool.bondedTokensToNotBonded tokens else pure pool
  return (v, pool)

/-- In some situations, the exchange rate becomes invalid, e.g. if the
validator loses all tokens due to slashing. -/
def InvalidExRate (v : Validator A P) : Bool :=
  v.Tokens = 0 && v.DelegatorShares.IsPositive

/-- The token worth of provided shares. -/
def TokensFromShares (v : Validator A P) (shares : Dec) : Dec :=
  (shares.MulInt v.Tokens).Quo v.DelegatorShares

/-- The token worth of provided shares, truncated. -/
def TokensFromSharesTruncated (v : Validator A P) (shares : Dec) : Dec :=
  (shares.MulInt v.Tokens).QuoTruncate v.DelegatorShares

/-- The token worth of provided shares, rounded up. -/
def TokensFromSharesRoundUp (v : Validator A P) (shares : Dec) : Dec :=
  (shares.MulInt v.Tokens).QuoRoundUp v.DelegatorShares

/-- The shares of a delegation given a bond amount; an error if the validator
has no tokens. -/
def SharesFromTokens (v : Validator A P) (amt : ℤ) : Except StakingError Dec :=
  if v.Tokens = 0 then .error .ErrInsufficientShares
  else .ok ((v.DelegatorShares.MulInt amt).QuoInt v.Tokens)

/-- The truncated shares of a delegation given a bond amount. -/
def SharesFromTokensTruncated (v : Validator A P) (amt : ℤ) : Except StakingError Dec :=
  if v.Tokens = 0 then .error .ErrInsufficientShares
  else .ok ((v.DelegatorShares.MulInt amt).QuoTruncate (ToDec v.Tokens))

/-- Adds tokens to a validator; the tokens are assumed to come from the
not-bonded pool. -/
def AddTokensFromDel (v : Validator A P) (pool : Pool) (amount : ℤ) :
    Except Panic (Validator A P × Pool × Dec) := do
  let issuedShares ←
    if v.DelegatorShares.IsZero then
      -- the first delegation to a validator sets the exchange rate to one
      pure (ToDec amount)
    else
      match v.SharesFromTokens amount with
      | .error err => throw (.sharesFromTokens err)
      | .ok shares => pure shares
  let pool ← if v.Status = .Bonded then pool.notBondedTokensToBonded amount else pure pool
  let v := { v with Tokens := v.Tokens + amount
                    DelegatorShares := v.DelegatorShares.Add issuedShares }
  return (v, pool, issuedShares)

/-- Removes delegator shares from a validator; the tokens move to the
not-bonded pool.  Token fractions are left in the validator. -/
def RemoveDelShares (v : Validator A P) (pool : Pool) (delShares : Dec) :
    Except Panic (Validator A P × Pool × ℤ) := do
  let remainingShares := v.DelegatorShares.Sub delShares
  let (v, issuedTokens) ←
    if remainingShares.IsZero then
      -- last delegation share gets any trimmings
      pure ({ v with Tokens := 0 }, v.Tokens)
    else
      let issuedTokens := (v.TokensFromShares delShares).TruncateInt
      let v := { v with Tokens := v.Tokens - issuedTokens }
      if v.Tokens < 0 then throw .removeMoreTokensThanAvailable
      pure (v, issuedTokens)
  let v := { v with DelegatorShares := remainingShares }
  let pool ← if v.Status = .Bonded then pool.bondedTokensToNotBonded issuedTokens else pure pool
  return (v, pool, issuedTokens)

/-- The bonded tokens which the validator holds. -/
def BondedTokens (v : Validator A P) : ℤ := if v.Status = .Bonded then v.Tokens else 0

/-- Potential Tendermint power. -/
def PotentialTendermintPower (v : Validator A P) : ℤ := TokensToTendermintPower v.Tokens

/-- The Tendermint power: zero unless bonded. -/
def TendermintPower (v : Validator A P) : ℤ :=
  if v.Status = .Bonded then v.PotentialTendermintPower else 0

end Validator

/-! ### Delegations -/

/-- Bond shares held by a delegator with a validator. -/
structure Delegation (A : Type) where
  DelegatorAddress : A
  ValidatorAddress : A
  Shares : Dec
  deriving DecidableEq, Repr

structure UnbondingDelegationEntry where
  CreationHeight : ℤ
  CompletionTime : Time
  InitialBalance : ℤ
  Balance : ℤ
  deriving DecidableEq, Repr

/-- An entry is mature once its completion time is not after the current
time. -/
def UnbondingDelegationEntry.IsMature (e : UnbondingDelegationEntry) (currentTime : Time) : Bool :=
  !(currentTime < e.CompletionTime)

structure UnbondingDelegation (A : Type) where
  DelegatorAddress : A
  ValidatorAddress : A
  Entries : List UnbondingDelegationEntry
  deriving DecidableEq, Repr

def NewUnbondingDelegationEntry (creationHeight : ℤ) (completionTime : Time) (balance : ℤ) :
    UnbondingDelegationEntry :=
  ⟨creationHeight, completionTime, balance, balance⟩

structure RedelegationEntry where
  CreationHeight : ℤ
  CompletionTime : Time
  InitialBalance : ℤ
  SharesDst : Dec
  deriving DecidableEq, Repr

def RedelegationEntry.IsMature (e : RedelegationEntry) (currentTime : Time) : Bool :=
  !(currentTime < e.CompletionTime)

structure Redelegation (A : Type) where
  DelegatorAddress : A
  ValidatorSrcAddress : A
  ValidatorDstAddress : A
  Entries : List RedelegationEntry
  deriving DecidableEq, Repr

structure DVPair (A : Type) where
  DelegatorAddress : A
  ValidatorAddress : A
  deriving DecidableEq, Repr

structure DVVTriplet (A : Type) where
  DelegatorAddress : A
  ValidatorSrcAddress : A
  ValidatorDstAddress : A
  deriving DecidableEq, Repr

/-- A council member and the shares gov's tally counts as its voting power. -/
structure CouncilMember (A : Type) where
  MemberAddress : A
  Shares : Dec
  deriving DecidableEq, Repr

/-- The staking parameters. -/
structure Params where
  UnbondingTime : Time
  MaxValidators : ℕ
  MaxEntries : ℕ
  BondDenom : String
  CouncilMemberMinCoin : Dec
  deriving DecidableEq, Repr

/-- The default staking parameters: an unbonding time of two weeks, 100
validators, 7 entries, the denomination "uclr" and a council minimum of
`50000000000`. -/
def DefaultParams : Params where
  UnbondingTime := 60 * 60 * 24 * 14 * 10 ^ 9
  MaxValidators := 100
  MaxEntries := 7
  BondDenom := "uclr"
  CouncilMemberMinCoin := ToDec 50000000000

/-- A coin: a denomination and an amount. -/
structure Coin where
  Denom : String
  Amount : ℤ
  deriving DecidableEq, Repr

end Staking
end ColorSdk
