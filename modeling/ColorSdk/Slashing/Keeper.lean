import ColorSdk.Staking.Genesis

/-!
# The slashing keeper

The slashing module keeps, per consensus address, the validator's signing info
and a bit array of the blocks it missed in the last `SignedBlocksWindow`; the
counter in the signing info tracks the sum of the array, so that a block does
not read the whole array.  A validator that misses too many blocks is slashed
and jailed for downtime, and its counter and array are reset; one that signs
two blocks at a height is slashed, jailed and tombstoned for good.

The keeper calls into the staking keeper (its `validatorSet`) to find, slash
and jail validators, so the state here holds the staking state it acts on.  The
staking hooks of the module, run when a validator is created, bonded or
removed, are `AfterValidatorCreated`, `AfterValidatorBonded` and
`AfterValidatorRemoved`.

## Main definitions

* `ValidatorSigningInfo`, `Params`, `State`.
* `State.handleValidatorSignature` — one validator's vote of the last commit.
* `State.handleDoubleSign` — evidence of a double sign.
* `State.handleMsgUnjail` — a validator asking to leave jail.

## References

* src/x/slashing/keeper.go, signing_info.go, hooks.go, handler.go, params.go
-/

namespace ColorSdk
namespace Slashing

open Staking

/-- Signing info for a validator. -/
structure ValidatorSigningInfo where
  /-- Height at which the validator was first a candidate or was unjailed. -/
  StartHeight : ℤ
  /-- Index offset into the signed block bit array. -/
  IndexOffset : ℤ
  /-- Time the validator cannot be unjailed until. -/
  JailedUntil : Time
  /-- Whether the validator has been tombstoned (killed out of the validator set). -/
  Tombstoned : Bool
  /-- Missed blocks counter, to avoid scanning the array every time. -/
  MissedBlocksCounter : ℤ
  deriving DecidableEq, Repr

/-- The slashing parameters; durations in nanoseconds. -/
structure Params where
  MaxEvidenceAge : ℤ
  SignedBlocksWindow : ℤ
  MinSignedPerWindow : Dec
  DowntimeJailDuration : ℤ
  SlashFractionDoubleSign : Dec
  SlashFractionDowntime : Dec
  deriving DecidableEq, Repr

/-- The double-sign jail period ends at the largest time Amino supports,
Dec 31, 9999 23:59:59 GMT. -/
def DoubleSignJailEndTime : Time := 253402300799 * 10 ^ 9

/-- Panics of the slashing keeper. -/
inductive Panic
  /-- "Validator consensus-address %v not found" -/
  | consensusAddressNotFound
  /-- "Expected signing info for validator %s but not found" -/
  | expectedSigningInfo
  /-- A panic of the staking keeper while slashing or jailing. -/
  | staking (p : Staking.Panic)
  deriving DecidableEq, Repr

/-- Errors of the slashing handler. -/
inductive SlashingError
  /-- "that address is not associated with any known validator" -/
  | ErrNoValidatorForAddress
  /-- "validator still jailed, cannot yet be unjailed" -/
  | ErrValidatorJailed
  /-- "validator not jailed, cannot be unjailed" -/
  | ErrValidatorNotJailed
  /-- "validator has no self-delegation; cannot be unjailed" -/
  | ErrMissingSelfDelegation
  /-- "validator's self delegation less than MinSelfDelegation, cannot be unjailed" -/
  | ErrSelfDelegationTooLowToUnjail
  deriving DecidableEq, Repr

/-- The slashing store, with the staking state it slashes and jails through. -/
structure State (A P : Type) [LinearOrder A] [LinearOrder P] where
  staking : Staking.State A P
  params : Params
  /-- Signing infos, by consensus address. -/
  signingInfos : SortedKV P ValidatorSigningInfo
  /-- The missed-block bits, by consensus address and index. -/
  missedBlockBitArray : SortedKV (P ×ₗ ℤ) Bool
  /-- The consensus public key of each consensus address. -/
  addrPubkeyRelation : SortedKV P P

namespace State

variable {A P : Type} [LinearOrder A] [LinearOrder P]

/-! ### The stores -/

def getPubkey (s : State A P) (address : P) : Option P := s.addrPubkeyRelation.get address

def addPubkey (s : State A P) (pubkey : P) : State A P :=
  { s with addrPubkeyRelation := s.addrPubkeyRelation.set pubkey pubkey }

def deleteAddrPubkeyRelation (s : State A P) (address : P) : State A P :=
  { s with addrPubkeyRelation := s.addrPubkeyRelation.delete address }

def getValidatorSigningInfo (s : State A P) (address : P) : Option ValidatorSigningInfo :=
  s.signingInfos.get address

def SetValidatorSigningInfo (s : State A P) (address : P) (info : ValidatorSigningInfo) :
    State A P :=
  { s with signingInfos := s.signingInfos.set address info }

/-- A missing bit reads as not missed. -/
def getValidatorMissedBlockBitArray (s : State A P) (address : P) (index : ℤ) : Bool :=
  (s.missedBlockBitArray.get (toLex (address, index))).getD false

def setValidatorMissedBlockBitArray (s : State A P) (address : P) (index : ℤ) (missed : Bool) :
    State A P :=
  { s with missedBlockBitArray := s.missedBlockBitArray.set (toLex (address, index)) missed }

/-- Delete every bit of a validator, by a scan of its prefix. -/
def clearValidatorMissedBlockBitArray (s : State A P) (address : P) : State A P :=
  let keys := (s.missedBlockBitArray.entries.filter fun e => (ofLex e.1).1 = address).map (·.1)
  { s with missedBlockBitArray := keys.foldl SortedKV.delete s.missedBlockBitArray }

/-! ### Parameters -/

def SignedBlocksWindow (s : State A P) : ℤ := s.params.SignedBlocksWindow

/-- The least number of blocks to sign per window, rounded. -/
def MinSignedPerWindow (s : State A P) : ℤ :=
  (s.params.MinSignedPerWindow.MulInt s.SignedBlocksWindow).RoundInt

/-! ### Liveness -/

/-- Record whether the validator missed the block at `index`: the bit and the
counter change only when the bit does. -/
def updateMissedBlocks (s : State A P) (consAddr : P) (index : ℤ) (missed : Bool)
    (signInfo : ValidatorSigningInfo) : State A P × ValidatorSigningInfo :=
  let previous := s.getValidatorMissedBlockBitArray consAddr index
  if !previous && missed then
    -- the value has changed from not missed to missed
    (s.setValidatorMissedBlockBitArray consAddr index true,
      { signInfo with MissedBlocksCounter := signInfo.MissedBlocksCounter + 1 })
  else if previous && !missed then
    -- the value has changed from missed to not missed
    (s.setValidatorMissedBlockBitArray consAddr index false,
      { signInfo with MissedBlocksCounter := signInfo.MissedBlocksCounter - 1 })
  else (s, signInfo)

/-- Downtime confirmed: slash and jail the validator, and reset the counter and
the array so that it is not slashed for downtime again upon rebonding. -/
def slashDowntime (ctx : Context P) (s : State A P) (consAddr : P) (power : ℤ)
    (signInfo : ValidatorSigningInfo) : Except Panic (State A P × ValidatorSigningInfo) := do
  -- the stake that signed the block, less the update delay and the last commit
  let distributionHeight := ctx.BlockHeight - ValidatorUpdateDelay - 1
  let staking ← (s.staking.Slash ctx consAddr distributionHeight power
    s.params.SlashFractionDowntime).mapError .staking
  let staking ← (staking.Jail consAddr).mapError .staking
  let signInfo := { signInfo with
    JailedUntil := ctx.BlockTime + s.params.DowntimeJailDuration
    MissedBlocksCounter := 0
    IndexOffset := 0 }
  return ({ s with staking := staking }.clearValidatorMissedBlockBitArray consAddr, signInfo)

/-- Handle a validator's signature; called once per validator per block. -/
def handleValidatorSignature (ctx : Context P) (s : State A P) (addr : P) (power : ℤ)
    (signed : Bool) : Except Panic (State A P) := do
  let height := ctx.BlockHeight
  let consAddr := addr
  let some _ := s.getPubkey addr | throw .consensusAddressNotFound
  let some signInfo := s.getValidatorSigningInfo consAddr | throw .expectedSigningInfo
  -- a relative index: it counts the blocks the validator should have signed
  let index := signInfo.IndexOffset % s.SignedBlocksWindow
  let signInfo := { signInfo with IndexOffset := signInfo.IndexOffset + 1 }
  let (s, signInfo) := s.updateMissedBlocks consAddr index (!signed) signInfo
  let minHeight := signInfo.StartHeight + s.SignedBlocksWindow
  let maxMissed := s.SignedBlocksWindow - s.MinSignedPerWindow
  -- past the minimum height with too many blocks missed: punish
  let (s, signInfo) ←
    if minHeight < height ∧ maxMissed < signInfo.MissedBlocksCounter then
      match s.staking.GetValidatorByConsAddr consAddr with
      | some validator =>
        if !validator.Jailed then s.slashDowntime ctx consAddr power signInfo
        -- already jailed: not slashed
        else pure (s, signInfo)
      -- not found: not slashed
      | none => pure (s, signInfo)
    else pure (s, signInfo)
  return s.SetValidatorSigningInfo consAddr signInfo

/-! ### Double signs -/

/-- Handle a validator signing two blocks at the same height; `power` is its
power at the height of the infraction. -/
def handleDoubleSign (ctx : Context P) (s : State A P) (addr : P) (infractionHeight : ℤ)
    (timestamp : Time) (power : ℤ) : Except Panic (State A P) := do
  let age := ctx.BlockTime - timestamp
  let consAddr := addr
  -- evidence that cannot be handled is ignored
  let some _ := s.getPubkey addr | return s
  -- reject evidence if the double sign is too old
  if s.params.MaxEvidenceAge < age then return s
  let some validator := s.staking.GetValidatorByConsAddr consAddr | return s
  if validator.Status = .Unbonded then return s
  let some signInfo := s.getValidatorSigningInfo consAddr | throw .expectedSigningInfo
  -- the validator is already tombstoned
  if signInfo.Tombstoned then return s
  -- the stake that signed the block, less the update delay
  let distributionHeight := infractionHeight - ValidatorUpdateDelay
  let fraction := s.params.SlashFractionDoubleSign
  let staking ← (s.staking.Slash ctx consAddr distributionHeight power fraction).mapError .staking
  -- jail the validator if not already jailed
  let staking ←
    if !validator.Jailed then (staking.Jail consAddr).mapError .staking else pure staking
  let signInfo := { signInfo with Tombstoned := true, JailedUntil := DoubleSignJailEndTime }
  return { s with staking := staking }.SetValidatorSigningInfo consAddr signInfo

/-! ### Unjailing -/

/-- A validator asks to be unjailed after being jailed for downtime. -/
def handleMsgUnjail (ctx : Context P) (s : State A P) (validatorAddr : A) :
    Except SlashingError (State A P) := do
  let some validator := s.staking.GetValidator validatorAddr | throw .ErrNoValidatorForAddress
  -- cannot be unjailed if no self-delegation exists
  let some selfDel := s.staking.GetDelegation validatorAddr validatorAddr
    | throw .ErrMissingSelfDelegation
  if (validator.TokensFromShares selfDel.Shares).TruncateInt < validator.MinSelfDelegation then
    throw .ErrSelfDelegationTooLowToUnjail
  -- cannot be unjailed if not jailed
  if !validator.Jailed then throw .ErrValidatorNotJailed
  let consAddr := validator.ConsPubKey
  let some info := s.getValidatorSigningInfo consAddr | throw .ErrNoValidatorForAddress
  -- cannot be unjailed if tombstoned
  if info.Tombstoned then throw .ErrValidatorJailed
  -- cannot be unjailed until out of jail
  if ctx.BlockTime < info.JailedUntil then throw .ErrValidatorJailed
  match s.staking.Unjail consAddr with
  | .ok staking => return { s with staking := staking }
  -- the staking keeper's panic aborts the transaction
  | .error _ => return s

/-! ### Hooks -/

/-- Create the signing info of a newly bonded validator, keeping one it has. -/
def AfterValidatorBonded (ctx : Context P) (s : State A P) (address : P) : State A P :=
  match s.getValidatorSigningInfo address with
  | some _ => s
  | none => s.SetValidatorSigningInfo address ⟨ctx.BlockHeight, 0, unixEpoch, false, 0⟩

/-- When a validator is created, add the address-pubkey relation.  The hook
runs just after the validator is stored. -/
def AfterValidatorCreated (s : State A P) (valAddr : A) : State A P :=
  match s.staking.GetValidator valAddr with
  | some validator => s.addPubkey validator.ConsPubKey
  | none => s

/-- When a validator is removed, delete the address-pubkey relation. -/
def AfterValidatorRemoved (s : State A P) (address : P) : State A P :=
  s.deleteAddrPubkeyRelation address

end State

end Slashing
end ColorSdk
