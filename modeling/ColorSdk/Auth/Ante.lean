import ColorSdk.BaseApp.RunTx
import ColorSdk.Store.Types
import ColorSdk.Types.CoinString
import ColorSdk.Types.DecCoin
import Mathlib

/-!
# The ante handler

`auth.NewAnteHandler` runs before the messages of every transaction.  It
checks the transaction without looking at the state (`StdTx.ValidateBasic`),
charges gas for the transaction's bytes, checks the memo, takes the fee from
the first signer, and then, signer by signer, checks the signature against the
bytes the signer signed (`StdSignBytes`: the chain, the account number, the
sequence, the fee, the messages and the memo), records the public key the
first time it is seen, and counts the sequence one up.  In `CheckTx` it first
checks the fee against the validator's minimum gas prices.

The first signer's account is read once: the fee is taken from that copy, and
the copy is written back, with its new sequence, only in the first round of
the signature loop.  The signers are the addresses the messages name, each
once, in order (`StdTx.GetSigners`), and `ValidateBasic` wants exactly one
signature per signer.

An out-of-gas panic of the handler's own meter is recovered into an error
result that aborts the transaction; every other panic goes on to `runTx`.

What lives outside the repository is a parameter (`Backend`): the addresses of
public keys and the check of a signature, and the codec's encodings of the
document a signer signs, of a signature and of a multisignature.  Accounts are
any type with the getters and setters of `auth.Account` (`Account`), whose
setters never fail, as for every account type of the repository.  The store
holds the accounts, by address, the collected fees and the parameters.  The gas
the store charges for reading and writing accounts is not modelled.

## Main definitions

* `PubKey`, `StdSignature`, `StdFee`, `StdTx`, `Params`.
* `StdTx.GetSigners`, `StdTx.ValidateBasic`, `StdSignBytes`.
* `ProcessPubKey`, `consumeSigVerificationGas`, `consumeSimSigGas`,
  `processSig`, `DeductFees`, `EnsureSufficientMempoolFees`, `SetGasMeter`,
  `GetSignBytes`, `NewAnteHandler`.

## References

* src/x/auth/ante.go, src/x/auth/stdtx.go, src/x/auth/account.go,
  src/x/auth/keeper.go, src/x/auth/feekeeper.go, src/x/auth/params.go,
  src/types/coin.go, src/types/decimal.go, src/types/errors.go
-/

namespace ColorSdk

/-- `Dec.Ceil`: the quotient by one, truncated, and one more when a positive
remainder is left. -/
def Dec.Ceil (d : Dec) : Dec :=
  let quo := d.i.tdiv precisionReuse
  let rem := d.i.tmod precisionReuse
  -- no need to round with a zero remainder regardless of sign
  if rem = 0 then ToDec quo
  else if rem < 0 then ToDec quo
  else ToDec (quo + 1)

namespace Types

/-- `DecCoins.IsZero`: every amount zero. -/
def DecCoins.IsZero (coins : DecCoins) : Bool := coins.all fun coin => coin.Amount.IsZero

/-- The loop of `Coins.IsAnyGTE`: the first coin at or above the non-zero
amount of its denomination in `coinsB`. -/
def Coins.isAnyGTELoop (coinsB : Coins) : Coins → Except CoinPanic Bool
  | [] => pure false
  | coin :: coins => do
    let amt ← coinsB.AmountOf coin.Denom
    if amt ≤ coin.Amount ∧ amt ≠ 0 then pure true else Coins.isAnyGTELoop coinsB coins

/-- `Coins.IsAnyGTE`: false against no coins. -/
def Coins.IsAnyGTE (coins coinsB : Coins) : Except CoinPanic Bool :=
  if coinsB.length = 0 then pure false else Coins.isAnyGTELoop coinsB coins

end Types

namespace Auth

open BaseApp (GasMeter Result ErrResult CodeOK CodeInternal CodeOutOfGas)
open ColorSdk.Types (Coins DecCoins CoinPanic)

/-- `sdk.AccAddress`. -/
abbrev AccAddress := Bytes

/-! ### Errors -/

def CodeUnauthorized : ℕ := 4
def CodeInsufficientFunds : ℕ := 5
def CodeInvalidPubKey : ℕ := 8
def CodeUnknownAddress : ℕ := 9
def CodeMemoTooLarge : ℕ := 13
def CodeInsufficientFee : ℕ := 14
def CodeTooManySignatures : ℕ := 15
def CodeGasOverflow : ℕ := 16
def CodeNoSignatures : ℕ := 17

/-- The errors the ante handler returns, with their messages; an address that
a message prints in Bech32 is kept as the address. -/
inductive AnteError where
  | ErrInternal (msg : String)
  | ErrGasOverflow (msg : String)
  | ErrInsufficientFee (msg : String)
  | ErrNoSignatures (msg : String)
  | ErrUnauthorized (msg : String)
  | ErrTooManySignatures (msg : String)
  | ErrMemoTooLarge (msg : String)
  /-- "account %s does not exist" -/
  | ErrUnknownAddress (addr : AccAddress)
  | ErrInsufficientFunds (msg : String)
  | ErrInvalidPubKey (msg : String)
  /-- "PubKey does not match Signer address %s" -/
  | ErrInvalidPubKeyAddress (addr : AccAddress)
  deriving DecidableEq, Repr

/-- The code of an error. -/
def AnteError.code : AnteError → ℕ
  | .ErrInternal _ => CodeInternal
  | .ErrGasOverflow _ => CodeGasOverflow
  | .ErrInsufficientFee _ => CodeInsufficientFee
  | .ErrNoSignatures _ => CodeNoSignatures
  | .ErrUnauthorized _ => CodeUnauthorized
  | .ErrTooManySignatures _ => CodeTooManySignatures
  | .ErrMemoTooLarge _ => CodeMemoTooLarge
  | .ErrUnknownAddress _ => CodeUnknownAddress
  | .ErrInsufficientFunds _ => CodeInsufficientFunds
  | .ErrInvalidPubKey _ => CodeInvalidPubKey
  | .ErrInvalidPubKeyAddress _ => CodeInvalidPubKey

/-- Every error has a code that is not OK. -/
theorem AnteError.code_ne (e : AnteError) : e.code ≠ CodeOK := by
  cases e <;> simp [AnteError.code, CodeOK, CodeInternal, CodeGasOverflow, CodeInsufficientFee, CodeNoSignatures,
    CodeUnauthorized, CodeTooManySignatures, CodeMemoTooLarge, CodeUnknownAddress, CodeInsufficientFunds,
    CodeInvalidPubKey]

/-- `err.Result()`. -/
def AnteError.Result (e : AnteError) : Result := ErrResult e.code

/-! ### Keys, signatures, fees and transactions -/

/-- `crypto.PubKey`, by concrete type; `other` is a type of another name. -/
inductive PubKey where
  | Secp256k1 (key : Bytes)
  | Ed25519 (key : Bytes)
  | MultisigThreshold (K : ℕ) (PubKeys : List PubKey)
  | other (typeName : String) (key : Bytes)
  deriving Repr

/-- `fmt.Sprintf("%T", pubkey)`. -/
def PubKey.typeName : PubKey → String
  | .Secp256k1 _ => "secp256k1.PubKeySecp256k1"
  | .Ed25519 _ => "ed25519.PubKeyEd25519"
  | .MultisigThreshold _ _ => "multisig.PubKeyMultisigThreshold"
  | .other typeName _ => typeName

/-- `multisig.Multisignature`: which keys signed, and their signatures. -/
structure Multisignature where
  BitArray : List Bool
  Sigs : List Bytes

/-- `auth.StdSignature`; the public key is optional. -/
structure StdSignature where
  PubKey : Option PubKey
  Signature : Bytes
  deriving Repr

/-- `auth.StdFee`. -/
structure StdFee where
  Amount : Coins
  Gas : ℕ
  deriving DecidableEq, Repr

/-- `auth.StdTx`. -/
structure StdTx (M : Type) where
  Msgs : List M
  Fee : StdFee
  Signatures : List StdSignature
  Memo : String

/-- `auth.StdSignDoc`, with the fee before its JSON encoding and the messages'
sign bytes. -/
structure StdSignDoc where
  AccountNumber : UInt64
  ChainID : String
  Fee : StdFee
  Memo : String
  Msgs : List Bytes
  Sequence : UInt64

/-- What `sdk.Msg` gives the ante handler. -/
class SdkMsg (M : Type) where
  GetSigners : M → List AccAddress
  GetSignBytes : M → Bytes

/-- What lives outside the repository: `pubKey.Address()`,
`pubKey.VerifyBytes(msg, sig)`, the codec's decoding of a multisignature, the
length of a signature's length-prefixed encoding, and the sorted JSON encoding
of a sign document. -/
structure Backend where
  Address : PubKey → AccAddress
  VerifyBytes : PubKey → Bytes → Bytes → Bool
  UnmarshalMultisignature : Bytes → Option Multisignature
  sigSize : StdSignature → ℕ
  encodeSignDoc : StdSignDoc → Bytes

/-- `auth.Params`. -/
structure Params where
  MaxMemoCharacters : ℕ
  TxSigLimit : ℕ
  TxSizeCostPerByte : ℕ
  SigVerifyCostED25519 : ℕ
  SigVerifyCostSecp256k1 : ℕ
  deriving DecidableEq, Repr

/-- `DefaultParams()`. -/
def DefaultParams : Params := ⟨256, 7, 10, 590, 1000⟩

/-- `DefaultTxSigLimit`, the limit `ValidateBasic` checks. -/
def DefaultTxSigLimit : ℕ := 7

/-- `maxGasWanted`: `(1 << 63) - 1`. -/
def maxGasWanted : ℕ := 2 ^ 63 - 1

/-- The 33 bytes of `simSecp256k1Pubkey`. -/
def simSecp256k1Pubkey : PubKey :=
  .Secp256k1 [0x03, 0x5A, 0xD6, 0x81, 0x0A, 0x47, 0xF0, 0x73, 0x55, 0x3F, 0xF3, 0x0D, 0x2F, 0xCC,
    0x7E, 0x0D, 0x3B, 0x1C, 0x0B, 0x74, 0xB6, 0x1A, 0x1A, 0xAA, 0x25, 0x82, 0x34, 0x40, 0x37, 0x15,
    0x1E, 0x14, 0x3A]

/-- `simSecp256k1Sig`: sixty-four zero bytes. -/
def simSecp256k1Sig : Bytes := List.replicate 64 0

/-! ### Accounts and the store -/

/-- The fields of `auth.BaseAccount`. -/
structure BaseAccount where
  Address : AccAddress
  Coins : Coins
  PubKey : Option PubKey
  AccountNumber : UInt64
  Sequence : UInt64
  deriving Repr

/-- `auth.Account`, with the methods the ante handler calls: `base` reads the
base account's fields, and the setters return the account they changed (their
error is nil for every account type of the repository). -/
class Account (A : Type) where
  base : A → BaseAccount
  SetPubKey : A → Option PubKey → A
  SetSequence : A → UInt64 → A
  SetCoins : A → Coins → A
  SpendableCoins : A → ℤ → Coins

namespace Account

variable {A : Type} [Account A]

def GetAddress (acc : A) : AccAddress := (base acc).Address
def GetCoins (acc : A) : Coins := (base acc).Coins
def GetPubKey (acc : A) : Option PubKey := (base acc).PubKey
def GetAccountNumber (acc : A) : UInt64 := (base acc).AccountNumber
def GetSequence (acc : A) : UInt64 := (base acc).Sequence

end Account

/-- The setters set their field of the base account and no other. -/
class LawfulAccount (A : Type) [Account A] : Prop where
  base_SetPubKey : ∀ (acc : A) k, Account.base (Account.SetPubKey acc k) = { Account.base acc with PubKey := k }
  base_SetSequence : ∀ (acc : A) n,
    Account.base (Account.SetSequence acc n) = { Account.base acc with Sequence := n }
  base_SetCoins : ∀ (acc : A) c, Account.base (Account.SetCoins acc c) = { Account.base acc with Coins := c }

/-- `BaseAccount`: it may spend all its coins. -/
instance : Account BaseAccount where
  base acc := acc
  SetPubKey acc k := { acc with PubKey := k }
  SetSequence acc n := { acc with Sequence := n }
  SetCoins acc c := { acc with Coins := c }
  SpendableCoins acc _ := acc.Coins

instance : LawfulAccount BaseAccount where
  base_SetPubKey _ _ := rfl
  base_SetSequence _ _ := rfl
  base_SetCoins _ _ := rfl

attribute [simp] LawfulAccount.base_SetPubKey LawfulAccount.base_SetSequence LawfulAccount.base_SetCoins

open Account

/-- The stores the ante handler reads and writes: the accounts by address, the
fee pool and the module's parameters. -/
structure AuthState (A : Type) where
  accounts : AccAddress → Option A
  collectedFees : Coins
  params : Params

namespace AuthState

variable {A : Type}

/-- `AccountKeeper.GetAccount`. -/
def GetAccount (s : AuthState A) (addr : AccAddress) : Option A := s.accounts addr

/-- `FeeCollectionKeeper.AddCollectedFees`. -/
def AddCollectedFees (s : AuthState A) (coins : Coins) : AuthState A :=
  { s with collectedFees := s.collectedFees.Add coins }

@[simp] theorem accounts_AddCollectedFees (s : AuthState A) (coins : Coins) :
    (s.AddCollectedFees coins).accounts = s.accounts := rfl

@[simp] theorem collectedFees_AddCollectedFees (s : AuthState A) (coins : Coins) :
    (s.AddCollectedFees coins).collectedFees = s.collectedFees.Add coins := rfl

@[simp] theorem params_AddCollectedFees (s : AuthState A) (coins : Coins) :
    (s.AddCollectedFees coins).params = s.params := rfl

variable [Account A]

/-- `AccountKeeper.SetAccount`: stored under the account's own address. -/
def SetAccount (s : AuthState A) (acc : A) : AuthState A :=
  { s with accounts := Function.update s.accounts (GetAddress acc) (some acc) }

@[simp] theorem accounts_SetAccount (s : AuthState A) (acc : A) (a : AccAddress) :
    (s.SetAccount acc).accounts a = if a = GetAddress acc then some acc else s.accounts a := by
  simp [SetAccount, Function.update_apply]

@[simp] theorem collectedFees_SetAccount (s : AuthState A) (acc : A) :
    (s.SetAccount acc).collectedFees = s.collectedFees := rfl

@[simp] theorem params_SetAccount (s : AuthState A) (acc : A) : (s.SetAccount acc).params = s.params := rfl

/-- Every account is stored under its own address, as `SetAccount` stores it. -/
def WF (s : AuthState A) : Prop := ∀ addr acc, s.accounts addr = some acc → GetAddress acc = addr

theorem WF.SetAccount {s : AuthState A} (h : s.WF) (acc : A) : (s.SetAccount acc).WF := by
  intro addr acc' hacc
  rw [accounts_SetAccount] at hacc
  split_ifs at hacc with ha
  · cases hacc
    exact ha.symm
  · exact h addr acc' hacc

theorem WF.AddCollectedFees {s : AuthState A} (h : s.WF) (coins : Coins) : (s.AddCollectedFees coins).WF := h

end AuthState

/-! ### What the context holds -/

/-- The context the ante handler reads: the block's header, whether it runs for
`CheckTx`, and the validator's minimum gas prices. -/
structure Env where
  ChainID : String
  BlockHeight : ℕ
  BlockTime : ℤ
  IsCheckTx : Bool
  MinGasPrices : DecCoins

/-- What the ante handler is handed: the transaction, `none` when it is not a
`StdTx`, and the length of its bytes, which the context carries. -/
structure AnteTx (M : Type) where
  tx : Option (StdTx M)
  TxBytesLen : ℕ

/-! ### Checks without the state -/

section Stateless

variable {M : Type} [SdkMsg M]

/-- A round of `GetSigners`: the address appended unless it was seen. -/
def addSigner (signers : List AccAddress) (addr : AccAddress) : List AccAddress :=
  if addr ∈ signers then signers else signers ++ [addr]

/-- `StdTx.GetSigners`: the messages' signers in order, each once. -/
def StdTx.GetSigners (tx : StdTx M) : List AccAddress :=
  tx.Msgs.foldl (fun signers msg => (SdkMsg.GetSigners msg).foldl addSigner signers) []

mutual
/-- `countSubKeys`: one for a key that is not a multisignature key. -/
def countSubKeys : PubKey → ℕ
  | .MultisigThreshold _ PubKeys => countSubKeysList PubKeys
  | _ => 1

def countSubKeysList : List PubKey → ℕ
  | [] => 0
  | pub :: pubs => countSubKeys pub + countSubKeysList pubs
end

/-- The loop of `ValidateBasic` that counts the signatures' keys, a missing key
counting one, up to the first count above `DefaultTxSigLimit`. -/
def sigCountLoop (sigCount : ℕ) : List StdSignature → Option AnteError
  | [] => none
  | sig :: sigs =>
    let sigCount := sigCount + (sig.PubKey.map countSubKeys).getD 1
    if sigCount > DefaultTxSigLimit then
      some (.ErrTooManySignatures
        ("signatures: " ++ toString sigCount ++ ", limit: " ++ toString DefaultTxSigLimit))
    else sigCountLoop sigCount sigs

/-- `StdTx.ValidateBasic`. -/
def StdTx.ValidateBasic (tx : StdTx M) : Option AnteError :=
  let stdSigs := tx.Signatures
  if tx.Fee.Gas > maxGasWanted then
    some (.ErrGasOverflow ("invalid gas supplied; " ++ toString tx.Fee.Gas ++ " > " ++ toString maxGasWanted))
  else if tx.Fee.Amount.IsAnyNegative then
    some (.ErrInsufficientFee ("invalid fee " ++ tx.Fee.Amount.String ++ " amount provided"))
  else if stdSigs.length = 0 then some (.ErrNoSignatures "no signers")
  else if stdSigs.length ≠ tx.GetSigners.length then some (.ErrUnauthorized "wrong number of signers")
  else sigCountLoop 0 stdSigs

/-- `ValidateMemo`: the memo's length in bytes against `MaxMemoCharacters`. -/
def ValidateMemo (stdTx : StdTx M) (params : Params) : Option AnteError :=
  let memoLength := stdTx.Memo.utf8ByteSize
  if memoLength > params.MaxMemoCharacters then
    some (.ErrMemoTooLarge ("maximum number of characters is " ++ toString params.MaxMemoCharacters ++
      " but received " ++ toString memoLength ++ " characters"))
  else none

/-- `StdSignBytes`: the encoded sign document. -/
def StdSignBytes (be : Backend) (chainID : String) (accnum sequence : UInt64) (fee : StdFee)
    (msgs : List M) (memo : String) : Bytes :=
  be.encodeSignDoc ⟨accnum, chainID, fee, memo, msgs.map SdkMsg.GetSignBytes, sequence⟩

/-- `int64(n)` of a `uint64`. -/
def toInt64 (n : ℕ) : ℤ := if n < 2 ^ 63 then n else n - 2 ^ 64

/-- `EnsureSufficientMempoolFees`: with minimum gas prices set, the fee must
reach, in some denomination, the price times the gas limit rounded up.  The
coin code it calls panics on a bad denomination or a negative amount. -/
def EnsureSufficientMempoolFees (minGasPrices : DecCoins) (stdFee : StdFee) :
    Except CoinPanic (Option AnteError) :=
  if !minGasPrices.IsZero then do
    let glDec := ToDec (toInt64 stdFee.Gas)
    let requiredFees : Coins ← minGasPrices.mapM fun gp =>
      Types.NewCoin gp.Denom (gp.Amount.Mul glDec).Ceil.RoundInt
    let enough ← stdFee.Amount.IsAnyGTE requiredFees
    if !enough then
      pure (some (.ErrInsufficientFee ("insufficient fees; got: \"" ++ stdFee.Amount.String ++
        "\" required: \"" ++ requiredFees.String ++ "\"")))
    else pure none
  else pure none

/-- `SetGasMeter`: no limit when simulating or at the genesis block. -/
def SetGasMeter (simulate : Bool) (env : Env) (gasLimit : ℕ) : GasMeter :=
  if simulate || env.BlockHeight == 0 then GasMeter.NewInfiniteGasMeter else GasMeter.NewGasMeter gasLimit

end Stateless

/-! ### The handler's gas and its stops -/

/-- What stops the handler's body: an error it returns, or a panic. -/
inductive Stop where
  | error (e : AnteError)
  | panic (p : BaseApp.Panic)

/-- The handler's body after `SetGasMeter`: a program on the new gas meter,
which keeps what it consumed when the body stops. -/
abbrev AnteM := EStateM Stop GasMeter

/-- `GasMeter.ConsumeGas` on the new meter. -/
def consumeGas (amount : ℕ) (descriptor : String) : AnteM Unit := fun g =>
  match g.ConsumeGas amount descriptor with
  | (g, none) => .ok () g
  | (g, some p) => .error (.panic p) g

/-- An error of a check stops the body. -/
def orStop {α : Type} : Except AnteError α → AnteM α
  | .ok a => pure a
  | .error e => throw (.error e)

/-- `uint64` arithmetic wraps at `2⁶⁴`. -/
def wrap64 (n : ℕ) : ℕ := n % 2 ^ 64

section Signatures

variable (be : Backend) (params : Params)

/-- The branch of `consumeSigVerificationGas` a key's type name takes. -/
inductive KeyBranch where
  | ed25519
  | secp256k1
  | multisigthreshold
  | unrecognized
  deriving DecidableEq, Repr

/-- `strings.Contains`. -/
def stringsContains (s substr : String) : Bool := decide (substr.toList <:+: s.toList)

/-- The `switch` of `consumeSigVerificationGas` on the lower-cased type name. -/
def keyBranch (pubkeyType : String) : KeyBranch :=
  if stringsContains pubkeyType "ed25519" then .ed25519
  else if stringsContains pubkeyType "secp256k1" then .secp256k1
  else if stringsContains pubkeyType "multisigthreshold" then .multisigthreshold
  else .unrecognized

/-- The branches of `consumeSigVerificationGas` that do not recurse: the
charges of the two single-key types, a type it does not know, and the type
assertion of the multisignature branch, which panics on a key of another type
(after the signature's decoding, which panics too or not). -/
def sigVerificationLeaf (pubkeyType : String) : KeyBranch → AnteM (Option AnteError)
  | .ed25519 => do
    consumeGas params.SigVerifyCostED25519 "ante verify: ed25519"
    pure (some (.ErrInvalidPubKey "ED25519 public keys are unsupported"))
  | .secp256k1 => do
    consumeGas params.SigVerifyCostSecp256k1 "ante verify: secp256k1"
    pure none
  | .multisigthreshold => throw (.panic .other)
  | .unrecognized => pure (some (.ErrInvalidPubKey ("unrecognized public key type: " ++ pubkeyType)))

mutual
/-- `consumeSigVerificationGas`: the cost of checking a signature by the key's
type name.  An ed25519 key is charged and refused; a multisignature key decodes
the signature, panicking when it cannot, and charges each key that signed,
whose own results are dropped. -/
def consumeSigVerificationGas (sig : Bytes) : PubKey → AnteM (Option AnteError)
  | .MultisigThreshold K PubKeys =>
    let pubkeyType := (PubKey.MultisigThreshold K PubKeys).typeName.toLower
    match keyBranch pubkeyType with
    | .multisigthreshold =>
      match be.UnmarshalMultisignature sig with
      | none => throw (.panic .other)
      | some multisignature => do
        consumeMultisignatureVerificationGas multisignature.BitArray multisignature.Sigs PubKeys
        pure none
    | branch => sigVerificationLeaf params pubkeyType branch
  | pubkey => sigVerificationLeaf params pubkey.typeName.toLower (keyBranch pubkey.typeName.toLower)

/-- `consumeMultisignatureVerificationGas`: for each set bit, the next
signature with the key at the bit's position; indexing past either list
panics. -/
def consumeMultisignatureVerificationGas : List Bool → List Bytes → List PubKey → AnteM Unit
  | [], _, _ => pure ()
  | bits, _, [] => if bits.any id then throw (.panic .other) else pure ()
  | false :: bits, sigs, _ :: pubkeys => consumeMultisignatureVerificationGas bits sigs pubkeys
  | true :: _, [], _ :: _ => throw (.panic .other)
  | true :: bits, sig :: sigs, pubkey :: pubkeys => do
    let _ ← consumeSigVerificationGas sig pubkey
    consumeMultisignatureVerificationGas bits sigs pubkeys
end

/-- `consumeSimSigGas`: in simulation, the size of a signature by the key, a
multisignature key counting `TxSigLimit` times. -/
def consumeSimSigGas (pubkey : PubKey) (sig : StdSignature) : AnteM Unit :=
  let simSig : StdSignature :=
    ⟨some pubkey, if sig.Signature.length = 0 then simSecp256k1Sig else []⟩
  let cost := be.sigSize simSig + 6
  let cost := match pubkey with
    | .MultisigThreshold _ _ => wrap64 (cost * params.TxSigLimit)
    | _ => cost
  consumeGas (wrap64 (params.TxSizeCostPerByte * cost)) "txSize"

variable {A : Type} [Account A]

/-- `ProcessPubKey`: the account's key, or, the first time, the signature's,
which must hash to the account's address.  In simulation a missing key is the
simulation key. -/
def ProcessPubKey (acc : A) (sig : StdSignature) (simulate : Bool) : Except AnteError PubKey :=
  if simulate then .ok ((GetPubKey acc).getD simSecp256k1Pubkey)
  else match GetPubKey acc with
    | some pubKey => .ok pubKey
    | none =>
      match sig.PubKey with
      | none => .error (.ErrInvalidPubKey "PubKey not found")
      | some pubKey =>
        if be.Address pubKey ≠ GetAddress acc then .error (.ErrInvalidPubKeyAddress (GetAddress acc))
        else .ok pubKey

/-- The end of `processSig`: the check charged, the signature checked unless
simulating, and the sequence one up. -/
def verifySig (acc : A) (pubKey : PubKey) (sig : StdSignature) (signBytes : Bytes) (simulate : Bool) :
    AnteM A := do
  match ← consumeSigVerificationGas be params sig.Signature pubKey with
  | some e => throw (.error e)
  | none =>
    if !simulate && !be.VerifyBytes pubKey signBytes sig.Signature then
      throw (.error (.ErrUnauthorized
        "signature verification failed; verify correct account sequence and chain-id"))
    else pure (SetSequence acc (GetSequence acc + 1))

/-- `processSig`: the key recorded, the check charged, the signature checked
unless simulating, and the sequence one up. -/
def processSig (acc : A) (sig : StdSignature) (signBytes : Bytes) (simulate : Bool) : AnteM A := do
  let pubKey ← orStop (ProcessPubKey be acc sig simulate)
  let acc := SetPubKey acc (some pubKey)
  if simulate then consumeSimSigGas be params pubKey sig
  verifySig be params acc pubKey sig signBytes simulate

end Signatures

/-! ### The handler -/

section Handler

variable {A M : Type} [Account A] [SdkMsg M] (be : Backend)

/-- `GetSignerAcc`: the signer's account must exist. -/
def GetSignerAcc (s : AuthState A) (addr : AccAddress) : Except AnteError A :=
  match s.GetAccount addr with
  | some acc => .ok acc
  | none => .error (.ErrUnknownAddress addr)

/-- `DeductFees`: a valid fee, within the account's coins and within what it may
spend at the block time, taken from its coins. -/
def DeductFees (blockTime : ℤ) (acc : A) (fee : StdFee) : Except AnteError A :=
  let coins := GetCoins acc
  let feeAmount := fee.Amount
  if !feeAmount.IsValid then .error (.ErrInsufficientFee ("invalid fee amount: " ++ feeAmount.String))
  else
    -- the flag `SafeSub` returns is that of a negative amount
    let (newCoins, ok) := coins.SafeSub feeAmount
    if ok then
      .error (.ErrInsufficientFunds
        ("insufficient funds to pay for fees; " ++ coins.String ++ " < " ++ feeAmount.String))
    else
      let spendableCoins := SpendableCoins acc blockTime
      if (spendableCoins.SafeSub feeAmount).2 then
        .error (.ErrInsufficientFunds
          ("insufficient funds to pay for fees; " ++ spendableCoins.String ++ " < " ++ feeAmount.String))
      else .ok (SetCoins acc newCoins)

/-- `GetSignBytes`: account number zero at the genesis block. -/
def GetSignBytes (chainID : String) (stdTx : StdTx M) (acc : A) (genesis : Bool) : Bytes :=
  let accNum := if genesis then 0 else GetAccountNumber acc
  StdSignBytes be chainID accNum (GetSequence acc) stdTx.Fee stdTx.Msgs stdTx.Memo

variable (env : Env) (stdTx : StdTx M) (simulate : Bool) (params : Params)

/-- The rounds of the signature loop after the first: each signer's account is
read, its signature processed and the account written. -/
def sigLoop : List StdSignature → List AccAddress → AuthState A → AnteM (AuthState A)
  | [], _, s => pure s
  -- `signerAddrs[i]` out of range
  | _ :: _, [], _ => throw (.panic .other)
  | sig :: sigs, addr :: addrs, s => do
    let acc ← orStop (GetSignerAcc s addr)
    let acc ← processSig be params acc sig
      (GetSignBytes be env.ChainID stdTx acc (env.BlockHeight == 0)) simulate
    sigLoop sigs addrs (s.SetAccount acc)

/-- The fee taken from the first signer's account and added to the fee pool,
when it is not zero. -/
def payFee (s : AuthState A) (acc : A) : AnteM (A × AuthState A) :=
  if !stdTx.Fee.Amount.IsZero then do
    let acc ← orStop (DeductFees env.BlockTime acc stdTx.Fee)
    pure (acc, s.AddCollectedFees stdTx.Fee.Amount)
  else pure (acc, s)

/-- The checks of the body before it reads an account: `ValidateBasic`, the
charge for the transaction's bytes and the memo. -/
def anteChecks (TxBytesLen : ℕ) : AnteM Unit :=
  match stdTx.ValidateBasic with
  | some e => throw (.error e)
  | none => do
    consumeGas (wrap64 (params.TxSizeCostPerByte * TxBytesLen)) "txSize"
    match ValidateMemo stdTx params with
    | some e => throw (.error e)
    | none => pure ()

/-- The fee payer's account, read once, its fee, its round, then the rounds of
the other signers. -/
def signAll (s : AuthState A) : AnteM (AuthState A) :=
  match stdTx.GetSigners with
  -- `signerAddrs[0]` of no signer
  | [] => throw (.panic .other)
  | addr :: addrs => do
    let acc ← orStop (GetSignerAcc s addr)
    let paid ← payFee env stdTx s acc
    match stdTx.Signatures with
    | [] => pure paid.2
    | sig :: sigs => do
      let acc ← processSig be params paid.1 sig
        (GetSignBytes be env.ChainID stdTx paid.1 (env.BlockHeight == 0)) simulate
      sigLoop be env stdTx simulate params sigs addrs (paid.2.SetAccount acc)

/-- The body of the handler after `SetGasMeter`, up to its return. -/
def anteBody (s : AuthState A) (TxBytesLen : ℕ) : AnteM (AuthState A) := do
  anteChecks stdTx params TxBytesLen
  signAll be env stdTx simulate params s

end Handler

variable {A M : Type} [Account A] [SdkMsg M]

/-- `NewAnteHandler`, as `runTx` calls it: on the store of a cache-wrapped
context and the context's gas meter, which it leaves as it was.  It returns
the new context's gas meter, `none` for the zero context, its result and
whether to abort.  An aborted handler's writes are not kept by `runTx`, so its
store is reported as it was. -/
def NewAnteHandler (be : Backend) (env : Env) : BaseApp.AnteHandler (AuthState A) (AnteTx M) :=
  fun s gasMeter tx simulate =>
  match tx.tx with
  | none =>
    -- a meter with limit zero, against an infinite gas meter in `runTx`
    ⟨gasMeter, s, .ok ⟨some (SetGasMeter simulate env 0), ErrResult CodeInternal, true⟩⟩
  | some stdTx =>
    let params := s.params
    let mempool := if env.IsCheckTx && !simulate then EnsureSufficientMempoolFees env.MinGasPrices stdTx.Fee
      else .ok none
    match mempool with
    | .error _ => ⟨gasMeter, s, .error .other⟩
    | .ok (some e) => ⟨gasMeter, s, .ok ⟨none, e.Result, true⟩⟩
    | .ok none =>
      match anteBody be env stdTx simulate params s tx.TxBytesLen (SetGasMeter simulate env stdTx.Fee.Gas) with
      | .ok s' g => ⟨gasMeter, s', .ok ⟨some g, ⟨CodeOK, stdTx.Fee.Gas, 0⟩, false⟩⟩
      | .error (.error e) g => ⟨gasMeter, s, .ok ⟨some g, e.Result, true⟩⟩
      -- the deferred recover turns running out of gas into an error
      | .error (.panic (.ErrorOutOfGas _)) g =>
        ⟨gasMeter, s, .ok ⟨some g, ⟨CodeOutOfGas, stdTx.Fee.Gas, g.GasConsumed⟩, true⟩⟩
      | .error (.panic p) _ => ⟨gasMeter, s, .error p⟩

end Auth

end ColorSdk
