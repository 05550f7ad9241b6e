import ColorSdk.Lib.GoText
import ColorSdk.Lib.ExceptSpec
import Mathlib

/-!
# BIP 44 paths

A key of the keybase is derived along a BIP 32 path of five levels,
`purpose' / coinType' / account' / change / addressIndex`, where a trailing
apostrophe marks a hardened level.  `NewParamsFromPath` reads such a path into
`BIP44Params`, and `BIP44Params.String` prints it back.
`DerivePrivateKeyForPath` follows any path from a master key.

Both readers split the path at its slashes and read each part with
`strconv.Atoi`, which accepts a sign, leading zeros and any value of a 64-bit
`int`; the value is then cast to `uint32`, which keeps it modulo `2³²`.
`DerivePrivateKeyForPath` looks at the last byte of each part before anything
else, with `part[len(part)-1:]`, which panics on an empty part.

The derivation of one level (`derivePrivateKey`, HMAC-SHA512 and the curve's
arithmetic) is a parameter of the model.  Text is a list of characters.

## Main definitions

* `BIP44Params`, `BIP44Params.String`.
* `hardenedInt`, `isHardened`, `NewParamsFromPath` — the reader of BIP 44 paths.
* `DerivePrivateKeyForPath` — the derivation along a BIP 32 path.

## Main results

* `NewParamsFromPath_String` — every parameter set of purpose `44` is read back
  from its text.
* `DerivePrivateKeyForPath_panics` — a part that is empty, after parts that
  each read, panics.
* `DerivePrivateKeyForPath_toDigits` — a part of digits derives the level of its
  value modulo `2³²`.
* `hd_path_not_strict` — the reader accepts non-canonical and wrapped numbers,
  and the derivation panics on an empty part and accepts an index out of the
  range of BIP 32.

## References

* src/crypto/keys/hd/hdpath.go
-/

namespace ColorSdk
namespace Hd

open GoText

/-- `BIP44Params`: the five levels of a BIP 44 path. -/
structure BIP44Params where
  Purpose : UInt32
  CoinType : UInt32
  Account : UInt32
  Change : Bool
  AddressIndex : UInt32
  deriving DecidableEq, Repr

/-- The errors of `NewParamsFromPath`. -/
inductive PathError where
  /-- "path length is wrong. Expected 5, got %d" -/
  | pathLength (got : ℕ)
  /-- The error of `strconv.Atoi` on a field. -/
  | atoi (err : NumError)
  /-- "fields must not be negative. got %d" -/
  | negativeField (got : ℤ)
  /-- "first field in path must be 44', got %v" -/
  | firstField (got : List Char)
  /-- "second and third field in path must be hardened (ie. contain the suffix ',
  got %v and %v" -/
  | notHardened (second third : List Char)
  /-- "fourth and fifth field in path must not be hardened (ie. not contain the
  suffix ', got %v and %v" -/
  | hardened (fourth fifth : List Char)
  /-- "change field can only be 0 or 1" -/
  | changeField
  deriving DecidableEq, Repr

/-- A field of a path, without its apostrophe, read as a non-negative `int`
and cast to `uint32`. -/
def hardenedInt (field : List Char) : Except PathError UInt32 :=
  let field := trimSuffix field ['\'']
  match atoi field with
  | .error err => .error (.atoi err)
  | .ok i => if i < 0 then .error (.negativeField i) else .ok (UInt32.ofNat i.toNat)

def isHardened (field : List Char) : Bool := hasSuffix field ['\'']

/-- The reader of BIP 44 paths: every field is read before any is checked. -/
def NewParamsFromPath (path : List Char) : Except PathError BIP44Params :=
  match path.splitOn '/' with
  | [s0, s1, s2, s3, s4] => do
    let purpose ← hardenedInt s0
    let coinType ← hardenedInt s1
    let account ← hardenedInt s2
    let change ← hardenedInt s3
    let addressIdx ← hardenedInt s4
    if s0 ≠ ['4', '4', '\''] then throw (.firstField s0)
    if !isHardened s1 || !isHardened s2 then throw (.notHardened s1 s2)
    if isHardened s3 || isHardened s4 then throw (.hardened s3 s4)
    if !(change = 0 || change = 1) then throw .changeField
    pure ⟨purpose, coinType, account, decide (change > 0), addressIdx⟩
  | spl => .error (.pathLength spl.length)

/-- `fmt.Sprintf("%d'/%d'/%d'/%s/%d", ...)` of the five levels. -/
def BIP44Params.String (p : BIP44Params) : List Char :=
  let changeStr := if p.Change then ['1'] else ['0']
  ['/'].intercalate [Nat.toDigits 10 p.Purpose.toNat ++ ['\''],
    Nat.toDigits 10 p.CoinType.toNat ++ ['\''], Nat.toDigits 10 p.Account.toNat ++ ['\''],
    changeStr, Nat.toDigits 10 p.AddressIndex.toNat]

/-! ### Printed paths read back -/

theorem slash_not_mem_toDigits (n : ℕ) : '/' ∉ Nat.toDigits 10 n := by
  intro h
  have hdigit := Nat.isDigit_of_mem_toDigits (by decide) (by decide) h
  exact absurd hdigit (by decide)

theorem trimSuffix_toDigits (n : ℕ) : trimSuffix (Nat.toDigits 10 n) ['\''] = Nat.toDigits 10 n := by
  rw [trimSuffix, hasSuffix_toDigits (by decide)]
  rfl

/-- A field whose part before its apostrophe is a printed `uint32` reads as
it. -/
theorem hardenedInt_eq {field : List Char} {x : UInt32}
    (h : trimSuffix field ['\''] = Nat.toDigits 10 x.toNat) : hardenedInt field = .ok x := by
  have hlt : x.toNat < 2 ^ 63 := by
    have := x.toNat_lt
    omega
  have hnonneg : ¬ ((x.toNat : ℤ) < 0) := by omega
  simp only [hardenedInt, h, atoi_toDigits hlt, hnonneg, if_false, Int.toNat_natCast,
    UInt32.ofNat_toNat]

/-- **The printer and the reader agree.**  Every parameter set of purpose `44`
prints to a path that reads back as it. -/
theorem NewParamsFromPath_String {p : BIP44Params} (hp : p.Purpose = 44) :
    NewParamsFromPath p.String = .ok p := by
  obtain ⟨purpose, coinType, account, change, addressIndex⟩ := p
  dsimp only at hp
  subst hp
  -- the fields hold no slash, so the split gives them back
  have hslash : ∀ l ∈ [Nat.toDigits 10 (44 : UInt32).toNat ++ ['\''],
      Nat.toDigits 10 coinType.toNat ++ ['\''], Nat.toDigits 10 account.toNat ++ ['\''],
      if change then ['1'] else ['0'], Nat.toDigits 10 addressIndex.toNat], '/' ∉ l := by
    intro l hl
    simp only [List.mem_cons, List.not_mem_nil, or_false] at hl
    rcases hl with rfl | rfl | rfl | rfl | rfl
    all_goals cases change <;> simp [slash_not_mem_toDigits]
  rw [BIP44Params.String, NewParamsFromPath, List.splitOn_intercalate '/' hslash (by simp)]
  -- each field reads back
  have h44 : Nat.toDigits 10 (44 : UInt32).toNat ++ ['\''] = ['4', '4', '\''] := by decide
  have hpurpose : hardenedInt ['4', '4', '\''] = .ok 44 := hardenedInt_eq (by decide)
  have hcoin := hardenedInt_eq (trimSuffix_append (Nat.toDigits 10 coinType.toNat) ['\''])
  have hacct := hardenedInt_eq (trimSuffix_append (Nat.toDigits 10 account.toNat) ['\''])
  have hidx := hardenedInt_eq (trimSuffix_toDigits addressIndex.toNat)
  have hidxSoft : hasSuffix (Nat.toDigits 10 addressIndex.toNat) ['\''] = false :=
    hasSuffix_toDigits (by decide) _
  -- the change field is `0` or `1`, and not hardened
  have hchange : hardenedInt (if change then ['1'] else ['0']) = .ok (if change then 1 else 0) := by
    cases change <;> exact hardenedInt_eq (by decide)
  have hsoft : hasSuffix (if change then ['1'] else ['0']) ['\''] = false := by
    cases change <;> decide
  rw [h44]
  simp only [isHardened, hpurpose, hcoin, hacct, hchange, hidx, hidxSoft, hsoft, Except.ok_bind]
  cases change <;> simp [pure, Except.pure]

/-! ### Derivation along a path -/

/-- What `DerivePrivateKeyForPath` stops with. -/
inductive DeriveError where
  /-- `part[len(part)-1:]` on an empty part: the run-time panic "slice bounds
  out of range". -/
  | sliceBoundsOutOfRange
  /-- "invalid BIP 32 path: %s", with the error of `strconv.Atoi`. -/
  | invalidPath (err : NumError)
  /-- "invalid BIP 32 path: index negative ot too large" -/
  | indexNegative
  deriving DecidableEq, Repr

section Derive

variable {Key : Type} (derivePrivateKey : Key → Key → UInt32 → Bool → Key × Key)

/-- One part of a path: the key and chain code of the level it names. -/
def deriveStep (acc : Key × Key) (part : List Char) : Except DeriveError (Key × Key) :=
  -- the last byte is read before the part is checked
  if part = [] then .error .sliceBoundsOutOfRange
  else
    let harden := decide (part.getLast? = some '\'')
    let part := if harden then part.dropLast else part
    match atoi part with
    | .error err => .error (.invalidPath err)
    | .ok idx =>
      if idx < 0 then .error .indexNegative
      else .ok (derivePrivateKey acc.1 acc.2 (UInt32.ofNat idx.toNat) harden)

/-- The derivation along a BIP 32 path, one level for each part. -/
def DerivePrivateKeyForPath (privKeyBytes chainCode : Key) (path : List Char) :
    Except DeriveError Key := do
  let r ← (path.splitOn '/').foldlM (deriveStep derivePrivateKey) (privKeyBytes, chainCode)
  -- the copy into a 32-byte array always copies 32 bytes: its error is dead
  pure r.1

/-- **An empty part panics.**  When the parts before an empty one each derive a
level, the derivation reaches the empty part and panics. -/
theorem DerivePrivateKeyForPath_panics {privKeyBytes chainCode : Key} {path : List Char}
    {ps qs : List (List Char)} (hsplit : path.splitOn '/' = ps ++ [] :: qs) {acc : Key × Key}
    (hps : ps.foldlM (deriveStep derivePrivateKey) (privKeyBytes, chainCode) = .ok acc) :
    DerivePrivateKeyForPath derivePrivateKey privKeyBytes chainCode path =
      .error .sliceBoundsOutOfRange := by
  rw [DerivePrivateKeyForPath, hsplit, List.foldlM_append, hps, Except.ok_bind,
    List.foldlM_cons]
  rfl

/-- A part of digits derives the level of its value modulo `2³²`. -/
theorem deriveStep_toDigits (acc : Key × Key) {n : ℕ} (hn : n < 2 ^ 63) :
    deriveStep derivePrivateKey acc (Nat.toDigits 10 n) =
      .ok (derivePrivateKey acc.1 acc.2 (UInt32.ofNat n) false) := by
  have hne : Nat.toDigits 10 n ≠ [] := Nat.toDigits_ne_nil
  have hsoft : decide ((Nat.toDigits 10 n).getLast? = some '\'') = false := by
    rw [decide_eq_false_iff_not, ← hasSuffix_singleton, hasSuffix_toDigits (by decide)]
    exact Bool.false_ne_true
  have hnonneg : ¬ ((n : ℤ) < 0) := by omega
  simp only [deriveStep, hne, if_false, hsoft, Bool.false_eq_true, atoi_toDigits hn, hnonneg,
    Int.toNat_natCast]

/-- A path of one part of digits derives the level of its value modulo `2³²`:
values `2³²` apart derive the same key. -/
theorem DerivePrivateKeyForPath_toDigits (privKeyBytes chainCode : Key) {n : ℕ}
    (hn : n < 2 ^ 63) :
    DerivePrivateKeyForPath derivePrivateKey privKeyBytes chainCode (Nat.toDigits 10 n) =
      .ok (derivePrivateKey privKeyBytes chainCode (UInt32.ofNat n) false).1 := by
  rw [DerivePrivateKeyForPath, List.splitOn_eq_singleton (slash_not_mem_toDigits n),
    List.foldlM_cons, deriveStep_toDigits derivePrivateKey _ hn, Except.ok_bind]
  rfl

end Derive

/-! ### What the readers accept -/

/-- **The readers are not strict.**  `NewParamsFromPath` accepts a leading
zero, and its path does not print back as it was; it accepts a coin type of
`2³² + 118` and reads the fundraiser's coin type `118`.  For every derivation
of a level and every master key and chain code, `DerivePrivateKeyForPath`
panics on a path with an empty part, derives a level of index `2³¹`, out of
the range of BIP 32 indexes, for the part `2147483648`, and derives the level
`0` for the part `4294967296`. -/
theorem hd_path_not_strict :
    NewParamsFromPath "44'/01'/0'/0/0".toList = .ok ⟨44, 1, 0, false, 0⟩ ∧
    BIP44Params.String ⟨44, 1, 0, false, 0⟩ = "44'/1'/0'/0/0".toList ∧
    NewParamsFromPath "44'/4294967414'/0'/0/0".toList = .ok ⟨44, 118, 0, false, 0⟩ ∧
    NewParamsFromPath "44'/118'/0'/0/0".toList = .ok ⟨44, 118, 0, false, 0⟩ ∧
    ∀ {Key : Type} (derivePrivateKey : Key → Key → UInt32 → Bool → Key × Key)
      (privKeyBytes chainCode : Key),
      DerivePrivateKeyForPath derivePrivateKey privKeyBytes chainCode "44'//0".toList =
        .error .sliceBoundsOutOfRange ∧
      DerivePrivateKeyForPath derivePrivateKey privKeyBytes chainCode "2147483648".toList =
        .ok (derivePrivateKey privKeyBytes chainCode 2147483648 false).1 ∧
      DerivePrivateKeyForPath derivePrivateKey privKeyBytes chainCode "4294967296".toList =
        DerivePrivateKeyForPath derivePrivateKey privKeyBytes chainCode "0".toList := by
  refine ⟨by decide, by decide, by decide, by decide, fun derivePrivateKey k c => ⟨?_, ?_, ?_⟩⟩
  · -- the first part derives, and the second is empty
    have hsplit : "44'//0".toList.splitOn '/' = ["44'".toList] ++ [] :: ["0".toList] := by decide
    have hfirst : ["44'".toList].foldlM (deriveStep derivePrivateKey) (k, c) =
        .ok (derivePrivateKey k c 44 true) := rfl
    exact DerivePrivateKeyForPath_panics derivePrivateKey hsplit hfirst
  · -- one part of digits, read as a `uint32` without a check of its range
    rw [show "2147483648".toList = Nat.toDigits 10 2147483648 by decide,
      DerivePrivateKeyForPath_toDigits derivePrivateKey k c (by norm_num)]
    rfl
  · -- both paths are one part of digits, of values `2³²` apart
    rw [show "4294967296".toList = Nat.toDigits 10 4294967296 by decide,
      show "0".toList = Nat.toDigits 10 0 by decide,
      DerivePrivateKeyForPath_toDigits derivePrivateKey k c (by norm_num),
      DerivePrivateKeyForPath_toDigits derivePrivateKey k c (by norm_num)]
    rfl

end Hd
end ColorSdk
