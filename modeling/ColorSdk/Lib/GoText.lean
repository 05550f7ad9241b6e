import Mathlib

/-!
# Text functions of Go's standard library

Programs that read numbers and lists back from text call `strings.TrimSpace`,
`strings.Split`, `strconv.Atoi` and `big.Int.SetString`, and match regular
expressions with character classes.  This file gives these as functions on lists
of characters, with the facts a round trip through a printer needs: printed
digits parse back to the number, and signs, spaces and separators are told apart
from digits.

Lengths are counted in characters, which are Go's bytes on ASCII text.
`strings.Split` with a one-character separator is core's `List.splitOn`.

## Main definitions

* `GoText.isSpace`, `GoText.trimSpace` — `unicode.IsSpace` and `strings.TrimSpace`.
* `GoText.isRegexSpace` — the class `[[:space:]]` of Go's regular expressions.
* `GoText.decimalDigits` — a non-empty list of decimal digits, read as a number.
* `GoText.setString10` — `big.Int.SetString(s, 10)`.
* `GoText.setString0Digits` — `big.Int.SetString(s, 0)` on a string of digits.
* `GoText.atoi` — `strconv.Atoi`.
* `GoText.hasSuffix`, `GoText.trimSuffix` — `strings.HasSuffix` and
  `strings.TrimSuffix`.

## Main results

* `GoText.decimalDigits_eq_some` — what `decimalDigits` accepts.
* `GoText.setString10_of_digits` — digits without a sign read as their value.
* `GoText.decimalDigits_toDigits`, `GoText.atoi_toDigits` — printed digits
  parse back.
* `GoText.trimSpace_of_head_tail` — text that starts and ends with other
  characters is left as it is.
* `GoText.mem_intercalate` — the characters of joined text.
-/

namespace GoText

/-! ### White space -/

/-- `unicode.IsSpace`: the Latin-1 spaces, and the other characters of the
`White_Space` property. -/
def isSpace (c : Char) : Bool :=
  match c.val with
  | 0x09 | 0x0A | 0x0B | 0x0C | 0x0D | 0x20 | 0x85 | 0xA0 => true
  | 0x1680 | 0x2028 | 0x2029 | 0x202F | 0x205F | 0x3000 => true
  | v => decide (0x2000 ≤ v ∧ v ≤ 0x200A)

/-- `strings.TrimSpace`: the text without its leading and trailing white space. -/
def trimSpace (s : List Char) : List Char :=
  ((s.dropWhile isSpace).reverse.dropWhile isSpace).reverse

/-- `[[:space:]]` of Go's regular expressions: the ASCII white space. -/
def isRegexSpace (c : Char) : Bool :=
  c = ' ' || c = '\t' || c = '\n' || c = '\x0b' || c = '\x0c' || c = '\r'

/-- Text whose first and last characters are not white space is its own trim. -/
theorem trimSpace_of_head_tail {s : List Char} (hhead : ∀ c, s.head? = some c → isSpace c = false)
    (hlast : ∀ c, s.getLast? = some c → isSpace c = false) : trimSpace s = s := by
  -- nothing is dropped from the front, then nothing from the back
  have hfront : s.dropWhile isSpace = s := by
    cases s with
    | nil => rfl
    | cons c cs => simp [hhead c rfl]
  have hback : s.reverse.dropWhile isSpace = s.reverse := by
    cases hs : s.reverse with
    | nil => rfl
    | cons c cs =>
      have hc : s.getLast? = some c := by
        rw [← List.head?_reverse, hs]
        rfl
      simp [hlast c hc]
  rw [trimSpace, hfront, hback, List.reverse_reverse]

/-- Text without white space is its own trim. -/
theorem trimSpace_of_forall {s : List Char} (h : ∀ c ∈ s, isSpace c = false) : trimSpace s = s :=
  trimSpace_of_head_tail (fun c hc => h c (List.mem_of_mem_head? hc))
    (fun c hc => h c (List.mem_of_getLast? hc))

/-- The printable ASCII characters after the space are not white space. -/
theorem isSpace_of_between {c : Char} (h₁ : 0x20 < c.toNat) (h₂ : c.toNat < 0x85) :
    isSpace c = false := by
  have hval : 0x20 < c.val.toNat ∧ c.val.toNat < 0x85 := ⟨h₁, h₂⟩
  unfold isSpace
  -- a listed code point is out of the range, and so is the block from `U+2000`
  split
  all_goals first
    | (rename_i heq; rw [heq] at hval; simp at hval)
    | (simp [UInt32.le_iff_toNat_le]; omega)

/-! ### Joined text

`strings.Join` is core's `List.intercalate`, and core's `List.splitOn_intercalate`
undoes it when no part holds the separator. -/

/-- A character of text joined by a separator is one of the separator's or of a
part's. -/
theorem mem_intercalate {sep : List Char} {x : Char} :
    ∀ {ts : List (List Char)}, x ∈ sep.intercalate ts → x ∈ sep ∨ ∃ t ∈ ts, x ∈ t
  | [], h => absurd h List.not_mem_nil
  | [t], h => .inr ⟨t, List.mem_singleton_self t, by rwa [List.intercalate_singleton] at h⟩
  | t :: t' :: ts, h => by
    rw [List.intercalate_cons_cons, List.mem_append, List.mem_append] at h
    rcases h with (h | h) | h
    · exact .inr ⟨t, List.mem_cons_self, h⟩
    · exact .inl h
    · obtain h | ⟨u, hu, hx⟩ := mem_intercalate h
      · exact .inl h
      · exact .inr ⟨u, List.mem_cons_of_mem t hu, hx⟩

/-- Text joined from parts is not empty when its first part is not. -/
theorem intercalate_ne_nil {sep t : List Char} {ts : List (List Char)} (ht : t ≠ []) :
    sep.intercalate (t :: ts) ≠ [] := by
  cases ts with
  | nil => rwa [List.intercalate_singleton]
  | cons t' ts => simp [List.intercalate_cons_cons, ht]

/-! ### Digits -/

/-- A non-empty list of decimal digits, and the number it writes. -/
def decimalDigits (ds : List Char) : Option ℕ :=
  if !ds.isEmpty && ds.all Char.isDigit then some (Nat.ofDigitChars 10 ds 0) else none

theorem decimalDigits_eq_some {ds : List Char} {n : ℕ} :
    decimalDigits ds = some n ↔
      ds ≠ [] ∧ (∀ c ∈ ds, c.isDigit = true) ∧ Nat.ofDigitChars 10 ds 0 = n := by
  unfold decimalDigits
  split_ifs with h <;> simp_all

/-- Printed digits parse back to the number. -/
@[simp] theorem decimalDigits_toDigits (n : ℕ) : decimalDigits (Nat.toDigits 10 n) = some n :=
  decimalDigits_eq_some.2 ⟨Nat.toDigits_ne_nil,
    fun _ hc => Nat.isDigit_of_mem_toDigits (by decide) (by decide) hc,
    Nat.ofDigitChars_ten_toDigits⟩

/-- The printed digits of a positive number do not start with `0`. -/
theorem head_toDigits_ne_zero {n : ℕ} (hn : 0 < n) : (Nat.toDigits 10 n).head? ≠ some '0' := by
  induction n using Nat.strong_induction_on with
  | _ n ih =>
    rcases Nat.lt_or_ge n 10 with hlt | hge
    · -- one digit, and not the zero digit
      rw [Nat.toDigits_of_lt_base hlt, List.head?_cons, ne_eq, Option.some.injEq,
        Nat.digitChar_eq_zero]
      omega
    · -- the leading digits are those of `n / 10`
      rw [Nat.toDigits_of_base_le (by decide) hge, List.head?_append_of_ne_nil _ Nat.toDigits_ne_nil]
      exact ih (n / 10) (by omega) (by omega)

/-- A digit is not a sign. -/
theorem ne_sign_of_isDigit {c : Char} (h : c.isDigit = true) : c ≠ '-' ∧ c ≠ '+' := by
  constructor <;> rintro rfl <;> simp at h

/-! ### `big.Int.SetString` -/

/-- `big.Int.SetString(s, 10)`: an optional sign, then one decimal digit or
more, and nothing else. -/
def setString10 (s : List Char) : Option ℤ :=
  match s with
  | '-' :: ds => (decimalDigits ds).map fun n => -(n : ℤ)
  | '+' :: ds => (decimalDigits ds).map fun n => (n : ℤ)
  | ds => (decimalDigits ds).map fun n => (n : ℤ)

/-- Digits without a sign read as the number they write. -/
theorem setString10_of_digits {ds : List Char} {n : ℕ} (h : decimalDigits ds = some n) :
    setString10 ds = some (n : ℤ) := by
  obtain ⟨hne, hdigits, -⟩ := decimalDigits_eq_some.1 h
  obtain ⟨c, cs, rfl⟩ := List.exists_cons_of_ne_nil hne
  obtain ⟨hminus, hplus⟩ := ne_sign_of_isDigit (hdigits c List.mem_cons_self)
  -- the first character is a digit, so neither sign branch is taken
  unfold setString10
  split
  next ds heq => exact absurd (List.cons.inj heq).1 hminus
  next ds heq => exact absurd (List.cons.inj heq).1 hplus
  next => simp [h]

/-- An octal digit. -/
def isOctDigit (c : Char) : Bool := '0' ≤ c && c ≤ '7'

/-- `big.Int.SetString(s, 0)` on a non-empty string of decimal digits, the only
text it is given after a regular expression has matched `[[:digit:]]+`: a `0`
before more digits selects base 8, and the scan then stops at an `8` or a `9`,
which leaves text unread and fails. -/
def setString0Digits (ds : List Char) : Option ℕ :=
  match ds with
  | '0' :: d :: rest =>
    if (d :: rest).all isOctDigit then some (Nat.ofDigitChars 8 (d :: rest) 0) else none
  | _ => decimalDigits ds

/-- Printed digits of a positive number read back in base 10: they do not start
with `0`. -/
theorem setString0Digits_toDigits {n : ℕ} (hn : 0 < n) :
    setString0Digits (Nat.toDigits 10 n) = some n := by
  have hhead := head_toDigits_ne_zero hn
  unfold setString0Digits
  split
  · rename_i d rest heq
    rw [heq] at hhead
    exact absurd rfl hhead
  · exact decimalDigits_toDigits n

/-! ### `strconv.Atoi` -/

/-- The cause of a `strconv.NumError`. -/
inductive NumError where
  /-- "invalid syntax" -/
  | ErrSyntax
  /-- "value out of range" -/
  | ErrRange
  deriving DecidableEq, Repr

/-- `strconv.Atoi` on a 64-bit platform: an optional sign, then one decimal
digit or more, of a value in the range of `int`. -/
def atoi (s : List Char) : Except NumError ℤ :=
  match setString10 s with
  | none => .error .ErrSyntax
  | some i => if -2 ^ 63 ≤ i ∧ i < 2 ^ 63 then .ok i else .error .ErrRange

/-- Printed digits of a number in the range of `int` read back as it. -/
theorem atoi_toDigits {n : ℕ} (hn : n < 2 ^ 63) : atoi (Nat.toDigits 10 n) = .ok n := by
  have hrange : -2 ^ 63 ≤ (n : ℤ) ∧ (n : ℤ) < 2 ^ 63 := by omega
  rw [atoi, setString10_of_digits (decimalDigits_toDigits n)]
  exact if_pos hrange

/-! ### Suffixes -/

/-- `strings.HasSuffix`. -/
def hasSuffix (s suffix : List Char) : Bool := suffix.isSuffixOf s

/-- `strings.TrimSuffix`: the text without the suffix, when it ends with it. -/
def trimSuffix (s suffix : List Char) : List Char :=
  if hasSuffix s suffix then s.take (s.length - suffix.length) else s

@[simp] theorem hasSuffix_append (s t : List Char) : hasSuffix (s ++ t) t = true := by
  simp [hasSuffix, List.isSuffixOf_iff_suffix]

@[simp] theorem trimSuffix_append (s t : List Char) : trimSuffix (s ++ t) t = s := by
  simp [trimSuffix]

/-- Text ends with a character exactly when that is its last. -/
theorem hasSuffix_singleton (s : List Char) (c : Char) :
    hasSuffix s [c] = true ↔ s.getLast? = some c := by
  rw [hasSuffix, List.isSuffixOf_iff_suffix, List.singleton_suffix_iff_getLast?_eq_some]

/-- Printed digits do not end with a character that is not a digit. -/
theorem hasSuffix_toDigits {c : Char} (hc : c.isDigit = false) (n : ℕ) :
    hasSuffix (Nat.toDigits 10 n) [c] = false := by
  rw [Bool.eq_false_iff, ne_eq, hasSuffix_singleton]
  intro hlast
  have hdigit := Nat.isDigit_of_mem_toDigits (by decide) (by decide) (List.mem_of_getLast? hlast)
  rw [hc] at hdigit
  exact Bool.false_ne_true hdigit

end GoText
