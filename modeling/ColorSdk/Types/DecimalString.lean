import ColorSdk.Types.Decimal
import ColorSdk.Lib.GoText

/-!
# Decimals as text

`Dec.String` prints the digits of the absolute value with a point before the
last eighteen, a `0.` and zeros in front of a value below one, and a minus sign
before a negative value.  `NewDecFromStr` reads such text back: it strips one
minus sign, splits at the points, pads the digits after the point to eighteen
with zeros, and hands the digits to `big.Int.SetString`.

`big.Int.SetString` takes its own sign, so a second minus sign, or a plus sign,
passes the parser: `--1` reads as `1` and `+1` as `1`, although neither is of
the grammar `-?[0-9]+(\.[0-9]{1,18})?` of decimal text.  What `Dec.String`
prints, on the other hand, reads back to the same decimal.

Text is a list of characters; its lengths are Go's byte lengths on ASCII text.

## Main definitions

* `Dec.String`, `NewDecFromStr`.
* `DecimalGrammar` — the text of `-?[0-9]+(\.[0-9]{1,18})?`.

## Main results

* `NewDecFromStr_String` — printing and reading back gives the decimal.
* `NewDecFromStr_accepts_signs` — `--1` and `+1` are not of the grammar and read
  as one.

## References

* src/types/decimal.go
-/

namespace ColorSdk

open GoText

/-! ### Printing -/

/-- The digits of the absolute value with the point placed, `bzStr` of
`Dec.String`: eighteen digits after it, and `0.` and zeros in front of no more
than eighteen digits. -/
def pointDigits (bzInt : List Char) : List Char :=
  let inputSize := bzInt.length
  if inputSize ≤ Precision then
    '0' :: '.' :: (List.replicate (Precision - inputSize) '0' ++ bzInt)
  else
    bzInt.take (inputSize - Precision) ++ '.' :: bzInt.drop (inputSize - Precision)

/-- `Dec.String`: the digits of the absolute value with the point placed, and a
minus sign in front of a negative value. -/
def Dec.String (d : Dec) : List Char :=
  let bzStr := pointDigits (Nat.toDigits 10 d.i.natAbs)
  if d.i < 0 then '-' :: bzStr else bzStr

/-! ### Reading -/

/-- The errors of `NewDecFromStr`, all `ErrUnknownRequest`, with the values their
messages print. -/
inductive DecStrError where
  /-- "decimal string is empty" -/
  | empty
  /-- "bad decimal length" -/
  | badDecimalLength
  /-- "too many periods to be a decimal string" -/
  | tooManyPeriods
  /-- "too much precision, maximum %v, len decimal %v" -/
  | tooMuchPrecision (lenDecs : ℕ)
  /-- "bad string to integer conversion, combinedStr: %v" -/
  | badConversion (combinedStr : List Char)
  deriving DecidableEq, Repr

/-- The end of `NewDecFromStr`: the digits padded with zeros to eighteen after
the point, read by `big.Int.SetString` in base 10, and negated for a stripped
minus sign. -/
def decFromCombined (neg : Bool) (combinedStr : List Char) (lenDecs : ℕ) :
    Except DecStrError Dec :=
  if Precision < lenDecs then .error (.tooMuchPrecision lenDecs)
  else
    -- add some extra zeros to correct to the precision factor
    let combinedStr := combinedStr ++ List.replicate (Precision - lenDecs) '0'
    match setString10 combinedStr with
    | none => .error (.badConversion combinedStr)
    | some combined => .ok ⟨if neg then -combined else combined⟩

/-- `NewDecFromStr`: one leading minus sign, then the digits, split at the point
into at most two parts, neither of them empty when there are two. -/
def NewDecFromStr (str : List Char) : Except DecStrError Dec :=
  if str = [] then .error .empty
  else
    -- first extract any negative symbol
    let neg := str.head? = some '-'
    let str := if neg then str.tail else str
    if str = [] then .error .empty
    else
      match str.splitOn '.' with
      | [combinedStr] => decFromCombined neg combinedStr 0
      | [intStr, decStr] =>
        if decStr.length = 0 ∨ intStr.length = 0 then .error .badDecimalLength
        else decFromCombined neg (intStr ++ decStr) decStr.length
      | _ => .error .tooManyPeriods

/-- The text of `-?[0-9]+(\.[0-9]{1,18})?`: a minus sign or none, one digit or
more, and a point followed by one to eighteen digits or nothing. -/
def DecimalGrammar (s : List Char) : Bool :=
  let body := match s with
    | '-' :: rest => rest
    | rest => rest
  match body.splitOn '.' with
  | [intStr] => (decimalDigits intStr).isSome
  | [intStr, decStr] =>
    (decimalDigits intStr).isSome && (decimalDigits decStr).isSome && decStr.length ≤ Precision
  | _ => false

/-! ### The round trip -/

/-- Printed digits hold no point and no minus sign. -/
theorem not_mem_toDigits {c : Char} (hc : c.isDigit = false) (n : ℕ) :
    c ∉ Nat.toDigits 10 n := fun hmem =>
  absurd (Nat.isDigit_of_mem_toDigits (by decide) (by decide) hmem) (by simp [hc])

/-- Splitting `a.b` at the point, with no point in `a` or `b`. -/
theorem splitOn_point {a b : List Char} (ha : '.' ∉ a) (hb : '.' ∉ b) :
    (a ++ '.' :: b).splitOn '.' = [a, b] := by
  rw [List.splitOn_append_cons_self_of_not_mem ha, List.splitOn_eq_singleton hb]

/-- The digits of the absolute value, as `Dec.String` reads them back: with
eighteen digits after the point. -/
theorem decFromCombined_digits (neg : Bool) {ds : List Char} {n : ℕ}
    (h : decimalDigits ds = some n) :
    decFromCombined neg ds Precision = .ok ⟨if neg then -(n : ℤ) else n⟩ := by
  have hpad : ds ++ List.replicate (Precision - Precision) '0' = ds := by simp
  simp only [decFromCombined, lt_irrefl, if_false, hpad, setString10_of_digits h]

/-- The placed point splits the digits into a non-empty whole part and eighteen
digits after it, which together write the same number. -/
theorem pointDigits_split {bz : List Char} (hne : bz ≠ []) (hdigits : ∀ c ∈ bz, c.isDigit = true) :
    ∃ intStr decStr, pointDigits bz = intStr ++ '.' :: decStr ∧ intStr ≠ [] ∧
      decStr.length = Precision ∧ (∀ c ∈ intStr ++ decStr, c.isDigit = true) ∧
      Nat.ofDigitChars 10 (intStr ++ decStr) 0 = Nat.ofDigitChars 10 bz 0 := by
  by_cases hsize : bz.length ≤ Precision
  · -- `0.`, then zeros up to eighteen digits
    refine ⟨['0'], List.replicate (Precision - bz.length) '0' ++ bz, by simp [pointDigits, hsize],
      by simp, by simp; omega, ?_, ?_⟩
    · intro c hc
      simp only [List.singleton_append, List.mem_cons, List.mem_append, List.mem_replicate] at hc
      rcases hc with rfl | ⟨-, rfl⟩ | hc
      · rfl
      · rfl
      · exact hdigits c hc
    · rw [List.singleton_append, ← List.cons_append, ← List.replicate_succ,
        Nat.ofDigitChars_append, Nat.ofDigitChars_replicate_zero, Nat.mul_zero]
  · -- the point eighteen digits from the end
    have hpos : 0 < bz.length - Precision := by omega
    refine ⟨bz.take (bz.length - Precision), bz.drop (bz.length - Precision),
      by simp [pointDigits, hsize], ?_, by simp; omega, ?_, by rw [List.take_append_drop]⟩
    · intro hnil
      rcases List.take_eq_nil_iff.1 hnil with hzero | hnil
      · omega
      · exact hne hnil
    · rw [List.take_append_drop]
      exact hdigits

/-- **Printing and reading back gives the decimal.** -/
theorem NewDecFromStr_String (d : Dec) : NewDecFromStr d.String = .ok d := by
  obtain ⟨intStr, decStr, hsplit, hint, hlen, hdigits, hvalue⟩ :=
    pointDigits_split (show Nat.toDigits 10 d.i.natAbs ≠ [] from Nat.toDigits_ne_nil)
      (fun _ hc => Nat.isDigit_of_mem_toDigits (by decide) (by decide) hc)
  have hnum : decimalDigits (intStr ++ decStr) = some d.i.natAbs :=
    decimalDigits_eq_some.2 ⟨by simp [hint], hdigits, hvalue.trans Nat.ofDigitChars_ten_toDigits⟩
  -- neither part holds a point, and the whole part starts with a digit
  have hpoint : '.' ∉ intStr ∧ '.' ∉ decStr := by
    constructor <;> intro hmem <;> simpa using hdigits '.' (by simp [hmem])
  obtain ⟨c, cs, rfl⟩ := List.exists_cons_of_ne_nil hint
  have hc : c ≠ '-' := (ne_sign_of_isDigit (hdigits c (by simp))).1
  have hdec : decStr ≠ [] := by
    rw [← List.length_pos_iff, hlen]
    decide
  have hsplitOn : (c :: (cs ++ '.' :: decStr)).splitOn '.' = [c :: cs, decStr] :=
    splitOn_point hpoint.1 hpoint.2
  -- the digits read back as the absolute value, and the sign restores the value
  have hread : decFromCombined (decide (d.i < 0)) ((c :: cs) ++ decStr) decStr.length = .ok d := by
    rw [hlen, decFromCombined_digits _ hnum, Int.natCast_natAbs]
    by_cases hneg : d.i < 0
    · simp [hneg, abs_of_neg hneg]
    · simp [hneg, abs_of_nonneg (not_lt.1 hneg)]
  unfold Dec.String NewDecFromStr
  rw [hsplit]
  by_cases hneg : d.i < 0
  · simpa [hneg, hsplitOn, hdec] using hread
  · simpa [hneg, hc, hsplitOn, hdec] using hread

/-! ### Signs that `big.Int.SetString` reads -/

/-- `--1` and `+1` are not decimal text, and `NewDecFromStr` reads both as one:
the stripped minus sign of `--1` is undone by the one `big.Int.SetString` reads. -/
theorem NewDecFromStr_accepts_signs :
    DecimalGrammar ['-', '-', '1'] = false ∧ NewDecFromStr ['-', '-', '1'] = .ok (ToDec 1) ∧
      DecimalGrammar ['+', '1'] = false ∧ NewDecFromStr ['+', '1'] = .ok (ToDec 1) := by
  decide

end ColorSdk
