import ColorSdk.Lib.FixedPoint
import Mathlib.Tactic.Positivity
import Mathlib.Tactic.GCongr

/-!
# SDK decimals and integers

`sdk.Dec` is a signed decimal with 18 places, stored as a big integer count of
units of `10⁻¹⁸`; `sdk.Int` is a big integer, here `ℤ`.  Addition and
subtraction of decimals are exact; multiplication and division come back to
18 places through the roundings of `FixedPoint` with scale `10¹⁸`: `Mul` and
`Quo` round half to even, `MulTruncate`, `QuoTruncate` and `QuoInt` toward
zero, `QuoRoundUp` up.

The SDK panics when a result needs more than 315 bits, and Go's big integers
panic on a division by zero; neither panic is modelled, so a division by a zero
decimal here gives zero.

## Main definitions

* `Dec` with `Add`, `Sub`, `Mul`, `MulTruncate`, `MulInt`, `Quo`,
  `QuoTruncate`, `QuoRoundUp`, `QuoInt`, `TruncateInt`, `RoundInt` and the
  comparisons.
* `ToDec`, `TokensToTendermintPower`, `TokensFromTendermintPower`.

## References

* src/types/decimal.go, src/types/int.go, src/types/staking.go
-/

namespace ColorSdk

/-- Number of decimal places of a `Dec`. -/
def Precision : ℕ := 18

/-- `precisionReuse`: the number of units in one, `10¹⁸`. -/
def precisionReuse : ℕ := 10 ^ Precision

theorem precisionReuse_pos : 0 < precisionReuse := Nat.pow_pos (by decide)

theorem precisionReuse_even : 2 ∣ precisionReuse := dvd_pow (by decide) (by decide)

/-- `sdk.Dec`: a count of units of `10⁻¹⁸`. -/
structure Dec where
  i : ℤ
  deriving DecidableEq, Repr

open FixedPoint

/-- `sdk.ZeroDec()`. -/
def ZeroDec : Dec := ⟨0⟩

/-- `sdk.OneDec()`. -/
def OneDec : Dec := ⟨precisionReuse⟩

/-- `sdk.NewDec(i)`, and `i.ToDec()` of an `sdk.Int`. -/
def ToDec (i : ℤ) : Dec := ⟨i * precisionReuse⟩

/-- `sdk.NewDecWithPrec(i, prec)`: `i` units of `10^-prec`.  The code panics on a
precision above `Precision`, which the type of `prec` leaves out. -/
def NewDecWithPrec (i : ℤ) (prec : Fin (Precision + 1)) : Dec := ⟨i * 10 ^ (Precision - prec)⟩

/-- The precisions of `NewDecWithPrec` are written as numerals of `Fin (Precision + 1)`. -/
instance (priority := high) instNeZeroPrecisionSucc : NeZero (Precision + 1) := ⟨Nat.succ_ne_zero Precision⟩

namespace Dec

def IsZero (d : Dec) : Bool := d.i = 0
def IsPositive (d : Dec) : Bool := 0 < d.i
def IsNegative (d : Dec) : Bool := d.i < 0
def Equal (d d2 : Dec) : Bool := d.i = d2.i
def GT (d d2 : Dec) : Bool := d2.i < d.i
def GTE (d d2 : Dec) : Bool := d2.i ≤ d.i
def LT (d d2 : Dec) : Bool := d.i < d2.i
def LTE (d d2 : Dec) : Bool := d.i ≤ d2.i

def Add (d d2 : Dec) : Dec := ⟨d.i + d2.i⟩
def Sub (d d2 : Dec) : Dec := ⟨d.i - d2.i⟩

/-- Multiplication, rounded half to even. -/
def Mul (d d2 : Dec) : Dec := ⟨chopRound precisionReuse (d.i * d2.i)⟩

/-- Multiplication, truncated. -/
def MulTruncate (d d2 : Dec) : Dec := ⟨chopTruncate precisionReuse (d.i * d2.i)⟩

/-- Multiplication by an integer, exact. -/
def MulInt (d : Dec) (i : ℤ) : Dec := ⟨d.i * i⟩

/-- The dividend scaled by the precision twice, divided with truncation. -/
def quoRaw (d d2 : Dec) : ℤ := (d.i * precisionReuse * precisionReuse).tdiv d2.i

/-- Quotient, rounded half to even. -/
def Quo (d d2 : Dec) : Dec := ⟨chopRound precisionReuse (quoRaw d d2)⟩

/-- Quotient, truncated. -/
def QuoTruncate (d d2 : Dec) : Dec := ⟨chopTruncate precisionReuse (quoRaw d d2)⟩

/-- Quotient, rounded up. -/
def QuoRoundUp (d d2 : Dec) : Dec := ⟨chopRoundUp precisionReuse (quoRaw d d2)⟩

/-- Quotient by an integer, truncated. -/
def QuoInt (d : Dec) (i : ℤ) : Dec := ⟨d.i.tdiv i⟩

/-- The integer part, truncated toward zero. -/
def TruncateInt (d : Dec) : ℤ := chopTruncate precisionReuse d.i

/-- The nearest integer, a tie to the even one. -/
def RoundInt (d : Dec) : ℤ := chopRound precisionReuse d.i

@[simp] theorem add_i (d d2 : Dec) : (d.Add d2).i = d.i + d2.i := rfl
@[simp] theorem sub_i (d d2 : Dec) : (d.Sub d2).i = d.i - d2.i := rfl
@[simp] theorem mulInt_i (d : Dec) (i : ℤ) : (d.MulInt i).i = d.i * i := rfl
@[simp] theorem isZero_iff (d : Dec) : d.IsZero = true ↔ d.i = 0 := by simp [IsZero]
@[simp] theorem isPositive_iff (d : Dec) : d.IsPositive = true ↔ 0 < d.i := by simp [IsPositive]
@[simp] theorem lt_iff (d d2 : Dec) : d.LT d2 = true ↔ d.i < d2.i := by simp [LT]
@[simp] theorem gt_iff (d d2 : Dec) : d.GT d2 = true ↔ d2.i < d.i := by simp [GT]
@[simp] theorem gte_iff (d d2 : Dec) : d.GTE d2 = true ↔ d2.i ≤ d.i := by simp [GTE]
@[simp] theorem zeroDec_i : ZeroDec.i = 0 := rfl
theorem oneDec_i : OneDec.i = precisionReuse := rfl
@[simp] theorem toDec_i (i : ℤ) : (ToDec i).i = i * precisionReuse := rfl

/-- The integer part of a whole number of tokens is that number. -/
@[simp] theorem truncateInt_toDec (i : ℤ) : (ToDec i).TruncateInt = i :=
  chopTruncate_mul_scale precisionReuse_pos i

/-! ### Monotonicity on non-negative decimals -/

theorem roundInt_toDec (i : ℤ) : (ToDec i).RoundInt = i :=
  chopRound_mul_scale precisionReuse_pos i

theorem roundInt_mono {d d' : Dec} (hd : 0 ≤ d.i) (h : d.i ≤ d'.i) : d.RoundInt ≤ d'.RoundInt :=
  chopRound_mono hd h

theorem mul_nonneg {d e : Dec} (hd : 0 ≤ d.i) (he : 0 ≤ e.i) : 0 ≤ (d.Mul e).i :=
  chopRound_nonneg (Int.mul_nonneg hd he)

theorem mul_mono_right {d e e' : Dec} (hd : 0 ≤ d.i) (he : 0 ≤ e.i) (h : e.i ≤ e'.i) :
    (d.Mul e).i ≤ (d.Mul e').i :=
  chopRound_mono (Int.mul_nonneg hd he) (Int.mul_le_mul_of_nonneg_left h hd)

/-- Multiplying by one is exact. -/
theorem mul_one (d : Dec) : (d.Mul OneDec).i = d.i :=
  chopRound_mul_scale precisionReuse_pos d.i

theorem quoRaw_nonneg {d e : Dec} (hd : 0 ≤ d.i) (he : 0 < e.i) : 0 ≤ quoRaw d e := by
  unfold quoRaw
  exact Int.tdiv_nonneg (by have := precisionReuse_pos; positivity) he.le

theorem quo_nonneg {d e : Dec} (hd : 0 ≤ d.i) (he : 0 < e.i) : 0 ≤ (d.Quo e).i :=
  chopRound_nonneg (quoRaw_nonneg hd he)

theorem quo_mono_left {d d' e : Dec} (hd : 0 ≤ d.i) (h : d.i ≤ d'.i) (he : 0 < e.i) :
    (d.Quo e).i ≤ (d'.Quo e).i := by
  have hP : (0 : ℤ) ≤ precisionReuse := by exact_mod_cast precisionReuse_pos.le
  have hdP : 0 ≤ d.i * precisionReuse * precisionReuse := by positivity
  have hraw : quoRaw d e ≤ quoRaw d' e := by
    unfold quoRaw
    rw [Int.tdiv_eq_ediv_of_nonneg hdP, Int.tdiv_eq_ediv_of_nonneg (hdP.trans (by gcongr))]
    exact Int.ediv_le_ediv he (by gcongr)
  exact chopRound_mono (quoRaw_nonneg hd he) hraw

/-- A non-zero decimal divided by itself is one. -/
theorem quo_self {d : Dec} (hd : d.i ≠ 0) : (d.Quo d).i = precisionReuse := by
  have hraw : quoRaw d d = precisionReuse * precisionReuse := by
    unfold quoRaw
    rw [Int.mul_assoc, Int.mul_tdiv_cancel_left _ hd]
  rw [Quo, hraw]
  exact chopRound_mul_scale precisionReuse_pos (precisionReuse : ℤ)

/-! ### Rounding against the exact results

`Mul` and `RoundInt` round the exact value half to even, and `QuoTruncate`
truncates the exact quotient: its two truncations compose to one.  `Quo` and
`QuoRoundUp` do not: they round a quotient that was already truncated at 36
places, and a truncated remainder can move a value onto the half-way point or
onto a whole unit. -/

theorem mul_roundsHalfEven (d d2 : Dec) : RoundsHalfEven (d.i * d2.i) precisionReuse (d.Mul d2).i :=
  roundsHalfEven_chopRound precisionReuse_pos precisionReuse_even _

theorem roundInt_roundsHalfEven (d : Dec) : RoundsHalfEven d.i precisionReuse d.RoundInt :=
  roundsHalfEven_chopRound precisionReuse_pos precisionReuse_even _

/-- `Mul` is the half-to-even rounding of the exact product, and nothing else
is. -/
theorem mul_i_eq_iff (d d2 : Dec) (q : ℤ) :
    (d.Mul d2).i = q ↔ RoundsHalfEven (d.i * d2.i) precisionReuse q := by
  have hP : (0 : ℤ) < precisionReuse := by exact_mod_cast precisionReuse_pos
  constructor
  · rintro rfl
    exact mul_roundsHalfEven d d2
  · intro h
    exact (mul_roundsHalfEven d d2).unique hP h

/-- `QuoTruncate` is the exact quotient truncated at 18 places. -/
theorem quoTruncate_i (d d2 : Dec) : (d.QuoTruncate d2).i = (d.i * precisionReuse).tdiv d2.i := by
  have hP : (0 : ℤ) < precisionReuse := by exact_mod_cast precisionReuse_pos
  rw [QuoTruncate, quoRaw, chopTruncate_tdiv]
  exact Int.mul_tdiv_mul_of_pos_left _ _ hP

/-- `Quo` and `QuoRoundUp` round a quotient truncated at 36 places.
`1.500000000000000001 / 3000000000000000000` is `5.000…0003 × 10⁻¹⁹`, whose
nearest unit is `10⁻¹⁸`, but the truncation leaves exactly half a unit, which
ties down to zero; `10⁻¹⁸ / 3000000000000000000` is positive, so it rounds up to
one unit, but the truncation leaves nothing to round. -/
theorem quo_rounds_truncated_quotient :
    ¬ RoundsHalfEven ((⟨1500000000000000001⟩ : Dec).i * precisionReuse) (3 * 10 ^ 36)
        ((⟨1500000000000000001⟩ : Dec).Quo ⟨3 * 10 ^ 36⟩).i ∧
      ¬ RoundsUp ((⟨1⟩ : Dec).i * precisionReuse) (3 * 10 ^ 36)
        ((⟨1⟩ : Dec).QuoRoundUp ⟨3 * 10 ^ 36⟩).i := by
  have hquo : ((⟨1500000000000000001⟩ : Dec).Quo ⟨3 * 10 ^ 36⟩).i = 0 := by decide
  have hup : ((⟨1⟩ : Dec).QuoRoundUp ⟨3 * 10 ^ 36⟩).i = 0 := by decide
  rw [hquo, hup]
  exact ⟨fun h => absurd h.lower (by decide), fun h => absurd h.above (by decide)⟩

end Dec

/-- `sdk.MinInt`. -/
def MinInt (i i2 : ℤ) : ℤ := if i2 < i then i2 else i

/-- `sdk.MaxInt`. -/
def MaxInt (i i2 : ℤ) : ℤ := if i < i2 then i2 else i

/-- `PowerReduction`: the staking tokens in one unit of Tendermint power. -/
def PowerReduction : ℤ := 10 ^ 6

/-- `TokensToTendermintPower`. -/
def TokensToTendermintPower (tokens : ℤ) : ℤ := tokens.tdiv PowerReduction

/-- `TokensFromTendermintPower`. -/
def TokensFromTendermintPower (power : ℤ) : ℤ := power * PowerReduction

end ColorSdk
