import Mathlib.Algebra.Order.Ring.Int
import Mathlib.Tactic.Linarith
import Mathlib.Tactic.Ring
import Mathlib.Tactic.Positivity

/-!
# Fixed-point rounding

A fixed-point number with scale `s` is an integer count of units of `1 / s`.
A product of two such numbers carries the scale twice, and a quotient needs
its dividend scaled up first; either way the result is brought back to scale
`s` by dividing by `s`, with one of three roundings: toward zero, to the
nearest with ties to even ("banker's rounding"), or away from zero for
non-negative values.  This file defines the three divisions for an arbitrary
scale, the way big-integer decimal libraries write them (a truncated quotient
and remainder, a comparison of the remainder with half the scale, and the sign
handled by symmetry), and proves the bounds that relate them.

## Main definitions

* `FixedPoint.chopTruncate` — divide by the scale, rounding toward zero.
* `FixedPoint.roundHalfEven`, `FixedPoint.chopRound` — divide by the scale,
  rounding to the nearest integer with ties to even.
* `FixedPoint.chopRoundUp` — divide by the scale, rounding up for non-negative
  values and toward zero for negative ones.

## Main results

* `chopTruncate_le_chopRound`, `chopRound_le_chopTruncate_add_one` — on
  non-negative values, rounding to the nearest lies between the truncation and
  one above it.
* `mul_chopRound_le` — and it exceeds the exact quotient by at most one half.
* `roundHalfEven_mono`, `chopRound_mono` — rounding to the nearest is monotone.
* `chopTruncate_mul_scale`, `chopRound_mul_scale` — multiples of the scale are
  divided exactly.
* `chopTruncate_tdiv` — truncating twice is truncating once.
* `RoundsHalfEven.unique`, `roundsHalfEven_chopRound` — for an even scale,
  `chopRound` is the rounding of the exact quotient to the nearest integer with
  ties to even, stated by integer cross products.
-/

namespace FixedPoint

/-- Divide by the scale, rounding toward zero: the quotient of a truncated
division. -/
def chopTruncate (s : ℕ) (x : ℤ) : ℤ := x.tdiv s

/-- Divide a natural number by the scale, rounding to the nearest integer and
a tie to the even one. -/
def roundHalfEven (s x : ℕ) : ℕ :=
  let quo := x / s
  let rem := x % s
  if rem = 0 then quo
  else if rem < s / 2 then quo
  else if s / 2 < rem then quo + 1
  else if quo % 2 = 0 then quo else quo + 1

/-- Divide by the scale, rounding to the nearest integer with ties to even; a
negative value is rounded as its negation and negated back. -/
def chopRound (s : ℕ) (x : ℤ) : ℤ :=
  if x < 0 then -(roundHalfEven s x.natAbs : ℤ) else (roundHalfEven s x.toNat : ℤ)

/-- Divide by the scale, rounding a non-negative value up and a negative one
toward zero. -/
def chopRoundUp (s : ℕ) (x : ℤ) : ℤ :=
  if x < 0 then -((x.natAbs / s : ℕ) : ℤ)
  else if x.toNat % s = 0 then ((x.toNat / s : ℕ) : ℤ) else ((x.toNat / s + 1 : ℕ) : ℤ)

/-! ### Bounds on non-negative values -/

section Bounds

variable {s : ℕ}

theorem quo_le_roundHalfEven (x : ℕ) : x / s ≤ roundHalfEven s x := by
  unfold roundHalfEven
  dsimp only
  split_ifs <;> omega

theorem roundHalfEven_le_quo_add_one (x : ℕ) : roundHalfEven s x ≤ x / s + 1 := by
  unfold roundHalfEven
  dsimp only
  split_ifs <;> omega

/-- Rounding to the nearest is off by at most half the scale: scaled back, it
is at most the value plus the upper half of the scale. -/
theorem mul_roundHalfEven_le (x : ℕ) : s * roundHalfEven s x ≤ x + (s - s / 2) := by
  have hdiv := Nat.div_add_mod x s
  unfold roundHalfEven
  dsimp only
  split_ifs <;> (try simp only [Nat.mul_add, Nat.mul_one]) <;> omega

/-- Rounding to the nearest is monotone. -/
theorem roundHalfEven_mono {x y : ℕ} (h : x ≤ y) : roundHalfEven s x ≤ roundHalfEven s y := by
  have hquo : x / s ≤ y / s := Nat.div_le_div_right h
  rcases Nat.lt_or_eq_of_le hquo with hlt | heq
  · -- a whole unit apart: the rounding of `x` is at most the truncation of `y`
    calc roundHalfEven s x ≤ x / s + 1 := roundHalfEven_le_quo_add_one x
      _ ≤ y / s := hlt
      _ ≤ roundHalfEven s y := quo_le_roundHalfEven y
  · -- the same unit: the remainders are ordered as the values
    have hx := Nat.div_add_mod x s
    have hy := Nat.div_add_mod y s
    rw [heq] at hx
    unfold roundHalfEven
    dsimp only
    rw [heq]
    split_ifs <;> omega

theorem chopTruncate_of_nonneg {x : ℤ} (hx : 0 ≤ x) : chopTruncate s x = ((x.toNat / s : ℕ) : ℤ) := by
  obtain ⟨n, rfl⟩ := Int.eq_ofNat_of_zero_le hx
  simp [chopTruncate, Int.tdiv_eq_ediv_of_nonneg]

theorem chopRound_of_nonneg {x : ℤ} (hx : 0 ≤ x) : chopRound s x = (roundHalfEven s x.toNat : ℤ) := by
  simp [chopRound, not_lt.2 hx]

theorem chopTruncate_nonneg {x : ℤ} (hx : 0 ≤ x) : 0 ≤ chopTruncate s x := by
  rw [chopTruncate_of_nonneg hx]
  exact Int.natCast_nonneg _

theorem chopRound_nonneg {x : ℤ} (hx : 0 ≤ x) : 0 ≤ chopRound s x := by
  rw [chopRound_of_nonneg hx]
  exact Int.natCast_nonneg _

/-- Rounding to the nearest never falls below the truncation. -/
theorem chopTruncate_le_chopRound {x : ℤ} (hx : 0 ≤ x) : chopTruncate s x ≤ chopRound s x := by
  rw [chopTruncate_of_nonneg hx, chopRound_of_nonneg hx]
  exact_mod_cast quo_le_roundHalfEven x.toNat

/-- Rounding to the nearest is monotone on non-negative values. -/
theorem chopRound_mono {x y : ℤ} (hx : 0 ≤ x) (h : x ≤ y) : chopRound s x ≤ chopRound s y := by
  rw [chopRound_of_nonneg hx, chopRound_of_nonneg (hx.trans h)]
  exact_mod_cast roundHalfEven_mono (Int.toNat_le_toNat h)

/-- Rounding to the nearest is off by at most half the scale. -/
theorem mul_chopRound_le {x : ℤ} (hx : 0 ≤ x) : s * chopRound s x ≤ x + (s - s / 2 : ℕ) := by
  rw [chopRound_of_nonneg hx]
  have h := mul_roundHalfEven_le (s := s) x.toNat
  have hto : (x.toNat : ℤ) = x := Int.toNat_of_nonneg hx
  rw [← hto]
  exact_mod_cast h

/-- Rounding to the nearest is at most one above the truncation. -/
theorem chopRound_le_chopTruncate_add_one {x : ℤ} (hx : 0 ≤ x) :
    chopRound s x ≤ chopTruncate s x + 1 := by
  rw [chopTruncate_of_nonneg hx, chopRound_of_nonneg hx]
  exact_mod_cast roundHalfEven_le_quo_add_one x.toNat

end Bounds

/-! ### Exact division -/

section Exact

variable {s : ℕ}

theorem roundHalfEven_mul_scale (hs : 0 < s) (n : ℕ) : roundHalfEven s (n * s) = n := by
  simp [roundHalfEven, Nat.mul_mod_left, Nat.mul_div_cancel n hs]

theorem chopTruncate_mul_scale (hs : 0 < s) (x : ℤ) : chopTruncate s (x * s) = x := by
  unfold chopTruncate
  exact Int.mul_tdiv_cancel x (by exact_mod_cast hs.ne')

/-- Truncating twice is truncating once by the product of the divisors. -/
theorem chopTruncate_tdiv (x y : ℤ) : chopTruncate s (x.tdiv y) = x.tdiv (y * s) := by
  unfold chopTruncate
  -- the signs come out of both sides alike, leaving a division of naturals
  obtain ⟨m, rfl | rfl⟩ := Int.eq_nat_or_neg x <;> obtain ⟨k, rfl | rfl⟩ := Int.eq_nat_or_neg y <;>
    simp only [Int.neg_tdiv, Int.tdiv_neg, Int.neg_mul, ← Int.natCast_mul, ← Int.ofNat_tdiv,
      Nat.div_div_eq_div_mul]

theorem chopRound_mul_scale (hs : 0 < s) (x : ℤ) : chopRound s (x * s) = x := by
  unfold chopRound
  rcases lt_or_ge x 0 with h | h
  · have hxs : x * s < 0 := Int.mul_neg_of_neg_of_pos h (by exact_mod_cast hs)
    have habs : (x * s).natAbs = x.natAbs * s := by simp [Int.natAbs_mul]
    rw [if_pos hxs, habs, roundHalfEven_mul_scale hs]
    omega
  · have hxs : 0 ≤ x * s := Int.mul_nonneg h (by exact_mod_cast hs.le)
    have hto : (x * s).toNat = x.toNat * s := by
      obtain ⟨n, rfl⟩ := Int.eq_ofNat_of_zero_le h
      rw [← Int.natCast_mul, Int.toNat_natCast, Int.toNat_natCast]
    rw [if_neg (not_lt.2 hxs), hto, roundHalfEven_mul_scale hs]
    omega

end Exact

/-! ### Specifications of the roundings

The exact quotient `n / d` is never formed: a candidate `q` is compared with it
through the error `q * d - n`, which for the nearest integer lies within half
of `d` on either side. -/

/-- `q` is `n / d` rounded to the nearest integer, a tie to the even one. -/
structure RoundsHalfEven (n d q : ℤ) : Prop where
  lower : -d ≤ 2 * (q * d - n)
  upper : 2 * (q * d - n) ≤ d
  tie : 2 * (q * d - n) = d ∨ 2 * (q * d - n) = -d → 2 ∣ q

/-- `q` is `n / d` rounded up. -/
structure RoundsUp (n d q : ℤ) : Prop where
  above : n ≤ q * d
  least : (q - 1) * d < n

section Spec

variable {n d q q' r : ℤ}

/-- Two roundings of one quotient never differ by one: the errors would then be
half of `d` on opposite sides, and both candidates even. -/
theorem RoundsHalfEven.sub_ne_one (h : RoundsHalfEven n d q) (h' : RoundsHalfEven n d q') :
    q - q' ≠ 1 := by
  intro hone
  have hqd : q * d - q' * d = d := by rw [← sub_mul, hone, one_mul]
  have hup := h.upper
  have hlo := h'.lower
  have heven : 2 ∣ q := h.tie (.inl (by linarith))
  have heven' : 2 ∣ q' := h'.tie (.inr (by linarith))
  omega

/-- The rounding to the nearest with ties to even is unique. -/
theorem RoundsHalfEven.unique (hd : 0 < d) (h : RoundsHalfEven n d q)
    (h' : RoundsHalfEven n d q') : q = q' := by
  -- the errors are within `d / 2` each, so the candidates are within one
  have hle : (q - q') * d ≤ 1 * d := by linarith [h.upper, h'.lower]
  have hge : (-1) * d ≤ (q - q') * d := by linarith [h.lower, h'.upper]
  have hle' := le_of_mul_le_mul_right hle hd
  have hge' := le_of_mul_le_mul_right hge hd
  have hne := h.sub_ne_one h'
  have hne' := h'.sub_ne_one h
  omega

/-- Rounding commutes with negation. -/
theorem RoundsHalfEven.neg (h : RoundsHalfEven n d q) : RoundsHalfEven (-n) d (-q) := by
  have herr : -q * d - -n = -(q * d - n) := by ring
  obtain ⟨hlo, hup, htie⟩ := h
  refine ⟨by rw [herr]; linarith, by rw [herr]; linarith, fun ht => ?_⟩
  rw [herr] at ht
  exact (Int.dvd_neg).2 (htie (by omega))

/-- A remainder below half of `d` rounds down. -/
theorem roundsHalfEven_down (hn : n = q * d + r) (hr : 0 ≤ r) (hhalf : 2 * r < d) :
    RoundsHalfEven n d q := by
  have herr : q * d - n = -r := by rw [hn]; ring
  refine ⟨by rw [herr]; linarith, by rw [herr]; linarith, fun ht => ?_⟩
  rw [herr] at ht
  omega

/-- A remainder above half of `d` rounds up. -/
theorem roundsHalfEven_up (hn : n = q * d + r) (hr : r < d) (hhalf : d < 2 * r) :
    RoundsHalfEven n d (q + 1) := by
  have herr : (q + 1) * d - n = d - r := by rw [hn]; ring
  refine ⟨by rw [herr]; linarith, by rw [herr]; linarith, fun ht => ?_⟩
  rw [herr] at ht
  omega

/-- A remainder of exactly half of `d` rounds to the even candidate. -/
theorem roundsHalfEven_tie (hn : n = q * d + r) (hr : 0 ≤ r) (hhalf : 2 * r = d) :
    RoundsHalfEven n d (if 2 ∣ q then q else q + 1) := by
  split_ifs with he
  · have herr : q * d - n = -r := by rw [hn]; ring
    exact ⟨by rw [herr]; linarith, by rw [herr]; linarith, fun _ => he⟩
  · have herr : (q + 1) * d - n = d - r := by rw [hn]; ring
    exact ⟨by rw [herr]; linarith, by rw [herr]; linarith, fun _ => by omega⟩

end Spec

section HalfEven

variable {s : ℕ}

/-- For an even scale, `roundHalfEven` rounds to the nearest with ties to
even; an odd scale would round the remainder `s / 2` wrongly. -/
theorem roundsHalfEven_roundHalfEven (hs : 0 < s) (heven : 2 ∣ s) (x : ℕ) :
    RoundsHalfEven x s (roundHalfEven s x) := by
  have hx : (x : ℤ) = ((x / s : ℕ) : ℤ) * s + ((x % s : ℕ) : ℤ) := by
    rw [Int.mul_comm]
    exact_mod_cast (Nat.div_add_mod x s).symm
  have hlt : x % s < s := Nat.mod_lt x hs
  unfold roundHalfEven
  dsimp only
  split_ifs with h0 hlo hhi hq
  · exact roundsHalfEven_down hx (by positivity) (by omega)
  · exact roundsHalfEven_down hx (by positivity) (by omega)
  · push_cast
    exact roundsHalfEven_up hx (by omega) (by omega)
  -- the remainder is exactly half the scale: the tie goes to the even quotient
  · have ht := roundsHalfEven_tie hx (by positivity) (by omega)
    rwa [if_pos (by omega)] at ht
  · have ht := roundsHalfEven_tie hx (by positivity) (by omega)
    rw [if_neg (by omega)] at ht
    exact_mod_cast ht

/-- For an even scale, `chopRound` rounds to the nearest with ties to even. -/
theorem roundsHalfEven_chopRound (hs : 0 < s) (heven : 2 ∣ s) (x : ℤ) :
    RoundsHalfEven x s (chopRound s x) := by
  unfold chopRound
  split_ifs with hx
  · -- a negative value is rounded as its negation
    have h := (roundsHalfEven_roundHalfEven hs heven x.natAbs).neg
    rwa [Int.ofNat_natAbs_of_nonpos hx.le, neg_neg] at h
  · rw [← Int.toNat_of_nonneg (not_lt.1 hx)]
    exact roundsHalfEven_roundHalfEven hs heven x.toNat

end HalfEven

end FixedPoint
