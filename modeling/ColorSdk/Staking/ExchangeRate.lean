import ColorSdk.Staking.Types
import Mathlib.Algebra.Order.Field.Rat
import Mathlib.Tactic.FieldSimp
import Mathlib.Tactic.Linarith
import Mathlib.Tactic.GCongr
import Mathlib.Tactic.Positivity
import Mathlib.Tactic.Ring

/-!
# The exchange rate of a validator

A validator's delegators own its tokens in proportion to their shares: a
share is worth `Tokens / DelegatorShares`.  A delegation adds tokens and issues
shares at that rate, an unbonding removes shares and pays tokens at it, both
rounded.  Issuing rounds toward zero (`SharesFromTokens` ends in `QuoInt`), so
a delegation never lowers the rate.  Paying rounds twice: `TokensFromShares`
divides with `Quo`, to the nearest unit of `10⁻¹⁸`, before `TruncateInt`
drops the fraction.  A quotient a little below a whole number of tokens
therefore rounds up to it and is paid in full: the unbonding delegator gets up
to half a unit more than its shares are worth, and the shares that remain lose
that much.

## Main definitions

* `Dec.toRat` — the rational value of a decimal.
* `Validator.exchangeRate` — tokens per share.

## Main results

* `exchangeRate_le_AddTokensFromDel` — a delegation never lowers the rate.
* `mul_truncateInt_tokensFromShares_le` — the tokens paid for shares exceed
  their worth by at most half a unit of `10⁻¹⁸`.
* `exchange_rate_rounding` — both, with the tokens left non-negative.
* `removeDelShares_overpays` — the half unit is reached: one token is paid for
  shares worth less than one.

## References

* src/x/staking/types/validator.go, src/types/decimal.go
-/

namespace ColorSdk

/-- The value of a decimal: its units of `10⁻¹⁸`. -/
def Dec.toRat (d : Dec) : ℚ := d.i / precisionReuse

namespace Staking

namespace Validator

variable {A P : Type}

/-- Tokens per share. -/
def exchangeRate (v : Validator A P) : ℚ := v.Tokens / v.DelegatorShares.toRat

/-! ### Issuing shares -/

/-- A delegation to a validator with shares issues them at the truncated
rate, and adds both. -/
theorem AddTokensFromDel_eq {v v' : Validator A P} {pool pool' : Pool} {amount : ℤ}
    {issuedShares : Dec} (hT : v.Tokens ≠ 0) (hS : v.DelegatorShares.i ≠ 0)
    (h : v.AddTokensFromDel pool amount = .ok (v', pool', issuedShares)) :
    issuedShares = ⟨(v.DelegatorShares.i * amount).tdiv v.Tokens⟩ ∧
      v'.Tokens = v.Tokens + amount ∧ v'.DelegatorShares.i = v.DelegatorShares.i + issuedShares.i := by
  have hzero : v.DelegatorShares.IsZero = false := by simpa [Dec.IsZero] using hS
  have hshares : v.SharesFromTokens amount =
      .ok ⟨(v.DelegatorShares.i * amount).tdiv v.Tokens⟩ := by
    simp [SharesFromTokens, hT, Dec.QuoInt, Dec.MulInt]
  simp only [AddTokensFromDel, hzero, hshares, Bool.false_eq_true, if_false] at h
  -- the pool moves only for a bonded validator, and never touches the validator
  split at h
  · rcases hpool : pool.notBondedTokensToBonded amount with _ | pool₁ <;>
      simp [hpool, bind, Except.bind, pure, Except.pure] at h
    obtain ⟨rfl, -, rfl⟩ := h
    exact ⟨rfl, rfl, rfl⟩
  · simp only [bind, Except.bind, pure, Except.pure, Except.ok.injEq, Prod.mk.injEq] at h
    obtain ⟨rfl, -, rfl⟩ := h
    exact ⟨rfl, rfl, rfl⟩

/-- Truncated issuing gives at most the shares the tokens are worth. -/
theorem tokens_mul_tdiv_le {T S a : ℤ} (hT : 0 < T) (hS : 0 ≤ S) (ha : 0 ≤ a) :
    T * (S * a).tdiv T ≤ S * a := by
  rw [Int.tdiv_eq_ediv_of_nonneg (Int.mul_nonneg hS ha)]
  exact Int.mul_ediv_self_le hT.ne'

/-- **A delegation never lowers the exchange rate.** -/
theorem exchangeRate_le_AddTokensFromDel {v v' : Validator A P} {pool pool' : Pool} {amount : ℤ}
    {issuedShares : Dec} (hT : 0 < v.Tokens) (hS : 0 < v.DelegatorShares.i) (ha : 0 < amount)
    (h : v.AddTokensFromDel pool amount = .ok (v', pool', issuedShares)) :
    v.exchangeRate ≤ v'.exchangeRate := by
  obtain ⟨rfl, htokens, hshares⟩ := AddTokensFromDel_eq hT.ne' hS.ne' h
  have hissued := tokens_mul_tdiv_le hT hS.le ha.le
  have hnn : 0 ≤ (v.DelegatorShares.i * amount).tdiv v.Tokens := by
    rw [Int.tdiv_eq_ediv_of_nonneg (Int.mul_nonneg hS.le ha.le)]
    exact Int.ediv_nonneg (Int.mul_nonneg hS.le ha.le) hT.le
  -- compare the two rates crosswise: `T (S + issued) ≤ (T + amount) S`
  have hcross : (v.Tokens : ℚ) * v'.DelegatorShares.i ≤ v'.Tokens * v.DelegatorShares.i := by
    rw [hshares, htokens]
    push_cast
    have : ((v.Tokens * (v.DelegatorShares.i * amount).tdiv v.Tokens : ℤ) : ℚ) ≤
        ((v.DelegatorShares.i * amount : ℤ) : ℚ) := by exact_mod_cast hissued
    push_cast at this
    nlinarith
  have hS' : (0 : ℚ) < v.DelegatorShares.i := by exact_mod_cast hS
  have hS'' : (0 : ℚ) < v'.DelegatorShares.i := by
    rw [hshares]
    push_cast
    have : (0 : ℚ) ≤ ((v.DelegatorShares.i * amount).tdiv v.Tokens : ℤ) := by exact_mod_cast hnn
    linarith
  have hP : (0 : ℚ) < precisionReuse := by exact_mod_cast precisionReuse_pos
  unfold exchangeRate Dec.toRat
  rw [div_div_eq_mul_div, div_div_eq_mul_div, div_le_div_iff₀ hS' hS'']
  nlinarith

/-! ### Paying tokens for shares -/

/-- Removing some but not all of a validator's shares pays their worth,
truncated, and keeps the tokens non-negative. -/
theorem RemoveDelShares_eq {v v' : Validator A P} {pool pool' : Pool} {delShares : Dec}
    {issuedTokens : ℤ} (hrem : delShares.i ≠ v.DelegatorShares.i)
    (h : v.RemoveDelShares pool delShares = .ok (v', pool', issuedTokens)) :
    issuedTokens = (v.TokensFromShares delShares).TruncateInt ∧
      v'.Tokens = v.Tokens - issuedTokens ∧ 0 ≤ v'.Tokens := by
  have hzero : (v.DelegatorShares.Sub delShares).IsZero = false := by
    rw [Bool.eq_false_iff, ne_eq, Dec.isZero_iff, Dec.sub_i]
    omega
  simp only [RemoveDelShares, hzero, Bool.false_eq_true, if_false] at h
  -- a negative balance panics before anything is returned
  split at h
  · simp [throw, throwThe, MonadExceptOf.throw, bind, Except.bind] at h
  · rename_i hneg
    simp only [pure, Except.pure, bind, Except.bind] at h
    split at h
    · rcases hpool : pool.bondedTokensToNotBonded (v.TokensFromShares delShares).TruncateInt with
        _ | pool₁ <;> simp [hpool] at h
      obtain ⟨rfl, -, rfl⟩ := h
      exact ⟨rfl, rfl, by simpa using hneg⟩
    · simp only [Except.ok.injEq, Prod.mk.injEq] at h
      obtain ⟨rfl, -, rfl⟩ := h
      exact ⟨rfl, rfl, by simpa using hneg⟩

/-- **Paying rounds at most half a unit up.**  The tokens paid for shares are
their exact worth `shares · Tokens / DelegatorShares` plus at most half a unit
of `10⁻¹⁸`, written crosswise. -/
theorem mul_truncateInt_tokensFromShares_le (v : Validator A P) {shares : Dec}
    (hT : 0 ≤ v.Tokens) (hs : 0 ≤ shares.i) (hS : 0 < v.DelegatorShares.i) :
    2 * precisionReuse * v.DelegatorShares.i * (v.TokensFromShares shares).TruncateInt ≤
      2 * precisionReuse * (shares.i * v.Tokens) + v.DelegatorShares.i := by
  set S := v.DelegatorShares.i
  set X := shares.i * v.Tokens
  have hP : (0 : ℤ) < precisionReuse := by exact_mod_cast precisionReuse_pos
  have hX : 0 ≤ X := Int.mul_nonneg hs hT
  -- the three roundings: the quotient, to the nearest unit, to a whole token
  have hXPP : 0 ≤ X * precisionReuse * precisionReuse := by positivity
  have hZeq := Int.tdiv_eq_ediv_of_nonneg hXPP (b := S)
  set Z := (X * precisionReuse * precisionReuse).tdiv S
  have hZ : S * Z ≤ X * precisionReuse * precisionReuse := by
    rw [hZeq]
    exact Int.mul_ediv_self_le hS.ne'
  have hZnn : 0 ≤ Z := by
    rw [hZeq]
    exact Int.ediv_nonneg hXPP hS.le
  set q := FixedPoint.chopRound precisionReuse Z
  have hq : precisionReuse * q ≤ Z + ((precisionReuse - precisionReuse / 2 : ℕ) : ℤ) :=
    FixedPoint.mul_chopRound_le hZnn
  have hhalf : ((precisionReuse - precisionReuse / 2 : ℕ) : ℤ) * 2 = precisionReuse := by
    norm_num [precisionReuse, Precision]
  have hqnn : 0 ≤ q := FixedPoint.chopRound_nonneg hZnn
  have hiss : precisionReuse * q.tdiv precisionReuse ≤ q := by
    rw [Int.tdiv_eq_ediv_of_nonneg hqnn]
    exact Int.mul_ediv_self_le hP.ne'
  have hTokens : (v.TokensFromShares shares).TruncateInt = q.tdiv precisionReuse := rfl
  rw [hTokens]
  -- multiply through by the precision once more and chain the three bounds
  refine le_of_mul_le_mul_left ?_ hP
  calc (precisionReuse : ℤ) * (2 * precisionReuse * S * q.tdiv precisionReuse)
      = 2 * S * (precisionReuse * (precisionReuse * q.tdiv precisionReuse)) := by ring
    _ ≤ 2 * S * (precisionReuse * q) := by
        gcongr
    _ ≤ 2 * S * (Z + ((precisionReuse - precisionReuse / 2 : ℕ) : ℤ)) := by
        gcongr
    _ = 2 * (S * Z) + S * (((precisionReuse - precisionReuse / 2 : ℕ) : ℤ) * 2) := by ring
    _ ≤ 2 * (X * precisionReuse * precisionReuse) + S * precisionReuse := by
        rw [hhalf]
        linarith
    _ = precisionReuse * (2 * precisionReuse * X + S) := by ring

/-- The crosswise bound in the values of the decimals: the tokens paid are at
most the shares' worth plus half a unit. -/
theorem truncateInt_tokensFromShares_le (v : Validator A P) {shares : Dec}
    (hT : 0 ≤ v.Tokens) (hs : 0 ≤ shares.i) (hS : 0 < v.DelegatorShares.i) :
    ((v.TokensFromShares shares).TruncateInt : ℚ) ≤
      shares.toRat * v.Tokens / v.DelegatorShares.toRat + 1 / (2 * precisionReuse) := by
  have h := mul_truncateInt_tokensFromShares_le v hT hs hS
  have hP : (0 : ℚ) < precisionReuse := by exact_mod_cast precisionReuse_pos
  have hS' : (0 : ℚ) < v.DelegatorShares.i := by exact_mod_cast hS
  have hcast : (2 * precisionReuse * v.DelegatorShares.i * (v.TokensFromShares shares).TruncateInt : ℚ) ≤
      2 * precisionReuse * (shares.i * v.Tokens) + v.DelegatorShares.i := by exact_mod_cast h
  unfold Dec.toRat
  rw [div_add_div _ _ (by positivity) (by positivity), le_div_iff₀ (by positivity)]
  field_simp
  nlinarith

/-- **Exchange-rate rounding.**  For a validator with tokens and shares, a
delegation of a positive amount never lowers the exchange rate; removing some
but not all of the shares pays at most their exact worth plus half a unit of
`10⁻¹⁸`, and leaves the tokens non-negative. -/
theorem exchange_rate_rounding (v : Validator A P) (pool : Pool) (amount : ℤ) (delShares : Dec)
    (hT : 0 < v.Tokens) (hS : 0 < v.DelegatorShares.i) (ha : 0 < amount)
    (hs : 0 < delShares.i) (hsS : delShares.i < v.DelegatorShares.i) :
    (∀ v' pool' issuedShares, v.AddTokensFromDel pool amount = .ok (v', pool', issuedShares) →
      v.exchangeRate ≤ v'.exchangeRate) ∧
    (∀ v' pool' issuedTokens, v.RemoveDelShares pool delShares = .ok (v', pool', issuedTokens) →
      (issuedTokens : ℚ) ≤ delShares.toRat * v.Tokens / v.DelegatorShares.toRat +
        1 / (2 * precisionReuse) ∧ 0 ≤ v'.Tokens) := by
  refine ⟨fun v' pool' issuedShares h => exchangeRate_le_AddTokensFromDel hT hS ha h,
    fun v' pool' issuedTokens h => ?_⟩
  obtain ⟨rfl, -, hnonneg⟩ := RemoveDelShares_eq hsS.ne h
  exact ⟨truncateInt_tokensFromShares_le v hT.le hs.le hS, hnonneg⟩

/-! ### Half a unit of overpayment -/

/-- **An unbonding overpays.**  A validator holds one token for three shares;
removing all but one unit of `10⁻¹⁸` of the shares pays the whole token,
though the shares are worth less than one, and the unit of shares left is
worth nothing. -/
theorem removeDelShares_overpays :
    let v : Validator ℕ ℕ := { NewValidator 1 1 with Tokens := 1, DelegatorShares := ToDec 3 }
    let delShares : Dec := ⟨3 * 10 ^ 18 - 1⟩
    ∃ v' : Validator ℕ ℕ, v.RemoveDelShares ⟨0, 0⟩ delShares = .ok (v', ⟨0, 0⟩, 1) ∧
      delShares.toRat * v.Tokens / v.DelegatorShares.toRat < 1 ∧
      v'.exchangeRate < v.exchangeRate := by
  intro v delShares
  refine ⟨{ v with Tokens := 0, DelegatorShares := ⟨1⟩ }, by decide, ?_, ?_⟩
  · norm_num [v, delShares, Dec.toRat, ToDec, precisionReuse, Precision]
  · norm_num [v, exchangeRate, Dec.toRat, ToDec, precisionReuse, Precision]

end Validator

end Staking
end ColorSdk
