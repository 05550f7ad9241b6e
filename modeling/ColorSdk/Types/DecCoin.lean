import ColorSdk.Types.Coin
import ColorSdk.Types.Decimal
import ColorSdk.Lib.ExceptSpec
import Mathlib

/-!
# Decimal coins

`sdk.DecCoin` is a denomination and an `sdk.Dec` amount, and `sdk.DecCoins` a
list of them, with the same two-pointer merge `safeAdd`, the same halving search
`AmountOf` and the same zero-dropping `removeZeroDecCoins` as coins.  Decimal
addition is exact, so decimals form an additive group through their counts of
units, and a list read as the function `amountAt` adds and subtracts pointwise
as a coin list does.

The other operations are loops over the first list.  `Intersect` gives each
coin the smaller of its amount and the second list's `AmountOf`; `MulDec`,
`MulDecTruncate`, `QuoDec` and `QuoDecTruncate` scale each amount and merge the
products other than zero in one at a time (`scaleEach`); `TruncateDecimal`
splits each amount into its integer part, a coin, and its change, and merges
each into a result of its own.

## Main definitions

* `DecCoin`, `DecCoin.TruncateDecimal`, `NewDecCoinFromCoin`, `NewDecCoins`.
* `DecCoins.Add`, `DecCoins.SafeSub`, `DecCoins.Intersect`, `DecCoins.MulDec`,
  `DecCoins.MulDecTruncate`, `DecCoins.QuoDec`, `DecCoins.QuoDecTruncate`,
  `DecCoins.TruncateDecimal`, `DecCoins.AmountOf`.
* `DecCoins.amountAt` — a list read as a function of the denomination.
* `DecCoins.Valid`, `DecCoins.Canonical` — the validity the code means; sorted and
  without zero entries, the shape of every result.

## Main results

* `DecCoins.amountAt_Add`, `DecCoins.amountAt_SafeSub`, `DecCoins.Intersect_spec`,
  `DecCoins.amountAt_scaleEach` — the operations act pointwise.
* `DecCoins.amountAt_truncated`, `DecCoins.Valid_truncated`, `DecCoins.amountAt_change`,
  `DecCoins.change_spec` — the integer parts and the changes of a valid list.
* `DecCoins.NewDecCoins_Add_change` — they add back up to the list.
* `DecCoins.decCoins_pointwise` — all of it, read through `AmountOf`.

## References

* src/types/dec_coin.go, src/types/decimal.go
-/

namespace ColorSdk

/-- `MinDec`. -/
def MinDec (d1 d2 : Dec) : Dec := if d1.LT d2 then d1 else d2

/-- `Dec.Neg`. -/
def Dec.Neg (d : Dec) : Dec := ⟨-d.i⟩

instance : Add Dec := ⟨Dec.Add⟩
instance : Zero Dec := ⟨ZeroDec⟩
instance : Neg Dec := ⟨Dec.Neg⟩
instance : Sub Dec := ⟨Dec.Sub⟩
instance : SMul ℕ Dec := ⟨fun n d => ⟨n • d.i⟩⟩
instance : SMul ℤ Dec := ⟨fun n d => ⟨n • d.i⟩⟩

namespace Dec

theorem i_injective : Function.Injective Dec.i := fun d d2 h => by
  cases d
  cases d2
  cases h
  rfl

theorem ext_i {d d2 : Dec} (h : d.i = d2.i) : d = d2 := i_injective h

/-- Decimal addition is exact: decimals add as their counts of units do. -/
instance : AddCommGroup Dec :=
  i_injective.addCommGroup _ rfl (fun _ _ => rfl) (fun _ => rfl) (fun _ _ => rfl)
    (fun _ _ => rfl) (fun _ _ => rfl)

@[simp] theorem i_zero : (0 : Dec).i = 0 := rfl
@[simp] theorem i_add (d d2 : Dec) : (d + d2).i = d.i + d2.i := rfl
@[simp] theorem neg_i (d : Dec) : d.Neg.i = -d.i := rfl

/-! The roundings of products and quotients send zero to zero. -/

theorem zero_Mul (d : Dec) : (0 : Dec).Mul d = 0 :=
  ext_i (by simp [Mul, FixedPoint.chopRound, FixedPoint.roundHalfEven])

theorem zero_MulTruncate (d : Dec) : (0 : Dec).MulTruncate d = 0 :=
  ext_i (by simp [MulTruncate, FixedPoint.chopTruncate])

theorem zero_Quo (d : Dec) : (0 : Dec).Quo d = 0 :=
  ext_i (by simp [Quo, quoRaw, FixedPoint.chopRound, FixedPoint.roundHalfEven])

theorem zero_QuoTruncate (d : Dec) : (0 : Dec).QuoTruncate d = 0 :=
  ext_i (by simp [QuoTruncate, quoRaw, FixedPoint.chopTruncate])

theorem truncateInt_zero : (0 : Dec).TruncateInt = 0 := by
  simp [TruncateInt, FixedPoint.chopTruncate]

theorem truncateInt_nonneg {d : Dec} (hd : 0 ≤ d.i) : 0 ≤ d.TruncateInt :=
  FixedPoint.chopTruncate_nonneg hd

/-- The change of a non-negative decimal, what is left after its integer part,
lies in `[0, 1)`. -/
theorem change_bounds {d : Dec} (hd : 0 ≤ d.i) :
    0 ≤ (d.Sub (ToDec d.TruncateInt)).i ∧ (d.Sub (ToDec d.TruncateInt)).i < OneDec.i := by
  have hp : (0 : ℤ) < precisionReuse := by exact_mod_cast precisionReuse_pos
  -- the change is the remainder of the units by the scale
  have hmod : (d.Sub (ToDec d.TruncateInt)).i = d.i % precisionReuse := by
    rw [sub_i, toDec_i, TruncateInt, FixedPoint.chopTruncate, Int.tdiv_eq_ediv_of_nonneg hd,
      Int.emod_def, mul_comm]
  rw [hmod]
  exact ⟨Int.emod_nonneg _ hp.ne', Int.emod_lt_of_pos _ hp⟩

theorem MinDec_nonneg {d d2 : Dec} (hd : 0 ≤ d.i) (hd2 : 0 ≤ d2.i) : 0 ≤ (MinDec d d2).i := by
  unfold MinDec
  split <;> assumption

/-- The smaller of zero and a non-negative decimal is zero. -/
theorem MinDec_zero_left {d : Dec} (hd : 0 ≤ d.i) : MinDec 0 d = 0 := by
  unfold MinDec
  split
  · rfl
  · rename_i h
    simp only [lt_iff, i_zero, not_lt] at h
    exact ext_i (le_antisymm h hd)

end Dec

namespace Types

open SortedMerge

/-! ### Decimal coins -/

/-- `sdk.DecCoin`. -/
structure DecCoin where
  Denom : String
  Amount : Dec
  deriving DecidableEq, Repr

namespace DecCoin

def IsZero (coin : DecCoin) : Bool := coin.Amount.IsZero

def IsPositive (coin : DecCoin) : Bool := coin.Amount.IsPositive

/-- `Amount.Sign() == -1`. -/
def IsNegative (coin : DecCoin) : Bool := coin.Amount.IsNegative

/-- `DecCoin.Add`: the amounts added, under the receiver's denomination.  The code
panics on two different denominations; `safeAdd`, its caller here, adds only
coins of one denomination. -/
def Add (coin coinB : DecCoin) : DecCoin := ⟨coin.Denom, coin.Amount.Add coinB.Amount⟩

/-- `DecCoin.TruncateDecimal`: the integer part as a coin, made by `NewCoin`, and
the change. -/
def TruncateDecimal (coin : DecCoin) : Except CoinPanic (Coin × DecCoin) := do
  let truncated := coin.Amount.TruncateInt
  let change := coin.Amount.Sub (ToDec truncated)
  let truncatedCoin ← NewCoin coin.Denom truncated
  pure (truncatedCoin, ⟨coin.Denom, change⟩)

theorem amount_eq_zero {coin : DecCoin} (h : coin.IsZero = true) : coin.Amount = 0 :=
  Dec.ext_i (by simpa [IsZero] using h)

/-- The integer part of a decimal coin, as `TruncateDecimal` returns it. -/
def truncatedCoin (coin : DecCoin) : Coin := ⟨coin.Denom, coin.Amount.TruncateInt⟩

/-- The change of a decimal coin, as `TruncateDecimal` returns it. -/
def changeCoin (coin : DecCoin) : DecCoin := ⟨coin.Denom, coin.Amount.Sub (ToDec coin.Amount.TruncateInt)⟩

/-- `TruncateDecimal` of a coin of the grammar with a non-negative amount does not
panic. -/
theorem TruncateDecimal_eq {coin : DecCoin} (hdnm : reDnm coin.Denom = true)
    (hpos : 0 ≤ coin.Amount.i) :
    coin.TruncateDecimal = .ok (coin.truncatedCoin, coin.changeCoin) := by
  have htrunc : ¬ coin.Amount.TruncateInt < 0 := not_lt.2 (Dec.truncateInt_nonneg hpos)
  simp only [TruncateDecimal, NewCoin, validateDenom, hdnm, if_true, htrunc, if_false]
  rfl

end DecCoin

/-- `NewDecCoinFromCoin`. -/
def NewDecCoinFromCoin (coin : Coin) : Except CoinPanic DecCoin := do
  if coin.Amount < 0 then throw (.negativeDecimalCoinAmount coin.Amount)
  if coin.Denom.toLower ≠ coin.Denom then throw (.denomUpperCase coin.Denom)
  pure ⟨coin.Denom, ToDec coin.Amount⟩

/-- `sdk.DecCoins`. -/
abbrev DecCoins := List DecCoin

/-- `NewDecCoins`. -/
def NewDecCoins (coins : Coins) : Except CoinPanic DecCoins := coins.mapM NewDecCoinFromCoin

/-- `NewDecCoinFromCoin` of a coin of the grammar with a non-negative amount does
not panic. -/
theorem NewDecCoinFromCoin_eq {coin : Coin} (hdnm : reDnm coin.Denom = true)
    (hpos : 0 ≤ coin.Amount) : NewDecCoinFromCoin coin = .ok ⟨coin.Denom, ToDec coin.Amount⟩ := by
  have hlower : ¬ coin.Denom.toLower ≠ coin.Denom := not_not.2 (toLower_eq_of_reDnm hdnm)
  simp only [NewDecCoinFromCoin, not_lt.2 hpos, if_false, hlower]
  rfl

namespace DecCoins

/-- `DecCoins.safeAdd`: the two-pointer merge by denomination, adding the coins
of one denomination and dropping the zero ones. -/
def safeAdd (coins coinsB : DecCoins) : DecCoins :=
  mergeAdd DecCoin.Denom DecCoin.IsZero DecCoin.Add coins coinsB

def Add (coins coinsB : DecCoins) : DecCoins := coins.safeAdd coinsB

def negative (coins : DecCoins) : DecCoins := coins.map fun coin => ⟨coin.Denom, coin.Amount.Neg⟩

def IsAnyNegative (coins : DecCoins) : Bool := coins.any DecCoin.IsNegative

/-- `DecCoins.SafeSub`: the merge with the negated second list, and whether some
amount of it is negative. -/
def SafeSub (coins coinsB : DecCoins) : DecCoins × Bool :=
  let diff := coins.safeAdd coinsB.negative
  (diff, diff.IsAnyNegative)

/-- `DecCoins.AmountOf`: the denomination checked, then the halving search. -/
def AmountOf (coins : DecCoins) (denom : String) : Except CoinPanic Dec := do
  validateDenom denom
  pure (search DecCoin.Denom DecCoin.Amount coins denom)

/-- `DecCoins.Intersect`: each coin of the first list at the smaller of its
amount and the second list's, and then the zero coins dropped. -/
def Intersect (coins coinsB : DecCoins) : Except CoinPanic DecCoins := do
  let res ← coins.mapM fun coin => do
    let amountB ← coinsB.AmountOf coin.Denom
    pure (⟨coin.Denom, MinDec coin.Amount amountB⟩ : DecCoin)
  pure (removeZero DecCoin.IsZero res)

/-- The loop of `MulDec`, `MulDecTruncate`, `QuoDec` and `QuoDecTruncate`: each
amount scaled, and each product other than zero added to the result. -/
def scaleEach (scale : Dec → Dec) (coins : DecCoins) : DecCoins :=
  coins.foldl (fun res coin =>
    let product : DecCoin := ⟨coin.Denom, scale coin.Amount⟩
    if !product.IsZero then res.Add [product] else res) []

def MulDec (coins : DecCoins) (d : Dec) : DecCoins := scaleEach (fun amount => amount.Mul d) coins

def MulDecTruncate (coins : DecCoins) (d : Dec) : DecCoins :=
  scaleEach (fun amount => amount.MulTruncate d) coins

/-- `DecCoins.QuoDec`: a panic on a zero divisor. -/
def QuoDec (coins : DecCoins) (d : Dec) : Except CoinPanic DecCoins :=
  if d.IsZero then throw .invalidZeroDecimal else pure (scaleEach (fun amount => amount.Quo d) coins)

def QuoDecTruncate (coins : DecCoins) (d : Dec) : Except CoinPanic DecCoins :=
  if d.IsZero then throw .invalidZeroDecimal
  else pure (scaleEach (fun amount => amount.QuoTruncate d) coins)

/-- `DecCoins.TruncateDecimal`: the integer parts, as coins, and the changes,
each merged into its own result when it is not zero. -/
def TruncateDecimal (coins : DecCoins) : Except CoinPanic (Coins × DecCoins) :=
  coins.foldlM (fun (acc : Coins × DecCoins) coin => do
    let (truncated, change) ← coin.TruncateDecimal
    let truncatedCoins := if !truncated.IsZero then acc.1.Add [truncated] else acc.1
    let changeCoins := if !change.IsZero then acc.2.Add [change] else acc.2
    pure (truncatedCoins, changeCoins)) ([], [])

/-- A decimal coin list read as a function: the amount at a denomination. -/
def amountAt (coins : DecCoins) (denom : String) : Dec := total DecCoin.Denom DecCoin.Amount coins denom

/-- The validity the code means: sorted by denomination, every denomination in
the grammar and every amount positive. -/
def Valid (coins : DecCoins) : Prop :=
  KeySorted DecCoin.Denom coins ∧ ∀ coin ∈ coins, reDnm coin.Denom = true ∧ 0 < coin.Amount.i

instance : DecidablePred Valid := fun coins =>
  inferInstanceAs (Decidable ((coins.Pairwise fun x y => x.Denom < y.Denom) ∧
    ∀ coin ∈ coins, reDnm coin.Denom = true ∧ 0 < coin.Amount.i))

/-- Sorted by denomination, so with no two coins of one denomination, and with
no zero coin. -/
def Canonical (coins : DecCoins) : Prop :=
  KeySorted DecCoin.Denom coins ∧ ∀ coin ∈ coins, coin.IsZero = false

/-! ### Decimal coin lists as functions of the denomination -/

/-- **`AmountOf` reads the function**: on a sorted list it is `amountAt` at a
denomination of the grammar, and a panic at any other. -/
theorem AmountOf_eq {coins : DecCoins} (hs : KeySorted DecCoin.Denom coins) (denom : String) :
    coins.AmountOf denom =
      if reDnm denom then .ok (coins.amountAt denom) else .error (.invalidDenom denom) := by
  unfold AmountOf validateDenom
  rw [search_eq_total DecCoin.Denom DecCoin.Amount hs]
  cases reDnm denom <;> rfl

theorem AmountOf_eq_ok_iff {coins : DecCoins} (hs : KeySorted DecCoin.Denom coins)
    {denom : String} {amount : Dec} :
    coins.AmountOf denom = .ok amount ↔ reDnm denom = true ∧ coins.amountAt denom = amount := by
  rw [AmountOf_eq hs]
  cases reDnm denom <;> simp

/-- A valid list holds no negative amount at any denomination. -/
theorem amountAt_nonneg {coins : DecCoins} (hv : coins.Valid) (denom : String) :
    0 ≤ (coins.amountAt denom).i := by
  rcases total_eq_zero_or DecCoin.Denom DecCoin.Amount hv.1 denom with ⟨-, h0⟩ | ⟨coin, hc, -, h⟩
  · rw [amountAt, h0, Dec.i_zero]
  · rw [amountAt, h]
    exact (hv.2 coin hc).2.le

/-- Where a valid list's function is not zero, the denomination is in the grammar. -/
theorem reDnm_of_amountAt_ne_zero {coins : DecCoins} (hv : coins.Valid) {denom : String}
    (h : coins.amountAt denom ≠ 0) : reDnm denom = true := by
  obtain ⟨coin, hc, rfl⟩ := exists_key_of_total_ne_zero DecCoin.Denom DecCoin.Amount h
  exact (hv.2 coin hc).1

/-- A merge of sorted lists is sorted, without zero entries. -/
theorem canonical_mergeAdd {a b : DecCoins} (ha : KeySorted DecCoin.Denom a)
    (hb : KeySorted DecCoin.Denom b) :
    Canonical (mergeAdd DecCoin.Denom DecCoin.IsZero DecCoin.Add a b) :=
  ⟨sorted_mergeAdd DecCoin.Denom DecCoin.IsZero DecCoin.Add (fun _ _ => rfl) ha hb,
    fun _ he => ne_zero_of_mem_mergeAdd DecCoin.Denom DecCoin.IsZero DecCoin.Add he⟩

/-- `Add` adds the functions, of any two lists. -/
theorem amountAt_Add (a b : DecCoins) (denom : String) :
    (a.Add b).amountAt denom = a.amountAt denom + b.amountAt denom :=
  total_mergeAdd DecCoin.Denom DecCoin.IsZero DecCoin.Add DecCoin.Amount (fun _ _ => rfl)
    (fun _ _ => rfl) (fun _ => DecCoin.amount_eq_zero) a b denom

theorem sorted_negative {coins : DecCoins} (hs : KeySorted DecCoin.Denom coins) :
    KeySorted DecCoin.Denom coins.negative :=
  sorted_map DecCoin.Denom DecCoin.Denom hs fun _ => rfl

theorem amountAt_negative (coins : DecCoins) (denom : String) :
    coins.negative.amountAt denom = (coins.amountAt denom).Neg :=
  total_map_hom DecCoin.Denom DecCoin.Amount DecCoin.Denom DecCoin.Amount
    (f := fun coin : DecCoin => (⟨coin.Denom, coin.Amount.Neg⟩ : DecCoin)) (fun _ => rfl)
    negAddMonoidHom (fun _ => rfl) coins denom

theorem canonical_Add {a b : DecCoins} (ha : KeySorted DecCoin.Denom a)
    (hb : KeySorted DecCoin.Denom b) : (a.Add b).Canonical :=
  canonical_mergeAdd ha hb

theorem canonical_SafeSub {a b : DecCoins} (ha : KeySorted DecCoin.Denom a)
    (hb : KeySorted DecCoin.Denom b) : (a.SafeSub b).1.Canonical :=
  canonical_mergeAdd ha (sorted_negative hb)

/-- `SafeSub` subtracts the functions. -/
theorem amountAt_SafeSub (a b : DecCoins) (denom : String) :
    (a.SafeSub b).1.amountAt denom = (a.amountAt denom).Sub (b.amountAt denom) := by
  have h := amountAt_Add a b.negative denom
  rw [amountAt_negative] at h
  exact h

/-- On a sorted list some amount is negative exactly when the function is
negative somewhere. -/
theorem IsAnyNegative_iff {coins : DecCoins} (hs : KeySorted DecCoin.Denom coins) :
    coins.IsAnyNegative = true ↔ ∃ denom, (coins.amountAt denom).IsNegative = true := by
  rw [IsAnyNegative, List.any_eq_true]
  exact exists_total_iff DecCoin.Denom DecCoin.Amount hs (fun amount => amount.IsNegative = true)
    (by decide)

/-- The flag of `SafeSub` says whether the pointwise difference is negative
somewhere. -/
theorem SafeSub_flag_iff {a b : DecCoins} (ha : KeySorted DecCoin.Denom a)
    (hb : KeySorted DecCoin.Denom b) :
    (a.SafeSub b).2 = true ↔
      ∃ denom, ((a.amountAt denom).Sub (b.amountAt denom)).IsNegative = true := by
  have h := IsAnyNegative_iff (canonical_SafeSub ha hb).1
  simp only [amountAt_SafeSub] at h
  exact h

/-! ### Intersect -/

/-- `Intersect` of a list whose denominations are in the grammar does not panic:
it keeps each coin of the first list at the smaller of the two amounts, and drops
the zero ones. -/
theorem Intersect_eq {a b : DecCoins} (ha : ∀ coin ∈ a, reDnm coin.Denom = true)
    (hb : KeySorted DecCoin.Denom b) :
    a.Intersect b = .ok (removeZero DecCoin.IsZero
      (a.map fun coin => ⟨coin.Denom, MinDec coin.Amount (b.amountAt coin.Denom)⟩)) := by
  unfold Intersect
  rw [Except.mapM_eq_ok (fun coin hc => by rw [AmountOf_eq hb, if_pos hc]; rfl) a ha]
  rfl

/-- **`Intersect` is the pointwise minimum** of two valid lists, and keeps only
positive amounts. -/
theorem Intersect_spec {a b : DecCoins} (ha : a.Valid) (hb : b.Valid) :
    ∃ r, a.Intersect b = .ok r ∧
      (∀ denom, r.amountAt denom = MinDec (a.amountAt denom) (b.amountAt denom)) ∧
      r.Canonical ∧ ∀ coin ∈ r, coin.IsPositive = true := by
  refine ⟨_, Intersect_eq (fun coin hc => (ha.2 coin hc).1) hb.1, fun denom => ?_, ⟨?_, ?_⟩, ?_⟩
  · -- the zero coins hold nothing, and the others the minimum at their denomination
    unfold amountAt
    rw [total_removeZero DecCoin.Denom DecCoin.IsZero DecCoin.Amount fun _ => DecCoin.amount_eq_zero]
    exact total_map DecCoin.Denom DecCoin.Amount DecCoin.Denom DecCoin.Amount ha.1
      (f := fun coin => ⟨coin.Denom, MinDec coin.Amount (b.amountAt coin.Denom)⟩) (fun _ => rfl)
      (fun denom amount => MinDec amount (b.amountAt denom)) (fun _ => rfl)
      (fun denom => Dec.MinDec_zero_left (amountAt_nonneg hb denom)) denom
  · exact sorted_removeZero DecCoin.Denom DecCoin.IsZero
      (sorted_map DecCoin.Denom DecCoin.Denom ha.1 fun _ => rfl)
  · exact fun _ hc => ne_zero_of_mem_removeZero DecCoin.IsZero hc
  · intro coin hc
    have hnz := ne_zero_of_mem_removeZero DecCoin.IsZero hc
    obtain ⟨x, hx, rfl⟩ := List.mem_map.1 (List.mem_filter.1 hc).1
    -- the smaller of two non-negative amounts, and not zero
    have hnn := Dec.MinDec_nonneg (ha.2 x hx).2.le (amountAt_nonneg hb x.Denom)
    simp only [DecCoin.IsZero, Dec.IsZero, decide_eq_false_iff_not] at hnz
    simp only [DecCoin.IsPositive, Dec.isPositive_iff]
    omega

/-! ### Scaling -/

/-- Each amount scaled by a function that sends zero to zero: the function of the
result is the scaled function. -/
theorem amountAt_scaleEach {scale : Dec → Dec} (hscale : scale 0 = 0) {coins : DecCoins}
    (hs : KeySorted DecCoin.Denom coins) (denom : String) :
    (scaleEach scale coins).amountAt denom = scale (coins.amountAt denom) := by
  unfold scaleEach amountAt
  refine (total_foldl_mergeAdd DecCoin.Denom DecCoin.IsZero DecCoin.Add DecCoin.Amount
    (fun coin : DecCoin => (⟨coin.Denom, scale coin.Amount⟩ : DecCoin)) _ (fun _ _ => rfl)
    (fun _ _ => rfl) (fun _ => DecCoin.amount_eq_zero) (fun _ _ => rfl) coins [] denom).trans ?_
  rw [total_nil, zero_add]
  exact total_map DecCoin.Denom DecCoin.Amount DecCoin.Denom DecCoin.Amount hs
    (f := fun coin => ⟨coin.Denom, scale coin.Amount⟩) (fun _ => rfl) (fun _ amount => scale amount)
    (fun _ => rfl) (fun _ => hscale) denom

theorem canonical_scaleEach (scale : Dec → Dec) (coins : DecCoins) : (scaleEach scale coins).Canonical :=
  ⟨sorted_foldl_mergeAdd DecCoin.Denom DecCoin.IsZero DecCoin.Add
      (fun coin : DecCoin => (⟨coin.Denom, scale coin.Amount⟩ : DecCoin)) _ (fun _ _ => rfl)
      (fun _ _ => rfl) coins List.Pairwise.nil,
    ne_zero_of_mem_foldl_mergeAdd DecCoin.Denom DecCoin.IsZero DecCoin.Add
      (fun coin : DecCoin => (⟨coin.Denom, scale coin.Amount⟩ : DecCoin)) _ (fun _ _ => rfl) coins
      fun _ h => absurd h List.not_mem_nil⟩

/-- A positive divisor does not make `QuoDec` panic. -/
theorem QuoDec_eq {d : Dec} (hd : d.IsPositive = true) (coins : DecCoins) :
    coins.QuoDec d = .ok (scaleEach (fun amount => amount.Quo d) coins) := by
  have hz : d.IsZero = false := by simp_all [Dec.IsZero, Dec.IsPositive]; omega
  rw [QuoDec, if_neg (by simp [hz])]
  rfl

theorem QuoDecTruncate_eq {d : Dec} (hd : d.IsPositive = true) (coins : DecCoins) :
    coins.QuoDecTruncate d = .ok (scaleEach (fun amount => amount.QuoTruncate d) coins) := by
  have hz : d.IsZero = false := by simp_all [Dec.IsZero, Dec.IsPositive]; omega
  rw [QuoDecTruncate, if_neg (by simp [hz])]
  rfl

/-! ### Truncation -/

/-- `TruncateDecimal` of a valid list does not panic: it is the two loops of its
merges, one over the integer parts and one over the changes. -/
theorem TruncateDecimal_eq {coins : DecCoins} (hv : coins.Valid) :
    coins.TruncateDecimal = .ok
      (coins.foldl (fun res coin =>
        if !coin.truncatedCoin.IsZero then res.Add [coin.truncatedCoin] else res) [],
       coins.foldl (fun res coin =>
        if !coin.changeCoin.IsZero then res.Add [coin.changeCoin] else res) []) := by
  unfold TruncateDecimal
  rw [← List.foldl_pair]
  refine Except.foldlM_eq_ok (fun acc coin hc => ?_) coins (fun coin hc => hv.2 coin hc) _
  dsimp only
  rw [DecCoin.TruncateDecimal_eq hc.1 hc.2.le]
  rfl

section Parts

variable {coins : DecCoins} (hv : coins.Valid)
include hv

/-- The integer parts, merged in one at a time: the integer part of the amount
at each denomination. -/
theorem amountAt_truncated {step : Coins → DecCoin → Coins}
    (hstep : ∀ res coin, step res coin = if !coin.truncatedCoin.IsZero then
      mergeAdd Coin.Denom Coin.IsZero Coin.Add res [coin.truncatedCoin] else res) (denom : String) :
    Coins.amountAt (coins.foldl step []) denom = (coins.amountAt denom).TruncateInt := by
  unfold Coins.amountAt
  rw [total_foldl_mergeAdd Coin.Denom Coin.IsZero Coin.Add Coin.Amount DecCoin.truncatedCoin step hstep
    (fun _ _ => rfl) (fun _ => Coin.amount_eq_zero) (fun _ _ => rfl), total_nil, zero_add]
  exact total_map DecCoin.Denom DecCoin.Amount Coin.Denom Coin.Amount hv.1
    (f := DecCoin.truncatedCoin) (fun _ => rfl) (fun _ amount => amount.TruncateInt) (fun _ => rfl) (fun _ => Dec.truncateInt_zero) denom

/-- The integer parts of a valid list form a valid coin list. -/
theorem Valid_truncated {step : Coins → DecCoin → Coins}
    (hstep : ∀ res coin, step res coin = if !coin.truncatedCoin.IsZero then
      mergeAdd Coin.Denom Coin.IsZero Coin.Add res [coin.truncatedCoin] else res) :
    Coins.Valid (coins.foldl step []) := by
  have hs : KeySorted Coin.Denom (coins.foldl step []) :=
    sorted_foldl_mergeAdd Coin.Denom Coin.IsZero Coin.Add DecCoin.truncatedCoin step hstep
      (fun _ _ => rfl) coins List.Pairwise.nil
  refine ⟨hs, fun coin hc => ?_⟩
  have hnz : coin.Amount ≠ 0 := by
    have h := ne_zero_of_mem_foldl_mergeAdd Coin.Denom Coin.IsZero Coin.Add DecCoin.truncatedCoin
      step hstep coins (fun _ h => absurd h List.not_mem_nil) coin hc
    simpa [Coin.IsZero] using h
  -- the coin holds the integer part of the list's amount at its denomination
  have hamount : coin.Amount = (coins.amountAt coin.Denom).TruncateInt := by
    rw [← amountAt_truncated hv hstep, Coins.amountAt, total_of_mem Coin.Denom Coin.Amount hs hc]
  have hnn : 0 ≤ coin.Amount := hamount ▸ Dec.truncateInt_nonneg (amountAt_nonneg hv _)
  refine ⟨?_, lt_of_le_of_ne hnn (Ne.symm hnz)⟩
  -- so the list holds an amount there, and the denomination is one of the list's
  have hne : coins.amountAt coin.Denom ≠ 0 := fun h0 => hnz (by rw [hamount, h0, Dec.truncateInt_zero])
  obtain ⟨x, hx, hxd⟩ := exists_key_of_total_ne_zero DecCoin.Denom DecCoin.Amount hne
  rw [← hxd]
  exact (hv.2 x hx).1

/-- The changes, merged in one at a time: the change of the amount at each
denomination. -/
theorem amountAt_change {step : DecCoins → DecCoin → DecCoins}
    (hstep : ∀ res coin, step res coin = if !coin.changeCoin.IsZero then
      mergeAdd DecCoin.Denom DecCoin.IsZero DecCoin.Add res [coin.changeCoin] else res)
    (denom : String) :
    amountAt (coins.foldl step []) denom =
      (coins.amountAt denom).Sub (ToDec (coins.amountAt denom).TruncateInt) := by
  unfold amountAt
  rw [total_foldl_mergeAdd DecCoin.Denom DecCoin.IsZero DecCoin.Add DecCoin.Amount DecCoin.changeCoin
    step hstep (fun _ _ => rfl) (fun _ => DecCoin.amount_eq_zero) (fun _ _ => rfl), total_nil, zero_add]
  exact total_map DecCoin.Denom DecCoin.Amount DecCoin.Denom DecCoin.Amount hv.1
    (f := DecCoin.changeCoin) (fun _ => rfl) (fun _ amount => amount.Sub (ToDec amount.TruncateInt))
    (fun _ => rfl)
    (fun _ => Dec.ext_i (by simp [Dec.truncateInt_zero])) denom

/-- The changes form a sorted list without zero entries, each strictly between
zero and one. -/
theorem change_spec {step : DecCoins → DecCoin → DecCoins}
    (hstep : ∀ res coin, step res coin = if !coin.changeCoin.IsZero then
      mergeAdd DecCoin.Denom DecCoin.IsZero DecCoin.Add res [coin.changeCoin] else res) :
    (coins.foldl step []).Canonical ∧
      ∀ coin ∈ coins.foldl step [], 0 < coin.Amount.i ∧ coin.Amount.i < OneDec.i := by
  have hs : KeySorted DecCoin.Denom (coins.foldl step []) :=
    sorted_foldl_mergeAdd DecCoin.Denom DecCoin.IsZero DecCoin.Add DecCoin.changeCoin step hstep
      (fun _ _ => rfl) coins List.Pairwise.nil
  have hnz := ne_zero_of_mem_foldl_mergeAdd DecCoin.Denom DecCoin.IsZero DecCoin.Add
    DecCoin.changeCoin step hstep coins fun _ h => absurd h List.not_mem_nil
  refine ⟨⟨hs, hnz⟩, fun coin hc => ?_⟩
  -- the coin holds the change of the list's amount at its denomination
  have hamount : coin.Amount = (coins.amountAt coin.Denom).Sub
      (ToDec (coins.amountAt coin.Denom).TruncateInt) := by
    rw [← amountAt_change hv hstep, amountAt, total_of_mem DecCoin.Denom DecCoin.Amount hs hc]
  have hbounds := Dec.change_bounds (amountAt_nonneg hv coin.Denom)
  have hne : coin.Amount.i ≠ 0 := by simpa [DecCoin.IsZero, Dec.IsZero] using hnz coin hc
  rw [← hamount] at hbounds
  exact ⟨lt_of_le_of_ne hbounds.1 (Ne.symm hne), hbounds.2⟩

end Parts

/-- The integer parts, as decimal coins, and the changes add back up to the
list: at each denomination the integer part and the change make the amount. -/
theorem NewDecCoins_Add_change {coins : DecCoins} (hv : coins.Valid) {t : Coins} (ht : t.Valid)
    (htrunc : ∀ denom, t.amountAt denom = (coins.amountAt denom).TruncateInt) {c : DecCoins}
    (hc : c.Canonical)
    (hchange : ∀ denom, c.amountAt denom =
      (coins.amountAt denom).Sub (ToDec (coins.amountAt denom).TruncateInt)) :
    ∃ dt, NewDecCoins t = .ok dt ∧ dt.Add c = coins := by
  have hdt : NewDecCoins t = .ok (t.map fun coin => ⟨coin.Denom, ToDec coin.Amount⟩) :=
    Except.mapM_eq_ok (fun coin hcoin => NewDecCoinFromCoin_eq hcoin.1 hcoin.2.le) t ht.2
  refine ⟨_, hdt, ?_⟩
  have hsdt : KeySorted DecCoin.Denom (t.map fun coin => ⟨coin.Denom, ToDec coin.Amount⟩) :=
    sorted_map Coin.Denom DecCoin.Denom ht.1 fun _ => rfl
  -- both lists are sorted without zero entries, and they agree at every denomination
  have hsum := canonical_Add hsdt hc.1
  refine eq_of_total_eq DecCoin.Denom DecCoin.Amount (fun x y h1 h2 => ?_) hsum.1 hv.1
    (fun e he => ?_) (fun e he => ?_) fun denom => ?_
  · cases x
    cases y
    simp_all
  · intro h0
    have h := hsum.2 e he
    rw [DecCoin.IsZero, h0] at h
    exact absurd h (by decide)
  · intro h0
    have h := (hv.2 e he).2
    rw [h0, Dec.i_zero] at h
    exact lt_irrefl 0 h
  · have hmap : amountAt (t.map fun coin => ⟨coin.Denom, ToDec coin.Amount⟩) denom =
        ToDec (t.amountAt denom) :=
      total_map Coin.Denom Coin.Amount DecCoin.Denom DecCoin.Amount ht.1 (fun _ => rfl)
        (fun _ amount => ToDec amount) (fun _ => rfl) (fun _ => rfl) denom
    change amountAt _ denom = amountAt coins denom
    rw [amountAt_Add, hmap, hchange, htrunc]
    exact Dec.ext_i (by simp)

/-! ### Decimal coin lists and pointwise decimal arithmetic -/

/-- **Decimal coin lists refine pointwise decimal arithmetic**: for two valid
lists read through `AmountOf`, `Add`, `SafeSub`, `Intersect` and the four scalings
act denomination by denomination, the flag of `SafeSub` reports a negative
difference, `TruncateDecimal` splits the list into a valid coin list and changes
strictly between zero and one that add back up to it, and every result is sorted
without zero entries. -/
theorem decCoins_pointwise {a b : DecCoins} (ha : a.Valid) (hb : b.Valid) {d : Dec}
    (hd : d.IsPositive = true) :
    (∀ denom, (a.Add b).AmountOf denom = do
        let x ← a.AmountOf denom
        let y ← b.AmountOf denom
        pure (x.Add y)) ∧
      (∀ denom, (a.SafeSub b).1.AmountOf denom = do
        let x ← a.AmountOf denom
        let y ← b.AmountOf denom
        pure (x.Sub y)) ∧
      ((a.SafeSub b).2 = true ↔ ∃ denom x y, a.AmountOf denom = .ok x ∧
        b.AmountOf denom = .ok y ∧ (x.Sub y).IsNegative = true) ∧
      (∃ r, a.Intersect b = .ok r ∧ r.Canonical ∧ (∀ coin ∈ r, coin.IsPositive = true) ∧
        ∀ denom, r.AmountOf denom = do
          let x ← a.AmountOf denom
          let y ← b.AmountOf denom
          pure (MinDec x y)) ∧
      (∀ denom, (a.MulDec d).AmountOf denom = (fun x => x.Mul d) <$> a.AmountOf denom) ∧
      (∀ denom, (a.MulDecTruncate d).AmountOf denom =
        (fun x => x.MulTruncate d) <$> a.AmountOf denom) ∧
      (∃ r, a.QuoDec d = .ok r ∧ r.Canonical ∧
        ∀ denom, r.AmountOf denom = (fun x => x.Quo d) <$> a.AmountOf denom) ∧
      (∃ r, a.QuoDecTruncate d = .ok r ∧ r.Canonical ∧
        ∀ denom, r.AmountOf denom = (fun x => x.QuoTruncate d) <$> a.AmountOf denom) ∧
      (∃ t c, a.TruncateDecimal = .ok (t, c) ∧ t.IsValid = true ∧ t.Valid ∧
        (∃ dt, NewDecCoins t = .ok dt ∧ dt.Add c = a) ∧ c.Canonical ∧
        ∀ coin ∈ c, 0 < coin.Amount.i ∧ coin.Amount.i < OneDec.i) ∧
      (a.Add b).Canonical ∧ (a.SafeSub b).1.Canonical ∧ (a.MulDec d).Canonical ∧
      (a.MulDecTruncate d).Canonical := by
  obtain ⟨r, hr, hrmin, hrc, hrpos⟩ := Intersect_spec ha hb
  have hAdd := canonical_Add ha.1 hb.1
  have hSub := canonical_SafeSub ha.1 hb.1
  have hchange := change_spec ha fun _ _ => rfl
  refine ⟨fun denom => ?_, fun denom => ?_, ?_, ⟨r, hr, hrc, hrpos, fun denom => ?_⟩,
    fun denom => ?_, fun denom => ?_,
    ⟨_, QuoDec_eq hd a, canonical_scaleEach _ a, fun denom => ?_⟩,
    ⟨_, QuoDecTruncate_eq hd a, canonical_scaleEach _ a, fun denom => ?_⟩,
    ⟨_, _, TruncateDecimal_eq ha, Coins.IsValid_of_Valid (Valid_truncated ha fun _ _ => rfl),
      Valid_truncated ha fun _ _ => rfl,
      NewDecCoins_Add_change ha (Valid_truncated ha fun _ _ => rfl)
        (amountAt_truncated ha fun _ _ => rfl) hchange.1 (amountAt_change ha fun _ _ => rfl),
      hchange⟩,
    hAdd, hSub, canonical_scaleEach _ a, canonical_scaleEach _ a⟩
  · rw [AmountOf_eq hAdd.1, AmountOf_eq ha.1, AmountOf_eq hb.1, amountAt_Add]
    cases reDnm denom <;> rfl
  · rw [AmountOf_eq hSub.1, AmountOf_eq ha.1, AmountOf_eq hb.1, amountAt_SafeSub]
    cases reDnm denom <;> rfl
  · rw [SafeSub_flag_iff ha.1 hb.1]
    constructor
    · rintro ⟨denom, hneg⟩
      -- the difference is not zero there, so one of the lists holds the denomination
      have hdnm : reDnm denom = true := by
        by_cases h0 : a.amountAt denom = 0
        · refine reDnm_of_amountAt_ne_zero hb fun hb0 => ?_
          rw [h0, hb0] at hneg
          exact absurd hneg (by decide)
        · exact reDnm_of_amountAt_ne_zero ha h0
      exact ⟨denom, _, _, (AmountOf_eq_ok_iff ha.1).2 ⟨hdnm, rfl⟩,
        (AmountOf_eq_ok_iff hb.1).2 ⟨hdnm, rfl⟩, hneg⟩
    · rintro ⟨denom, x, y, hx, hy, hneg⟩
      obtain ⟨-, rfl⟩ := (AmountOf_eq_ok_iff ha.1).1 hx
      obtain ⟨-, rfl⟩ := (AmountOf_eq_ok_iff hb.1).1 hy
      exact ⟨denom, hneg⟩
  · rw [AmountOf_eq hrc.1, AmountOf_eq ha.1, AmountOf_eq hb.1, hrmin]
    cases reDnm denom <;> rfl
  · rw [MulDec, AmountOf_eq (canonical_scaleEach _ a).1, AmountOf_eq ha.1,
      amountAt_scaleEach (Dec.zero_Mul d) ha.1]
    cases reDnm denom <;> rfl
  · rw [MulDecTruncate, AmountOf_eq (canonical_scaleEach _ a).1, AmountOf_eq ha.1,
      amountAt_scaleEach (Dec.zero_MulTruncate d) ha.1]
    cases reDnm denom <;> rfl
  · rw [AmountOf_eq (canonical_scaleEach _ a).1, AmountOf_eq ha.1,
      amountAt_scaleEach (Dec.zero_Quo d) ha.1]
    cases reDnm denom <;> rfl
  · rw [AmountOf_eq (canonical_scaleEach _ a).1, AmountOf_eq ha.1,
      amountAt_scaleEach (Dec.zero_QuoTruncate d) ha.1]
    cases reDnm denom <;> rfl

end DecCoins

end Types
end ColorSdk
