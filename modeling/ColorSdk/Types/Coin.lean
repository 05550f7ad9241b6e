import ColorSdk.Lib.ExceptSpec
import ColorSdk.Lib.SortedMerge
import Mathlib

/-!
# Coins

`sdk.Coin` is a denomination and an `sdk.Int` amount, and `sdk.Coins` a list of
coins meant to be sorted by denomination with positive amounts.  `Add` is the
two-pointer merge `SortedMerge.mergeAdd`, `SafeSub` the same merge with the
amounts of the second list negated, and `AmountOf` the halving search
`SortedMerge.search`.  Read as the function `amountAt` from a denomination to
the amount there, coin lists add and subtract pointwise.

`IsValid` checks the denomination grammar `[a-z][a-z0-9]{2,15}` of the first
coin only; of the others it checks that the denomination is its own lower case.
A list it accepts can therefore hold a denomination that `AmountOf` rejects with
a panic, and that does not stand alone as a valid list.  `IsEqual` compares
position by position with `Coin.IsEqual`, which panics on two denominations that
differ.

`strings.ToLower` is modelled by the ASCII `String.toLower`: on the denominations
of the grammar the two agree.

## Main definitions

* `reDnm`, `validateDenom` — the denomination grammar.
* `Coins.IsValid`, `Coins.Add`, `Coins.SafeSub`, `Coins.AmountOf`, `Coins.IsEqual`.
* `Coins.amountAt` — a coin list read as a function of the denomination.
* `Coins.Valid` — sorted, positive, and every denomination in the grammar.

## Main results

* `Coins.IsValid_iff` — what `IsValid` accepts, as a proposition.
* `Coins.AmountOf_eq` — on a sorted list `AmountOf` is `amountAt`, on the grammar.
* `Coins.amountAt_Add`, `Coins.amountAt_SafeSub`, `Coins.SafeSub_flag_iff` — the
  pointwise sum and difference, and the flag of a negative difference.
* `Coins.Valid_Add`, `Coins.Valid_SafeSub` — validity kept.
* `Coins.IsEqual_of_denom_ne` — two valid lists that differ in their first
  denomination make `IsEqual` panic.

## References

* src/types/coin.go
-/

namespace ColorSdk
namespace Types

open SortedMerge

/-- The panics of the coin and decimal coin code, with the values their messages
print. -/
inductive CoinPanic where
  /-- `validateDenom`: "invalid denom: %s". -/
  | invalidDenom (denom : String)
  /-- `Coin.IsEqual`: "invalid coin denominations; %s, %s". -/
  | invalidCoinDenominations (denom denomB : String)
  /-- `NewCoin`: "negative coin amount: %v". -/
  | negativeCoinAmount (amount : ℤ)
  /-- `NewDecCoinFromCoin`: "negative decimal coin amount: %v". -/
  | negativeDecimalCoinAmount (amount : ℤ)
  /-- `NewDecCoinFromCoin`: "denom cannot contain upper case characters: %s". -/
  | denomUpperCase (denom : String)
  /-- `DecCoins.QuoDec` and `DecCoins.QuoDecTruncate`: "invalid zero decimal". -/
  | invalidZeroDecimal
  /-- `Coins.Sub`: "negative coin amount". -/
  | negativeCoins
  deriving DecidableEq, Repr

/-! ### The denomination grammar -/

/-- `[a-z]`. -/
def isLowerLetter (c : Char) : Bool := 'a' ≤ c && c ≤ 'z'

/-- `[a-z0-9]`. -/
def isLowerLetterOrDigit (c : Char) : Bool := isLowerLetter c || ('0' ≤ c && c ≤ '9')

/-- `reDnm`, the expression `^[a-z][a-z0-9]{2,15}$`: a lower-case letter and then
two to fifteen lower-case letters or digits. -/
def reDnm (denom : String) : Bool :=
  match denom.toList with
  | [] => false
  | c :: cs => isLowerLetter c && 2 ≤ cs.length && cs.length ≤ 15 && cs.all isLowerLetterOrDigit

/-- `validateDenom`. -/
def validateDenom (denom : String) : Except CoinPanic Unit :=
  if reDnm denom then pure () else .error (.invalidDenom denom)

@[simp] theorem toBool_validateDenom (denom : String) :
    (validateDenom denom).toBool = reDnm denom := by
  unfold validateDenom
  split <;> simp_all [Except.toBool, pure, Except.pure]

/-- A lower-case letter or a digit is no upper-case letter, so it is its own
lower case. -/
theorem toLower_eq_self {c : Char} (h : isLowerLetterOrDigit c = true) : c.toLower = c := by
  unfold Char.toLower
  rw [dif_neg]
  simp only [isLowerLetterOrDigit, isLowerLetter, Bool.or_eq_true, Bool.and_eq_true,
    decide_eq_true_eq] at h
  simp only [Char.le_def, UInt32.le_iff_toNat_le] at h ⊢
  simp only [not_and, not_le]
  intro h1
  rcases h with ⟨h2, h3⟩ | ⟨h2, h3⟩ <;> simp_all <;> omega

/-- A denomination of the grammar is its own lower case. -/
theorem toLower_eq_of_reDnm {denom : String} (h : reDnm denom = true) : denom.toLower = denom := by
  rw [← String.toList_inj, String.toLower, String.toList_map]
  unfold reDnm at h
  split at h
  · exact absurd h Bool.false_ne_true
  · rename_i c cs hcs
    simp only [Bool.and_eq_true, decide_eq_true_eq, List.all_eq_true] at h
    obtain ⟨⟨⟨hc, -⟩, -⟩, hcs'⟩ := h
    have hc' : isLowerLetterOrDigit c = true := by simp [isLowerLetterOrDigit, hc]
    rw [hcs, List.map_cons, toLower_eq_self hc', List.map_congr_left fun d hd => toLower_eq_self (hcs' d hd),
      List.map_id']

/-- The lower case of a string, character by character. -/
theorem toLower_eq_iff (s : String) : s.toLower = s ↔ s.toList.map Char.toLower = s.toList := by
  rw [← String.toList_inj, String.toLower, String.toList_map]

/-! ### Coins -/

/-- `sdk.Coin`. -/
@[ext]
structure Coin where
  Denom : String
  Amount : ℤ
  deriving DecidableEq, Repr

namespace Coin

def IsZero (coin : Coin) : Bool := coin.Amount = 0

/-- `Amount.Sign() == 1`. -/
def IsPositive (coin : Coin) : Bool := 0 < coin.Amount

/-- `Amount.Sign() == -1`. -/
def IsNegative (coin : Coin) : Bool := coin.Amount < 0

/-- `Coin.Add`: the amounts added, under the receiver's denomination.  The code
panics on two different denominations; `safeAdd`, its caller here, adds only
coins of one denomination. -/
def Add (coin coinB : Coin) : Coin := ⟨coin.Denom, coin.Amount + coinB.Amount⟩

/-- `Coin.IsEqual`: equal amounts, and a panic on two different denominations. -/
def IsEqual (coin other : Coin) : Except CoinPanic Bool :=
  if coin.Denom ≠ other.Denom then .error (.invalidCoinDenominations coin.Denom other.Denom)
  else pure (coin.Amount = other.Amount)

theorem amount_eq_zero {coin : Coin} (h : coin.IsZero = true) : coin.Amount = 0 := by
  simpa [IsZero] using h

end Coin

/-- `NewCoin`: a coin of a denomination of the grammar and a non-negative amount. -/
def NewCoin (denom : String) (amount : ℤ) : Except CoinPanic Coin := do
  validateDenom denom
  if amount < 0 then throw (.negativeCoinAmount amount)
  pure ⟨denom, amount⟩

/-- A denomination of the grammar and a non-negative amount make a coin. -/
theorem NewCoin_eq_ok {denom : String} {amount : ℤ} (hd : reDnm denom = true)
    (ha : 0 ≤ amount) : NewCoin denom amount = .ok ⟨denom, amount⟩ := by
  simp [NewCoin, validateDenom, hd, not_lt.2 ha]
  rfl

/-- A coin `NewCoin` makes has a non-negative amount. -/
theorem of_NewCoin_eq_ok {denom : String} {amount : ℤ} {coin : Coin}
    (h : NewCoin denom amount = .ok coin) : coin.Denom = denom ∧ coin.Amount = amount ∧ 0 ≤ amount := by
  by_cases hd : reDnm denom = true
  · by_cases ha : amount < 0
    · simp [NewCoin, validateDenom, hd, ha, throw, throwThe, MonadExceptOf.throw, Functor.map,
        Except.map] at h
    · rw [NewCoin_eq_ok hd (not_lt.1 ha), Except.ok.injEq] at h
      subst h
      exact ⟨rfl, rfl, not_lt.1 ha⟩
  · simp [NewCoin, validateDenom, hd, bind, Except.bind] at h

/-- `sdk.Coins`. -/
abbrev Coins := List Coin

namespace Coins

/-- The one-coin case of `IsValid`: the denomination in the grammar and the
amount positive. -/
def validFirst (coin : Coin) : Bool := (validateDenom coin.Denom).toBool && coin.IsPositive

/-- The loop of `IsValid` over the coins after the first: each denomination its
own lower case and above the one before, and each amount positive. -/
def validTail (lowDenom : String) : Coins → Bool
  | [] => true
  | coin :: rest =>
    coin.Denom.toLower == coin.Denom && !(coin.Denom ≤ lowDenom) && coin.IsPositive &&
      validTail coin.Denom rest

/-- `Coins.IsValid`. -/
def IsValid : Coins → Bool
  | [] => true
  | [coin] => validFirst coin
  -- the single coin case for the first coin, then the loop over the others
  | coin :: rest => validFirst coin && validTail coin.Denom rest

/-- `Coins.safeAdd`: the two-pointer merge by denomination, adding the coins of
one denomination and dropping the zero ones. -/
def safeAdd (coins coinsB : Coins) : Coins := mergeAdd Coin.Denom Coin.IsZero Coin.Add coins coinsB

def Add (coins coinsB : Coins) : Coins := coins.safeAdd coinsB

def negative (coins : Coins) : Coins := coins.map fun coin => ⟨coin.Denom, -coin.Amount⟩

def IsAnyNegative (coins : Coins) : Bool := coins.any Coin.IsNegative

/-- `Coins.SafeSub`: the merge with the negated second list, and whether some
amount of it is negative. -/
def SafeSub (coins coinsB : Coins) : Coins × Bool :=
  let diff := coins.safeAdd coinsB.negative
  (diff, diff.IsAnyNegative)

/-- `Coins.Sub`: `SafeSub`, and a panic on a negative difference. -/
def Sub (coins coinsB : Coins) : Except CoinPanic Coins :=
  let diff := coins.SafeSub coinsB
  -- the flag of a negative amount
  if diff.2 then .error .negativeCoins else pure diff.1

/-- `Coins.IsAllPositive`: not empty, and every amount positive. -/
def IsAllPositive (coins : Coins) : Bool := !coins.isEmpty && coins.all Coin.IsPositive

/-- `Coins.IsZero`: no coin, or every amount zero. -/
def IsZero (coins : Coins) : Bool := coins.all Coin.IsZero

/-- `Coins.AmountOf`: the denomination checked, then the halving search.  The
code checks it again at every level of the search, always the same one. -/
def AmountOf (coins : Coins) (denom : String) : Except CoinPanic ℤ := do
  validateDenom denom
  pure (search Coin.Denom Coin.Amount coins denom)

/-- `Coins.Sort`, with `Less` comparing denominations. -/
def sort (coins : Coins) : Coins := coins.mergeSort fun coin coinB => decide (coin.Denom ≤ coinB.Denom)

/-- The loop of `IsEqual`: `Coin.IsEqual` position by position, up to the first
difference. -/
def isEqualLoop : Coins → Coins → Except CoinPanic Bool
  | coin :: coins, coinB :: coinsB => do
    let equal ← coin.IsEqual coinB
    if equal then isEqualLoop coins coinsB else pure false
  | _, _ => pure true

/-- `Coins.IsEqual`. -/
def IsEqual (coins coinsB : Coins) : Except CoinPanic Bool :=
  if coins.length ≠ coinsB.length then pure false else isEqualLoop coins.sort coinsB.sort

/-- A coin list read as a function: the amount at a denomination. -/
def amountAt (coins : Coins) (denom : String) : ℤ := total Coin.Denom Coin.Amount coins denom

/-- The validity the code means: sorted by denomination, every denomination in
the grammar and every amount positive. -/
def Valid (coins : Coins) : Prop :=
  KeySorted Coin.Denom coins ∧ ∀ coin ∈ coins, reDnm coin.Denom = true ∧ 0 < coin.Amount

instance : DecidablePred Valid := fun coins =>
  inferInstanceAs (Decidable ((coins.Pairwise fun x y => x.Denom < y.Denom) ∧
    ∀ coin ∈ coins, reDnm coin.Denom = true ∧ 0 < coin.Amount))

/-! ### What `IsValid` accepts -/

theorem IsValid_cons (coin : Coin) (rest : Coins) :
    IsValid (coin :: rest) = (validFirst coin && validTail coin.Denom rest) := by
  cases rest with
  | nil => simp [IsValid, validTail]
  | cons _ _ => rfl

/-- The loop accepts the coins whose denominations are above the last one seen
and increase, each its own lower case, and whose amounts are positive. -/
theorem validTail_iff {lowDenom : String} {coins : Coins} :
    validTail lowDenom coins = true ↔ (∀ coin ∈ coins, lowDenom < coin.Denom) ∧
      KeySorted Coin.Denom coins ∧
      ∀ coin ∈ coins, coin.Denom.toLower = coin.Denom ∧ 0 < coin.Amount := by
  induction coins generalizing lowDenom with
  | nil => simp [validTail, KeySorted]
  | cons coin rest ih =>
    simp only [validTail, Bool.and_eq_true, beq_iff_eq, Bool.not_eq_true', decide_eq_false_iff_not,
      not_le, Coin.IsPositive, decide_eq_true_eq, ih, KeySorted, List.pairwise_cons, List.mem_cons,
      forall_eq_or_imp]
    constructor
    · rintro ⟨⟨⟨hlow, hlt⟩, hpos⟩, habove, hsorted, hrest⟩
      exact ⟨⟨hlt, fun e he => hlt.trans (habove e he)⟩, ⟨habove, hsorted⟩, ⟨hlow, hpos⟩, hrest⟩
    · rintro ⟨⟨hlt, -⟩, ⟨habove, hsorted⟩, ⟨hlow, hpos⟩, hrest⟩
      exact ⟨⟨⟨hlow, hlt⟩, hpos⟩, habove, hsorted, hrest⟩

/-- **What `IsValid` accepts**: a list sorted by denomination, with positive
amounts and denominations that are their own lower case, whose first
denomination is in the grammar. -/
theorem IsValid_iff {coins : Coins} :
    coins.IsValid = true ↔ KeySorted Coin.Denom coins ∧
      (∀ coin ∈ coins, coin.Denom.toLower = coin.Denom ∧ 0 < coin.Amount) ∧
      ∀ coin ∈ coins.head?, reDnm coin.Denom = true := by
  cases coins with
  | nil => simp [IsValid, KeySorted]
  | cons coin rest =>
    rw [IsValid_cons]
    simp only [validFirst, toBool_validateDenom, Coin.IsPositive, Bool.and_eq_true,
      decide_eq_true_eq, validTail_iff, KeySorted, List.pairwise_cons, List.mem_cons,
      forall_eq_or_imp, List.head?_cons, Option.mem_def, Option.some.injEq, forall_eq']
    constructor
    · rintro ⟨⟨hdnm, hpos⟩, habove, hsorted, hrest⟩
      exact ⟨⟨habove, hsorted⟩, ⟨⟨toLower_eq_of_reDnm hdnm, hpos⟩, hrest⟩, hdnm⟩
    · rintro ⟨⟨habove, hsorted⟩, ⟨⟨-, hpos⟩, hrest⟩, hdnm⟩
      exact ⟨⟨hdnm, hpos⟩, habove, hsorted, hrest⟩

/-- The validity the code means is accepted by `IsValid`. -/
theorem IsValid_of_Valid {coins : Coins} (h : coins.Valid) : coins.IsValid = true := by
  refine IsValid_iff.2 ⟨h.1, fun coin hc => ⟨toLower_eq_of_reDnm (h.2 coin hc).1, (h.2 coin hc).2⟩, ?_⟩
  intro coin hc
  exact (h.2 coin (List.mem_of_mem_head? hc)).1

/-- `IsValid` accepts a second denomination outside the grammar: a list that the
code's validity does not mean, whose last coin alone is rejected, and whose
`AmountOf` panics at that denomination. -/
theorem IsValid_admits_invalid_denom :
    IsValid [⟨"abc", 1⟩, ⟨"x", 1⟩] = true ∧ reDnm "x" = false ∧
      ¬ Valid [⟨"abc", 1⟩, ⟨"x", 1⟩] ∧ IsValid [⟨"x", 1⟩] = false ∧
      AmountOf [⟨"abc", 1⟩, ⟨"x", 1⟩] "x" = .error (.invalidDenom "x") := by
  refine ⟨?_, by decide, by decide, by decide, rfl⟩
  simp +decide [IsValid, validFirst, validTail, reDnm, Coin.IsPositive, toLower_eq_iff]

/-! ### Coin lists as functions of the denomination -/

@[simp] theorem amountAt_nil (denom : String) : amountAt [] denom = 0 := rfl

@[simp] theorem amountAt_cons (coin : Coin) (coins : Coins) (denom : String) :
    amountAt (coin :: coins) denom =
      (if coin.Denom = denom then coin.Amount else 0) + amountAt coins denom :=
  total_cons _ _ _ _ _

/-- A denomination where the function is not zero is one of the list's. -/
theorem exists_denom_of_amountAt_ne_zero {coins : Coins} {denom : String}
    (h : coins.amountAt denom ≠ 0) : ∃ coin ∈ coins, coin.Denom = denom :=
  exists_key_of_total_ne_zero Coin.Denom Coin.Amount h

/-- **`AmountOf` reads the function**: on a sorted list it is `amountAt` at a
denomination of the grammar, and a panic at any other. -/
theorem AmountOf_eq {coins : Coins} (hs : KeySorted Coin.Denom coins) (denom : String) :
    coins.AmountOf denom =
      if reDnm denom then .ok (coins.amountAt denom) else .error (.invalidDenom denom) := by
  unfold AmountOf validateDenom
  rw [search_eq_total Coin.Denom Coin.Amount hs]
  cases reDnm denom <;> rfl

theorem AmountOf_eq_ok_iff {coins : Coins} (hs : KeySorted Coin.Denom coins) {denom : String}
    {amount : ℤ} : coins.AmountOf denom = .ok amount ↔
      reDnm denom = true ∧ coins.amountAt denom = amount := by
  rw [AmountOf_eq hs]
  cases reDnm denom <;> simp

theorem sorted_Add {a b : Coins} (ha : KeySorted Coin.Denom a) (hb : KeySorted Coin.Denom b) :
    KeySorted Coin.Denom (a.Add b) :=
  sorted_mergeAdd Coin.Denom Coin.IsZero Coin.Add (fun _ _ => rfl) ha hb

/-- `Add` adds the functions, of any two lists. -/
theorem amountAt_Add (a b : Coins) (denom : String) :
    (a.Add b).amountAt denom = a.amountAt denom + b.amountAt denom :=
  total_mergeAdd Coin.Denom Coin.IsZero Coin.Add Coin.Amount (fun _ _ => rfl) (fun _ _ => rfl)
    (fun _ => Coin.amount_eq_zero) a b denom

theorem sorted_negative {coins : Coins} (hs : KeySorted Coin.Denom coins) :
    KeySorted Coin.Denom coins.negative :=
  sorted_map Coin.Denom Coin.Denom hs fun _ => rfl

theorem amountAt_negative (coins : Coins) (denom : String) :
    coins.negative.amountAt denom = - coins.amountAt denom :=
  total_map_hom Coin.Denom Coin.Amount Coin.Denom Coin.Amount
    (f := fun coin => ⟨coin.Denom, -coin.Amount⟩) (fun _ => rfl) negAddMonoidHom (fun _ => rfl)
    coins denom

theorem sorted_SafeSub {a b : Coins} (ha : KeySorted Coin.Denom a) (hb : KeySorted Coin.Denom b) :
    KeySorted Coin.Denom (a.SafeSub b).1 :=
  sorted_Add ha (sorted_negative hb)

/-- `SafeSub` subtracts the functions, of any two lists. -/
theorem amountAt_SafeSub (a b : Coins) (denom : String) :
    (a.SafeSub b).1.amountAt denom = a.amountAt denom - b.amountAt denom := by
  have h := amountAt_Add a b.negative denom
  rw [amountAt_negative, ← sub_eq_add_neg] at h
  exact h

/-- On a sorted list some amount is negative exactly when the function is
negative somewhere. -/
theorem IsAnyNegative_iff {coins : Coins} (hs : KeySorted Coin.Denom coins) :
    coins.IsAnyNegative = true ↔ ∃ denom, coins.amountAt denom < 0 := by
  rw [IsAnyNegative, List.any_eq_true]
  simp only [Coin.IsNegative, decide_eq_true_eq]
  exact exists_total_iff Coin.Denom Coin.Amount hs (fun v => v < 0) (lt_irrefl 0)

/-- The flag of `SafeSub` says whether the first function is below the second
somewhere. -/
theorem SafeSub_flag_iff {a b : Coins} (ha : KeySorted Coin.Denom a)
    (hb : KeySorted Coin.Denom b) :
    (a.SafeSub b).2 = true ↔ ∃ denom, a.amountAt denom < b.amountAt denom := by
  have h := IsAnyNegative_iff (sorted_SafeSub ha hb)
  simp only [amountAt_SafeSub] at h
  rw [show (a.SafeSub b).2 = (a.SafeSub b).1.IsAnyNegative from rfl, h]
  exact exists_congr fun denom => ⟨fun h => by omega, fun h => by omega⟩

/-! ### Validity kept -/

/-- Where a valid list's function is not zero, the denomination is in the grammar. -/
theorem reDnm_of_amountAt_ne_zero {coins : Coins} (hv : coins.Valid) {denom : String}
    (h : coins.amountAt denom ≠ 0) : reDnm denom = true := by
  obtain ⟨coin, hc, rfl⟩ := exists_denom_of_amountAt_ne_zero h
  exact (hv.2 coin hc).1

theorem Valid_Add {a b : Coins} (ha : a.Valid) (hb : b.Valid) : (a.Add b).Valid := by
  refine ⟨sorted_Add ha.1 hb.1, ?_⟩
  -- every coin of the sum is a coin of a list or the sum of two: the grammar
  -- stays, and positive amounts stay positive
  exact forall_mem_mergeAdd Coin.Denom Coin.IsZero Coin.Add
    (fun coin => reDnm coin.Denom = true ∧ 0 < coin.Amount)
    (fun _ _ hx hy => ⟨hx.1, add_pos hx.2 hy.2⟩) ha.2 hb.2

theorem Valid_SafeSub {a b : Coins} (ha : a.Valid) (hb : b.Valid)
    (hflag : (a.SafeSub b).2 = false) : (a.SafeSub b).1.Valid := by
  refine ⟨sorted_SafeSub ha.1 hb.1, fun coin hc => ⟨?_, ?_⟩⟩
  · -- every denomination of the difference is one of a's or of b's
    rcases key_mem_mergeAdd Coin.Denom Coin.IsZero Coin.Add (fun _ _ => rfl) hc with
      ⟨x, hx, hxc⟩ | ⟨y, hy, hyc⟩
    · rw [← hxc]
      exact (ha.2 x hx).1
    · obtain ⟨y', hy', rfl⟩ := List.mem_map.1 hy
      rw [← hyc]
      exact (hb.2 y' hy').1
  · -- no amount is zero, and with the flag down none is negative
    have hnz : coin.Amount ≠ 0 := by
      have h := ne_zero_of_mem_mergeAdd Coin.Denom Coin.IsZero Coin.Add hc
      simpa [Coin.IsZero] using h
    have hnn : ¬ coin.Amount < 0 := by
      intro hneg
      have hany : (a.SafeSub b).2 = true :=
        List.any_eq_true.2 ⟨coin, hc, by simp [Coin.IsNegative, hneg]⟩
      rw [hflag] at hany
      exact Bool.false_ne_true hany
    omega

/-- **Coins add and subtract pointwise**: for two lists valid in the sense the
code means, `Add` is valid and adds what `AmountOf` reads, `SafeSub` subtracts
it, its flag says whether the first list holds less than the second at some
denomination, and with the flag down the difference is valid. -/
theorem add_sub_pointwise {a b : Coins} (ha : a.Valid) (hb : b.Valid) :
    (a.Add b).IsValid = true ∧
      (∀ denom, (a.Add b).AmountOf denom = do
        let x ← a.AmountOf denom
        let y ← b.AmountOf denom
        pure (x + y)) ∧
      (∀ denom, (a.SafeSub b).1.AmountOf denom = do
        let x ← a.AmountOf denom
        let y ← b.AmountOf denom
        pure (x - y)) ∧
      ((a.SafeSub b).2 = true ↔
        ∃ denom x y, a.AmountOf denom = .ok x ∧ b.AmountOf denom = .ok y ∧ x < y) ∧
      ((a.SafeSub b).2 = false → (a.SafeSub b).1.IsValid = true) := by
  refine ⟨IsValid_of_Valid (Valid_Add ha hb), fun denom => ?_, fun denom => ?_, ?_,
    fun hflag => IsValid_of_Valid (Valid_SafeSub ha hb hflag)⟩
  · rw [AmountOf_eq (sorted_Add ha.1 hb.1), AmountOf_eq ha.1, AmountOf_eq hb.1, amountAt_Add]
    cases reDnm denom <;> rfl
  · rw [AmountOf_eq (sorted_SafeSub ha.1 hb.1), AmountOf_eq ha.1, AmountOf_eq hb.1,
      amountAt_SafeSub]
    cases reDnm denom <;> rfl
  · rw [SafeSub_flag_iff ha.1 hb.1]
    constructor
    · rintro ⟨denom, hlt⟩
      -- the amounts differ, so one list holds the denomination, which is in the grammar
      have hdnm : reDnm denom = true := by
        by_cases h0 : a.amountAt denom = 0
        · exact reDnm_of_amountAt_ne_zero hb (by omega)
        · exact reDnm_of_amountAt_ne_zero ha h0
      exact ⟨denom, _, _, (AmountOf_eq_ok_iff ha.1).2 ⟨hdnm, rfl⟩,
        (AmountOf_eq_ok_iff hb.1).2 ⟨hdnm, rfl⟩, hlt⟩
    · rintro ⟨denom, x, y, hx, hy, hlt⟩
      obtain ⟨-, rfl⟩ := (AmountOf_eq_ok_iff ha.1).1 hx
      obtain ⟨-, rfl⟩ := (AmountOf_eq_ok_iff hb.1).1 hy
      exact ⟨denom, hlt⟩

/-- Two lists that `IsValid` accepts whose difference, with the flag down, it
rejects: the second coin of the first list is outside the grammar. -/
theorem SafeSub_diff_invalid :
    IsValid [⟨"abc", 1⟩, ⟨"x", 1⟩] = true ∧ IsValid [⟨"abc", 1⟩] = true ∧
      SafeSub [⟨"abc", 1⟩, ⟨"x", 1⟩] [⟨"abc", 1⟩] = ([⟨"x", 1⟩], false) ∧
      IsValid [⟨"x", 1⟩] = false := by
  refine ⟨?_, by decide, ?_, by decide⟩
  · simp +decide [IsValid, validFirst, validTail, reDnm, Coin.IsPositive, toLower_eq_iff]
  · simp +decide [SafeSub, safeAdd, negative, mergeAdd, removeZero, IsAnyNegative, Coin.IsZero,
      Coin.IsNegative]

/-! ### Equality -/

/-- A sorted list is its own sort. -/
theorem sort_eq_self {coins : Coins} (hs : KeySorted Coin.Denom coins) : coins.sort = coins :=
  List.mergeSort_of_pairwise (hs.imp fun h => decide_eq_true h.le)

/-- Two lists of one length that `IsValid` accepts and whose first denominations
differ make `IsEqual` panic: both are their own sort, and `Coin.IsEqual` panics
at the first position. -/
theorem IsEqual_of_denom_ne {coin coinB : Coin} {rest restB : Coins}
    (ha : IsValid (coin :: rest) = true) (hb : IsValid (coinB :: restB) = true)
    (hlen : rest.length = restB.length) (hne : coin.Denom ≠ coinB.Denom) :
    IsEqual (coin :: rest) (coinB :: restB) =
      .error (.invalidCoinDenominations coin.Denom coinB.Denom) := by
  have hsa := (IsValid_iff.1 ha).1
  have hsb := (IsValid_iff.1 hb).1
  rw [IsEqual, if_neg (by simp [hlen]), sort_eq_self hsa, sort_eq_self hsb, isEqualLoop,
    Coin.IsEqual, if_pos hne]
  rfl

/-- `IsEqual` panics on two valid one-coin lists of different denominations. -/
theorem IsEqual_panics_on_valid :
    IsValid [⟨"aaa", 1⟩] = true ∧ IsValid [⟨"bbb", 1⟩] = true ∧
      IsEqual [⟨"aaa", 1⟩] [⟨"bbb", 1⟩] = .error (.invalidCoinDenominations "aaa" "bbb") :=
  ⟨by decide, by decide, IsEqual_of_denom_ne (by decide) (by decide) rfl (by decide)⟩

/-- A loop of `Coin.IsEqual` that answers, over two lists of one length, says
whether the lists are equal. -/
theorem isEqualLoop_eq_ok : ∀ {a b : Coins} {r : Bool}, a.length = b.length →
    isEqualLoop a b = .ok r → (r = true ↔ a = b)
  | [], [], r, _, h => by
    obtain rfl := Except.pure_eq_ok.1 h
    simp
  | [], _ :: _, _, hlen, _ => by simp at hlen
  | _ :: _, [], _, hlen, _ => by simp at hlen
  | coin :: a, coinB :: b, r, hlen, h => by
    obtain ⟨equal, hequal, h⟩ := Except.bind_eq_ok.1 h
    unfold Coin.IsEqual at hequal
    by_cases hdenom : coin.Denom ≠ coinB.Denom
    · rw [if_pos hdenom] at hequal
      cases hequal
    rw [if_neg hdenom] at hequal
    -- one denomination: `Coin.IsEqual` answers whether the amounts agree
    obtain rfl := Except.pure_eq_ok.1 hequal
    have hcoin : coin = coinB ↔ coin.Amount = coinB.Amount := by
      rw [Coin.ext_iff]
      exact and_iff_right (not_not.1 hdenom)
    by_cases hamount : coin.Amount = coinB.Amount
    · rw [decide_eq_true hamount, if_pos rfl] at h
      rw [isEqualLoop_eq_ok (Nat.succ.inj hlen) h, List.cons.injEq, hcoin]
      exact (and_iff_right hamount).symm
    · rw [decide_eq_false hamount] at h
      obtain rfl := Except.pure_eq_ok.1 h
      simp [hcoin, hamount]

/-- The loop of `IsEqual` does not panic on two lists of the same denominations. -/
theorem isEqualLoop_ok_of_denoms : ∀ {a b : Coins}, a.map Coin.Denom = b.map Coin.Denom →
    ∃ r, isEqualLoop a b = .ok r
  | [], _, _ => ⟨true, rfl⟩
  | _ :: _, [], _ => ⟨true, rfl⟩
  | coin :: a, coinB :: b, h => by
    rw [List.map_cons, List.map_cons, List.cons.injEq] at h
    obtain ⟨r, hr⟩ := isEqualLoop_ok_of_denoms h.2
    unfold isEqualLoop Coin.IsEqual
    rw [if_neg (not_not.2 h.1)]
    by_cases hamount : coin.Amount = coinB.Amount
    · exact ⟨r, by simp [hamount, hr]⟩
    · exact ⟨false, by simp [hamount]; rfl⟩

/-- Two valid lists are equal exactly when `AmountOf` reads the same from both
at every denomination. -/
theorem AmountOf_ext_iff {a b : Coins} (ha : a.Valid) (hb : b.Valid) :
    (∀ denom, a.AmountOf denom = b.AmountOf denom) ↔ a = b := by
  refine ⟨fun h => ?_, by rintro rfl _; rfl⟩
  -- in the grammar `AmountOf` reads the functions; outside it both are zero
  have hamount : ∀ denom, a.amountAt denom = b.amountAt denom := by
    intro denom
    by_cases hd : reDnm denom = true
    · have hread := h denom
      rw [AmountOf_eq ha.1, AmountOf_eq hb.1, if_pos hd, if_pos hd] at hread
      exact Except.ok.inj hread
    · have hza : a.amountAt denom = 0 := by_contra fun hne => hd (reDnm_of_amountAt_ne_zero ha hne)
      have hzb : b.amountAt denom = 0 := by_contra fun hne => hd (reDnm_of_amountAt_ne_zero hb hne)
      rw [hza, hzb]
  exact eq_of_total_eq Coin.Denom Coin.Amount (fun _ _ => Coin.ext) ha.1 hb.1
    (fun e he => (ha.2 e he).2.ne') (fun e he => (hb.2 e he).2.ne') hamount

/-- **Equality of valid coin sets, as far as it holds.**  `IsEqual` leaves two
valid sets as they are (each is its own sort), and either answers whether
`AmountOf` agrees at every denomination, or panics.  It panics only on two sets
of one length whose denominations differ, and never on sets of different lengths
or of the same denominations. -/
theorem IsEqual_of_Valid {a b : Coins} (ha : a.Valid) (hb : b.Valid) :
    a.sort = a ∧ b.sort = b ∧
      (∀ r, a.IsEqual b = .ok r → (r = true ↔ ∀ denom, a.AmountOf denom = b.AmountOf denom)) ∧
      (∀ p, a.IsEqual b = .error p → a.length = b.length ∧ a.map Coin.Denom ≠ b.map Coin.Denom) ∧
      (a.length ≠ b.length ∨ a.map Coin.Denom = b.map Coin.Denom → ∃ r, a.IsEqual b = .ok r) := by
  have hsa := sort_eq_self ha.1
  have hsb := sort_eq_self hb.1
  refine ⟨hsa, hsb, fun r h => ?_, fun p h => ?_, fun hcase => ?_⟩
  · rw [AmountOf_ext_iff ha hb]
    unfold IsEqual at h
    split_ifs at h with hlen
    · -- different lengths: the answer is no, and the lists differ
      obtain rfl := Except.pure_eq_ok.1 h
      simp only [Bool.false_eq_true, false_iff]
      rintro rfl
      exact hlen rfl
    · rw [hsa, hsb] at h
      exact isEqualLoop_eq_ok (not_not.1 hlen) h
  · unfold IsEqual at h
    split_ifs at h with hlen
    · cases h
    · rw [hsa, hsb] at h
      refine ⟨not_not.1 hlen, fun hd => ?_⟩
      obtain ⟨r, hr⟩ := isEqualLoop_ok_of_denoms hd
      rw [hr] at h
      cases h
  · unfold IsEqual
    split_ifs with hlen
    · exact ⟨false, rfl⟩
    · rw [hsa, hsb]
      exact isEqualLoop_ok_of_denoms (hcase.resolve_left hlen)

theorem IsEqual_of_Valid_atom_uclr :
    let a : Coins := [⟨"atom", 5⟩, ⟨"uclr", 3⟩]
    let b : Coins := [⟨"atom", 5⟩, ⟨"uclr", 2⟩]
    a.Valid ∧ b.Valid ∧ a.sort = a ∧ b.sort = b ∧
      (∀ r, a.IsEqual b = .ok r → (r = true ↔ ∀ denom, a.AmountOf denom = b.AmountOf denom)) ∧
      (∀ p, a.IsEqual b = .error p → a.length = b.length ∧ a.map Coin.Denom ≠ b.map Coin.Denom) ∧
      (a.length ≠ b.length ∨ a.map Coin.Denom = b.map Coin.Denom → ∃ r, a.IsEqual b = .ok r) :=
  ⟨by decide, by decide, IsEqual_of_Valid (by decide) (by decide)⟩

end Coins

end Types
end ColorSdk
