import ColorSdk.Types.Coin
import ColorSdk.Lib.GoText
import ColorSdk.Lib.ExceptSpec

/-!
# Coins as text

`Coin.String` prints the amount in decimal followed by the denomination, and
`Coins.String` joins the coins with commas; an empty list prints as the empty
string.  These are the texts of the bank's error messages and of the command
line.

`ParseCoins` reads such text: it trims white space, splits at the commas, reads
each coin with the expression `^([[:digit:]]+)[[:space:]]*([a-z][a-z0-9]{2,15})$`
and `NewIntFromString`, sorts the coins and checks them with `IsValid`.  Each
coin's denomination must be of the grammar, where `IsValid` checks only the
first: a list `IsValid` accepts need not read back from its own text.  A list
whose every denomination is of the grammar, with amounts that fit an `sdk.Int`,
does.

`NewIntFromString` is `big.Int.SetString` in base 0 on the digits the expression
matched, and then a bound of `maxBitLen` bits.

## Main definitions

* `IntString`, `Coin.String`, `Coins.String`.
* `reCoinMatch`, `NewIntFromString`, `ParseCoin`, `ParseCoins`.

## Main results

* `ParseCoins_String` — a list of valid coins, with amounts below `2 ^ maxBitLen`,
  reads back from its text.
* `ParseCoins_Valid`, `ParseCoins_String_of_ParseCoins` — what `ParseCoins`
  returns is such a list, and reads back from its own text.
* `valid_coins_not_parsed` — a list `IsValid` accepts whose second denomination
  is of one letter does not.

## References

* src/types/coin.go, src/types/int.go
-/

namespace ColorSdk
namespace Types

/-- `sdk.Int.String`: `big.Int.String`, the decimal digits after a minus sign
when negative. -/
def IntString (i : ℤ) : String := toString i

/-- `Coin.String`: `fmt.Sprintf("%v%v", coin.Amount, coin.Denom)`. -/
def Coin.String (coin : Coin) : String := IntString coin.Amount ++ coin.Denom

/-- `Coins.String`: the coins joined by commas, and the empty string for no
coins. -/
def Coins.String (coins : Coins) : String := ",".intercalate (coins.map Coin.String)

/-! ### Reading coins -/

open GoText

/-- `maxBitLen`: the bits of an `sdk.Int`. -/
def maxBitLen : ℕ := 255

/-- `NewIntFromString` on a string of digits, the text `ParseCoin` gives it:
`big.Int.SetString` in base 0, and at most `maxBitLen` bits. -/
def NewIntFromString (s : List Char) : Option ℤ :=
  match setString0Digits s with
  | some n => if n < 2 ^ maxBitLen then some n else none
  | none => none

/-- `reCoin.FindStringSubmatch`, the expression
`^([[:digit:]]+)[[:space:]]*([a-z][a-z0-9]{2,15})$`, and its two groups.  A
denomination starts with a letter, so the amount is the whole run of digits in
front and the spaces are all those after it: the match, when there is one, is
this split. -/
def reCoinMatch (coinStr : List Char) : Option (List Char × List Char) :=
  let amountStr := coinStr.takeWhile Char.isDigit
  let denomStr := (coinStr.dropWhile Char.isDigit).dropWhile isRegexSpace
  if !amountStr.isEmpty && reDnm (String.ofList denomStr) then some (amountStr, denomStr) else none

/-- The errors of `ParseCoin` and `ParseCoins`, with the values their messages
print. -/
inductive ParseError where
  /-- "invalid coin expression: %s" -/
  | invalidCoinExpression (coinStr : List Char)
  /-- "failed to parse coin amount: %s" -/
  | failedToParseAmount (amountStr : List Char)
  /-- "invalid denom cannot contain upper case characters or spaces: %s" -/
  | invalidDenom (denomStr : List Char)
  /-- "parseCoins invalid: %#v" -/
  | parseCoinsInvalid (coins : Coins)
  deriving DecidableEq, Repr

/-- An error `ParseCoins` returns, or a panic of `NewCoin`. -/
inductive ParseFailure where
  | error (err : ParseError)
  | panic (p : CoinPanic)
  deriving DecidableEq, Repr

/-- `ParseCoin`: one coin, from the trimmed text. -/
def ParseCoin (coinStr : List Char) : Except ParseFailure Coin :=
  let coinStr := trimSpace coinStr
  match reCoinMatch coinStr with
  | none => .error (.error (.invalidCoinExpression coinStr))
  | some (amountStr, denomStr) =>
    match NewIntFromString amountStr with
    | none => .error (.error (.failedToParseAmount amountStr))
    | some amount =>
      if reDnm (String.ofList denomStr) then
        (NewCoin (String.ofList denomStr) amount).mapError .panic
      else .error (.error (.invalidDenom denomStr))

/-- `ParseCoins`: the coins between the commas, sorted and checked; no coins for
text that is only white space. -/
def ParseCoins (coinsStr : String) : Except ParseFailure Coins :=
  let coinsStr := trimSpace coinsStr.toList
  if coinsStr = [] then .ok []
  else do
    let coins ← (coinsStr.splitOn ',').mapM ParseCoin
    -- sort coins for determinism
    let coins := Coins.sort coins
    if coins.IsValid then pure coins else .error (.error (.parseCoinsInvalid coins))

/-! ### Printed coins read back

A printed coin is digits and then a denomination of the grammar: the digits are
the whole run in front, no character is a space or a comma, and the digits of a
positive amount do not start with `0`, which `big.Int.SetString` would read in
base 8. -/

theorem toNat_of_isDigit {c : Char} (h : c.isDigit = true) : 48 ≤ c.toNat ∧ c.toNat ≤ 57 := by
  simpa [Char.isDigit, UInt32.le_iff_toNat_le] using h

theorem toNat_of_isLowerLetterOrDigit {c : Char} (h : isLowerLetterOrDigit c = true) :
    48 ≤ c.toNat ∧ c.toNat ≤ 122 := by
  simp [isLowerLetterOrDigit, isLowerLetter, Char.le_def, UInt32.le_iff_toNat_le] at h
  omega

theorem isDigit_of_isLowerLetter {c : Char} (h : isLowerLetter c = true) : c.isDigit = false := by
  simp [isLowerLetter, Char.isDigit, Char.le_def, UInt32.le_iff_toNat_le] at h ⊢
  omega

theorem isRegexSpace_of_isLowerLetter {c : Char} (h : isLowerLetter c = true) :
    isRegexSpace c = false := by
  simp [isLowerLetter, Char.le_def, UInt32.le_iff_toNat_le] at h
  simp [isRegexSpace, Char.ext_iff, UInt32.ext_iff]
  omega

/-- A denomination of the grammar, as characters: a lower-case letter first, and
lower-case letters and digits throughout. -/
theorem reDnm_toList {denom : String} (h : reDnm denom = true) :
    ∃ c cs, denom.toList = c :: cs ∧ isLowerLetter c = true ∧
      ∀ x ∈ c :: cs, isLowerLetterOrDigit x = true := by
  unfold reDnm at h
  split at h
  · exact absurd h Bool.false_ne_true
  · rename_i c cs hcs
    simp only [Bool.and_eq_true, decide_eq_true_eq, List.all_eq_true] at h
    obtain ⟨⟨⟨hc, -⟩, -⟩, hcs'⟩ := h
    refine ⟨c, cs, hcs, hc, ?_⟩
    rintro x (_ | ⟨_, hx⟩)
    · simp [isLowerLetterOrDigit, hc]
    · exact hcs' x hx

/-- The text of a coin with an amount of no sign: its digits, then its
denomination. -/
theorem toList_Coin_String {coin : Coin} (h : 0 ≤ coin.Amount) :
    (Coin.String coin).toList = Nat.toDigits 10 coin.Amount.toNat ++ coin.Denom.toList := by
  have hamount : coin.Amount = (coin.Amount.toNat : ℤ) := (Int.toNat_of_nonneg h).symm
  rw [Coin.String, String.toList_append, hamount, IntString, ← Nat.toList_repr, Int.toNat_natCast]
  rfl

/-- The characters of a printed coin are digits and lower-case letters. -/
theorem Coin_String_chars {coin : Coin} (hd : reDnm coin.Denom = true) (ha : 0 ≤ coin.Amount) :
    ∀ x ∈ (Coin.String coin).toList, 48 ≤ x.toNat ∧ x.toNat ≤ 122 := by
  obtain ⟨c, cs, hcs, -, hchars⟩ := reDnm_toList hd
  rw [toList_Coin_String ha, hcs]
  intro x hx
  rcases List.mem_append.1 hx with hx | hx
  · have := toNat_of_isDigit (Nat.isDigit_of_mem_toDigits (by decide) (by decide) hx)
    omega
  · exact toNat_of_isLowerLetterOrDigit (hchars x hx)

/-- Digits and lower-case letters are not white space. -/
theorem isSpace_of_coinChar {x : Char} (h : 48 ≤ x.toNat ∧ x.toNat ≤ 122) : isSpace x = false :=
  isSpace_of_between (by omega) (by omega)

/-- The expression matches a printed coin, with its digits and its denomination
as the groups. -/
theorem reCoinMatch_String {coin : Coin} (hd : reDnm coin.Denom = true) (ha : 0 ≤ coin.Amount) :
    reCoinMatch (Coin.String coin).toList =
      some (Nat.toDigits 10 coin.Amount.toNat, coin.Denom.toList) := by
  obtain ⟨c, cs, hcs, hc, -⟩ := reDnm_toList hd
  have hdigits : ∀ x ∈ Nat.toDigits 10 coin.Amount.toNat, x.isDigit = true :=
    fun _ hx => Nat.isDigit_of_mem_toDigits (by decide) (by decide) hx
  have hletter : ¬ c.isDigit = true := by simp [isDigit_of_isLowerLetter hc]
  have hspace : ¬ isRegexSpace c = true := by simp [isRegexSpace_of_isLowerLetter hc]
  have hne : (Nat.toDigits 10 coin.Amount.toNat).isEmpty = false :=
    List.isEmpty_eq_false_iff.2 Nat.toDigits_ne_nil
  -- the digits are the run in front, and the denomination starts with a letter
  have htake : (Nat.toDigits 10 coin.Amount.toNat ++ c :: cs).takeWhile Char.isDigit =
      Nat.toDigits 10 coin.Amount.toNat := by
    rw [List.takeWhile_append_of_pos hdigits, List.takeWhile_cons_of_neg hletter, List.append_nil]
  have hdrop : ((Nat.toDigits 10 coin.Amount.toNat ++ c :: cs).dropWhile Char.isDigit).dropWhile
      isRegexSpace = c :: cs := by
    rw [List.dropWhile_append_of_pos hdigits, List.dropWhile_cons_of_neg hletter,
      List.dropWhile_cons_of_neg hspace]
  rw [toList_Coin_String ha, hcs, reCoinMatch]
  simp only [htake, hdrop]
  rw [← hcs, String.ofList_toList, hd, hne]
  rfl

/-- The digits of a positive amount that fits read back as the amount. -/
theorem NewIntFromString_toDigits {n : ℕ} (hn : 0 < n) (hbits : n < 2 ^ maxBitLen) :
    NewIntFromString (Nat.toDigits 10 n) = some (n : ℤ) := by
  simp [NewIntFromString, setString0Digits_toDigits hn, hbits]

/-- A coin of the grammar with a positive amount that fits reads back from its
text. -/
theorem ParseCoin_String {coin : Coin} (hd : reDnm coin.Denom = true) (ha : 0 < coin.Amount)
    (hbits : coin.Amount < 2 ^ maxBitLen) : ParseCoin (Coin.String coin).toList = .ok coin := by
  have htrim : trimSpace (Coin.String coin).toList = (Coin.String coin).toList :=
    trimSpace_of_forall fun x hx => isSpace_of_coinChar (Coin_String_chars hd ha.le x hx)
  have hamount : NewIntFromString (Nat.toDigits 10 coin.Amount.toNat) = some coin.Amount := by
    have hbits' : ((coin.Amount.toNat : ℕ) : ℤ) < (2 ^ maxBitLen : ℕ) := by
      rw [Int.toNat_of_nonneg ha.le]
      exact_mod_cast hbits
    rw [NewIntFromString_toDigits (by omega) (by exact_mod_cast hbits'), Int.toNat_of_nonneg ha.le]
  simp only [ParseCoin, htrim, reCoinMatch_String hd ha.le, hamount, String.ofList_toList, hd,
    if_true, NewCoin_eq_ok hd ha.le]
  rfl

/-- The texts of such coins read back one by one. -/
theorem mapM_ParseCoin_String {coins : Coins}
    (h : ∀ coin ∈ coins, reDnm coin.Denom = true ∧ 0 < coin.Amount ∧ coin.Amount < 2 ^ maxBitLen) :
    (coins.map fun coin => (Coin.String coin).toList).mapM ParseCoin = .ok coins := by
  induction coins with
  | nil => rfl
  | cons coin coins ih =>
    obtain ⟨hd, ha, hbits⟩ := h coin List.mem_cons_self
    rw [List.map_cons, List.mapM_cons, ParseCoin_String hd ha hbits,
      ih fun c hc => h c (List.mem_cons_of_mem _ hc)]
    rfl

/-- **A valid list reads back from its text**, when its amounts fit an `sdk.Int`. -/
theorem ParseCoins_String {coins : Coins} (hc : coins.Valid)
    (hbits : ∀ coin ∈ coins, coin.Amount < 2 ^ maxBitLen) : ParseCoins coins.String = .ok coins := by
  obtain ⟨hsorted, hcoins⟩ := hc
  let texts := coins.map fun coin => (Coin.String coin).toList
  -- each coin's text is digits and denomination characters, none of them a comma or a space
  have hchars : ∀ t ∈ texts, ∀ x ∈ t, 48 ≤ x.toNat ∧ x.toNat ≤ 122 := by
    simp only [texts, List.mem_map]
    rintro t ⟨coin, hcoin, rfl⟩
    exact Coin_String_chars (hcoins coin hcoin).1 (hcoins coin hcoin).2.le
  have htext : coins.String.toList = [','].intercalate texts := by
    rw [Coins.String, String.toList_intercalate, List.map_map]
    rfl
  have htrim : trimSpace coins.String.toList = coins.String.toList := by
    refine trimSpace_of_forall fun x hx => ?_
    rw [htext] at hx
    rcases mem_intercalate hx with hx | ⟨t, ht, hx⟩
    · rw [List.mem_singleton.1 hx]
      decide
    · exact isSpace_of_coinChar (hchars t ht x hx)
  have hread : texts.mapM ParseCoin = .ok coins :=
    mapM_ParseCoin_String fun coin hcoin =>
      ⟨(hcoins coin hcoin).1, (hcoins coin hcoin).2, hbits coin hcoin⟩
  cases coins with
  | nil => rfl
  | cons coin rest =>
    have hsplit : (Coins.String (coin :: rest)).toList.splitOn ',' = texts := by
      rw [htext]
      exact List.splitOn_intercalate ',' (fun t ht hx => by simpa using hchars t ht ',' hx)
        (by simp [texts])
    have hnonempty : (Coins.String (coin :: rest)).toList ≠ [] := by
      rw [htext, show texts = _ :: _ from List.map_cons,
        toList_Coin_String (hcoins coin List.mem_cons_self).2.le]
      exact intercalate_ne_nil (List.append_ne_nil_of_left_ne_nil Nat.toDigits_ne_nil _)
    -- the coins come back in order, so sorting keeps them and they pass `IsValid`
    simp only [ParseCoins, htrim, hnonempty, if_false, hsplit, hread, bind, Except.bind,
      Coins.sort_eq_self hsorted, Coins.IsValid_of_Valid ⟨hsorted, hcoins⟩]
    rfl

/-! ### What is read back is valid -/

/-- What `NewIntFromString` reads is below `2 ^ maxBitLen`. -/
theorem lt_of_NewIntFromString {s : List Char} {amount : ℤ} (h : NewIntFromString s = some amount) :
    0 ≤ amount ∧ amount < 2 ^ maxBitLen := by
  unfold NewIntFromString at h
  split at h
  · rename_i n _
    split_ifs at h with hbits
    cases h
    exact ⟨by positivity, by exact_mod_cast hbits⟩
  · cases h

/-- What `ParseCoin` reads is a coin of the grammar with an amount of no sign
that fits an `sdk.Int`. -/
theorem of_ParseCoin_eq_ok {t : List Char} {coin : Coin} (h : ParseCoin t = .ok coin) :
    reDnm coin.Denom = true ∧ 0 ≤ coin.Amount ∧ coin.Amount < 2 ^ maxBitLen := by
  unfold ParseCoin at h
  dsimp only at h
  -- the three failures of the source, and the coin `NewCoin` makes
  split at h
  · cases h
  · split at h
    · cases h
    · rename_i amount hamount
      split_ifs at h with hd
      obtain ⟨hdenom, hval, -⟩ := of_NewCoin_eq_ok (Except.mapError_eq_ok.1 h)
      rw [hdenom, hval]
      exact ⟨hd, lt_of_NewIntFromString hamount⟩

/-- **What `ParseCoins` returns is valid**, with amounts that fit an `sdk.Int`:
`IsValid` checks the order and the amounts, and `ParseCoin` every denomination. -/
theorem ParseCoins_Valid {s : String} {coins : Coins} (h : ParseCoins s = .ok coins) :
    coins.Valid ∧ ∀ coin ∈ coins, coin.Amount < 2 ^ maxBitLen := by
  unfold ParseCoins at h
  dsimp only at h
  split at h
  · cases h
    simp [Coins.Valid, SortedMerge.KeySorted]
  · obtain ⟨read, hread, hcheck⟩ := Except.bind_eq_ok.1 h
    split_ifs at hcheck with hvalid
    cases Except.pure_eq_ok.1 hcheck
    obtain ⟨hsorted, hpos, -⟩ := Coins.IsValid_iff.1 hvalid
    -- sorting permutes the coins read, each of which `ParseCoin` returned
    have hparsed : ∀ coin ∈ Coins.sort read,
        reDnm coin.Denom = true ∧ 0 ≤ coin.Amount ∧ coin.Amount < 2 ^ maxBitLen := by
      intro coin hc
      obtain ⟨t, -, ht⟩ :=
        Except.mem_of_mapM_eq_ok hread coin ((List.mergeSort_perm _ _).mem_iff.1 hc)
      exact of_ParseCoin_eq_ok ht
    exact ⟨⟨hsorted, fun coin hc => ⟨(hparsed coin hc).1, (hpos coin hc).2⟩⟩,
      fun coin hc => (hparsed coin hc).2.2⟩

/-- What `ParseCoins` returns reads back from its own text. -/
theorem ParseCoins_String_of_ParseCoins {s : String} {coins : Coins}
    (h : ParseCoins s = .ok coins) : ParseCoins coins.String = .ok coins :=
  ParseCoins_String (ParseCoins_Valid h).1 (ParseCoins_Valid h).2

/-! ### A valid list that does not read back -/

/-- `IsValid` accepts `1abc,1b`: the second denomination is checked only to be
its own lower case.  Its text does not read back, since `b` is not of the
denomination grammar. -/
theorem valid_coins_not_parsed :
    let c : Coins := [⟨"abc", 1⟩, ⟨"b", 1⟩]
    c.IsValid = true ∧ c.String = "1abc,1b" ∧
      ParseCoins c.String = .error (.error (.invalidCoinExpression ['1', 'b'])) := by
  intro c
  -- `String.toLower` does not evaluate by `decide`: its one case here is by its list
  have hlower : "b".toLower = "b" := by
    rw [← String.toList_inj]
    simp [String.toLower]
  have hfirst : Coins.validFirst ⟨"abc", 1⟩ = true := by decide
  have horder : ¬ ("b" ≤ "abc") := by decide
  have hvalid : c.IsValid = true := by
    simp only [c, Coins.IsValid, Coins.validTail, hfirst, hlower, horder, beq_self_eq_true,
      Bool.true_and, decide_false, Bool.not_false]
    decide
  exact ⟨hvalid, by decide, by decide⟩

end Types
end ColorSdk
