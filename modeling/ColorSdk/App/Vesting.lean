import ColorSdk.App.Genesis
import ColorSdk.Auth.Vesting
import Mathlib

/-!
# Vesting accounts over coin sets

A `BaseVestingAccount` keeps its coins, its original vesting coins and its
delegated free and delegated vesting coins as `sdk.Coins`.  `trackDelegation`
and `TrackUndelegation` loop over the coins of an amount.  Each round reads the
account's amounts of the coin's denomination with `AmountOf`, builds the parts
it moves with `NewCoin`, and writes them back with `Coins.Add` and `Coins.Sub`
of a one-coin set; `trackDelegation` reads the account's coins once, before the
loop.

Read at one denomination (`BaseVestingAccount.atDenom`), a round is the
one-denomination model of `Auth.Vesting`: `VestingAccount.trackDelegation` or
`VestingAccount.TrackUndelegation` at the coin's denomination, and nothing at
the others.  Over an amount sorted by denomination, as a valid `sdk.Coins` is,
the whole loop is that model at each of its denominations and leaves the other
denominations alone, so what `Auth.Vesting` proves of one denomination holds of
each denomination of a coin set.

## Main definitions

* `addNewCoin`, `subNewCoin` — the rounds' writes of one coin.
* `BaseVestingAccount.trackDelegation`, `BaseVestingAccount.TrackUndelegation`
  and their rounds.
* `BaseVestingAccount.atDenom` — the account's amounts of one denomination.

## Main results

* `trackDelegationRound_at`, `trackUndelegationRound_at` — a round, at every
  denomination.
* `trackDelegation_at`, `TrackUndelegation_at` — the loops, at every
  denomination.
* `total_trackDelegation` — a delegation keeps, at every denomination, the
  account's coins with its delegated ones.

## References

* src/x/auth/account.go, src/types/coin.go
-/

namespace ColorSdk
namespace App

open ColorSdk.Types SortedMerge

/-- What stops a round: a panic of the coin code, or the account's own. -/
inductive VestingPanic where
  | coin (p : CoinPanic)
  | account (p : Auth.Panic)
  deriving DecidableEq, Repr

/-! ### Writes of one coin -/

/-- `if !amt.IsZero() { coins = coins.Add(sdk.Coins{sdk.NewCoin(denom, amt)}) }`. -/
def addNewCoin (coins : Coins) (denom : String) (amt : ℤ) : Except CoinPanic Coins :=
  if amt = 0 then pure coins
  else do
    let coin ← NewCoin denom amt
    pure (coins.Add [coin])

/-- `if !amt.IsZero() { coins = coins.Sub(sdk.Coins{sdk.NewCoin(denom, amt)}) }`. -/
def subNewCoin (coins : Coins) (denom : String) (amt : ℤ) : Except CoinPanic Coins :=
  if amt = 0 then pure coins
  else do
    let coin ← NewCoin denom amt
    coins.Sub [coin]

theorem amountAt_singleton (coin : Coin) (denom : String) :
    Coins.amountAt [coin] denom = if coin.Denom = denom then coin.Amount else 0 := by
  simp

theorem sorted_singleton (coin : Coin) : KeySorted Coin.Denom [coin] := List.pairwise_singleton _ _

/-- A subtraction that does not panic subtracts the amounts. -/
theorem amountAt_of_Sub_eq_ok {coins coinsB r : Coins} (h : coins.Sub coinsB = .ok r)
    (denom : String) : r.amountAt denom = coins.amountAt denom - coinsB.amountAt denom := by
  unfold Coins.Sub at h
  dsimp only at h
  split_ifs at h
  cases h
  exact Coins.amountAt_SafeSub coins coinsB denom

theorem sorted_of_Sub_eq_ok {coins coinsB r : Coins} (hs : KeySorted Coin.Denom coins)
    (hsB : KeySorted Coin.Denom coinsB) (h : coins.Sub coinsB = .ok r) : KeySorted Coin.Denom r := by
  unfold Coins.Sub at h
  dsimp only at h
  split_ifs at h
  cases h
  exact Coins.sorted_SafeSub hs hsB

/-- A write that does not panic adds a non-negative amount at its denomination. -/
theorem addNewCoin_eq_ok {coins r : Coins} {denom : String} {amt : ℤ}
    (h : addNewCoin coins denom amt = .ok r) :
    0 ≤ amt ∧ ∀ d, r.amountAt d = coins.amountAt d + if denom = d then amt else 0 := by
  unfold addNewCoin at h
  split_ifs at h with hzero
  · cases h
    exact ⟨hzero.ge, fun d => by simp [hzero]⟩
  · obtain ⟨coin, hcoin, hadd⟩ := Except.bind_eq_ok.1 h
    cases Except.pure_eq_ok.1 hadd
    obtain ⟨rfl, rfl, hnonneg⟩ := of_NewCoin_eq_ok hcoin
    exact ⟨hnonneg, fun d => by rw [Coins.amountAt_Add, amountAt_singleton]⟩

theorem sorted_addNewCoin {coins r : Coins} {denom : String} {amt : ℤ}
    (hs : KeySorted Coin.Denom coins) (h : addNewCoin coins denom amt = .ok r) :
    KeySorted Coin.Denom r := by
  unfold addNewCoin at h
  split_ifs at h
  · cases h
    exact hs
  · obtain ⟨coin, -, h⟩ := Except.bind_eq_ok.1 h
    cases Except.pure_eq_ok.1 h
    exact Coins.sorted_Add hs (sorted_singleton coin)

/-- A write that does not panic subtracts a non-negative amount at its
denomination. -/
theorem subNewCoin_eq_ok {coins r : Coins} {denom : String} {amt : ℤ}
    (h : subNewCoin coins denom amt = .ok r) :
    0 ≤ amt ∧ ∀ d, r.amountAt d = coins.amountAt d - if denom = d then amt else 0 := by
  unfold subNewCoin at h
  split_ifs at h with hzero
  · cases h
    exact ⟨hzero.ge, fun d => by simp [hzero]⟩
  · obtain ⟨coin, hcoin, hsub⟩ := Except.bind_eq_ok.1 h
    obtain ⟨rfl, rfl, hnonneg⟩ := of_NewCoin_eq_ok hcoin
    exact ⟨hnonneg, fun d => by rw [amountAt_of_Sub_eq_ok hsub, amountAt_singleton]⟩

theorem sorted_subNewCoin {coins r : Coins} {denom : String} {amt : ℤ}
    (hs : KeySorted Coin.Denom coins) (h : subNewCoin coins denom amt = .ok r) :
    KeySorted Coin.Denom r := by
  unfold subNewCoin at h
  split_ifs at h
  · cases h
    exact hs
  · obtain ⟨coin, -, h⟩ := Except.bind_eq_ok.1 h
    exact sorted_of_Sub_eq_ok hs (sorted_singleton coin) h

/-! ### The loops of the account -/

variable {A : Type}

namespace BaseVestingAccount

/-- The account's amounts of one denomination, under a schedule. -/
def atDenom (bva : BaseVestingAccount A) (schedule : Auth.Schedule) (denom : String) :
    Auth.VestingAccount :=
  ⟨bva.BaseAccount.Coins.amountAt denom, bva.OriginalVesting.amountAt denom,
    bva.DelegatedFree.amountAt denom, bva.DelegatedVesting.amountAt denom, schedule⟩

/-- The coin sets the rounds read with `AmountOf`, sorted by denomination. -/
structure Sorted (bva : BaseVestingAccount A) : Prop where
  delegatedFree : KeySorted Coin.Denom bva.DelegatedFree
  delegatedVesting : KeySorted Coin.Denom bva.DelegatedVesting

/-- A round of `trackDelegation`, for one coin of the amount, with `bc` the
account's coins as they were before the loop: the part of the coin still
vesting and not yet delegated, `X = min(max(V - DV, 0), D)`, is delegated
vesting, the rest `Y = D - X` delegated free, and the coin leaves the account. -/
def trackDelegationRound (bc vestingCoins : Coins) (bva : BaseVestingAccount A) (coin : Coin) :
    Except VestingPanic (BaseVestingAccount A) := do
  let baseAmt ← (bc.AmountOf coin.Denom).mapError .coin
  let vestingAmt ← (vestingCoins.AmountOf coin.Denom).mapError .coin
  let delVestingAmt ← (bva.DelegatedVesting.AmountOf coin.Denom).mapError .coin
  if coin.Amount = 0 ∨ baseAmt < coin.Amount then throw (.account .delegationAttempt)
  let x := MinInt (MaxInt (vestingAmt - delVestingAmt) 0) coin.Amount
  let y := coin.Amount - x
  let delegatedVesting ← (addNewCoin bva.DelegatedVesting coin.Denom x).mapError .coin
  let delegatedFree ← (addNewCoin bva.DelegatedFree coin.Denom y).mapError .coin
  let coins ← (bva.BaseAccount.Coins.Sub [coin]).mapError .coin
  pure { bva with
    DelegatedVesting := delegatedVesting
    DelegatedFree := delegatedFree
    BaseAccount := { bva.BaseAccount with Coins := coins } }

/-- `BaseVestingAccount.trackDelegation`: one round per coin of the amount. -/
def trackDelegation (bva : BaseVestingAccount A) (vestingCoins amount : Coins) :
    Except VestingPanic (BaseVestingAccount A) :=
  amount.foldlM (trackDelegationRound bva.BaseAccount.Coins vestingCoins) bva

/-- A round of `TrackUndelegation`: free coins come back first,
`X = min(DF, D)`, then vesting ones, `Y = min(DV, D - X)`, and the coin returns
to the account. -/
def trackUndelegationRound (bva : BaseVestingAccount A) (coin : Coin) :
    Except VestingPanic (BaseVestingAccount A) := do
  if coin.Amount = 0 then throw (.account .undelegationAttempt)
  let delegatedFree ← (bva.DelegatedFree.AmountOf coin.Denom).mapError .coin
  let delegatedVesting ← (bva.DelegatedVesting.AmountOf coin.Denom).mapError .coin
  let x := MinInt delegatedFree coin.Amount
  let y := MinInt delegatedVesting (coin.Amount - x)
  let delegatedFree ← (subNewCoin bva.DelegatedFree coin.Denom x).mapError .coin
  let delegatedVesting ← (subNewCoin bva.DelegatedVesting coin.Denom y).mapError .coin
  pure { bva with
    DelegatedFree := delegatedFree
    DelegatedVesting := delegatedVesting
    BaseAccount := { bva.BaseAccount with Coins := bva.BaseAccount.Coins.Add [coin] } }

/-- `BaseVestingAccount.TrackUndelegation`: one round per coin of the amount. -/
def TrackUndelegation (bva : BaseVestingAccount A) (amount : Coins) :
    Except VestingPanic (BaseVestingAccount A) :=
  amount.foldlM trackUndelegationRound bva

/-! ### A round at each denomination -/

variable {bc vestingCoins : Coins} {bva bva' : BaseVestingAccount A} {coin : Coin}

/-- A round of `trackDelegation` that does not panic: the check passed on the
coins read before the loop, and the three writes were made with
`X = min(max(V - DV, 0), D)` and `Y = D - X`. -/
theorem trackDelegationRound_eq_ok (hbc : KeySorted Coin.Denom bc)
    (hvc : KeySorted Coin.Denom vestingCoins) (hs : bva.Sorted)
    (h : trackDelegationRound bc vestingCoins bva coin = .ok bva') :
    let x := MinInt (MaxInt (vestingCoins.amountAt coin.Denom -
      bva.DelegatedVesting.amountAt coin.Denom) 0) coin.Amount
    ¬ (coin.Amount = 0 ∨ bc.amountAt coin.Denom < coin.Amount) ∧
      ∃ delegatedVesting delegatedFree coins,
        addNewCoin bva.DelegatedVesting coin.Denom x = .ok delegatedVesting ∧
        addNewCoin bva.DelegatedFree coin.Denom (coin.Amount - x) = .ok delegatedFree ∧
        bva.BaseAccount.Coins.Sub [coin] = .ok coins ∧
        bva' = { bva with
          DelegatedVesting := delegatedVesting
          DelegatedFree := delegatedFree
          BaseAccount := { bva.BaseAccount with Coins := coins } } := by
  unfold trackDelegationRound at h
  obtain ⟨baseAmt, hbase, h⟩ := Except.bind_eq_ok.1 h
  obtain ⟨vestingAmt, hvesting, h⟩ := Except.bind_eq_ok.1 h
  obtain ⟨delVestingAmt, hdel, h⟩ := Except.bind_eq_ok.1 h
  -- the three reads are the amounts at the coin's denomination
  obtain ⟨-, rfl⟩ := (Coins.AmountOf_eq_ok_iff hbc).1 (Except.mapError_eq_ok.1 hbase)
  obtain ⟨-, rfl⟩ := (Coins.AmountOf_eq_ok_iff hvc).1 (Except.mapError_eq_ok.1 hvesting)
  obtain ⟨-, rfl⟩ := (Coins.AmountOf_eq_ok_iff hs.delegatedVesting).1 (Except.mapError_eq_ok.1 hdel)
  split at h
  · exact absurd h Except.error_bind_ne_ok
  rename_i hcheck
  obtain ⟨delegatedVesting, hdv, h⟩ := Except.bind_eq_ok.1 h
  obtain ⟨delegatedFree, hdf, h⟩ := Except.bind_eq_ok.1 h
  obtain ⟨coins, hsub, h⟩ := Except.bind_eq_ok.1 h
  exact ⟨hcheck, delegatedVesting, delegatedFree, coins, Except.mapError_eq_ok.1 hdv,
    Except.mapError_eq_ok.1 hdf, Except.mapError_eq_ok.1 hsub, (Except.pure_eq_ok.1 h).symm⟩

theorem Sorted.trackDelegationRound (hbc : KeySorted Coin.Denom bc)
    (hvc : KeySorted Coin.Denom vestingCoins) (hs : bva.Sorted)
    (h : trackDelegationRound bc vestingCoins bva coin = .ok bva') : bva'.Sorted := by
  obtain ⟨-, _, _, _, hdv, hdf, -, rfl⟩ := trackDelegationRound_eq_ok hbc hvc hs h
  exact ⟨sorted_addNewCoin hs.delegatedFree hdf, sorted_addNewCoin hs.delegatedVesting hdv⟩

/-- **A round of `trackDelegation` is `VestingAccount.trackDelegation` at the
coin's denomination**, as long as the account still holds there the coins read
before the loop, and leaves every other denomination alone. -/
theorem trackDelegationRound_at (hbc : KeySorted Coin.Denom bc)
    (hvc : KeySorted Coin.Denom vestingCoins) (hs : bva.Sorted)
    (hcoins : bc.amountAt coin.Denom = bva.BaseAccount.Coins.amountAt coin.Denom)
    (h : trackDelegationRound bc vestingCoins bva coin = .ok bva') (schedule : Auth.Schedule) :
    (bva.atDenom schedule coin.Denom).trackDelegation (vestingCoins.amountAt coin.Denom)
        coin.Amount = .ok (bva'.atDenom schedule coin.Denom) ∧
      ∀ d, coin.Denom ≠ d → bva'.atDenom schedule d = bva.atDenom schedule d := by
  obtain ⟨hcheck, _, _, _, hdv, hdf, hsub, rfl⟩ := trackDelegationRound_eq_ok hbc hvc hs h
  have hdv := (addNewCoin_eq_ok hdv).2
  have hdf := (addNewCoin_eq_ok hdf).2
  have hsub := amountAt_of_Sub_eq_ok hsub
  refine ⟨?_, fun d hd => ?_⟩
  · rw [hcoins] at hcheck
    simp [Auth.VestingAccount.trackDelegation, atDenom, hcheck, hdv, hdf, hsub]
  · simp [atDenom, hdv, hdf, hsub, hd]

/-- A round of `TrackUndelegation` that does not panic: the two writes were made
with `X = min(DF, D)` and `Y = min(DV, D - X)`. -/
theorem trackUndelegationRound_eq_ok (hs : bva.Sorted)
    (h : trackUndelegationRound bva coin = .ok bva') :
    let x := MinInt (bva.DelegatedFree.amountAt coin.Denom) coin.Amount
    coin.Amount ≠ 0 ∧
      ∃ delegatedFree delegatedVesting,
        subNewCoin bva.DelegatedFree coin.Denom x = .ok delegatedFree ∧
        subNewCoin bva.DelegatedVesting coin.Denom
          (MinInt (bva.DelegatedVesting.amountAt coin.Denom) (coin.Amount - x)) =
            .ok delegatedVesting ∧
        bva' = { bva with
          DelegatedFree := delegatedFree
          DelegatedVesting := delegatedVesting
          BaseAccount := { bva.BaseAccount with Coins := bva.BaseAccount.Coins.Add [coin] } } := by
  unfold trackUndelegationRound at h
  split at h
  · exact absurd h Except.error_bind_ne_ok
  rename_i hzero
  obtain ⟨freeAmt, hfree, h⟩ := Except.bind_eq_ok.1 h
  obtain ⟨vestingAmt, hvesting, h⟩ := Except.bind_eq_ok.1 h
  obtain ⟨-, rfl⟩ := (Coins.AmountOf_eq_ok_iff hs.delegatedFree).1 (Except.mapError_eq_ok.1 hfree)
  obtain ⟨-, rfl⟩ :=
    (Coins.AmountOf_eq_ok_iff hs.delegatedVesting).1 (Except.mapError_eq_ok.1 hvesting)
  obtain ⟨delegatedFree, hdf, h⟩ := Except.bind_eq_ok.1 h
  obtain ⟨delegatedVesting, hdv, h⟩ := Except.bind_eq_ok.1 h
  exact ⟨hzero, delegatedFree, delegatedVesting, Except.mapError_eq_ok.1 hdf,
    Except.mapError_eq_ok.1 hdv, (Except.pure_eq_ok.1 h).symm⟩

theorem Sorted.trackUndelegationRound (hs : bva.Sorted)
    (h : trackUndelegationRound bva coin = .ok bva') : bva'.Sorted := by
  obtain ⟨-, _, _, hdf, hdv, rfl⟩ := trackUndelegationRound_eq_ok hs h
  exact ⟨sorted_subNewCoin hs.delegatedFree hdf, sorted_subNewCoin hs.delegatedVesting hdv⟩

/-- **A round of `TrackUndelegation` is `VestingAccount.TrackUndelegation` at
the coin's denomination**, and leaves every other denomination alone. -/
theorem trackUndelegationRound_at (hs : bva.Sorted)
    (h : trackUndelegationRound bva coin = .ok bva') (schedule : Auth.Schedule) :
    (bva.atDenom schedule coin.Denom).TrackUndelegation coin.Amount =
        .ok (bva'.atDenom schedule coin.Denom) ∧
      ∀ d, coin.Denom ≠ d → bva'.atDenom schedule d = bva.atDenom schedule d := by
  obtain ⟨hzero, _, _, hdf, hdv, rfl⟩ := trackUndelegationRound_eq_ok hs h
  have hdf := (subNewCoin_eq_ok hdf).2
  have hdv := (subNewCoin_eq_ok hdv).2
  refine ⟨?_, fun d hd => ?_⟩
  · simp [Auth.VestingAccount.TrackUndelegation, atDenom, hzero, hdf, hdv, Coins.amountAt_Add]
  · simp [atDenom, hdf, hdv, Coins.amountAt_Add, hd]

/-! ### The loops at each denomination -/

/-- **`trackDelegation` is `VestingAccount.trackDelegation` at each
denomination** of an amount sorted by denomination, and leaves the other
denominations alone. -/
theorem trackDelegation_at {amount : Coins} (hbc : KeySorted Coin.Denom bva.BaseAccount.Coins)
    (hvc : KeySorted Coin.Denom vestingCoins) (hamt : KeySorted Coin.Denom amount)
    (hs : bva.Sorted) (h : bva.trackDelegation vestingCoins amount = .ok bva')
    (schedule : Auth.Schedule) :
    bva'.Sorted ∧
      (∀ c ∈ amount, (bva.atDenom schedule c.Denom).trackDelegation
        (vestingCoins.amountAt c.Denom) c.Amount = .ok (bva'.atDenom schedule c.Denom)) ∧
      ∀ d, (∀ c ∈ amount, c.Denom ≠ d) → bva'.atDenom schedule d = bva.atDenom schedule d :=
  -- a round needs the coins read before the loop at its denomination
  Except.foldlM_keywise Coin.Denom (fun b d => atDenom b schedule d)
    (f := trackDelegationRound bva.BaseAccount.Coins vestingCoins)
    (Q := fun c acc => bva.BaseAccount.Coins.amountAt c.Denom = acc.Coins)
    (R := fun c acc acc' => acc.trackDelegation (vestingCoins.amountAt c.Denom) c.Amount = .ok acc')
    (fun _ _ _ hs hcoins hround => ⟨hs.trackDelegationRound hbc hvc hround,
      trackDelegationRound_at hbc hvc hs hcoins hround schedule⟩)
    (hamt.imp ne_of_lt) hs (fun _ _ => rfl) h

/-- A delegation of a coin set moves coins, denomination by denomination, from
the account's coins into the delegated ones. -/
theorem total_trackDelegation {amount : Coins} (hbc : KeySorted Coin.Denom bva.BaseAccount.Coins)
    (hvc : KeySorted Coin.Denom vestingCoins) (hamt : KeySorted Coin.Denom amount)
    (hs : bva.Sorted) (h : bva.trackDelegation vestingCoins amount = .ok bva')
    (schedule : Auth.Schedule) (d : String) :
    (bva'.atDenom schedule d).total = (bva.atDenom schedule d).total := by
  obtain ⟨-, hin, hout⟩ := trackDelegation_at hbc hvc hamt hs h schedule
  by_cases hd : ∃ c ∈ amount, c.Denom = d
  · obtain ⟨c, hc, rfl⟩ := hd
    exact Auth.VestingAccount.total_trackDelegation (hin c hc)
  · rw [hout d fun c hc hcd => hd ⟨c, hc, hcd⟩]

/-- **`TrackUndelegation` is `VestingAccount.TrackUndelegation` at each
denomination** of an amount sorted by denomination, and leaves the other
denominations alone. -/
theorem TrackUndelegation_at {amount : Coins} (hamt : KeySorted Coin.Denom amount)
    (hs : bva.Sorted) (h : bva.TrackUndelegation amount = .ok bva') (schedule : Auth.Schedule) :
    bva'.Sorted ∧
      (∀ c ∈ amount, (bva.atDenom schedule c.Denom).TrackUndelegation c.Amount =
        .ok (bva'.atDenom schedule c.Denom)) ∧
      ∀ d, (∀ c ∈ amount, c.Denom ≠ d) → bva'.atDenom schedule d = bva.atDenom schedule d :=
  Except.foldlM_keywise Coin.Denom (fun b d => atDenom b schedule d) (f := trackUndelegationRound)
    (Q := fun _ _ => True) (R := fun c acc acc' => acc.TrackUndelegation c.Amount = .ok acc')
    (fun _ _ _ hs _ hround => ⟨hs.trackUndelegationRound hround,
      trackUndelegationRound_at hs hround schedule⟩)
    (hamt.imp ne_of_lt) hs (fun _ _ => trivial) h

end BaseVestingAccount

end App
end ColorSdk
