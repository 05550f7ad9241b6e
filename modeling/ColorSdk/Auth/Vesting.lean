import ColorSdk.Types.Decimal
import ColorSdk.Lib.ExceptSpec
import Mathlib.Logic.Relation

/-!
# Vesting accounts

A vesting account holds coins of which an original amount unlocks over time:
all at once at the end time (`DelayedVestingAccount`), or linearly between a
start and an end time (`ContinuousVestingAccount`, with the fraction computed
as a decimal and the vested amount rounded half to even).  Such an account may
delegate coins that are still vesting; it records how much of what it has
delegated was vesting (`DelegatedVesting`) and how much free
(`DelegatedFree`).  What it may spend is its coins less what is still vesting
and not delegated.

Every operation looks at one denomination at a time (the loops of
`trackDelegation`, `TrackUndelegation` and `spendableCoins` handle one
denomination per round, and `AmountOf` reads one), so the model holds the
amounts of one denomination.  A denomination the account holds no coins of is
not listed by `spendableCoins` and builds no coin.

The bank calls the account: `subtractCoins` lets an account spend at most its
spendable coins, `addCoins` credits it, `delegateCoins` and `undelegateCoins`
move coins to and from a delegation through `TrackDelegation` and
`TrackUndelegation`.  A `Step` is one of these calls at a block time no
earlier than the last.

## Main definitions

* `Schedule`, `VestingAccount`, `NewVestingAccount`.
* `GetVestedCoins`, `GetVestingCoins`, `spendableCoins`, `SpendableCoins`.
* `trackDelegation`, `TrackDelegation`, `TrackUndelegation`.
* `subtractCoins`, `addCoins`, `delegateCoins`, `undelegateCoins`, `Step`.

## References

* src/x/auth/account.go, src/x/bank/keeper.go, src/types/coin.go
-/

namespace ColorSdk
namespace Auth

/-- How the original vesting coins unlock; times are Unix seconds. -/
inductive Schedule
  /-- `ContinuousVestingAccount`: linearly from `StartTime` to `EndTime`. -/
  | Continuous (StartTime EndTime : ℤ)
  /-- `DelayedVestingAccount`: all at `EndTime`. -/
  | Delayed (EndTime : ℤ)
  deriving DecidableEq, Repr

/-- A vesting account's amounts of one denomination. -/
structure VestingAccount where
  Coins : ℤ
  OriginalVesting : ℤ
  DelegatedFree : ℤ
  DelegatedVesting : ℤ
  schedule : Schedule
  deriving DecidableEq, Repr

/-- `NewContinuousVestingAccount` and `NewDelayedVestingAccount`: all the
account's coins are vesting. -/
def NewVestingAccount (coins : ℤ) (schedule : Schedule) : VestingAccount :=
  ⟨coins, coins, 0, 0, schedule⟩

/-- Panics of the account and of `sdk.Coins`. -/
inductive Panic
  /-- "negative coin amount: %v" of `NewCoin`, and "negative coin amount" of
  `Coins.Sub`. -/
  | negativeCoinAmount
  /-- "delegation attempt with zero coins or insufficient funds" -/
  | delegationAttempt
  /-- "undelegation attempt with zero coins" -/
  | undelegationAttempt
  deriving DecidableEq, Repr

/-- Errors of the bank. -/
inductive BankError
  | ErrInvalidCoins
  | ErrInsufficientCoins
  deriving DecidableEq, Repr

/-- What ends a bank call early. -/
inductive Failure
  | error (err : BankError)
  | panic (p : Panic)
  deriving DecidableEq, Repr

namespace VestingAccount

/-! ### Vested, vesting and spendable coins -/

/-- The coins vested at a block time.  Before the start nothing is vested;
from the end everything; in between, the original amount times the elapsed
fraction, both decimals, rounded to the nearest integer. -/
def GetVestedCoins (acc : VestingAccount) (blockTime : ℤ) : ℤ :=
  match acc.schedule with
  | .Continuous StartTime EndTime =>
    if blockTime ≤ StartTime then 0
    else if EndTime ≤ blockTime then acc.OriginalVesting
    else
      -- calculate the vesting scalar
      let x := blockTime - StartTime
      let y := EndTime - StartTime
      let s := (ToDec x).Quo (ToDec y)
      ((ToDec acc.OriginalVesting).Mul s).RoundInt
  | .Delayed EndTime => if EndTime ≤ blockTime then acc.OriginalVesting else 0

/-- The coins still vesting: `OriginalVesting.Sub`, which panics on a negative
amount. -/
def GetVestingCoins (acc : VestingAccount) (blockTime : ℤ) : Except Panic ℤ :=
  let vesting := acc.OriginalVesting - acc.GetVestedCoins blockTime
  if vesting < 0 then .error .negativeCoinAmount else .ok vesting

/-- The coins the account may spend: `min((BC + DV) - V, BC)`, built as a coin,
which panics when negative. -/
def spendableCoins (acc : VestingAccount) (vestingCoins : ℤ) : Except Panic ℤ :=
  -- a denomination the account holds none of is not listed
  if acc.Coins = 0 then .ok 0
  else
    let min := MinInt (acc.Coins + acc.DelegatedVesting - vestingCoins) acc.Coins
    if min < 0 then .error .negativeCoinAmount else .ok min

def SpendableCoins (acc : VestingAccount) (blockTime : ℤ) : Except Panic ℤ := do
  let vestingCoins ← acc.GetVestingCoins blockTime
  acc.spendableCoins vestingCoins

/-! ### Delegation -/

/-- Track a delegation: the part of it that is still vesting and not yet
delegated, `X = min(max(V - DV, 0), D)`, is delegated vesting, the rest
`Y = D - X` delegated free, and the coins leave the account. -/
def trackDelegation (acc : VestingAccount) (vestingCoins amount : ℤ) :
    Except Panic VestingAccount :=
  if amount = 0 ∨ acc.Coins < amount then .error .delegationAttempt
  else
    let x := MinInt (MaxInt (vestingCoins - acc.DelegatedVesting) 0) amount
    let y := amount - x
    .ok { acc with
      DelegatedVesting := acc.DelegatedVesting + x
      DelegatedFree := acc.DelegatedFree + y
      Coins := acc.Coins - amount }

def TrackDelegation (acc : VestingAccount) (blockTime amount : ℤ) :
    Except Panic VestingAccount := do
  let vestingCoins ← acc.GetVestingCoins blockTime
  acc.trackDelegation vestingCoins amount

/-- Track an undelegation: it returns free coins first, `X = min(DF, D)`, then
vesting ones, `Y = min(DV, D - X)`, and the coins come back to the account.
The subtractions cannot go negative, so `Coins.Sub` does not panic. -/
def TrackUndelegation (acc : VestingAccount) (amount : ℤ) : Except Panic VestingAccount :=
  if amount = 0 then .error .undelegationAttempt
  else
    let x := MinInt acc.DelegatedFree amount
    let y := MinInt acc.DelegatedVesting (amount - x)
    .ok { acc with
      DelegatedFree := acc.DelegatedFree - x
      DelegatedVesting := acc.DelegatedVesting - y
      Coins := acc.Coins + amount }

/-! ### The bank -/

/-- Subtract coins from the account: they must be valid and spendable. -/
def subtractCoins (acc : VestingAccount) (blockTime amt : ℤ) :
    Except Failure VestingAccount := do
  if amt ≤ 0 then throw (.error .ErrInvalidCoins)
  let spendableCoins ← (acc.SpendableCoins blockTime).mapError .panic
  if spendableCoins < amt then throw (.error .ErrInsufficientCoins)
  pure { acc with Coins := acc.Coins - amt }

/-- Add coins to the account. -/
def addCoins (acc : VestingAccount) (amt : ℤ) : Except Failure VestingAccount :=
  if amt ≤ 0 then .error (.error .ErrInvalidCoins)
  else .ok { acc with Coins := acc.Coins + amt }

/-- Delegate coins of the account: it must hold them, vesting or not. -/
def delegateCoins (acc : VestingAccount) (blockTime amt : ℤ) :
    Except Failure VestingAccount := do
  if amt ≤ 0 then throw (.error .ErrInvalidCoins)
  if acc.Coins < amt then throw (.error .ErrInsufficientCoins)
  (acc.TrackDelegation blockTime amt).mapError .panic

/-- Return undelegated coins to the account. -/
def undelegateCoins (acc : VestingAccount) (amt : ℤ) : Except Failure VestingAccount := do
  if amt ≤ 0 then throw (.error .ErrInvalidCoins)
  (acc.TrackUndelegation amt).mapError .panic

end VestingAccount

/-! ### Calls of the bank -/

/-- A call of the bank on the account. -/
inductive Op
  | receive (amt : ℤ)
  | spend (amt : ℤ)
  | delegate (amt : ℤ)
  | undelegate (amt : ℤ)
  deriving DecidableEq, Repr

/-- Run a call at a block time. -/
def Op.apply (acc : VestingAccount) (blockTime : ℤ) : Op → Except Failure VestingAccount
  | .receive amt => acc.addCoins amt
  | .spend amt => acc.subtractCoins blockTime amt
  | .delegate amt => acc.delegateCoins blockTime amt
  | .undelegate amt => acc.undelegateCoins amt

/-! ### The schedule -/

namespace VestingAccount

section Schedule

variable {OV x x' y : ℤ}

/-- The vested part of a linear schedule, `OV · (x / y)` rounded. -/
theorem vestedAmount_nonneg (hOV : 0 ≤ OV) (hx : 0 ≤ x) (hy : 0 < y) :
    0 ≤ ((ToDec OV).Mul ((ToDec x).Quo (ToDec y))).RoundInt := by
  have hP : (0 : ℤ) < precisionReuse := by exact_mod_cast precisionReuse_pos
  have hOVd : 0 ≤ (ToDec OV).i := by rw [Dec.toDec_i]; positivity
  have hyd : 0 < (ToDec y).i := by rw [Dec.toDec_i]; positivity
  have hxd : 0 ≤ (ToDec x).i := by rw [Dec.toDec_i]; positivity
  exact FixedPoint.chopRound_nonneg (Dec.mul_nonneg hOVd (Dec.quo_nonneg hxd hyd))

theorem vestedAmount_mono (hOV : 0 ≤ OV) (hx : 0 ≤ x) (h : x ≤ x') (hy : 0 < y) :
    ((ToDec OV).Mul ((ToDec x).Quo (ToDec y))).RoundInt ≤
      ((ToDec OV).Mul ((ToDec x').Quo (ToDec y))).RoundInt := by
  have hP : (0 : ℤ) < precisionReuse := by exact_mod_cast precisionReuse_pos
  have hOVd : 0 ≤ (ToDec OV).i := by rw [Dec.toDec_i]; positivity
  have hyd : 0 < (ToDec y).i := by rw [Dec.toDec_i]; positivity
  have hxd : 0 ≤ (ToDec x).i := by rw [Dec.toDec_i]; positivity
  have hxx : (ToDec x).i ≤ (ToDec x').i := by
    simp only [Dec.toDec_i]
    exact Int.mul_le_mul_of_nonneg_right h hP.le
  -- each of the three roundings is monotone
  exact Dec.roundInt_mono (Dec.mul_nonneg hOVd (Dec.quo_nonneg hxd hyd))
    (Dec.mul_mono_right hOVd (Dec.quo_nonneg hxd hyd) (Dec.quo_mono_left hxd hxx hyd))

/-- Before the end, no more than the original amount is vested. -/
theorem vestedAmount_le (hOV : 0 ≤ OV) (hx : 0 ≤ x) (hxy : x ≤ y) (hy : 0 < y) :
    ((ToDec OV).Mul ((ToDec x).Quo (ToDec y))).RoundInt ≤ OV := by
  calc ((ToDec OV).Mul ((ToDec x).Quo (ToDec y))).RoundInt
      ≤ ((ToDec OV).Mul ((ToDec y).Quo (ToDec y))).RoundInt := vestedAmount_mono hOV hx hxy hy
    _ = (ToDec OV).RoundInt := by
        have hyd : (ToDec y).i ≠ 0 := by
          rw [Dec.toDec_i]
          exact Int.mul_ne_zero hy.ne' (by exact_mod_cast precisionReuse_pos.ne')
        have hone : (ToDec y).Quo (ToDec y) = OneDec := by
          rw [OneDec, ← Dec.quo_self hyd]
        rw [hone]
        exact congrArg (FixedPoint.chopRound precisionReuse) (Dec.mul_one _)
    _ = OV := Dec.roundInt_toDec OV

end Schedule

variable {acc : VestingAccount} {t t' : ℤ}

theorem GetVestedCoins_nonneg (hOV : 0 ≤ acc.OriginalVesting) (t : ℤ) :
    0 ≤ acc.GetVestedCoins t := by
  rcases hs : acc.schedule with ⟨StartTime, EndTime⟩ | EndTime
  · simp only [GetVestedCoins, hs]
    split_ifs
    · exact le_refl 0
    · exact hOV
    · exact vestedAmount_nonneg hOV (by omega) (by omega)
  · simp only [GetVestedCoins, hs]
    split_ifs
    · exact hOV
    · exact le_refl 0

theorem GetVestedCoins_le (hOV : 0 ≤ acc.OriginalVesting) (t : ℤ) :
    acc.GetVestedCoins t ≤ acc.OriginalVesting := by
  rcases hs : acc.schedule with ⟨StartTime, EndTime⟩ | EndTime
  · simp only [GetVestedCoins, hs]
    split_ifs
    · exact hOV
    · exact le_refl _
    · exact vestedAmount_le hOV (by omega) (by omega) (by omega)
  · simp only [GetVestedCoins, hs]
    split_ifs
    · exact le_refl _
    · exact hOV

/-- **Vesting only unlocks.**  The vested coins grow with the block time. -/
theorem GetVestedCoins_mono (hOV : 0 ≤ acc.OriginalVesting) (htt : t ≤ t') :
    acc.GetVestedCoins t ≤ acc.GetVestedCoins t' := by
  rcases hs : acc.schedule with ⟨StartTime, EndTime⟩ | EndTime
  · simp only [GetVestedCoins, hs]
    -- split on where the two times fall: before the start, between, after the end
    by_cases h₁ : t' ≤ StartTime
    · rw [if_pos (htt.trans h₁), if_pos h₁]
    rw [if_neg h₁]
    by_cases h₂ : t ≤ StartTime
    · rw [if_pos h₂]
      split_ifs
      · exact hOV
      · exact vestedAmount_nonneg hOV (by omega) (by omega)
    rw [if_neg h₂]
    by_cases h₃ : EndTime ≤ t
    · rw [if_pos h₃, if_pos (h₃.trans htt)]
    rw [if_neg h₃]
    split_ifs
    · exact vestedAmount_le hOV (by omega) (by omega) (by omega)
    · exact vestedAmount_mono hOV (by omega) (by omega) (by omega)
  · simp only [GetVestedCoins, hs]
    split_ifs
    · exact le_refl _
    · omega
    · exact hOV
    · exact le_refl 0

theorem GetVestingCoins_eq (hOV : 0 ≤ acc.OriginalVesting) (t : ℤ) :
    acc.GetVestingCoins t = .ok (acc.OriginalVesting - acc.GetVestedCoins t) := by
  have hle := GetVestedCoins_le hOV t
  rw [GetVestingCoins, if_neg (by omega)]

variable {acc' : VestingAccount} {amt : ℤ}

theorem addCoins_eq (h : acc.addCoins amt = .ok acc') :
    0 < amt ∧ acc' = { acc with Coins := acc.Coins + amt } := by
  unfold addCoins at h
  split_ifs at h with hamt
  cases h
  exact ⟨by omega, rfl⟩

theorem subtractCoins_eq (h : acc.subtractCoins t amt = .ok acc') :
    0 < amt ∧ ∃ spendable, acc.SpendableCoins t = .ok spendable ∧ amt ≤ spendable ∧
      acc' = { acc with Coins := acc.Coins - amt } := by
  unfold subtractCoins at h
  by_cases hamt : amt ≤ 0
  · simp [hamt, throw, throwThe, MonadExceptOf.throw, bind, Except.bind] at h
  rcases hsp : acc.SpendableCoins t with e | spendable
  · simp [hamt, hsp, bind, Except.bind] at h
  · by_cases hlt : spendable < amt
    · simp [hamt, hsp, hlt, bind, Except.bind, throw, throwThe,
        MonadExceptOf.throw] at h
    · simp [hamt, hsp, hlt, bind, Except.bind, pure, Except.pure] at h
      exact ⟨by omega, spendable, rfl, by omega, h.symm⟩

/-- A delegation takes `X = min(max(V - DV, 0), D)` into the delegated vesting
coins and the rest into the delegated free ones. -/
theorem delegateCoins_eq (hOV : 0 ≤ acc.OriginalVesting) (h : acc.delegateCoins t amt = .ok acc') :
    0 < amt ∧ amt ≤ acc.Coins ∧
      let x := MinInt (MaxInt (acc.OriginalVesting - acc.GetVestedCoins t - acc.DelegatedVesting) 0)
        amt
      acc' = { acc with
        DelegatedVesting := acc.DelegatedVesting + x
        DelegatedFree := acc.DelegatedFree + (amt - x)
        Coins := acc.Coins - amt } := by
  unfold delegateCoins at h
  by_cases hamt : amt ≤ 0
  · simp [hamt, throw, throwThe, MonadExceptOf.throw, bind, Except.bind] at h
  by_cases hcoins : acc.Coins < amt
  · simp [hamt, hcoins, throw, throwThe, MonadExceptOf.throw, bind, Except.bind] at h
  have hne : amt ≠ 0 := by omega
  simp only [hamt, hcoins, hne, or_false, if_false, TrackDelegation, GetVestingCoins_eq hOV,
    trackDelegation, bind, Except.bind, Except.mapError_ok, Except.ok.injEq] at h
  exact ⟨by omega, by omega, h.symm⟩

/-- An undelegation returns free coins first, then vesting ones. -/
theorem undelegateCoins_eq (h : acc.undelegateCoins amt = .ok acc') :
    0 < amt ∧
      let x := MinInt acc.DelegatedFree amt
      let y := MinInt acc.DelegatedVesting (amt - x)
      acc' = { acc with
        DelegatedFree := acc.DelegatedFree - x
        DelegatedVesting := acc.DelegatedVesting - y
        Coins := acc.Coins + amt } := by
  unfold undelegateCoins at h
  by_cases hamt : amt ≤ 0
  · simp [hamt, throw, throwThe, MonadExceptOf.throw, bind, Except.bind] at h
  have hne : amt ≠ 0 := by omega
  simp only [hamt, hne, if_false, TrackUndelegation, bind, Except.bind, Except.mapError_ok,
    Except.ok.injEq] at h
  exact ⟨by omega, h.symm⟩

/-! ### Delegations move coins -/

/-- The coins of an account with its delegated ones. -/
def total (acc : VestingAccount) : ℤ := acc.Coins + acc.DelegatedFree + acc.DelegatedVesting

/-- A delegation moves coins into the delegated ones. -/
theorem total_delegateCoins (hOV : 0 ≤ acc.OriginalVesting)
    (h : acc.delegateCoins t amt = .ok acc') : acc'.total = acc.total := by
  obtain ⟨-, -, rfl⟩ := delegateCoins_eq hOV h
  simp only [total]
  omega

/-- A tracked delegation moves coins from the account's coins into the
delegated ones. -/
theorem total_trackDelegation {vestingCoins : ℤ} (h : acc.trackDelegation vestingCoins amt = .ok acc') :
    acc'.total = acc.total := by
  unfold trackDelegation at h
  split_ifs at h
  cases h
  simp only [total]
  omega

/-- An undelegation brings back its whole amount to the coins, but takes from
the delegated coins only as much as they hold. -/
theorem total_undelegateCoins (hDV : 0 ≤ acc.DelegatedVesting)
    (h : acc.undelegateCoins amt = .ok acc') :
    acc'.Coins = acc.Coins + amt ∧
      acc'.total = acc.total + amt - min amt (acc.DelegatedFree + acc.DelegatedVesting) := by
  obtain ⟨hamt, rfl⟩ := undelegateCoins_eq h
  refine ⟨rfl, ?_⟩
  simp only [total, MinInt]
  split_ifs <;> omega

/-! ### The accounting invariant -/

/-- What a vesting account keeps at a block time: no amount is negative, the
delegated vesting coins are within the original ones, and the coins with the
delegated vesting ones cover what is still vesting, now and at every later
time. -/
structure Covered (acc : VestingAccount) (t : ℤ) : Prop where
  coins_nonneg : 0 ≤ acc.Coins
  originalVesting_nonneg : 0 ≤ acc.OriginalVesting
  delegatedFree_nonneg : 0 ≤ acc.DelegatedFree
  delegatedVesting_nonneg : 0 ≤ acc.DelegatedVesting
  delegatedVesting_le : acc.DelegatedVesting ≤ acc.OriginalVesting
  covers : ∀ t', t ≤ t' →
    acc.OriginalVesting - acc.GetVestedCoins t' ≤ acc.Coins + acc.DelegatedVesting

/-- A new vesting account holds all it vests. -/
theorem covered_NewVestingAccount {coins : ℤ} (hcoins : 0 ≤ coins) (schedule : Schedule) (t : ℤ) :
    Covered (NewVestingAccount coins schedule) t where
  coins_nonneg := hcoins
  originalVesting_nonneg := hcoins
  delegatedFree_nonneg := le_refl 0
  delegatedVesting_nonneg := le_refl 0
  delegatedVesting_le := hcoins
  covers t' _ := by
    have hvested : 0 ≤ (NewVestingAccount coins schedule).GetVestedCoins t' :=
      GetVestedCoins_nonneg hcoins t'
    simp only [NewVestingAccount] at hvested ⊢
    omega

theorem Covered.later (h : Covered acc t) (ht : t ≤ t') : Covered acc t' :=
  { h with covers := fun t'' ht'' => h.covers t'' (ht.trans ht'') }

/-- **Spending never panics.**  What a covered account may spend is a coin
between nothing and all its coins; when positive, spending it leaves what is
still vesting covered. -/
theorem Covered.SpendableCoins (h : Covered acc t) :
    ∃ spendable, acc.SpendableCoins t = .ok spendable ∧ 0 ≤ spendable ∧ spendable ≤ acc.Coins ∧
      (0 < spendable → acc.OriginalVesting - acc.GetVestedCoins t ≤
        acc.Coins - spendable + acc.DelegatedVesting) := by
  have hcov := h.covers t le_rfl
  have hcoins := h.coins_nonneg
  simp only [VestingAccount.SpendableCoins, GetVestingCoins_eq h.originalVesting_nonneg, bind,
    Except.bind, spendableCoins, MinInt]
  -- a denomination the account does not hold spends nothing
  by_cases hzero : acc.Coins = 0
  · exact ⟨0, by simp [hzero], le_refl 0, by omega, by omega⟩
  rw [if_neg hzero]
  split_ifs <;> first
    | exact ⟨_, rfl, by omega, by omega, fun _ => by omega⟩
    | omega

/-- **Each bank call keeps the account covered**, at its own block time. -/
theorem Covered.apply (h : Covered acc t) (ht : t ≤ t') (op : Op)
    (hop : op.apply acc t' = .ok acc') : Covered acc' t' := by
  have h' := h.later ht
  have hOV := h.originalVesting_nonneg
  -- what is still vesting only shrinks after the call's time
  have hmono : ∀ t'', t' ≤ t'' → acc.GetVestedCoins t' ≤ acc.GetVestedCoins t'' :=
    fun t'' ht'' => GetVestedCoins_mono hOV ht''
  have hcoins := h.coins_nonneg
  have hDF := h.delegatedFree_nonneg
  have hDV := h.delegatedVesting_nonneg
  have hDVle := h.delegatedVesting_le
  cases op with
  | receive amt =>
    obtain ⟨hamt, rfl⟩ := addCoins_eq hop
    exact ⟨by dsimp only; omega, hOV, hDF, hDV, hDVle, fun t'' ht'' => by
      have := h'.covers t'' ht''
      simp only [GetVestedCoins] at this ⊢
      omega⟩
  | spend amt =>
    obtain ⟨hamt, spendable, hsp, hle, rfl⟩ := subtractCoins_eq hop
    obtain ⟨spendable', hsp', -, hsple, hcover⟩ := h'.SpendableCoins
    rw [hsp] at hsp'
    cases hsp'
    have hcover := hcover (by omega)
    exact ⟨by dsimp only; omega, hOV, hDF, hDV, hDVle, fun t'' ht'' => by
      have := hmono t'' ht''
      simp only [GetVestedCoins] at this hcover ⊢
      omega⟩
  | delegate amt =>
    obtain ⟨hamt, hle, rfl⟩ := delegateCoins_eq hOV hop
    have hvested := GetVestedCoins_nonneg hOV t'
    refine ⟨by dsimp only; omega, hOV, ?_, ?_, ?_, fun t'' ht'' => ?_⟩ <;>
      simp only [GetVestedCoins, MinInt, MaxInt] at hvested ⊢
    · split_ifs <;> omega
    · split_ifs <;> omega
    · split_ifs <;> omega
    · have hcov := h'.covers t'' ht''
      have := hmono t'' ht''
      simp only [GetVestedCoins] at hcov this
      split_ifs <;> omega
  | undelegate amt =>
    obtain ⟨hamt, rfl⟩ := undelegateCoins_eq hop
    refine ⟨by dsimp only; omega, hOV, ?_, ?_, ?_, fun t'' ht'' => ?_⟩ <;>
      simp only [GetVestedCoins, MinInt]
    · split_ifs <;> omega
    · split_ifs <;> omega
    · split_ifs <;> omega
    · have hcov := h'.covers t'' ht''
      simp only [GetVestedCoins] at hcov
      split_ifs <;> omega

end VestingAccount

/-! ### Runs -/

/-- A call that succeeds, at a block time no earlier than the last. -/
inductive Step : VestingAccount × ℤ → VestingAccount × ℤ → Prop
  | call {acc acc' : VestingAccount} {t t' : ℤ} (op : Op) (ht : t ≤ t')
      (h : op.apply acc t' = .ok acc') : Step (acc, t) (acc', t')

/-- The accounts and block times a run of calls reaches. -/
def Reachable (s₀ s : VestingAccount × ℤ) : Prop := Relation.ReflTransGen Step s₀ s

namespace VestingAccount

/-- **The account stays covered along every run.** -/
theorem Covered.reachable {s₀ s : VestingAccount × ℤ} (h₀ : Covered s₀.1 s₀.2)
    (hs : Reachable s₀ s) : Covered s.1 s.2 := by
  induction hs with
  | refl => exact h₀
  | tail _ hstep ih =>
    cases hstep with
    | call op ht h => exact ih.apply ht op h

end VestingAccount

end Auth
end ColorSdk
