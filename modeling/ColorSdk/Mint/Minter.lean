import ColorSdk.Types.Coin
import ColorSdk.Types.Decimal
import ColorSdk.Lib.ExceptSpec
import Mathlib

/-!
# The minter

The mint module keeps one `Minter`: a weekly provision, a minting speed in tokens
per second, the time of the next deflation and the time of the last block.  At
each block `BeginBlocker` first lets `updateWeeklySupply` deflate once the
deflation time has passed, then mints `BlockProvision`, the speed times the time
since the last block, and records the block time.

At a deflation `NewWeeklySupply` returns the deflated weekly provision and a new
speed, and both are computed from the minter before the deflation: the new speed
is the old weekly provision spread over the blocks of a week.  From the first
deflation on the speed therefore lags one deflation behind the weekly provision,
and a week of blocks mints the weekly provision of the year before.

Times are nanoseconds, and `time.Time.Sub` saturates at the bounds of a
`time.Duration`, as `subTime` does.  The keeper's store of the minter, the fee
collector and the supply are not modelled: `BeginBlocker` returns the new minter
and the coin it mints, and `Mints` adds the coins of a run up.

## Main definitions

* `Minter`, `Params`, `InitialMinter`, `DefaultInitialMinter`, `DefaultParams`,
  `ValidateGenesis`.
* `Minter.NewWeeklySupply`, `Minter.BlockProvision`, `updateWeeklySupply`,
  `BeginBlocker`.
* `Mints` — blocks at increasing times, with the total they mint.
* `MinterInv` — a deflation in `[0, 1]`, and a provision and a speed that are not
  negative.

## Main results

* `Minter.blockProvision_second` — a one-second block mints the speed.
* `mints_oneSecondBlocks` — between deflations, `n` one-second blocks mint `n`
  times the speed.
* `speed_after_deflation` — after a deflation the speed, over the blocks of a
  week, is the weekly provision from before it, up to truncation.
* `MinterInv.mints` — from a minter of the invariant, every run keeps it, and the
  next block mints a coin and does not panic.
* `minting_speed_lags_deflation` — from the default genesis, the first deflation
  leaves the speed at the old weekly provision.

## References

* src/x/mint/minter.go, src/x/mint/abci_app.go, src/x/mint/params.go,
  src/x/mint/genesis.go
-/

namespace ColorSdk
namespace Mint

open ColorSdk.Types

/-! ### Time -/

/-- Block times, in nanoseconds since the Unix epoch. -/
abbrev Time := ℤ

/-- `time.Second`, in nanoseconds. -/
def Second : ℤ := 10 ^ 9

/-- The least `time.Duration`, an `int64` of nanoseconds. -/
def minDuration : ℤ := -2 ^ 63

/-- The greatest `time.Duration`. -/
def maxDuration : ℤ := 2 ^ 63 - 1

/-- `time.Time.Sub`: `t - u`, saturated at the bounds of a `time.Duration`. -/
def subTime (t u : Time) : ℤ := max minDuration (min maxDuration (t - u))

theorem subTime_nonneg {t u : ℤ} (h : u ≤ t) : 0 ≤ subTime t u := by
  unfold subTime minDuration maxDuration
  omega

theorem subTime_of_le {t u : ℤ} (h : u ≤ t) (h' : t - u ≤ maxDuration) :
    subTime t u = t - u := by
  unfold subTime minDuration
  unfold maxDuration at h' ⊢
  omega

/-! ### The minter and its parameters -/

/-- `weeklyProvision`: the tokens of the first weekly provision. -/
def weeklyProvision : ℤ := 362880000000

/-- `mintingSpeed`: the tokens minted a second at first. -/
def mintingSpeed : ℤ := 600000

/-- `deflationtime`: the seconds from one deflation to the next, 52 weeks. -/
def deflationtime : ℤ := 60 * 60 * 24 * 7 * 52

/-- The panics of the mint module. -/
inductive MintPanic where
  /-- `big.Int.Quo` under `Dec.QuoInt`: "division by zero". -/
  | divisionByZero
  /-- A panic of `NewCoin`. -/
  | coin (p : CoinPanic)
  deriving DecidableEq, Repr

/-- `Minter`. -/
structure Minter where
  Deflation : Dec
  WeeklyProvisions : Dec
  /-- Tokens minted a second. -/
  MintingSpeed : Dec
  /-- The time of the next deflation. -/
  DeflationTime : Time
  /-- The time of the last block. -/
  BlockTime : Time
  deriving DecidableEq, Repr

/-- `Params`. -/
structure Params where
  MintDenom : String
  BlocksPerWeek : UInt64
  deriving DecidableEq, Repr

/-- `DefaultParams`: the bond denomination, and a block a second. -/
def DefaultParams : Params := ⟨"uclr", 60 * 60 * 24 * 7⟩

/-- `InitialMinter`, with the time `time.Now()` reads as `now`. -/
def InitialMinter (deflation : Dec) (now : Time) : Minter :=
  ⟨deflation, ToDec weeklyProvision, ToDec mintingSpeed, now + Second * deflationtime, now⟩

/-- `DefaultInitialMinter`: a deflation of 3%. -/
def DefaultInitialMinter (now : Time) : Minter := InitialMinter (NewDecWithPrec 3 2) now

/-- The errors of `ValidateGenesis`. -/
inductive MintError where
  /-- "mint parameter MintDenom can't be an empty string". -/
  | emptyMintDenom
  /-- "mint parameter Deflation should be positive, is %s". -/
  | negativeDeflation (deflation : Dec)
  deriving DecidableEq, Repr

/-- `validateParams`. -/
def validateParams (params : Params) : Except MintError Unit :=
  if params.MintDenom = "" then .error .emptyMintDenom else pure ()

/-- `validateMinter`. -/
def validateMinter (minter : Minter) : Except MintError Unit :=
  if minter.Deflation.LT ZeroDec then .error (.negativeDeflation minter.Deflation) else pure ()

/-- `GenesisState`. -/
structure GenesisState where
  Minter : Minter
  Params : Params

/-- `ValidateGenesis`: the parameters, then the minter. -/
def ValidateGenesis (data : GenesisState) : Except MintError Unit := do
  validateParams data.Params
  validateMinter data.Minter

/-- The default genesis passes its own check, whatever the time of the genesis. -/
theorem ValidateGenesis_default (now : Time) :
    ValidateGenesis ⟨DefaultInitialMinter now, DefaultParams⟩ = .ok () := by
  have hparams : validateParams DefaultParams = .ok () := by decide
  have hminter : validateMinter (DefaultInitialMinter now) = .ok () := by
    simp [validateMinter, DefaultInitialMinter, InitialMinter, NewDecWithPrec]
    decide
  simp only [ValidateGenesis, hparams, hminter]
  rfl

/-! ### Minting -/

namespace Minter

/-- `Minter.NewWeeklySupply`: the weekly provision less the deflation, and the
weekly provision spread over the blocks of a week — both from the minter as it
stands. -/
def NewWeeklySupply (m : Minter) (params : Params) : Except MintPanic (Dec × Dec) :=
  let blocks := params.BlocksPerWeek.toInt64.toInt
  if blocks = 0 then .error .divisionByZero
  else pure (m.WeeklyProvisions.Sub (m.Deflation.Mul m.WeeklyProvisions),
    m.WeeklyProvisions.QuoInt blocks)

/-- `Minter.BlockProvision`: the speed times the time since the last block, in
whole tokens. -/
def BlockProvision (m : Minter) (params : Params) (newtime : Time) : Except CoinPanic Coin :=
  let blocktimediff := ToDec (subTime newtime m.BlockTime)
  let newCoins := (blocktimediff.Mul m.MintingSpeed).QuoInt 1000000000
  NewCoin params.MintDenom newCoins.TruncateInt

end Minter

/-- `updateWeeklySupply`: past the deflation time, the next one 52 weeks on and
the weekly supply renewed. -/
def updateWeeklySupply (params : Params) (minter : Minter) (currentTime : Time) :
    Except MintPanic Minter :=
  if minter.DeflationTime < currentTime then do
    let supply ← minter.NewWeeklySupply params
    pure { minter with
      DeflationTime := minter.DeflationTime + Second * deflationtime
      WeeklyProvisions := supply.1
      MintingSpeed := supply.2 }
  else pure minter

/-- `BeginBlocker`: the minter after a block at `time`, and the coin it mints. -/
def BeginBlocker (params : Params) (minter : Minter) (time : Time) :
    Except MintPanic (Minter × Coin) := do
  let minter ← updateWeeklySupply params minter time
  let mintedCoin ← (minter.BlockProvision params time).mapError .coin
  pure ({ minter with BlockTime := time }, mintedCoin)

/-- `Mints params m n m'`: blocks at strictly increasing times take the minter
from `m` to `m'` and mint `n` tokens of `params.MintDenom` in all. -/
inductive Mints (params : Params) : Minter → ℤ → Minter → Prop where
  | refl (m : Minter) : Mints params m 0 m
  | step {m m' m'' : Minter} {t : Time} {coin : Coin} {n : ℤ} :
      m.BlockTime < t → BeginBlocker params m t = .ok (m', coin) →
      Mints params m' n m'' → Mints params m (coin.Amount + n) m''

/-! ### One block -/

section Block

variable {params : Params} {m m₁ : Minter} {t : Time} {coin : Coin}

theorem updateWeeklySupply_of_le (h : t ≤ m.DeflationTime) :
    updateWeeklySupply params m t = .ok m := by
  simp [updateWeeklySupply, not_lt.2 h]
  rfl

theorem updateWeeklySupply_of_lt (h : m.DeflationTime < t)
    (hb : params.BlocksPerWeek.toInt64.toInt ≠ 0) :
    updateWeeklySupply params m t = .ok { m with
      DeflationTime := m.DeflationTime + Second * deflationtime
      WeeklyProvisions := m.WeeklyProvisions.Sub (m.Deflation.Mul m.WeeklyProvisions)
      MintingSpeed := m.WeeklyProvisions.QuoInt params.BlocksPerWeek.toInt64.toInt } := by
  simp [updateWeeklySupply, h, Minter.NewWeeklySupply, hb]
  rfl

/-- What a block does: the weekly supply updated, then a coin minted. -/
theorem BeginBlocker_eq_ok {r : Minter × Coin} :
    BeginBlocker params m t = .ok r ↔
      ∃ m₁ coin, updateWeeklySupply params m t = .ok m₁ ∧ m₁.BlockProvision params t = .ok coin ∧
        r = ({ m₁ with BlockTime := t }, coin) := by
  simp only [BeginBlocker, Except.bind_eq_ok, Except.mapError_eq_ok, Except.pure_eq_ok]
  constructor
  · rintro ⟨m₁, hupd, coin, hcoin, rfl⟩
    exact ⟨m₁, coin, hupd, hcoin, rfl⟩
  · rintro ⟨m₁, coin, hupd, hcoin, rfl⟩
    exact ⟨m₁, hupd, coin, hcoin, rfl⟩

/-- A block at or after the last one, at a speed that is not negative, mints a
coin of the mint denomination. -/
theorem Minter.blockProvision_ok (hS : 0 ≤ m.MintingSpeed.i) (ht : m.BlockTime ≤ t)
    (hd : reDnm params.MintDenom = true) :
    ∃ coin, m.BlockProvision params t = .ok coin ∧ coin.Denom = params.MintDenom ∧
      0 ≤ coin.Amount := by
  have hdiff : 0 ≤ (ToDec (subTime t m.BlockTime)).i := by
    rw [Dec.toDec_i]
    exact Int.mul_nonneg (subTime_nonneg ht) (Int.natCast_nonneg _)
  have hamount : 0 ≤ (((ToDec (subTime t m.BlockTime)).Mul m.MintingSpeed).QuoInt
      1000000000).TruncateInt :=
    FixedPoint.chopTruncate_nonneg (Int.tdiv_nonneg (Dec.mul_nonneg hdiff hS) (by decide))
  exact ⟨_, NewCoin_eq_ok hd hamount, rfl, hamount⟩

/-- A block one second after the last one mints the speed, truncated. -/
theorem Minter.blockProvision_second (hS : 0 ≤ m.MintingSpeed.i)
    (hd : reDnm params.MintDenom = true) :
    m.BlockProvision params (m.BlockTime + Second) =
      .ok ⟨params.MintDenom, m.MintingSpeed.TruncateInt⟩ := by
  have hdiff : subTime (m.BlockTime + Second) m.BlockTime = Second := by
    rw [subTime_of_le (by unfold Second; omega) (by unfold Second maxDuration; omega)]
    omega
  -- a second is `10⁹` nanoseconds, and the product is exact
  have hmul : ((ToDec Second).Mul m.MintingSpeed).i = 1000000000 * m.MintingSpeed.i := by
    have hexact : (ToDec Second).i * m.MintingSpeed.i =
        1000000000 * m.MintingSpeed.i * precisionReuse := by
      rw [Dec.toDec_i, Second]
      ring
    rw [Dec.Mul, hexact, FixedPoint.chopRound_mul_scale precisionReuse_pos]
  have hquo : ((ToDec Second).Mul m.MintingSpeed).QuoInt 1000000000 = m.MintingSpeed := by
    rw [Dec.QuoInt, hmul, Int.mul_tdiv_cancel_left _ (by decide)]
  rw [Minter.BlockProvision, hdiff, hquo]
  exact NewCoin_eq_ok hd (FixedPoint.chopTruncate_nonneg hS)

/-- Before the deflation time a block only mints, at the speed it has. -/
theorem BeginBlocker_of_le (hle : t ≤ m.DeflationTime) (hcoin : m.BlockProvision params t = .ok coin) :
    BeginBlocker params m t = .ok ({ m with BlockTime := t }, coin) :=
  BeginBlocker_eq_ok.2 ⟨m, coin, updateWeeklySupply_of_le hle, hcoin, rfl⟩

end Block

/-! ### Runs between deflations -/

/-- Between deflations, `n` blocks a second apart mint `n` times the speed. -/
theorem mints_oneSecondBlocks {params : Params} (hd : reDnm params.MintDenom = true)
    (n : ℕ) : ∀ {m : Minter}, 0 ≤ m.MintingSpeed.i →
      m.BlockTime + n * Second ≤ m.DeflationTime →
      Mints params m (n * m.MintingSpeed.TruncateInt)
        { m with BlockTime := m.BlockTime + n * Second } := by
  induction n with
  | zero =>
    intro m _ _
    simpa using Mints.refl m
  | succ n ih =>
    intro m hS hlate
    have hsec : (0 : ℤ) < Second := by simp [Second]
    have hn : (0 : ℤ) ≤ n * Second := Int.mul_nonneg (Int.natCast_nonneg n) hsec.le
    -- the first block, a second on, is before the deflation time
    have hfirst : BeginBlocker params m (m.BlockTime + Second) =
        .ok ({ m with BlockTime := m.BlockTime + Second },
          ⟨params.MintDenom, m.MintingSpeed.TruncateInt⟩) := by
      apply BeginBlocker_of_le _ (Minter.blockProvision_second hS hd)
      push_cast at hlate
      linarith
    -- and the other `n` blocks run from the minter it leaves
    have hrest := ih (m := { m with BlockTime := m.BlockTime + Second }) hS
      (by push_cast at hlate ⊢; linarith)
    have hrun := Mints.step (by linarith) hfirst hrest
    have htime : m.BlockTime + Second + n * Second = m.BlockTime + ↑(n + 1) * Second := by
      push_cast
      ring
    have htotal : m.MintingSpeed.TruncateInt + n * m.MintingSpeed.TruncateInt =
        ↑(n + 1) * m.MintingSpeed.TruncateInt := by
      push_cast
      ring
    simpa only [htime, htotal] using hrun

/-! ### Deflation -/

/-- After a deflation the weekly provision is deflated, but the speed is the
weekly provision from before the deflation over the blocks of a week, truncated:
the speed over a week is the old provision up to less than one unit a block. -/
theorem speed_after_deflation {params : Params} {m m₁ : Minter} {t : Time}
    (hW : 0 ≤ m.WeeklyProvisions.i) (hb : 0 < params.BlocksPerWeek.toInt64.toInt)
    (hdefl : m.DeflationTime < t) (h : updateWeeklySupply params m t = .ok m₁) :
    m₁.WeeklyProvisions = m.WeeklyProvisions.Sub (m.Deflation.Mul m.WeeklyProvisions) ∧
      (m₁.MintingSpeed.MulInt params.BlocksPerWeek.toInt64.toInt).i ≤ m.WeeklyProvisions.i ∧
      m.WeeklyProvisions.i <
        ((m₁.MintingSpeed.MulInt params.BlocksPerWeek.toInt64.toInt).i +
          params.BlocksPerWeek.toInt64.toInt) := by
  rw [updateWeeklySupply_of_lt hdefl hb.ne', Except.ok.injEq] at h
  subst h
  set blocks := params.BlocksPerWeek.toInt64.toInt
  have hquo : m.WeeklyProvisions.i.tdiv blocks = m.WeeklyProvisions.i / blocks :=
    Int.tdiv_eq_ediv_of_nonneg hW
  refine ⟨rfl, ?_, ?_⟩
  · simp only [Dec.mulInt_i, Dec.QuoInt, hquo]
    exact Int.ediv_mul_le _ hb.ne'
  · simp only [Dec.mulInt_i, Dec.QuoInt, hquo]
    have hlt := Int.lt_ediv_add_one_mul_self m.WeeklyProvisions.i hb
    linarith

/-! ### The invariant of every run -/

/-- A deflation in `[0, 1]`, and a weekly provision and a speed that are not
negative. -/
structure MinterInv (m : Minter) : Prop where
  deflation_nonneg : 0 ≤ m.Deflation.i
  deflation_le_one : m.Deflation.i ≤ precisionReuse
  provisions_nonneg : 0 ≤ m.WeeklyProvisions.i
  speed_nonneg : 0 ≤ m.MintingSpeed.i

section Invariant

variable {params : Params} {m m' : Minter} {t : Time} {n : ℤ}

/-- Every initial minter with a deflation in `[0, 1]` is of the invariant. -/
theorem MinterInv.initial {deflation : Dec} (h₀ : 0 ≤ deflation.i)
    (h₁ : deflation.i ≤ precisionReuse) (now : Time) : MinterInv (InitialMinter deflation now) :=
  ⟨h₀, h₁, by simp [InitialMinter, weeklyProvision],
    by simp [InitialMinter, mintingSpeed]⟩

/-- The invariant does not read the time of the last block. -/
theorem MinterInv.withBlockTime (hinv : MinterInv m) (t : Time) :
    MinterInv { m with BlockTime := t } :=
  ⟨hinv.deflation_nonneg, hinv.deflation_le_one, hinv.provisions_nonneg, hinv.speed_nonneg⟩

/-- A deflation in `[0, 1]` takes away at most the whole provision. -/
theorem MinterInv.deflated_nonneg (hinv : MinterInv m) :
    0 ≤ (m.WeeklyProvisions.Sub (m.Deflation.Mul m.WeeklyProvisions)).i := by
  have hcomm : (m.Deflation.Mul m.WeeklyProvisions).i = (m.WeeklyProvisions.Mul m.Deflation).i := by
    simp only [Dec.Mul, Int.mul_comm]
  have hle : (m.WeeklyProvisions.Mul m.Deflation).i ≤ (m.WeeklyProvisions.Mul OneDec).i :=
    Dec.mul_mono_right hinv.provisions_nonneg hinv.deflation_nonneg hinv.deflation_le_one
  rw [Dec.mul_one] at hle
  rw [Dec.sub_i, hcomm]
  omega

/-- With a positive number of blocks a week, the weekly supply is renewed without a
panic, and the invariant is kept. -/
theorem MinterInv.updateWeeklySupply (hinv : MinterInv m)
    (hb : 0 < params.BlocksPerWeek.toInt64.toInt) :
    ∃ m₁, updateWeeklySupply params m t = .ok m₁ ∧ MinterInv m₁ ∧ m₁.BlockTime = m.BlockTime := by
  by_cases hdefl : m.DeflationTime < t
  · refine ⟨_, updateWeeklySupply_of_lt hdefl hb.ne', ⟨hinv.deflation_nonneg,
      hinv.deflation_le_one, hinv.deflated_nonneg, ?_⟩, rfl⟩
    exact Int.tdiv_nonneg hinv.provisions_nonneg hb.le
  · exact ⟨m, updateWeeklySupply_of_le (not_lt.1 hdefl), hinv, rfl⟩

/-- From a minter of the invariant, a block at or after the last one mints a coin
of the mint denomination without a panic, and keeps the invariant. -/
theorem MinterInv.beginBlocker (hinv : MinterInv m) (ht : m.BlockTime ≤ t)
    (hb : 0 < params.BlocksPerWeek.toInt64.toInt) (hd : reDnm params.MintDenom = true) :
    ∃ m' coin, BeginBlocker params m t = .ok (m', coin) ∧ MinterInv m' ∧ m'.BlockTime = t ∧
      coin.Denom = params.MintDenom ∧ 0 ≤ coin.Amount := by
  obtain ⟨m₁, hupd, hinv₁, htime⟩ := hinv.updateWeeklySupply (t := t) hb
  obtain ⟨coin, hcoin, hdenom, hamount⟩ :=
    Minter.blockProvision_ok hinv₁.speed_nonneg (htime ▸ ht) hd
  exact ⟨_, coin, BeginBlocker_eq_ok.2 ⟨m₁, coin, hupd, hcoin, rfl⟩, hinv₁.withBlockTime t, rfl,
    hdenom, hamount⟩

/-- Every block a minter of the invariant accepts keeps the invariant, and mints no
negative amount. -/
theorem MinterInv.of_beginBlocker {coin : Coin} (hinv : MinterInv m)
    (hb : 0 < params.BlocksPerWeek.toInt64.toInt) (hstep : BeginBlocker params m t = .ok (m', coin)) :
    MinterInv m' ∧ 0 ≤ coin.Amount := by
  obtain ⟨m₁, coin₁, hupd, hcoin, hr⟩ := BeginBlocker_eq_ok.1 hstep
  obtain ⟨m₂, hupd₂, hinv₂, -⟩ := hinv.updateWeeklySupply (t := t) hb
  -- the update is a function of the minter: the two minters are one
  have hm : m₁ = m₂ := Except.ok.inj (hupd.symm.trans hupd₂)
  obtain ⟨rfl, rfl⟩ := Prod.mk.inj hr
  subst hm
  obtain ⟨-, hamount, hnonneg⟩ := of_NewCoin_eq_ok hcoin
  exact ⟨hinv₂.withBlockTime t, hamount ▸ hnonneg⟩

/-- Over every run from a minter of the invariant the invariant holds, no negative
amount is minted, and the next block, at any later time, mints without a panic. -/
theorem MinterInv.mints (hinv : MinterInv m) (hrun : Mints params m n m')
    (hb : 0 < params.BlocksPerWeek.toInt64.toInt) (hd : reDnm params.MintDenom = true) :
    MinterInv m' ∧ 0 ≤ n ∧ ∀ t, m'.BlockTime ≤ t →
      ∃ m'' coin, BeginBlocker params m' t = .ok (m'', coin) ∧ 0 ≤ coin.Amount := by
  induction hrun with
  | refl m =>
    refine ⟨hinv, le_rfl, fun t ht => ?_⟩
    obtain ⟨m'', coin, hstep, -, -, -, hamount⟩ := hinv.beginBlocker ht hb hd
    exact ⟨m'', coin, hstep, hamount⟩
  | step _ hstep _ ih =>
    -- the invariant passes through the block, and the rest of the run keeps it
    obtain ⟨hinv₁, hcoin⟩ := hinv.of_beginBlocker hb hstep
    obtain ⟨hinv', hn, hnext⟩ := ih hinv₁
    exact ⟨hinv', Int.add_nonneg hcoin hn, hnext⟩

end Invariant

/-! ### The first deflation of the default genesis -/

/-- From the default genesis, the block a second after the first deflation time
deflates the weekly provision by 3%, to `351993600000` tokens, but leaves the
speed at `600000` tokens a second, which is the old provision over the
`604800` blocks of a week; the week of one-second blocks after it then mints
`362880000000` tokens. -/
theorem minting_speed_lags_deflation (now : Time) :
    let m₀ := DefaultInitialMinter now
    ∃ m₁ coin, BeginBlocker DefaultParams m₀ (m₀.DeflationTime + Second) = .ok (m₁, coin) ∧
      m₁.WeeklyProvisions = ToDec 351993600000 ∧
      m₁.MintingSpeed.MulInt 604800 = ToDec 362880000000 ∧
      ∃ m₂, Mints DefaultParams m₁ 362880000000 m₂ := by
  intro m₀
  have hdefl : m₀.DeflationTime < m₀.DeflationTime + Second :=
    lt_add_of_pos_right _ (by decide)
  have hinv₀ : MinterInv m₀ := MinterInv.initial (by decide) (by decide) now
  have hb : 0 < DefaultParams.BlocksPerWeek.toInt64.toInt := by decide
  have hd : reDnm DefaultParams.MintDenom = true := by decide
  obtain ⟨m₁, hupd₁, hinv₁, htime₁⟩ := hinv₀.updateWeeklySupply (t := m₀.DeflationTime + Second) hb
  -- the deflation takes place, and its minter is the deflated one
  have hm₁ := Except.ok.inj ((updateWeeklySupply_of_lt hdefl hb.ne').symm.trans hupd₁)
  have hlater : m₁.BlockTime ≤ m₀.DeflationTime + Second := by
    have hyear : (0 : ℤ) ≤ Second * deflationtime := by decide
    have hsec : (0 : ℤ) ≤ Second := by decide
    rw [htime₁]
    show now ≤ now + Second * deflationtime + Second
    linarith
  obtain ⟨coin, hcoin, -, -⟩ :=
    Minter.blockProvision_ok hinv₁.speed_nonneg hlater hd
  -- the provision is deflated, the speed is the old provision over a week
  have hprovisions : m₁.WeeklyProvisions = ToDec 351993600000 := by
    rw [← hm₁]
    simp [m₀, DefaultInitialMinter, InitialMinter]
    decide
  have hspeed : m₁.MintingSpeed = ToDec 600000 := by
    rw [← hm₁]
    simp [m₀, DefaultInitialMinter, InitialMinter]
    decide
  refine ⟨_, coin, BeginBlocker_eq_ok.2 ⟨m₁, coin, hupd₁, hcoin, rfl⟩, hprovisions, ?_, ?_⟩
  · rw [hspeed]
    decide
  · -- the week after it stays before the next deflation time, and mints at that speed
    have hlate : m₀.DeflationTime + Second + ((604800 : ℕ) : ℤ) * Second ≤ m₁.DeflationTime := by
      have hweek : ((604800 : ℕ) : ℤ) * Second + Second ≤ Second * deflationtime := by decide
      rw [← hm₁]
      show now + Second * deflationtime + Second + ((604800 : ℕ) : ℤ) * Second ≤
        now + Second * deflationtime + Second * deflationtime
      linarith
    have hrun := mints_oneSecondBlocks hd 604800
      (m := { m₁ with BlockTime := m₀.DeflationTime + Second }) hinv₁.speed_nonneg hlate
    have htotal : ((604800 : ℕ) : ℤ) * m₁.MintingSpeed.TruncateInt = 362880000000 := by
      rw [hspeed, Dec.truncateInt_toDec]
      rfl
    exact ⟨_, htotal ▸ hrun⟩

end Mint
end ColorSdk
