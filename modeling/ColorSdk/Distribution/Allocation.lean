import ColorSdk.Distribution.Keeper
import ColorSdk.Staking.Council
import ColorSdk.Lib.ExceptSpec

/-!
# The allocation of the collected fees

`AllocateTokens` pays the previous proposer the fraction
`base + bonus · (power that signed / total power)` of the fees, each validator
that voted its power's part of `1 - proposer multiplier - community tax`, and
the community pool what is left.  Every payment goes through
`AllocateTokensToValidator`, which splits it into the commission and the
delegators' share with `DecCoins.Sub`, and that panics on a negative result.

`ValidateGenesis` checks the community tax against `[0, 1]` and the two
proposer rewards against a sum of one, but never the three together.  A tax of
one is accepted with the default proposer rewards; the vote multiplier is then
minus the proposer multiplier, every voter's reward is negative, and its split
panics with "negative coin amount" on the first block with fees.

## Main definitions

* `GenesisState`, `ValidateGenesis`, `DefaultGenesisState`, `InitGenesis`.
* `fullTaxGenesis` — the default genesis with a community tax of one.

## Main results

* `ValidateGenesis_eq_ok` — what `ValidateGenesis` accepts.
* `State.AllocateTokensToValidator_eq_ok` — a split whose share is not negative,
  and what it writes.
* `full_tax_allocation_panics` — the genesis with a tax of one passes
  `ValidateGenesis`, and from every state with its parameters, a block with fees
  whose proposer voted alone panics.

## References

* src/x/distribution/keeper/allocation.go, src/x/distribution/types/genesis.go,
  src/x/distribution/types/fee_pool.go, src/x/distribution/genesis.go
-/

namespace ColorSdk
namespace Distribution

open Staking (Validator)

/-! ### The genesis check -/

/-- `GenesisState`, with the fee pool and the parameters; the records it also
carries are not modelled, and `InitGenesis` starts from empty stores. -/
structure GenesisState where
  /-- The community pool of the fee pool. -/
  FeePool : Dec
  CommunityTax : Dec
  BaseProposerReward : Dec
  BonusProposerReward : Dec
  WithdrawAddrEnabled : Bool
  deriving DecidableEq, Repr

/-- The parameters a genesis sets. -/
def GenesisState.params (data : GenesisState) : Params :=
  ⟨data.CommunityTax, data.BaseProposerReward, data.BonusProposerReward, data.WithdrawAddrEnabled⟩

/-- The errors of `ValidateGenesis`, with the values their messages print. -/
inductive GenesisError where
  /-- "mint parameter CommunityTax should non-negative and less than one, is %s" -/
  | communityTax (tax : Dec)
  /-- "mint parameter BaseProposerReward should be positive, is %s" -/
  | baseProposerReward (reward : Dec)
  /-- "mint parameter BonusProposerReward should be positive, is %s" -/
  | bonusProposerReward (reward : Dec)
  /-- "mint parameters BaseProposerReward and BonusProposerReward cannot add to be
  greater than one, adds to %s" -/
  | proposerRewardsSum (sum : Dec)
  /-- `FeePool.ValidateGenesis`: "negative CommunityPool in distribution fee pool, is %v" -/
  | negativeCommunityPool (pool : Dec)
  deriving DecidableEq, Repr

/-- `FeePool.ValidateGenesis`. -/
def validateFeePool (pool : Dec) : Except GenesisError Unit :=
  if pool.IsNegative then .error (.negativeCommunityPool pool) else pure ()

/-- `ValidateGenesis`: the tax in `[0, 1]`, each proposer reward not negative and
their sum at most one, and the fee pool not negative. -/
def ValidateGenesis (data : GenesisState) : Except GenesisError Unit :=
  if data.CommunityTax.IsNegative || data.CommunityTax.GT OneDec then
    .error (.communityTax data.CommunityTax)
  else if data.BaseProposerReward.IsNegative then
    .error (.baseProposerReward data.BaseProposerReward)
  else if data.BonusProposerReward.IsNegative then
    .error (.bonusProposerReward data.BonusProposerReward)
  else if (data.BaseProposerReward.Add data.BonusProposerReward).GT OneDec then
    .error (.proposerRewardsSum (data.BaseProposerReward.Add data.BonusProposerReward))
  else validateFeePool data.FeePool

/-- What `ValidateGenesis` accepts: the three rates are checked two at a time at
most, never the tax with the proposer rewards. -/
theorem ValidateGenesis_eq_ok (data : GenesisState) :
    ValidateGenesis data = .ok () ↔
      (0 ≤ data.CommunityTax.i ∧ data.CommunityTax.i ≤ precisionReuse) ∧
      0 ≤ data.BaseProposerReward.i ∧ 0 ≤ data.BonusProposerReward.i ∧
      data.BaseProposerReward.i + data.BonusProposerReward.i ≤ precisionReuse ∧
      0 ≤ data.FeePool.i := by
  unfold ValidateGenesis validateFeePool
  -- each failed check contradicts one bound of the right side
  split_ifs with htax hbase hbonus hsum hpool
  all_goals simp only [Dec.IsNegative, Dec.GT, Bool.or_eq_true, decide_eq_true_eq, false_iff,
    true_iff, pure, Except.pure] at *
  all_goals simp only [Dec.add_i, Dec.oneDec_i] at *
  all_goals omega

/-- `DefaultGenesisState`: a tax of 20%, proposer rewards of 1% and 4%, and
`10¹³` tokens in the community pool. -/
def DefaultGenesisState : GenesisState :=
  ⟨ToDec 10000000000000, NewDecWithPrec 20 2, NewDecWithPrec 1 2, NewDecWithPrec 4 2, true⟩

theorem ValidateGenesis_default : ValidateGenesis DefaultGenesisState = .ok () := by
  decide

variable {A P : Type} [LinearOrder A]

/-- `InitGenesis`: the fee pool and the parameters, over empty stores, and no
fees collected yet. -/
def InitGenesis (data : GenesisState) : State A where
  communityPool := data.FeePool
  historicalRewards := .empty
  currentRewards := .empty
  accumulatedCommission := .empty
  outstandingRewards := .empty
  startingInfos := .empty
  slashEvents := .empty
  withdrawAddrs := .empty
  params := data.params
  collectedFees := 0
  coins := fun _ => 0

/-! ### Paying one validator -/

/-- `DecCoins.Sub` returns a difference that is not negative. -/
theorem subCoins_eq_ok {coins coinsB : Dec} (h : 0 ≤ (coins.Sub coinsB).i) :
    subCoins coins coinsB = .ok (coins.Sub coinsB) := by
  rw [Dec.sub_i] at h
  simp [subCoins, Dec.IsNegative]
  omega

/-- `DecCoins.Sub` panics on a negative difference. -/
theorem subCoins_of_neg {coins coinsB : Dec} (h : (coins.Sub coinsB).i < 0) :
    subCoins coins coinsB = .error .negativeCoinAmount := by
  rw [Dec.sub_i] at h
  simp [subCoins, Dec.IsNegative]
  omega

namespace State

variable {s : State A} {val : Validator A P} {tokens : Dec}

/-- A share below zero makes the split panic, before anything is read. -/
theorem AllocateTokensToValidator_of_neg
    (h : (tokens.Sub (tokens.Mul val.Commission.Rate)).i < 0) :
    s.AllocateTokensToValidator val tokens = .error .negativeCoinAmount := by
  simp [AllocateTokensToValidator, subCoins_of_neg h, bind, Except.bind]

/-- A share that is not negative, on a validator with rewards on record: the
commission and the share are added to the validator's, and the whole payment
to its outstanding rewards. -/
theorem AllocateTokensToValidator_eq_ok {rewards : ValidatorCurrentRewards} {outstanding : Dec}
    (h : 0 ≤ (tokens.Sub (tokens.Mul val.Commission.Rate)).i)
    (hcur : s.GetValidatorCurrentRewards val.OperatorAddress = .ok rewards)
    (hout : s.GetValidatorOutstandingRewards val.OperatorAddress = .ok outstanding) :
    s.AllocateTokensToValidator val tokens = .ok
      (((s.SetValidatorAccumulatedCommission val.OperatorAddress
        ((s.GetValidatorAccumulatedCommission val.OperatorAddress).Add
          (tokens.Mul val.Commission.Rate))).SetValidatorCurrentRewards val.OperatorAddress
        { rewards with Rewards :=
          rewards.Rewards.Add (tokens.Sub (tokens.Mul val.Commission.Rate)) }).SetValidatorOutstandingRewards
        val.OperatorAddress (outstanding.Add tokens)) := by
  -- the commission store is not the one the two reads look at
  have hcur' : (s.SetValidatorAccumulatedCommission val.OperatorAddress
      ((s.GetValidatorAccumulatedCommission val.OperatorAddress).Add
        (tokens.Mul val.Commission.Rate))).GetValidatorCurrentRewards val.OperatorAddress =
      .ok rewards := hcur
  have hout' : (((s.SetValidatorAccumulatedCommission val.OperatorAddress
      ((s.GetValidatorAccumulatedCommission val.OperatorAddress).Add
        (tokens.Mul val.Commission.Rate))).SetValidatorCurrentRewards val.OperatorAddress
      { rewards with Rewards :=
        rewards.Rewards.Add (tokens.Sub (tokens.Mul val.Commission.Rate)) })).GetValidatorOutstandingRewards
      val.OperatorAddress = .ok outstanding := hout
  simp only [AllocateTokensToValidator, subCoins_eq_ok h, hcur', hout', bind, Except.bind, pure,
    Except.pure]

/-- A payment leaves the parameters as they are. -/
theorem params_of_AllocateTokensToValidator {s' : State A}
    (h : s.AllocateTokensToValidator val tokens = .ok s') : s'.params = s.params := by
  simp only [AllocateTokensToValidator, Except.bind_eq_ok, Except.pure_eq_ok] at h
  obtain ⟨_, -, _, -, _, -, rfl⟩ := h
  rfl

end State

/-- A whole number of tokens times a decimal is exact. -/
theorem toDec_mul_i (k : ℤ) (d : Dec) : ((ToDec k).Mul d).i = k * d.i := by
  have hexact : (ToDec k).i * d.i = k * d.i * precisionReuse := by
    rw [Dec.toDec_i]
    ring
  rw [Dec.Mul, hexact, FixedPoint.chopRound_mul_scale precisionReuse_pos]

/-! ### A community tax of one -/

/-- The default genesis with the whole of what the proposer does not get taxed
for the community pool. -/
def fullTaxGenesis : GenesisState := { DefaultGenesisState with CommunityTax := OneDec }

/-- The genesis with a community tax of one passes `ValidateGenesis`; from any
state with its parameters and `100` tokens of fees, a block whose proposer, with
a commission below one and its rewards on record, cast the only vote panics:
the proposer is paid `5` tokens, and its vote `-5`. -/
theorem full_tax_allocation_panics [LinearOrder P] :
    ValidateGenesis fullTaxGenesis = .ok () ∧
      ∀ (sk : Staking.State A P) (s : State A) (val : Validator A P)
        (rewards : ValidatorCurrentRewards) (outstanding : Dec),
        s.params = fullTaxGenesis.params → s.collectedFees = 100 →
        sk.GetValidatorByConsAddr val.ConsPubKey = some val →
        val.Commission.Rate.i < precisionReuse →
        s.GetValidatorCurrentRewards val.OperatorAddress = .ok rewards →
        s.GetValidatorOutstandingRewards val.OperatorAddress = .ok outstanding →
        s.AllocateTokens sk 1 1 val.ConsPubKey [(val.ConsPubKey, 1)] =
          .error .negativeCoinAmount := by
  refine ⟨by decide, ?_⟩
  intro sk s val rewards outstanding hparams hfees hval hrate hcur hout
  -- the proposer multiplier is `5%`, its reward `5` tokens, and the vote's `-5`
  have hmultiplier : fullTaxGenesis.params.BaseProposerReward.Add
      (fullTaxGenesis.params.BonusProposerReward.MulTruncate ((ToDec 1).Quo (ToDec 1))) =
      NewDecWithPrec 5 2 := by decide
  have hproposer : (ToDec 100).MulTruncate (NewDecWithPrec 5 2) = ToDec 5 := by decide
  have hvote : ((ToDec 100).MulTruncate ((OneDec.Sub (NewDecWithPrec 5 2)).Sub
      fullTaxGenesis.params.CommunityTax)).MulTruncate ((ToDec 1).QuoTruncate (ToDec 1)) =
      ToDec (-5) := by decide
  have hremaining : subCoins (ToDec 100) (ToDec 5) = .ok (ToDec 95) := by decide
  -- with a commission below one, the first share is positive and the second negative
  have hshare₁ : 0 ≤ ((ToDec 5).Sub ((ToDec 5).Mul val.Commission.Rate)).i := by
    rw [Dec.sub_i, toDec_mul_i, Dec.toDec_i]
    omega
  have hshare₂ : ((ToDec (-5)).Sub ((ToDec (-5)).Mul val.Commission.Rate)).i < 0 := by
    rw [Dec.sub_i, toDec_mul_i, Dec.toDec_i]
    omega
  obtain ⟨s₁, hs₁⟩ : ∃ s₁, State.AllocateTokensToValidator { s with collectedFees := 0 } val
      (ToDec 5) = .ok s₁ := ⟨_, State.AllocateTokensToValidator_eq_ok hshare₁ hcur hout⟩
  have hparams₁ : s₁.params = fullTaxGenesis.params :=
    (State.params_of_AllocateTokensToValidator hs₁).trans hparams
  have hpanic : s₁.AllocateTokensToValidator val (ToDec (-5)) = .error .negativeCoinAmount :=
    State.AllocateTokensToValidator_of_neg hshare₂
  -- the state the proposer is paid from, with the parameters written out
  simp only [hparams] at hs₁
  unfold State.AllocateTokens
  simp only [hfees, hparams, one_ne_zero, if_false, hmultiplier, hproposer, hval, hs₁, hremaining,
    bind, Except.bind, pure, Except.pure, List.foldlM_cons, hparams₁, hvote, hpanic]

/-- Validator 1, of key 7 and no commission, created on the genesis with a tax of
one, and `100` tokens of fees. -/
theorem full_tax_allocation_panics_sample :
    let val : Validator ℕ ℕ := Staking.NewValidator 1 7
    let s : State ℕ :=
      { (InitGenesis fullTaxGenesis).initializeValidator val with collectedFees := 100 }
    let sk := (Staking.genesis.SetValidator val).SetValidatorByConsAddr val
    (s.params = fullTaxGenesis.params ∧ s.collectedFees = 100 ∧
      sk.GetValidatorByConsAddr val.ConsPubKey = some val ∧
      val.Commission.Rate.i < precisionReuse ∧
      s.GetValidatorCurrentRewards val.OperatorAddress = .ok ⟨ZeroDec, 1⟩ ∧
      s.GetValidatorOutstandingRewards val.OperatorAddress = .ok ZeroDec) ∧
    s.AllocateTokens sk 1 1 val.ConsPubKey [(val.ConsPubKey, 1)] = .error .negativeCoinAmount := by
  intro val s sk
  have h : s.params = fullTaxGenesis.params ∧ s.collectedFees = 100 ∧
      sk.GetValidatorByConsAddr val.ConsPubKey = some val ∧
      val.Commission.Rate.i < precisionReuse ∧
      s.GetValidatorCurrentRewards val.OperatorAddress = .ok ⟨ZeroDec, 1⟩ ∧
      s.GetValidatorOutstandingRewards val.OperatorAddress = .ok ZeroDec :=
    ⟨rfl, rfl, by decide, by decide, by decide, by decide⟩
  exact ⟨h, full_tax_allocation_panics.2 sk s val _ _ h.1 h.2.1 h.2.2.1 h.2.2.2.1 h.2.2.2.2.1
    h.2.2.2.2.2⟩

end Distribution
end ColorSdk
