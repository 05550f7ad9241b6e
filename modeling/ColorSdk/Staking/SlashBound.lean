import ColorSdk.Staking.Council
import ColorSdk.Lib.ExceptSpec

/-!
# What a slash burns

`Slash` charges each unbonding entry and each redelegation entry created since
the infraction its own nominal share, the slash factor of its initial balance,
and subtracts that charge from the amount `slashFactor * power` it burns from
the validator.  An unbonding entry is never charged more than it holds, and the
validator never more than its tokens, so no balance goes negative.

The charges of the entries are not capped by the amount of the power, though:
when they add up to more, the validator burns nothing but the entries still
burn their whole charges.  The total a slash burns is then more than
`slashFactor * power`, even for the power the validator had at the
infraction, which Tendermint rounds down.

## Main definitions

* `UnbondingsBounded` — every unbonding entry holds between nothing and its
  initial balance.
* `RedelegationsNonneg` — every redelegation entry has a non-negative initial
  balance.

## Main results

* `slash_bounded` — a slash keeps the unbonding entries bounded and burns from
  the validator between nothing and the lesser of its tokens and the amount of
  the power.
* `slash_burns_beyond_power` — a validator of power 1 whose operator unbonded
  after the infraction burns 900000 tokens where the amount of its power is
  500000.
-/

namespace ColorSdk
namespace Staking

variable {A P : Type} [LinearOrder A] [LinearOrder P]

/-- Every entry of the unbonding delegation holds between nothing and its
initial balance. -/
def EntriesBounded (ubd : UnbondingDelegation A) : Prop :=
  ∀ e ∈ ubd.Entries, 0 ≤ e.Balance ∧ e.Balance ≤ e.InitialBalance

/-- Every stored unbonding entry holds between nothing and its initial
balance. -/
def UnbondingsBounded (s : State A P) : Prop :=
  ∀ k ubd, s.unbondingDelegations.get k = some ubd → EntriesBounded ubd

/-- Every stored redelegation entry has a non-negative initial balance. -/
def RedelegationsNonneg (s : State A P) : Prop :=
  ∀ k red, s.redelegations.get k = some red → ∀ e ∈ red.Entries, 0 ≤ e.InitialBalance

omit [LinearOrder A] [LinearOrder P] in
/-- Removing tokens that succeeds takes exactly those tokens off. -/
theorem Validator.RemoveTokens_fst {v : Validator A P} {pool : Pool} {tokens : ℤ}
    {r : Validator A P × Pool} (h : v.RemoveTokens pool tokens = .ok r) :
    r.1 = { v with Tokens := v.Tokens - tokens } := by
  unfold Validator.RemoveTokens at h
  dsimp only at h
  split at h
  · cases h
  split at h
  · cases h
  -- a bonded validator also moves the tokens to the not-bonded pool
  split at h
  all_goals
    obtain ⟨pool', -, h⟩ := Except.bind_eq_ok.1 h
    cases Except.pure_eq_ok.1 h
    rfl

namespace State

/-! ### Frame lemmas: what leaves the unbonding delegations alone -/

theorem unbondingDelegations_jailValidator {s t : State A P} {validator : Validator A P}
    (h : s.jailValidator validator = .ok t) : t.unbondingDelegations = s.unbondingDelegations := by
  unfold jailValidator at h
  split at h
  · cases h
  · cases h
    rfl

theorem unbondingDelegations_RemoveValidatorTokensAndShares {s : State A P}
    {validator : Validator A P} {shares : Dec} {r : Validator A P × ℤ × State A P}
    (h : s.RemoveValidatorTokensAndShares validator shares = .ok r) :
    r.2.2.unbondingDelegations = s.unbondingDelegations := by
  unfold RemoveValidatorTokensAndShares at h
  obtain ⟨⟨validator', pool, removedTokens⟩, -, h⟩ := Except.bind_eq_ok.1 h
  cases Except.pure_eq_ok.1 h
  rw [SetValidatorByPowerIndex_eq]
  rfl

theorem unbondingDelegations_RemoveValidatorTokens {s : State A P}
    {validator : Validator A P} {tokens : ℤ} {r : Validator A P × State A P}
    (h : s.RemoveValidatorTokens validator tokens = .ok r) :
    r.2.unbondingDelegations = s.unbondingDelegations := by
  unfold RemoveValidatorTokens at h
  obtain ⟨⟨validator', pool⟩, -, h⟩ := Except.bind_eq_ok.1 h
  cases Except.pure_eq_ok.1 h
  rw [SetValidatorByPowerIndex_eq]
  rfl

theorem unbondingDelegations_RemoveValidator {s t : State A P} {address : A}
    (h : s.RemoveValidator address = .ok t) : t.unbondingDelegations = s.unbondingDelegations := by
  unfold RemoveValidator at h
  split at h
  · cases h
    rfl
  · split_ifs at h
    cases h
    rfl

/-- **What `unbond` does**, when it succeeds: it reads the delegation and the
validator, jails the operator or not, stores or removes the delegation, takes
the shares from the validator, removes the validator or not, and last updates
the council members. -/
theorem unbond_inv {s t : State A P} {delAddr valAddr : A} {shares : Dec} {amount : ℤ}
    (h : s.unbond delAddr valAddr shares = .ok (amount, t)) :
    ∃ delegation validator, s.GetDelegation delAddr valAddr = some delegation ∧
      s.GetValidator valAddr = some validator ∧
      ∃ validator₁ s₁, (validator₁ = validator ∧ s₁ = s ∨ s.jailValidator validator = .ok s₁ ∧
          s₁.GetValidator validator.OperatorAddress = some validator₁) ∧
      ∃ validator₂ s₂, (if (delegation.Shares.Sub shares).IsZero then
            s₁.RemoveDelegation { delegation with Shares := delegation.Shares.Sub shares }
          else s₁.SetDelegation { delegation with Shares := delegation.Shares.Sub shares }
          ).RemoveValidatorTokensAndShares validator₁ shares = .ok (validator₂, amount, s₂) ∧
      ∃ s₃, (s₃ = s₂ ∨ s₂.RemoveValidator validator₂.OperatorAddress = .ok s₃) ∧
        t = if (s₃.GetTotalDelegatorDelegations delAddr).LT s₃.params.CouncilMemberMinCoin then
          s₃.DeleteCouncilMember delAddr else s₃ := by
  unfold unbond at h
  dsimp only at h
  split at h
  · rename_i delegation hdel
    split at h
    · exact absurd h Except.error_bind_ne_ok
    · split at h
      · rename_i validator hval
        -- the operator is jailed, and read back, when its self-delegation is too low;
        -- the rest of the call is the same in both branches
        split at h
        all_goals
          obtain ⟨⟨validator₁, s₁⟩, hjail, h⟩ := Except.bind_eq_ok.1 h
          have hjail₁ : validator₁ = validator ∧ s₁ = s ∨ s.jailValidator validator = .ok s₁ ∧
              s₁.GetValidator validator.OperatorAddress = some validator₁ := by
            first
              | cases Except.pure_eq_ok.1 hjail
                exact .inl ⟨rfl, rfl⟩
              | obtain ⟨s₀, hjail₀, hget⟩ := Except.bind_eq_ok.1 (Except.mapError_eq_ok.1 hjail)
                obtain ⟨validator₀, hmust, hpure⟩ := Except.bind_eq_ok.1 hget
                cases Except.pure_eq_ok.1 hpure
                unfold mustGetValidator at hmust
                split at hmust
                · cases hmust
                  exact .inr ⟨hjail₀, by assumption⟩
                · cases hmust
          dsimp only at h
          obtain ⟨⟨validator₂, amount₂, s₂⟩, hremove, h⟩ := Except.bind_eq_ok.1 h
          dsimp only at h
          -- a validator left unbonded with no shares is removed
          split at h
          all_goals
            obtain ⟨s₃, hdrop, h⟩ := Except.bind_eq_ok.1 h
            cases Except.pure_eq_ok.1 h
            refine ⟨delegation, validator, hdel, hval, validator₁, s₁, hjail₁, validator₂, s₂,
              Except.mapError_eq_ok.1 hremove, s₃, ?_, rfl⟩
            first
              | exact .inr (Except.mapError_eq_ok.1 hdrop)
              | exact .inl (Except.pure_eq_ok.1 hdrop).symm
      · cases h
  · cases h

theorem unbondingDelegations_unbond {s t : State A P} {delAddr valAddr : A} {shares : Dec}
    {amt : ℤ} (h : s.unbond delAddr valAddr shares = .ok (amt, t)) :
    t.unbondingDelegations = s.unbondingDelegations := by
  obtain ⟨delegation, validator, -, -, validator₁, s₁, hjail, validator₂, s₂, hremove, s₃, hdrop,
    rfl⟩ := unbond_inv h
  have h₁ : s₁.unbondingDelegations = s.unbondingDelegations := by
    rcases hjail with ⟨-, rfl⟩ | ⟨hjail, -⟩
    · rfl
    · exact unbondingDelegations_jailValidator hjail
  have h₂ : s₂.unbondingDelegations = s₁.unbondingDelegations := by
    rw [unbondingDelegations_RemoveValidatorTokensAndShares hremove]
    split <;> rfl
  have h₃ : s₃.unbondingDelegations = s₂.unbondingDelegations := by
    rcases hdrop with rfl | hdrop
    · rfl
    · exact unbondingDelegations_RemoveValidator hdrop
  -- the council update leaves the unbondings alone
  calc _ = s₃.unbondingDelegations := by split <;> rfl
    _ = s.unbondingDelegations := by rw [h₃, h₂, h₁]

end State

/-! ### Charging the entries -/

/-- The nominal charge of an entry, the slash factor of its initial balance,
is not negative. -/
theorem charge_nonneg {slashFactor : Dec} (hfactor : 0 ≤ slashFactor.i) {balance : ℤ}
    (hbalance : 0 ≤ balance) : 0 ≤ (slashFactor.MulInt balance).TruncateInt :=
  FixedPoint.chopTruncate_nonneg (Int.mul_nonneg hfactor hbalance)

/-- An entry charged a non-negative amount, but never more than it holds, stays
bounded. -/
theorem bounded_charge {e : UnbondingDelegationEntry}
    (he : 0 ≤ e.Balance ∧ e.Balance ≤ e.InitialBalance) {charge : ℤ} (hcharge : 0 ≤ charge) :
    0 ≤ e.Balance - MinInt charge e.Balance ∧ e.Balance - MinInt charge e.Balance ≤ e.InitialBalance := by
  unfold MinInt
  split_ifs <;> omega

namespace UnbondingsBounded

variable {s : State A P}

theorem SetUnbondingDelegation (hs : UnbondingsBounded s) {ubd : UnbondingDelegation A}
    (hubd : EntriesBounded ubd) : UnbondingsBounded (s.SetUnbondingDelegation ubd) := by
  intro k ubd' hget
  simp only [State.SetUnbondingDelegation, SortedKV.get_set] at hget
  split_ifs at hget
  · cases hget
    exact hubd
  · exact hs k ubd' hget

theorem of_eq {t : State A P} (hs : UnbondingsBounded s)
    (heq : t.unbondingDelegations = s.unbondingDelegations) : UnbondingsBounded t := by
  intro k ubd hget
  rw [heq] at hget
  exact hs k ubd hget

/-- An unbonding delegation read from the store is bounded. -/
theorem of_mem_GetUnbondingDelegationsFromValidator (hs : UnbondingsBounded s) {valAddr : A}
    {ubd : UnbondingDelegation A} (h : ubd ∈ s.GetUnbondingDelegationsFromValidator valAddr) :
    EntriesBounded ubd := by
  obtain ⟨e, he, rfl⟩ := List.mem_map.1 h
  exact hs e.1 e.2 (SortedKV.get_eq_some_iff.2 (List.mem_filter.1 he).1)

end UnbondingsBounded

theorem RedelegationsNonneg.of_eq {s t : State A P} (hs : RedelegationsNonneg s)
    (heq : t.redelegations = s.redelegations) : RedelegationsNonneg t := by
  intro k red hget
  rw [heq] at hget
  exact hs k red hget

/-- A redelegation read from the store has non-negative entries. -/
theorem RedelegationsNonneg.of_mem_GetRedelegationsFromValidator {s : State A P}
    (hs : RedelegationsNonneg s) {valAddr : A} {red : Redelegation A}
    (h : red ∈ s.GetRedelegationsFromValidator valAddr) : ∀ e ∈ red.Entries, 0 ≤ e.InitialBalance := by
  obtain ⟨e, he, rfl⟩ := List.mem_map.1 h
  exact hs e.1 e.2 (SortedKV.get_eq_some_iff.2 (List.mem_filter.1 he).1)

/-- What the loop of `slashUnbondingDelegation` keeps: the charged total is not
negative, and the entries done and every stored unbonding entry are bounded. -/
def ChargedBounded (acc : ℤ × List UnbondingDelegationEntry × State A P) : Prop :=
  0 ≤ acc.1 ∧ (∀ e ∈ acc.2.1, 0 ≤ e.Balance ∧ e.Balance ≤ e.InitialBalance) ∧
    UnbondingsBounded acc.2.2

namespace State

/-- **Slashing an unbonding delegation** keeps every stored unbonding entry
bounded, and its nominal charges add up to a non-negative amount. -/
theorem slashUnbondingDelegation_spec (ctx : Context P) (s : State A P)
    (ubd : UnbondingDelegation A) (infractionHeight : ℤ) {slashFactor : Dec}
    (hfactor : 0 ≤ slashFactor.i) (hs : UnbondingsBounded s) (hubd : EntriesBounded ubd) :
    0 ≤ (s.slashUnbondingDelegation ctx ubd infractionHeight slashFactor).1 ∧
      UnbondingsBounded (s.slashUnbondingDelegation ctx ubd infractionHeight slashFactor).2 := by
  unfold slashUnbondingDelegation
  dsimp only
  -- the charged total, the entries done and the state carry the invariant
  refine (fun (acc : ℤ × List UnbondingDelegationEntry × State A P) (h : ChargedBounded acc) =>
    (⟨h.1, h.2.2⟩ : 0 ≤ acc.1 ∧ UnbondingsBounded acc.2.2)) _ ?_
  apply List.foldlRecOn
  · exact ⟨le_rfl, by simp, hs⟩
  rintro ⟨total, done, t⟩ ⟨htotal, hdone, ht⟩ entry hentry
  have he := hubd entry hentry
  have hcharge := charge_nonneg hfactor (he.1.trans he.2)
  have hsnoc : ∀ x : UnbondingDelegationEntry, 0 ≤ x.Balance ∧ x.Balance ≤ x.InitialBalance →
      ∀ e ∈ done ++ [x], 0 ≤ e.Balance ∧ e.Balance ≤ e.InitialBalance := by
    intro x hx e hmem
    rcases List.mem_append.1 hmem with hmem | hmem
    · exact hdone e hmem
    · rw [List.mem_singleton.1 hmem]
      exact hx
  dsimp only
  split_ifs with hheight hmature hzero
  · exact ⟨htotal, hsnoc entry he, ht⟩
  · exact ⟨htotal, hsnoc entry he, ht⟩
  · exact ⟨by dsimp only; omega, hsnoc entry he, ht⟩
  · -- the entry loses its charge, capped at its balance
    have he' := bounded_charge he hcharge
    refine ⟨by dsimp only; omega, hsnoc _ he', ?_⟩
    refine (ht.SetUnbondingDelegation fun e hmem => ?_).of_eq rfl
    simp only [List.append_assoc, List.singleton_append, List.mem_append, List.mem_cons] at hmem
    rcases hmem with hmem | rfl | hmem
    · exact hdone e hmem
    · exact he'
    · exact hubd e (List.mem_of_mem_drop hmem)

/-- Slashing an unbonding delegation leaves the redelegations alone. -/
theorem redelegations_slashUnbondingDelegation (ctx : Context P) (s : State A P)
    (ubd : UnbondingDelegation A) (infractionHeight : ℤ) (slashFactor : Dec) :
    (s.slashUnbondingDelegation ctx ubd infractionHeight slashFactor).2.redelegations =
      s.redelegations := by
  unfold slashUnbondingDelegation
  dsimp only
  refine List.foldl_invariant (Q := fun acc : ℤ × List UnbondingDelegationEntry × State A P =>
    acc.2.2.redelegations = s.redelegations) ?_ _ _ rfl
  rintro ⟨total, done, t⟩ entry ht
  dsimp only
  split_ifs <;> exact ht

/-- **Slashing a redelegation** leaves the unbonding delegations alone, and its
nominal charges add up to a non-negative amount. -/
theorem slashRedelegation_spec (ctx : Context P) (s : State A P) (red : Redelegation A)
    (infractionHeight : ℤ) {slashFactor : Dec} (hfactor : 0 ≤ slashFactor.i)
    (hred : ∀ e ∈ red.Entries, 0 ≤ e.InitialBalance) :
    (s.slashRedelegation ctx red infractionHeight slashFactor).Sat (fun _ => True)
      (fun r => 0 ≤ r.1 ∧ r.2.unbondingDelegations = s.unbondingDelegations) := by
  unfold slashRedelegation
  -- the entries still to come, the charged total and the state carry the invariant
  refine (Except.sat_foldlM (E := fun _ => True) (fun acc (l : List RedelegationEntry) =>
      (∀ e ∈ l, 0 ≤ e.InitialBalance) ∧ 0 ≤ acc.1 ∧
        acc.2.unbondingDelegations = s.unbondingDelegations) ?_ red.Entries (0, s)
      ⟨hred, le_rfl, rfl⟩).mono (fun _ _ => trivial) fun r hr => hr.2
  rintro ⟨total, t⟩ entry l ⟨hl, htotal, ht⟩
  have hcharge := charge_nonneg hfactor (hl entry List.mem_cons_self)
  have hl' : ∀ e ∈ l, 0 ≤ e.InitialBalance := fun e he => hl e (List.mem_cons_of_mem _ he)
  dsimp only
  split_ifs
  · exact ⟨hl', htotal, ht⟩
  · exact ⟨hl', htotal, ht⟩
  · exact ⟨hl', by dsimp only; omega, ht⟩
  · split
    · exact ⟨hl', by dsimp only; omega, ht⟩
    · -- unbond from the destination and burn the tokens
      split
      · trivial
      · trivial
      · rename_i tokensToBurn t' hunbond
        exact ⟨hl', by dsimp only; omega, (unbondingDelegations_unbond hunbond).trans ht⟩

/-- Removing tokens from a validator stores it with that many fewer tokens. -/
theorem GetValidator_RemoveValidatorTokens {s : State A P} {validator : Validator A P}
    {tokens : ℤ} {r : Validator A P × State A P}
    (h : s.RemoveValidatorTokens validator tokens = .ok r) :
    r.2.GetValidator validator.OperatorAddress =
      some { validator with Tokens := validator.Tokens - tokens } := by
  unfold RemoveValidatorTokens at h
  obtain ⟨⟨validator', pool⟩, hremove, h⟩ := Except.bind_eq_ok.1 h
  cases Except.pure_eq_ok.1 h
  cases Validator.RemoveTokens_fst hremove
  rw [SetValidatorByPowerIndex_eq]
  simp [GetValidator, SetPool, SetValidator]

end State

/-- **A slash is bounded by the validator.**  From a store whose unbonding
entries are bounded and whose redelegation entries are non-negative, a slash of
a non-negative fraction of a non-negative power keeps the unbonding entries
bounded and burns from the validator no more than its tokens, nor than the
amount of the power. -/
theorem slash_bounded {ctx : Context P} {s s' : State A P} {consAddr : P}
    {infractionHeight power : ℤ} {slashFactor : Dec} {validator : Validator A P}
    (hpower : 0 ≤ power) (hfactor : 0 ≤ slashFactor.i) (hubd : UnbondingsBounded s)
    (hred : RedelegationsNonneg s) (hval : s.GetValidatorByConsAddr consAddr = some validator)
    (htokens : 0 ≤ validator.Tokens)
    (h : s.Slash ctx consAddr infractionHeight power slashFactor = .ok s') :
    UnbondingsBounded s' ∧
      ∃ burn, 0 ≤ burn ∧ burn ≤ validator.Tokens ∧
        burn ≤ ((ToDec (TokensFromTendermintPower power)).Mul slashFactor).TruncateInt ∧
        s'.GetValidator validator.OperatorAddress =
          some { validator with Tokens := validator.Tokens - burn } := by
  have hslash : 0 ≤ ((ToDec (TokensFromTendermintPower power)).Mul slashFactor).TruncateInt := by
    refine FixedPoint.chopTruncate_nonneg (Dec.mul_nonneg ?_ hfactor)
    simp only [Dec.toDec_i, TokensFromTendermintPower, PowerReduction]
    exact Int.mul_nonneg (Int.mul_nonneg hpower (by norm_num)) (Int.natCast_nonneg _)
  unfold State.Slash at h
  dsimp only at h
  split at h
  · cases h
  rw [hval] at h
  dsimp only at h
  split at h
  · cases h
  split at h
  · cases h
  -- the entries are charged first, unless the infraction is at the current height
  obtain ⟨rem, t, hrem, ht, r, hremove, rfl⟩ : ∃ rem t,
      rem ≤ ((ToDec (TokensFromTendermintPower power)).Mul slashFactor).TruncateInt ∧
      UnbondingsBounded t ∧ ∃ r, t.RemoveValidatorTokens validator
        (MaxInt (MinInt rem validator.Tokens) 0) = .ok r ∧
      s' = r.2.SetPool { r.2.pool with
        NotBondedTokens := r.2.pool.NotBondedTokens - MaxInt (MinInt rem validator.Tokens) 0 } := by
    split at h
    · obtain ⟨⟨rem, t⟩, hloop, h⟩ := Except.bind_eq_ok.1 h
      obtain ⟨r, hremove, h⟩ := Except.bind_eq_ok.1 h
      generalize hr₁ : List.foldl _ _
        (s.GetUnbondingDelegationsFromValidator validator.OperatorAddress) = r₁ at hloop
      -- the unbonding delegations are charged in turn
      obtain ⟨hrem₁, hubd₁, hred₁⟩ : r₁.1 ≤ ((ToDec (TokensFromTendermintPower power)).Mul
          slashFactor).TruncateInt ∧ UnbondingsBounded r₁.2 ∧ r₁.2.redelegations = s.redelegations := by
        rw [← hr₁]
        exact List.foldl_charge
          (g := fun t ubd => t.slashUnbondingDelegation ctx ubd infractionHeight slashFactor)
          (Q := fun t => UnbondingsBounded t ∧ t.redelegations = s.redelegations)
          (fun t ubd hubd' ht =>
            have hspec := State.slashUnbondingDelegation_spec ctx t ubd infractionHeight hfactor
              ht.1 hubd'
            ⟨hspec.1, hspec.2, (State.redelegations_slashUnbondingDelegation ..).trans ht.2⟩)
          _ (fun _ => hubd.of_mem_GetUnbondingDelegationsFromValidator) _ _ ⟨hubd, rfl⟩
      -- then the redelegations, which leave the unbonding delegations alone
      obtain ⟨hrem₂, hubd₂⟩ := (Except.sat_foldlM_charge
        (g := fun t red => t.slashRedelegation ctx red infractionHeight slashFactor)
        (Q := fun t => t.unbondingDelegations = r₁.2.unbondingDelegations)
        (fun t red hred' ht => (State.slashRedelegation_spec ctx t red infractionHeight hfactor
          hred').mono (fun _ h => h) fun x hx => ⟨hx.1, hx.2.trans ht⟩)
        _ (fun _ => (hred.of_eq hred₁).of_mem_GetRedelegationsFromValidator)
        r₁.1 r₁.2 rfl).of_ok hloop
      exact ⟨rem, t, hrem₂.trans hrem₁, hubd₁.of_eq hubd₂, r, hremove, (Except.pure_eq_ok.1 h).symm⟩
    · obtain ⟨⟨rem, t⟩, hloop, h⟩ := Except.bind_eq_ok.1 h
      obtain ⟨r, hremove, h⟩ := Except.bind_eq_ok.1 h
      cases Except.pure_eq_ok.1 hloop
      exact ⟨_, s, le_rfl, hubd, r, hremove, (Except.pure_eq_ok.1 h).symm⟩
  -- the validator burns what remains, capped at its tokens
  refine ⟨ht.of_eq ?_, MaxInt (MinInt rem validator.Tokens) 0, ?_, ?_, ?_,
    State.GetValidator_RemoveValidatorTokens hremove⟩
  · exact State.unbondingDelegations_RemoveValidatorTokens hremove
  all_goals unfold MaxInt MinInt; split_ifs <;> omega

/-! ### Charges beyond the power -/

/-- Account 1's validator, of consensus key 7, created at height 1 with a
self-delegation of `1.9·10⁶`. -/
def sampleCreated : State ℕ ℕ :=
  genesis.DeliverMsg ⟨1, 0, none⟩ (.MsgCreateValidator ⟨"validator", "", "", ""⟩
    ⟨ZeroDec, ZeroDec, ZeroDec⟩ 1 1 1 7 ⟨"uclr", 1900000⟩)

/-- The end of block 1 bonds the validator at power 1. -/
def sampleBonded : State ℕ ℕ :=
  match sampleCreated.EndBlocker ⟨1, 0, none⟩ with
  | .ok (_, s) => s
  | .error _ => sampleCreated

/-- At height 2 the operator unbonds `1.8·10⁶` of its tokens. -/
def sampleUnbonding : State ℕ ℕ :=
  sampleBonded.DeliverMsg ⟨2, 0, none⟩ (.MsgUndelegate 1 1 ⟨"uclr", 1800000⟩)

/-- **A slash that burns beyond the power.**  Half of the power 1 the validator
had at height 2 is `5·10⁵` tokens, but the unbonding of `1.8·10⁶` that began at
that height is charged half of its own balance: the slash burns `9·10⁵`, all
of it from the unbonding, and leaves the validator's tokens alone. -/
theorem slash_burns_beyond_power :
    ∃ s s', Reachable genesis s ∧
      (s.GetValidatorByConsAddr 7).map (fun v => (v.Status, v.Tokens)) = some (.Bonded, 100000) ∧
      s.Slash ⟨3, 0, none⟩ 7 2 1 ⟨5 * 10 ^ 17⟩ = .ok s' ∧
      ((ToDec (TokensFromTendermintPower 1)).Mul ⟨5 * 10 ^ 17⟩).TruncateInt = 500000 ∧
      (s'.GetValidatorByConsAddr 7).map (·.Tokens) = some 100000 ∧
      (s.pool.NotBondedTokens + s.pool.BondedTokens) -
        (s'.pool.NotBondedTokens + s'.pool.BondedTokens) = 900000 := by
  refine ⟨sampleUnbonding, _, ?_, by decide, rfl, by decide, by decide, by decide⟩
  exact .head (.deliver _ _ _ : Step genesis sampleCreated)
    (.head (.endBlock ⟨1, 0, none⟩ _ rfl : Step sampleCreated sampleBonded)
    (.single (.deliver _ _ _ : Step sampleBonded sampleUnbonding)))

end Staking
end ColorSdk
