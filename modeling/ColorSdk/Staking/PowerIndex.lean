import ColorSdk.Staking.Frame

/-!
# The power index

The power index holds a key for every stored validator that is not jailed: the
validator's tokens and its operator address.  The key moves whenever the tokens
change, and goes away when the validator is jailed or removed.  The keeper keeps
it in step by hand.  Each change of a validator's tokens deletes the old key
before it stores the validator and writes the new key (`SetValidatorByPowerIndex`
writes nothing for a jailed validator).  Jailing deletes the key and unjailing
writes it.

`PowerIndexed` states the index's contract together with two facts it rests on:
a validator is stored at its operator address, and no redelegation goes from a
validator to itself.  The second fact is what lets `Slash` charge the validator
it read before its loops: those loops unbond only from the destinations of the
validator's redelegations, never from the validator itself.

## Main definitions

* `State.indexed` — what the power index should hold at a key.
* `PowerIndexed` — the invariant.

## Main results

* `PowerIndexed.store`, `PowerIndexed.replace`, `PowerIndexed.remove`,
  `PowerIndexed.sameKey` — the ways a keeper function writes a validator and its
  key.
* `PowerIndexed.step` — every step keeps the invariant.
* `PowerIndexed.applyPowerIndex_error` — the loop of
  `ApplyAndReturnValidatorSetUpdates` finds a record, not jailed, for every
  address it reads from the index, and fails only on the pools.
* `power_index_consistent` — **the power index of every reachable state holds
  exactly the stored validators that are not jailed, at their current keys.**
-/

namespace ColorSdk
namespace Staking

variable {A P : Type} [LinearOrder A] [LinearOrder P]

/-- The operator address a power index key ends with. -/
def keyOperator (k : ℤ ×ₗ Aᵒᵈ) : A := OrderDual.ofDual (ofLex k).2

omit [LinearOrder A] [LinearOrder P] in
@[simp] theorem keyOperator_key (v : Validator A P) :
    keyOperator (GetValidatorsByPowerIndexKey v) = v.OperatorAddress := rfl

omit [LinearOrder A] [LinearOrder P] in
/-- Jailing or unjailing does not move a validator's key. -/
@[simp] theorem key_with_Jailed (v : Validator A P) (b : Bool) :
    GetValidatorsByPowerIndexKey { v with Jailed := b } = GetValidatorsByPowerIndexKey v := rfl

omit [LinearOrder A] [LinearOrder P] in
/-- A key is its validator's when their tokens and addresses agree. -/
theorem key_eq_of {v v' : Validator A P} (htokens : v'.Tokens = v.Tokens)
    (hop : v'.OperatorAddress = v.OperatorAddress) :
    GetValidatorsByPowerIndexKey v' = GetValidatorsByPowerIndexKey v := by
  simp [GetValidatorsByPowerIndexKey, htokens, hop]

namespace State

/-- What the power index should hold at a key: the address of the validator
stored at the key's address, when it is not jailed and the key is its own. -/
def indexed (s : State A P) (k : ℤ ×ₗ Aᵒᵈ) : Option A :=
  match s.GetValidator (keyOperator k) with
  | some v =>
    if v.Jailed = false ∧ GetValidatorsByPowerIndexKey v = k then some v.OperatorAddress else none
  | none => none

end State

/-- The power index is the index of the stored validators that are not jailed;
validators are stored at their operator addresses; no redelegation goes from a
validator to itself. -/
structure PowerIndexed (s : State A P) : Prop where
  operator : ∀ a v, s.GetValidator a = some v → v.OperatorAddress = a
  index : ∀ k, s.validatorsByPowerIndex.get k = s.indexed k
  redelegations : ∀ k red, s.redelegations.get k = some red →
    red.ValidatorSrcAddress ≠ red.ValidatorDstAddress

namespace PowerIndexed

variable {s t : State A P}

/-- The contract of the power index, as the keeper reads it: a key holds an
address exactly when the validator stored there is not jailed and the key is its
own. -/
theorem get_eq_some_iff (h : PowerIndexed s) (k : ℤ ×ₗ Aᵒᵈ) (a : A) :
    s.validatorsByPowerIndex.get k = some a ↔
      ∃ v, s.GetValidator a = some v ∧ v.Jailed = false ∧ GetValidatorsByPowerIndexKey v = k := by
  rw [h.index k, State.indexed]
  constructor
  · intro hk
    split at hk
    · rename_i v hv
      split_ifs at hk with hcond
      cases hk
      have hop := h.operator _ v hv
      refine ⟨v, ?_, hcond.1, hcond.2⟩
      rw [hop]
      exact hv
    · cases hk
  · rintro ⟨v, hv, hjailed, rfl⟩
    rw [keyOperator_key, h.operator a v hv, hv]
    simp [hjailed, h.operator a v hv]

/-- A state with the same validators and index keeps the invariant when none of
its redelegations goes from a validator to itself. -/
theorem of_redelegations (h : PowerIndexed s) (hvals : t.validators = s.validators)
    (hindex : t.validatorsByPowerIndex = s.validatorsByPowerIndex)
    (hred : ∀ k red, t.redelegations.get k = some red →
      red.ValidatorSrcAddress ≠ red.ValidatorDstAddress) : PowerIndexed t where
  operator a v hv := h.operator a v (by rw [State.GetValidator, ← hvals]; exact hv)
  index k := by
    rw [hindex, h.index k]
    simp only [State.indexed, State.GetValidator, hvals]
  redelegations := hred

theorem of_untouched (h : PowerIndexed s) (hu : Untouched s t) : PowerIndexed t :=
  h.of_redelegations hu.validators hu.index fun k red hget =>
    h.redelegations k red (by rw [← hu.redelegations]; exact hget)

/-- At an address, the index holds the key of the validator stored there
alone. -/
theorem get_of_ne_key (h : PowerIndexed s) {a : A} {k : ℤ ×ₗ Aᵒᵈ} (hk : keyOperator k = a)
    (hne : ∀ v, s.GetValidator a = some v → k ≠ GetValidatorsByPowerIndexKey v) :
    s.validatorsByPowerIndex.get k = none := by
  rw [h.index k, State.indexed, hk]
  split
  · rename_i v hv
    simp only [ite_eq_right_iff, reduceCtorEq, imp_false, not_and]
    exact fun _ heq => hne v hv heq.symm
  · rfl

/-- **Storing a validator.**  A keeper function that stores a record `v'` at an
address, deletes the key of the validator stored there before, if any, and
writes `v'`'s key unless `v'` is jailed, keeps the invariant. -/
theorem store (h : PowerIndexed s) {a : A} {old : Option (Validator A P)} (v' : Validator A P)
    (hv : s.GetValidator a = old) (hop : v'.OperatorAddress = a)
    (hvals : t.validators = s.validators.set a v')
    (hindex : ∀ k, t.validatorsByPowerIndex.get k =
      if v'.Jailed = false ∧ k = GetValidatorsByPowerIndexKey v' then some a
      else if old.map GetValidatorsByPowerIndexKey = some k then none
      else s.validatorsByPowerIndex.get k)
    (hred : t.redelegations = s.redelegations) : PowerIndexed t where
  operator b w hw := by
    rw [State.GetValidator, hvals, SortedKV.get_set] at hw
    split_ifs at hw with hb
    · cases hw
      rw [hop, hb]
    · exact h.operator b w hw
  index k := by
    rw [hindex k, State.indexed, State.GetValidator, hvals, SortedKV.get_set]
    by_cases hk : keyOperator k = a
    · -- the key is at the written address: only `v'`'s own key may be there
      rw [if_pos hk]
      dsimp only
      rw [hop]
      by_cases hcond : v'.Jailed = false ∧ k = GetValidatorsByPowerIndexKey v'
      · simp [hcond]
      · have hrhs : ¬(v'.Jailed = false ∧ GetValidatorsByPowerIndexKey v' = k) :=
          fun h' => hcond ⟨h'.1, h'.2.symm⟩
        rw [if_neg hcond, if_neg hrhs]
        split_ifs with hkv
        · rfl
        · refine h.get_of_ne_key hk fun v hv' heq => hkv ?_
          rw [hv] at hv'
          rw [hv', heq]
          rfl
    · -- any other key is as it was
      have hkv' : k ≠ GetValidatorsByPowerIndexKey v' := by
        rintro rfl
        exact hk (by rw [keyOperator_key, hop])
      have hkv : old.map GetValidatorsByPowerIndexKey ≠ some k := by
        cases old with
        | none => simp
        | some v =>
          rintro hkey
          simp only [Option.map_some, Option.some.injEq] at hkey
          exact hk (by rw [← hkey, keyOperator_key, h.operator a v hv])
      simp only [hkv', and_false, if_false, hkv, hk, h.index k, State.indexed, State.GetValidator]
  redelegations k red hget := h.redelegations k red (by rw [← hred]; exact hget)

/-- Removing a validator and its key keeps the invariant. -/
theorem remove (h : PowerIndexed s) {a : A} {v : Validator A P} (hv : s.GetValidator a = some v)
    (hvals : t.validators = s.validators.delete a)
    (hindex : t.validatorsByPowerIndex =
      s.validatorsByPowerIndex.delete (GetValidatorsByPowerIndexKey v))
    (hred : t.redelegations = s.redelegations) : PowerIndexed t where
  operator b w hw := by
    rw [State.GetValidator, hvals, SortedKV.get_delete] at hw
    split_ifs at hw
    exact h.operator b w hw
  index k := by
    rw [hindex, SortedKV.get_delete, State.indexed, State.GetValidator, hvals, SortedKV.get_delete]
    by_cases hk : keyOperator k = a
    · -- the address is empty now: its one key is gone
      rw [if_pos hk]
      split_ifs with hkv
      · rfl
      · exact h.get_of_ne_key hk fun w hw heq => hkv (by rw [hv] at hw; cases hw; exact heq)
    · have hkv : k ≠ GetValidatorsByPowerIndexKey v := by
        rintro rfl
        exact hk (by rw [keyOperator_key, h.operator a v hv])
      simp only [hkv, if_false, hk, h.index k, State.indexed, State.GetValidator]
  redelegations k red hget := h.redelegations k red (by rw [← hred]; exact hget)

/-- **Replacing a validator**, the way the keeper changes one: delete the old
key, store the new record, write the new key. -/
theorem replace (h : PowerIndexed s) {v : Validator A P} (v' : Validator A P)
    (hv : s.GetValidator v.OperatorAddress = some v) (hop : v'.OperatorAddress = v.OperatorAddress)
    (hvals : t.validators = s.validators.set v.OperatorAddress v')
    (hindex : t.validatorsByPowerIndex =
      ((s.DeleteValidatorByPowerIndex v).SetValidatorByPowerIndex v').validatorsByPowerIndex)
    (hred : t.redelegations = s.redelegations) : PowerIndexed t := by
  refine h.store v' hv hop hvals (fun k => ?_) hred
  rw [hindex, State.SetValidatorByPowerIndex_eq]
  by_cases hj : v'.Jailed = true
  · simp [hj, State.DeleteValidatorByPowerIndex, SortedKV.get_delete, eq_comm]
  · simp only [Bool.not_eq_true] at hj
    simp [hj, hop, State.DeleteValidatorByPowerIndex, eq_comm]

/-- The keeper's sequence of a change of tokens: delete the old key, store the
new record and the pool, write the new key. -/
theorem replace_seq (h : PowerIndexed s) {v v' : Validator A P}
    (hv : s.GetValidator v.OperatorAddress = some v) (hop : v'.OperatorAddress = v.OperatorAddress)
    (pool : Pool) :
    PowerIndexed ((((s.DeleteValidatorByPowerIndex v).SetValidator v').SetPool pool).SetValidatorByPowerIndex v') := by
  refine h.replace v' hv hop ?_ ?_ ?_
  all_goals rw [State.SetValidatorByPowerIndex_eq]
  · simp [State.SetPool, State.SetValidator, State.DeleteValidatorByPowerIndex, hop]
  · rw [State.SetValidatorByPowerIndex_eq]
    rfl
  · rfl

/-! ### The keeper functions that change a validator -/

theorem AddValidatorTokensAndShares (h : PowerIndexed s) {validator : Validator A P}
    (hv : s.GetValidator validator.OperatorAddress = some validator) {amount : ℤ}
    {r : Validator A P × Dec × State A P}
    (hadd : s.AddValidatorTokensAndShares validator amount = .ok r) : PowerIndexed r.2.2 := by
  unfold State.AddValidatorTokensAndShares at hadd
  obtain ⟨⟨v', pool, shares⟩, hdel, hadd⟩ := Except.bind_eq_ok.1 hadd
  cases Except.pure_eq_ok.1 hadd
  exact h.replace_seq hv (Validator.AddTokensFromDel_keeps hdel).1 pool

theorem RemoveValidatorTokensAndShares (h : PowerIndexed s) {validator : Validator A P}
    (hv : s.GetValidator validator.OperatorAddress = some validator) {shares : Dec}
    {r : Validator A P × ℤ × State A P}
    (hremove : s.RemoveValidatorTokensAndShares validator shares = .ok r) : PowerIndexed r.2.2 := by
  unfold State.RemoveValidatorTokensAndShares at hremove
  obtain ⟨⟨v', pool, tokens⟩, hdel, hremove⟩ := Except.bind_eq_ok.1 hremove
  cases Except.pure_eq_ok.1 hremove
  exact h.replace_seq hv (Validator.RemoveDelShares_keeps hdel).1 pool

theorem RemoveValidatorTokens (h : PowerIndexed s) {validator : Validator A P}
    (hv : s.GetValidator validator.OperatorAddress = some validator) {tokens : ℤ}
    {r : Validator A P × State A P}
    (hremove : s.RemoveValidatorTokens validator tokens = .ok r) : PowerIndexed r.2 := by
  unfold State.RemoveValidatorTokens at hremove
  obtain ⟨⟨v', pool⟩, hdel, hremove⟩ := Except.bind_eq_ok.1 hremove
  cases Except.pure_eq_ok.1 hremove
  exact h.replace_seq hv (Validator.RemoveTokens_keeps hdel).1 pool

/-- Jailing stores the jailed record and deletes its key, which is the key it
had: the tokens and the address do not change. -/
theorem jailValidator (h : PowerIndexed s) {validator : Validator A P}
    (hv : s.GetValidator validator.OperatorAddress = some validator)
    (hjail : s.jailValidator validator = .ok t) : PowerIndexed t := by
  unfold State.jailValidator at hjail
  split at hjail
  · cases hjail
  · cases hjail
    refine h.store { validator with Jailed := true } hv rfl rfl (fun k => ?_) rfl
    simp [State.DeleteValidatorByPowerIndex, State.SetValidator, SortedKV.get_delete, eq_comm]

/-- Unjailing writes back the key that the jailing deleted. -/
theorem unjailValidator (h : PowerIndexed s) {validator : Validator A P}
    (hv : s.GetValidator validator.OperatorAddress = some validator)
    (hunjail : s.unjailValidator validator = .ok t) : PowerIndexed t := by
  unfold State.unjailValidator at hunjail
  split at hunjail
  · cases hunjail
  · cases hunjail
    refine h.store { validator with Jailed := false } hv rfl rfl (fun k => ?_) rfl
    rw [State.SetValidatorByPowerIndex_eq]
    by_cases hk : k = GetValidatorsByPowerIndexKey validator
    · simp [hk, State.SetValidator]
    · simp [hk, State.SetValidator, Ne.symm hk]

/-- A validator removed with its key leaves the invariant. -/
theorem RemoveValidator (h : PowerIndexed s) {address : A}
    (hremove : s.RemoveValidator address = .ok t) : PowerIndexed t := by
  unfold State.RemoveValidator at hremove
  split at hremove
  · cases hremove
    exact h
  · rename_i validator hv
    split_ifs at hremove
    cases hremove
    exact h.remove hv rfl rfl rfl

/-! ### Redelegations -/

theorem SetRedelegation (h : PowerIndexed s) {red : Redelegation A}
    (hne : red.ValidatorSrcAddress ≠ red.ValidatorDstAddress) :
    PowerIndexed (s.SetRedelegation red) :=
  h.of_redelegations rfl rfl fun k red' hget => by
    simp only [State.SetRedelegation, SortedKV.get_set] at hget
    split_ifs at hget
    · cases hget
      exact hne
    · exact h.redelegations k red' hget

theorem RemoveRedelegation (h : PowerIndexed s) (red : Redelegation A) :
    PowerIndexed (s.RemoveRedelegation red) :=
  h.of_redelegations rfl rfl fun k red' hget => by
    simp only [State.RemoveRedelegation, SortedKV.get_delete] at hget
    split_ifs at hget
    exact h.redelegations k red' hget

/-- Completing a redelegation drops entries of a stored redelegation, whose
validators are as they were. -/
theorem CompleteRedelegation (h : PowerIndexed s) {ctx : Context P}
    {delAddr valSrcAddr valDstAddr : A}
    (hcomplete : s.CompleteRedelegation ctx delAddr valSrcAddr valDstAddr = .ok t) :
    PowerIndexed t := by
  unfold State.CompleteRedelegation at hcomplete
  split at hcomplete
  · rename_i red hred
    cases Except.pure_eq_ok.1 hcomplete
    split_ifs
    · exact h.RemoveRedelegation _
    · exact h.SetRedelegation (h.redelegations _ red hred)
  · cases hcomplete

/-! ### Delegating and unbonding -/

/-- `Delegate` keeps the invariant when it is given the stored validator. -/
theorem Delegate (h : PowerIndexed s) {validator : Validator A P}
    (hv : s.GetValidator validator.OperatorAddress = some validator) {delAddr : A} {bondAmt : ℤ}
    {subtractAccount : Bool} {newShares : Dec}
    (hdelegate : s.Delegate delAddr bondAmt validator subtractAccount = .ok (newShares, t)) :
    PowerIndexed t := by
  obtain ⟨s₁, hcoins, v', s₂, hadd, rfl⟩ := State.Delegate_inv hdelegate
  -- taking the coins writes the bank alone
  have hu₁ : Untouched s s₁ := by
    rcases hcoins with ⟨-, hcoins⟩ | ⟨-, rfl⟩
    · exact Untouched.DelegateCoins hcoins
    · exact Untouched.refl _
  have h₂ : PowerIndexed s₂ :=
    (h.of_untouched hu₁).AddValidatorTokensAndShares (by rw [hu₁.GetValidator]; exact hv) hadd
  -- the delegation and the council members are other stores
  refine h₂.of_untouched ?_
  split_ifs
  · exact Untouched.trans (t := s₂.SetDelegation _) ⟨rfl, rfl, rfl⟩
      (Untouched.SetCouncilMemberShares _ _ _)
  all_goals exact ⟨rfl, rfl, rfl⟩

/-- `unbond` keeps the invariant and changes no validator but the one it unbonds
from. -/
theorem unbond (h : PowerIndexed s) {delAddr valAddr : A} {shares : Dec} {amount : ℤ}
    (hunbond : s.unbond delAddr valAddr shares = .ok (amount, t)) :
    PowerIndexed t ∧ OthersKept valAddr s t := by
  obtain ⟨delegation, validator, -, hval, validator₁, s₁, hjail, validator₂, s₂, hremove, s₃, hdrop,
    rfl⟩ := State.unbond_inv hunbond
  have hop := h.operator valAddr validator hval
  -- after the jailing, if any, the validator read back is the one stored at its address
  obtain ⟨h₁, hk₁, hv₁⟩ : PowerIndexed s₁ ∧ OthersKept valAddr s s₁ ∧
      s₁.GetValidator valAddr = some validator₁ := by
    rcases hjail with ⟨rfl, rfl⟩ | ⟨hjail, hget⟩
    · exact ⟨h, OthersKept.refl valAddr _, hval⟩
    · rw [hop] at hget
      refine ⟨h.jailValidator (by rw [hop]; exact hval) hjail, ?_, hget⟩
      rw [← hop]
      exact OthersKept.of_set (State.validators_jailValidator hjail)
  have hop₁ : validator₁.OperatorAddress = valAddr := h₁.operator valAddr validator₁ hv₁
  -- the delegation is another store
  obtain ⟨s₁', hu, hremove⟩ : ∃ s₁', Untouched s₁ s₁' ∧
      s₁'.RemoveValidatorTokensAndShares validator₁ shares = .ok (validator₂, amount, s₂) :=
    ⟨_, by split <;> exact ⟨rfl, rfl, rfl⟩, hremove⟩
  have hv₁' : s₁'.GetValidator validator₁.OperatorAddress = some validator₁ := by
    rw [hu.GetValidator, hop₁]
    exact hv₁
  have h₂ : PowerIndexed s₂ := (h₁.of_untouched hu).RemoveValidatorTokensAndShares hv₁' hremove
  have hvals₂ := State.validators_RemoveValidatorTokensAndShares hremove
  have hk₂ : OthersKept valAddr s₁' s₂ := by
    rw [← hop₁]
    exact OthersKept.of_set hvals₂
  have hop₂ : validator₂.OperatorAddress = valAddr := by
    refine h₂.operator valAddr validator₂ ?_
    rw [State.GetValidator, hvals₂, SortedKV.get_set, if_pos hop₁.symm]
  -- a validator left unbonded with no shares is removed
  have h₃ : PowerIndexed s₃ ∧ OthersKept valAddr s₂ s₃ := by
    rcases hdrop with rfl | hdrop
    · exact ⟨h₂, OthersKept.refl valAddr s₃⟩
    · refine ⟨h₂.RemoveValidator hdrop, ?_⟩
      rw [← hop₂]
      exact OthersKept.of_delete (State.validators_RemoveValidator hdrop)
  -- the council update is another store
  have hu₃ : Untouched s₃ (if (s₃.GetTotalDelegatorDelegations delAddr).LT
      s₃.params.CouncilMemberMinCoin then s₃.DeleteCouncilMember delAddr else s₃) := by
    split <;> exact ⟨rfl, rfl, rfl⟩
  exact ⟨h₃.1.of_untouched hu₃,
    ((((hk₁.trans (OthersKept.of_untouched hu)).trans hk₂).trans h₃.2).trans
      (OthersKept.of_untouched hu₃))⟩

/-- `Undelegate` unbonds, then writes the bank or an unbonding delegation and its
queue. -/
theorem Undelegate (h : PowerIndexed s) {ctx : Context P} {delAddr valAddr : A}
    {sharesAmount : Dec} {r : Time × State A P}
    (hundelegate : s.Undelegate ctx delAddr valAddr sharesAmount = .ok r) : PowerIndexed r.2 := by
  unfold State.Undelegate at hundelegate
  dsimp only at hundelegate
  split at hundelegate
  · -- before the patch height an unbonded validator's tokens come back at once
    obtain ⟨⟨amount, s₁⟩, hunbond, hundelegate⟩ := Except.bind_eq_ok.1 hundelegate
    have h₁ := (h.unbond hunbond).1
    dsimp only at hundelegate
    -- a negative amount is the panic of `sdk.NewCoin`
    split at hundelegate
    · exact absurd hundelegate Except.error_bind_ne_ok
    split at hundelegate
    · split at hundelegate
      all_goals
        obtain ⟨s₂, hs₂, hundelegate⟩ := Except.bind_eq_ok.1 hundelegate
        cases Except.pure_eq_ok.1 hundelegate
      · exact h₁.of_untouched (Untouched.UndelegateCoins (Except.mapError_eq_ok.1 hs₂))
      · cases Except.pure_eq_ok.1 hs₂
        exact h₁
    · split at hundelegate
      · exact absurd hundelegate Except.error_bind_ne_ok
      · cases Except.pure_eq_ok.1 hundelegate
        exact (h₁.of_untouched (Untouched.SetUnbondingDelegationEntry _ _ _ _ _ _)).of_untouched
          (Untouched.InsertUBDQueue _ _ _)
  · obtain ⟨⟨amount, s₁⟩, hunbond, hundelegate⟩ := Except.bind_eq_ok.1 hundelegate
    have h₁ := (h.unbond hunbond).1
    dsimp only at hundelegate
    split at hundelegate
    · exact absurd hundelegate Except.error_bind_ne_ok
    · cases Except.pure_eq_ok.1 hundelegate
      exact (h₁.of_untouched (Untouched.SetUnbondingDelegationEntry _ _ _ _ _ _)).of_untouched
        (Untouched.InsertUBDQueue _ _ _)

theorem SetRedelegationEntry (h : PowerIndexed s) {delegatorAddr validatorSrcAddr validatorDstAddr : A}
    (hne : validatorSrcAddr ≠ validatorDstAddr) (creationHeight : ℤ) (minTime : Time) (balance : ℤ)
    (sharesDst : Dec) :
    PowerIndexed (s.SetRedelegationEntry delegatorAddr validatorSrcAddr validatorDstAddr
      creationHeight minTime balance sharesDst).2 := by
  unfold State.SetRedelegationEntry
  dsimp only
  split
  · -- an entry added to a stored redelegation keeps its validators
    rename_i red hred
    exact h.SetRedelegation (h.redelegations _ red hred)
  · exact h.SetRedelegation hne

/-- `BeginRedelegation` unbonds from the source, delegates to the validator
stored at the destination and records a redelegation between the two, which
differ. -/
theorem BeginRedelegation (h : PowerIndexed s) {ctx : Context P}
    {delAddr valSrcAddr valDstAddr : A} {sharesAmount : Dec} {r : Time × State A P}
    (hbegin : s.BeginRedelegation ctx delAddr valSrcAddr valDstAddr sharesAmount = .ok r) :
    PowerIndexed r.2 := by
  unfold State.BeginRedelegation at hbegin
  dsimp only at hbegin
  split at hbegin
  · exact absurd hbegin Except.error_bind_ne_ok
  rename_i hne
  split at hbegin
  · exact absurd hbegin Except.error_bind_ne_ok
  split at hbegin
  · exact absurd hbegin Except.error_bind_ne_ok
  obtain ⟨⟨amount, s₁⟩, hunbond, hbegin⟩ := Except.bind_eq_ok.1 hbegin
  have h₁ := (h.unbond hunbond).1
  dsimp only at hbegin
  split at hbegin
  · exact absurd hbegin Except.error_bind_ne_ok
  split at hbegin
  · rename_i dstValidator hdst
    obtain ⟨⟨sharesCreated, s₂⟩, hdelegate, hbegin⟩ := Except.bind_eq_ok.1 hbegin
    have hv : s₁.GetValidator dstValidator.OperatorAddress = some dstValidator := by
      rw [h₁.operator _ _ hdst]
      exact hdst
    have h₂ := h₁.Delegate hv hdelegate
    dsimp only at hbegin
    split at hbegin
    · cases Except.pure_eq_ok.1 hbegin
      exact h₂
    · cases Except.pure_eq_ok.1 hbegin
      exact (h₂.SetRedelegationEntry hne _ _ _ _).of_untouched (Untouched.InsertRedelegationQueue _ _ _)
  · cases hbegin

/-! ### Messages -/

/-- A new validator, stored at a free address with its key. -/
theorem createValidator (h : PowerIndexed s) {validator : Validator A P}
    (hnone : s.GetValidator validator.OperatorAddress = none) (hjailed : validator.Jailed = false) :
    PowerIndexed (((s.SetValidator validator).SetValidatorByConsAddr validator).SetNewValidatorByPowerIndex
      validator) := by
  refine h.store validator hnone rfl rfl (fun k => ?_) rfl
  simp [State.SetNewValidatorByPowerIndex, State.SetValidatorByConsAddr, State.SetValidator, hjailed]

theorem handleMsgCreateValidator (h : PowerIndexed s) {ctx : Context P}
    {description : Description} {commissionMsg : CommissionMsg} {minSelfDelegation : ℤ}
    {delegatorAddress validatorAddress : A} {pubKey : P} {value : Coin}
    (hcreate : s.handleMsgCreateValidator ctx description commissionMsg minSelfDelegation
      delegatorAddress validatorAddress pubKey value = .ok t) : PowerIndexed t := by
  unfold State.handleMsgCreateValidator at hcreate
  dsimp only at hcreate
  split at hcreate
  · exact absurd hcreate Except.error_bind_ne_ok
  rename_i hnew
  rw [Bool.not_eq_true, Option.isSome_eq_false_iff, Option.isNone_iff_eq_none] at hnew
  -- every other check that fails throws; what is left is the one call to `Delegate`
  repeat' split at hcreate
  all_goals try exact absurd hcreate Except.error_bind_ne_ok
  all_goals
    obtain ⟨⟨newShares, s'⟩, hdelegate, hcreate⟩ := Except.bind_eq_ok.1 hcreate
    cases Except.pure_eq_ok.1 hcreate
    refine (h.createValidator hnew rfl).Delegate ?_ hdelegate
    simp [State.GetValidator, State.SetNewValidatorByPowerIndex, State.SetValidatorByConsAddr,
      State.SetValidator]

theorem handleMsgDelegate (h : PowerIndexed s) {delegatorAddress validatorAddress : A}
    {amount : Coin} (hdelegate : s.handleMsgDelegate delegatorAddress validatorAddress amount = .ok t) :
    PowerIndexed t := by
  unfold State.handleMsgDelegate at hdelegate
  split at hdelegate
  · rename_i validator hval
    split at hdelegate
    · exact absurd hdelegate Except.error_bind_ne_ok
    · obtain ⟨⟨newShares, s'⟩, hdel, hdelegate⟩ := Except.bind_eq_ok.1 hdelegate
      cases Except.pure_eq_ok.1 hdelegate
      refine h.Delegate ?_ hdel
      rw [h.operator _ _ hval]
      exact hval
  · cases hdelegate

theorem handleMsgUndelegate (h : PowerIndexed s) {ctx : Context P}
    {delegatorAddress validatorAddress : A} {amount : Coin}
    (hundelegate : s.handleMsgUndelegate ctx delegatorAddress validatorAddress amount = .ok t) :
    PowerIndexed t := by
  unfold State.handleMsgUndelegate at hundelegate
  obtain ⟨shares, -, hundelegate⟩ := Except.bind_eq_ok.1 hundelegate
  obtain ⟨⟨completionTime, s'⟩, hund, hundelegate⟩ := Except.bind_eq_ok.1 hundelegate
  cases Except.pure_eq_ok.1 hundelegate
  exact h.Undelegate hund

theorem handleMsgBeginRedelegate (h : PowerIndexed s) {ctx : Context P}
    {delegatorAddress validatorSrcAddress validatorDstAddress : A} {amount : Coin}
    (hbegin : s.handleMsgBeginRedelegate ctx delegatorAddress validatorSrcAddress
      validatorDstAddress amount = .ok t) : PowerIndexed t := by
  unfold State.handleMsgBeginRedelegate at hbegin
  obtain ⟨shares, -, hbegin⟩ := Except.bind_eq_ok.1 hbegin
  obtain ⟨⟨completionTime, s'⟩, hred, hbegin⟩ := Except.bind_eq_ok.1 hbegin
  cases Except.pure_eq_ok.1 hbegin
  exact h.BeginRedelegation hred

/-- A delivered message keeps the invariant: a handler that fails leaves the
state as it was. -/
theorem DeliverMsg (h : PowerIndexed s) (ctx : Context P) (msg : Msg A P) :
    PowerIndexed (s.DeliverMsg ctx msg) := by
  unfold State.DeliverMsg
  split
  · exact h
  split
  · rename_i s' hhandle
    cases msg with
    | MsgCreateValidator => exact h.handleMsgCreateValidator hhandle
    | MsgDelegate => exact h.handleMsgDelegate hhandle
    | MsgBeginRedelegate => exact h.handleMsgBeginRedelegate hhandle
    | MsgUndelegate => exact h.handleMsgUndelegate hhandle
  · exact h

/-! ### Slashing, jailing and unjailing -/

/-- The validator of a consensus address is the one stored at its operator
address. -/
theorem GetValidatorByConsAddr (h : PowerIndexed s) {consAddr : P} {validator : Validator A P}
    (hval : s.GetValidatorByConsAddr consAddr = some validator) :
    s.GetValidator validator.OperatorAddress = some validator := by
  obtain ⟨a, -, hget⟩ := Option.bind_eq_some_iff.1 hval
  rw [h.operator a validator hget]
  exact hget

theorem mustGetValidatorByConsAddr (h : PowerIndexed s) {consAddr : P} {validator : Validator A P}
    (hval : s.mustGetValidatorByConsAddr consAddr = .ok validator) :
    s.GetValidator validator.OperatorAddress = some validator := by
  unfold State.mustGetValidatorByConsAddr at hval
  split at hval
  · cases hval
    exact h.GetValidatorByConsAddr ‹_›
  · cases hval

/-- Slashing a redelegation unbonds from its destination alone. -/
theorem slashRedelegation (h : PowerIndexed s) {ctx : Context P} {red : Redelegation A}
    {infractionHeight : ℤ} {slashFactor : Dec} :
    (s.slashRedelegation ctx red infractionHeight slashFactor).Sat (fun _ => True)
      fun r => PowerIndexed r.2 ∧ OthersKept red.ValidatorDstAddress s r.2 := by
  unfold State.slashRedelegation
  refine Except.sat_foldlM_of_step (fun acc => ?_) _ (0, s) ⟨h, OthersKept.refl _ s⟩
  rintro entry ⟨ht, hk⟩
  obtain ⟨total, t⟩ := acc
  dsimp only
  split_ifs
  · exact ⟨ht, hk⟩
  · exact ⟨ht, hk⟩
  · exact ⟨ht, hk⟩
  · split
    · exact ⟨ht, hk⟩
    · -- unbond from the destination and burn the tokens from the pool
      split
      · trivial
      · trivial
      · rename_i tokensToBurn t' hunbond
        obtain ⟨ht', hk'⟩ := ht.unbond hunbond
        exact ⟨ht'.of_untouched ⟨rfl, rfl, rfl⟩,
          (hk.trans hk').trans (OthersKept.of_untouched ⟨rfl, rfl, rfl⟩)⟩

/-- **Slashing keeps the invariant.**  The validator read before the loops is
still the one stored when its tokens are taken: the loops unbond only from the
destinations of its redelegations, and no redelegation goes from a validator to
itself. -/
theorem Slash (h : PowerIndexed s) {ctx : Context P} {consAddr : P} {infractionHeight power : ℤ}
    {slashFactor : Dec} (hslash : s.Slash ctx consAddr infractionHeight power slashFactor = .ok t) :
    PowerIndexed t := by
  unfold State.Slash at hslash
  dsimp only at hslash
  split at hslash
  · cases hslash
  split at hslash
  · rename_i validator hval
    have hv := h.GetValidatorByConsAddr hval
    split at hslash
    · cases hslash
    split at hslash
    · cases hslash
    -- the entries are charged first, unless the infraction is at the current height
    obtain ⟨rem, t', ht', hv', r, hremove, rfl⟩ : ∃ rem t', PowerIndexed t' ∧
        t'.GetValidator validator.OperatorAddress = some validator ∧ ∃ r,
          t'.RemoveValidatorTokens validator (MaxInt (MinInt rem validator.Tokens) 0) = .ok r ∧
          t = r.2.SetPool { r.2.pool with NotBondedTokens :=
            r.2.pool.NotBondedTokens - MaxInt (MinInt rem validator.Tokens) 0 } := by
      split at hslash
      · obtain ⟨⟨rem, t'⟩, hloop, hslash⟩ := Except.bind_eq_ok.1 hslash
        obtain ⟨r, hremove, hslash⟩ := Except.bind_eq_ok.1 hslash
        generalize hr₁ : List.foldl _ _
          (s.GetUnbondingDelegationsFromValidator validator.OperatorAddress) = r₁ at hloop
        -- the unbonding delegations are other stores
        have hu₁ : Untouched s r₁.2 := by
          rw [← hr₁]
          refine List.foldl_invariant (Q := fun acc : ℤ × State A P => Untouched s acc.2)
            (fun acc ubd hacc => ?_) _ (_, s) (Untouched.refl s)
          exact hacc.trans (Untouched.slashUnbondingDelegation ..)
        have h₁ := h.of_untouched hu₁
        -- each redelegation from the validator unbonds from its destination, another validator
        have hloop' := (Except.sat_foldlM_of_mem (E := fun _ => True)
          (p := fun red : Redelegation A => red.ValidatorDstAddress ≠ validator.OperatorAddress)
          (Q := fun acc : ℤ × State A P => PowerIndexed acc.2 ∧
            acc.2.GetValidator validator.OperatorAddress = some validator)
          (fun acc red hred hacc => by
            refine (Except.sat_bind hacc.1.slashRedelegation fun x hx => ?_)
            exact ⟨hx.1, (hx.2 _ hred.symm).trans hacc.2⟩)
          _ (fun red hmem => by
            obtain ⟨hsrc, k, hget⟩ := State.mem_GetRedelegationsFromValidator hmem
            rw [← hsrc]
            exact (h₁.redelegations k red hget).symm)
          r₁ ⟨h₁, by rw [hu₁.GetValidator]; exact hv⟩).of_ok hloop
        exact ⟨rem, t', hloop'.1, hloop'.2, r, hremove, (Except.pure_eq_ok.1 hslash).symm⟩
      · obtain ⟨⟨rem, t'⟩, hloop, hslash⟩ := Except.bind_eq_ok.1 hslash
        obtain ⟨r, hremove, hslash⟩ := Except.bind_eq_ok.1 hslash
        cases Except.pure_eq_ok.1 hloop
        exact ⟨_, s, h, hv, r, hremove, (Except.pure_eq_ok.1 hslash).symm⟩
    -- the validator burns what remains
    exact (ht'.RemoveValidatorTokens hv' hremove).of_untouched ⟨rfl, rfl, rfl⟩
  · -- a validator that is not found has been removed: nothing happens
    cases Except.pure_eq_ok.1 hslash
    exact h

theorem Jail (h : PowerIndexed s) {consAddr : P} (hjail : s.Jail consAddr = .ok t) :
    PowerIndexed t := by
  unfold State.Jail at hjail
  obtain ⟨validator, hval, hjail⟩ := Except.bind_eq_ok.1 hjail
  exact h.jailValidator (h.mustGetValidatorByConsAddr hval) hjail

theorem Unjail (h : PowerIndexed s) {consAddr : P} (hunjail : s.Unjail consAddr = .ok t) :
    PowerIndexed t := by
  unfold State.Unjail at hunjail
  obtain ⟨validator, hval, hunjail⟩ := Except.bind_eq_ok.1 hunjail
  exact h.unjailValidator (h.mustGetValidatorByConsAddr hval) hunjail

/-! ### Changes of status and the EndBlocker -/

/-- The validator that `mustGetValidator` reads is the one stored at the address. -/
theorem mustGetValidator (h : PowerIndexed s) {a : A} {validator : Validator A P}
    (hmust : s.mustGetValidator a = .ok validator) :
    validator.OperatorAddress = a ∧ s.GetValidator a = some validator := by
  unfold State.mustGetValidator at hmust
  split at hmust
  · rename_i hget
    cases hmust
    exact ⟨h.operator a _ hget, hget⟩
  · cases hmust

/-- A record that keeps its address, its key and whether it is jailed can be
stored without touching the index. -/
theorem sameKey (h : PowerIndexed s) {v : Validator A P} (v' : Validator A P)
    (hv : s.GetValidator v.OperatorAddress = some v) (hop : v'.OperatorAddress = v.OperatorAddress)
    (hjailed : v'.Jailed = v.Jailed)
    (hkey : GetValidatorsByPowerIndexKey v' = GetValidatorsByPowerIndexKey v)
    (hvals : t.validators = s.validators.set v.OperatorAddress v')
    (hindex : t.validatorsByPowerIndex = s.validatorsByPowerIndex)
    (hred : t.redelegations = s.redelegations) : PowerIndexed t := by
  refine h.store v' hv hop hvals (fun k => ?_) hred
  rw [hindex, h.index k]
  by_cases hk : k = GetValidatorsByPowerIndexKey v
  · subst hk
    simp [State.indexed, hv, hjailed, hkey]
  · simp [hk, hkey, Ne.symm hk]

theorem bondValidator (h : PowerIndexed s) {validator : Validator A P}
    (hv : s.GetValidator validator.OperatorAddress = some validator)
    {r : Validator A P × State A P} (hbond : s.bondValidator validator = .ok r) :
    PowerIndexed r.2 := by
  unfold State.bondValidator at hbond
  dsimp only at hbond
  obtain ⟨⟨v', pool⟩, hupdate, hbond⟩ := Except.bind_eq_ok.1 hbond
  cases Except.pure_eq_ok.1 hbond
  have hv' : v' = { validator with Status := v'.Status } := Validator.UpdateStatus_eq hupdate
  dsimp only
  refine PowerIndexed.of_untouched ?_ (Untouched.DeleteValidatorQueue _ _)
  -- the new key is written after the pool and the record
  refine h.replace v' hv (by rw [hv']) ?_ ?_ ?_
  all_goals rw [State.SetValidatorByPowerIndex_eq]
  · dsimp only [State.SetValidator, State.SetPool, State.DeleteValidatorByPowerIndex]
    rw [hv']
  · rw [State.SetValidatorByPowerIndex_eq]
    rfl
  · rfl

theorem beginUnbondingValidator (h : PowerIndexed s) {ctx : Context P}
    {validator : Validator A P} (hv : s.GetValidator validator.OperatorAddress = some validator)
    {r : Validator A P × State A P} (hbegin : s.beginUnbondingValidator ctx validator = .ok r) :
    PowerIndexed r.2 := by
  unfold State.beginUnbondingValidator at hbegin
  dsimp only at hbegin
  split at hbegin
  · exact absurd hbegin Except.error_bind_ne_ok
  obtain ⟨⟨v', pool⟩, hupdate, hbegin⟩ := Except.bind_eq_ok.1 hbegin
  cases Except.pure_eq_ok.1 hbegin
  have hv' : v' = { validator with Status := v'.Status } := Validator.UpdateStatus_eq hupdate
  dsimp only
  refine PowerIndexed.of_untouched ?_ (Untouched.InsertValidatorQueue _ _)
  refine h.replace { v' with
    UnbondingCompletionTime := ctx.BlockTime + s.params.UnbondingTime
    UnbondingHeight := ctx.BlockHeight } hv ?_ ?_ ?_ ?_
  · rw [hv']
  all_goals rw [State.SetValidatorByPowerIndex_eq]
  · dsimp only [State.SetValidator, State.SetPool, State.DeleteValidatorByPowerIndex]
    rw [hv']
  · rw [State.SetValidatorByPowerIndex_eq]
    rfl
  · rfl

/-- A validator that completes its unbonding keeps its key. -/
theorem completeUnbondingValidator (h : PowerIndexed s) {validator : Validator A P}
    (hv : s.GetValidator validator.OperatorAddress = some validator)
    {r : Validator A P × State A P} (hcomplete : s.completeUnbondingValidator validator = .ok r) :
    PowerIndexed r.2 := by
  unfold State.completeUnbondingValidator at hcomplete
  obtain ⟨⟨v', pool⟩, hupdate, hcomplete⟩ := Except.bind_eq_ok.1 hcomplete
  cases Except.pure_eq_ok.1 hcomplete
  have hv' : v' = { validator with Status := v'.Status } := Validator.UpdateStatus_eq hupdate
  refine h.sameKey v' hv (by rw [hv']) (by rw [hv']) (by rw [hv']; rfl) ?_ rfl rfl
  dsimp only [State.SetValidator, State.SetPool]
  rw [hv']

theorem unbondedToBonded (h : PowerIndexed s) {validator : Validator A P}
    (hv : s.GetValidator validator.OperatorAddress = some validator)
    {r : Validator A P × State A P} (hbond : s.unbondedToBonded validator = .ok r) :
    PowerIndexed r.2 := by
  unfold State.unbondedToBonded at hbond
  split at hbond
  · cases hbond
  · exact h.bondValidator hv hbond

theorem unbondingToBonded (h : PowerIndexed s) {validator : Validator A P}
    (hv : s.GetValidator validator.OperatorAddress = some validator)
    {r : Validator A P × State A P} (hbond : s.unbondingToBonded validator = .ok r) :
    PowerIndexed r.2 := by
  unfold State.unbondingToBonded at hbond
  split at hbond
  · cases hbond
  · exact h.bondValidator hv hbond

theorem bondedToUnbonding (h : PowerIndexed s) {ctx : Context P} {validator : Validator A P}
    (hv : s.GetValidator validator.OperatorAddress = some validator)
    {r : Validator A P × State A P} (hbegin : s.bondedToUnbonding ctx validator = .ok r) :
    PowerIndexed r.2 := by
  unfold State.bondedToUnbonding at hbegin
  split at hbegin
  · cases hbegin
  · exact h.beginUnbondingValidator hv hbegin

theorem unbondingToUnbonded (h : PowerIndexed s) {validator : Validator A P}
    (hv : s.GetValidator validator.OperatorAddress = some validator)
    {r : Validator A P × State A P} (hcomplete : s.unbondingToUnbonded validator = .ok r) :
    PowerIndexed r.2 := by
  unfold State.unbondingToUnbonded at hcomplete
  split at hcomplete
  · cases hcomplete
  · exact h.completeUnbondingValidator hv hcomplete

/-- **The loop over the power index keeps the invariant**: it bonds the
validators it reads and writes the last validator set. -/
theorem applyPowerIndex {maxValidators : ℕ} :
    ∀ {l : List ((ℤ ×ₗ Aᵒᵈ) × A)} {acc r : State.ApplyAcc A P}, PowerIndexed acc.s →
      State.applyPowerIndex maxValidators l acc = .ok r → PowerIndexed r.s
  | [], acc, r, h, happly => by
    cases happly
    exact h
  | (k, valAddr) :: rest, acc, r, h, happly => by
    rw [State.applyPowerIndex] at happly
    split at happly
    · cases happly
      exact h
    obtain ⟨validator, hmust, happly⟩ := Except.bind_eq_ok.1 happly
    obtain ⟨hop, hval⟩ := h.mustGetValidator hmust
    have hv : acc.s.GetValidator validator.OperatorAddress = some validator := by
      rw [hop]
      exact hval
    dsimp only at happly
    split at happly
    · exact absurd happly Except.error_bind_ne_ok
    split at happly
    · cases Except.pure_eq_ok.1 happly
      exact h
    -- bond the validator unless it is bonded already; the rest of the round is shared
    split at happly
    all_goals
      obtain ⟨⟨validator', s'⟩, hbond, happly⟩ := Except.bind_eq_ok.1 happly
      have h' : PowerIndexed s' := by
        first
          | exact h.unbondedToBonded hv hbond
          | exact h.unbondingToBonded hv hbond
          | cases Except.pure_eq_ok.1 hbond
            exact h
      dsimp only at happly
      -- the last validator set is another store
      split at happly
      · exact applyPowerIndex h' happly
      · exact applyPowerIndex (h'.of_untouched ⟨rfl, rfl, rfl⟩) happly

theorem ApplyAndReturnValidatorSetUpdates (h : PowerIndexed s) {ctx : Context P}
    {r : List (P × ℤ) × State A P} (happly : s.ApplyAndReturnValidatorSetUpdates ctx = .ok r) :
    PowerIndexed r.2 := by
  unfold State.ApplyAndReturnValidatorSetUpdates at happly
  obtain ⟨acc, hloop, happly⟩ := Except.bind_eq_ok.1 happly
  have h₁ : PowerIndexed acc.s := applyPowerIndex h hloop
  obtain ⟨⟨updates, s₂⟩, hfold, happly⟩ := Except.bind_eq_ok.1 happly
  -- the validators no longer bonded begin unbonding
  have h₂ : PowerIndexed s₂ := by
    refine (Except.sat_foldlM_of_step (E := fun _ => True)
      (Q := fun x : List (P × ℤ) × State A P => PowerIndexed x.2) (fun x e hx => ?_)
      _ _ h₁).of_ok hfold
    obtain ⟨updates, t⟩ := x
    refine Except.sat_of_eq_ok fun y hy => ?_
    obtain ⟨validator, hmust, hy⟩ := Except.bind_eq_ok.1 hy
    obtain ⟨hop, hval⟩ := hx.mustGetValidator hmust
    obtain ⟨⟨validator', t'⟩, hbegin, hy⟩ := Except.bind_eq_ok.1 hy
    cases Except.pure_eq_ok.1 hy
    exact (hx.bondedToUnbonding (by rw [hop]; exact hval) hbegin).of_untouched ⟨rfl, rfl, rfl⟩
  cases Except.pure_eq_ok.1 happly
  split
  · exact h₂
  · exact h₂.of_untouched ⟨rfl, rfl, rfl⟩

theorem UnbondAllMatureValidatorQueue (h : PowerIndexed s) {ctx : Context P}
    (hunbond : s.UnbondAllMatureValidatorQueue ctx = .ok t) : PowerIndexed t := by
  unfold State.UnbondAllMatureValidatorQueue at hunbond
  refine (Except.sat_foldlM_of_step (E := fun _ => True) (Q := PowerIndexed) (fun t₁ timeslice ht₁ => ?_)
    _ _ h).of_ok hunbond
  refine Except.sat_bind (P := PowerIndexed) ?_ fun t₂ ht₂ => ht₂.of_untouched ⟨rfl, rfl, rfl⟩
  -- each validator of the timeslice completes its unbonding and is removed without shares
  refine Except.sat_foldlM_of_step (fun t₂ valAddr ht₂ => Except.sat_of_eq_ok fun t₃ ht₃ => ?_)
    _ _ ht₁
  split at ht₃
  · rename_i val hval
    have hv : t₂.GetValidator val.OperatorAddress = some val := by
      rw [ht₂.operator _ _ hval]
      exact hval
    dsimp only at ht₃
    split at ht₃
    · exact absurd ht₃ Except.error_bind_ne_ok
    obtain ⟨⟨val', t₄⟩, hcomplete, ht₃⟩ := Except.bind_eq_ok.1 ht₃
    have h₄ := ht₂.unbondingToUnbonded hv hcomplete
    dsimp only at ht₃
    split at ht₃
    · exact h₄.RemoveValidator ht₃
    · cases Except.pure_eq_ok.1 ht₃
      exact h₄
  · cases ht₃

/-! ### The loop over the power index finds what it reads -/

/-- Bonding a validator that is not jailed moves its key to where it was: the
index holds the same addresses at the same keys. -/
theorem bondValidator_index (h : PowerIndexed s) {validator : Validator A P}
    (hv : s.GetValidator validator.OperatorAddress = some validator)
    (hjailed : validator.Jailed = false) {r : Validator A P × State A P}
    (hbond : s.bondValidator validator = .ok r) (k : ℤ ×ₗ Aᵒᵈ) :
    r.2.validatorsByPowerIndex.get k = s.validatorsByPowerIndex.get k := by
  unfold State.bondValidator at hbond
  dsimp only at hbond
  obtain ⟨⟨v', pool⟩, hupdate, hbond⟩ := Except.bind_eq_ok.1 hbond
  cases Except.pure_eq_ok.1 hbond
  have hv' : v' = { validator with Status := v'.Status } := Validator.UpdateStatus_eq hupdate
  have hkey : s.validatorsByPowerIndex.get (GetValidatorsByPowerIndexKey validator) =
      some validator.OperatorAddress :=
    (h.get_eq_some_iff _ _).2 ⟨validator, hv, hjailed, rfl⟩
  -- the bonded record has the validator's key, address and jailing
  have hkey' : GetValidatorsByPowerIndexKey v' = GetValidatorsByPowerIndexKey validator := by
    rw [hv']
    rfl
  have hjailed' : v'.Jailed = false := by
    rw [hv']
    exact hjailed
  have hop' : v'.OperatorAddress = validator.OperatorAddress := by
    rw [hv']
  dsimp only
  rw [(Untouched.DeleteValidatorQueue _ _).index, State.SetValidatorByPowerIndex_eq]
  by_cases hk : k = GetValidatorsByPowerIndexKey validator
  · subst hk
    simp [hjailed', hkey', hop', hkey, State.SetValidator, State.SetPool]
  · simp [hjailed', hkey', hk, State.SetValidator, State.SetPool, State.DeleteValidatorByPowerIndex]

/-- **The loop over the power index fails only when a pool would go
negative**: every address it reads from the index has a record, which is not
jailed. -/
theorem applyPowerIndex_error {maxValidators : ℕ} :
    ∀ {l : List ((ℤ ×ₗ Aᵒᵈ) × A)} {acc : State.ApplyAcc A P} {p : Panic}, PowerIndexed acc.s →
      (∀ e ∈ l, acc.s.validatorsByPowerIndex.get e.1 = some e.2) →
      State.applyPowerIndex maxValidators l acc = .error p →
      p = .notBondedTokensNegative ∨ p = .bondedTokensNegative
  | [], acc, p, h, hl, happly => by cases happly
  | (k, valAddr) :: rest, acc, p, h, hl, happly => by
    -- the entry's address holds a validator that is not jailed, at the entry's key
    obtain ⟨validator, hval, hjailed, hkey⟩ :=
      (h.get_eq_some_iff k valAddr).1 (hl _ List.mem_cons_self)
    have hv : acc.s.GetValidator validator.OperatorAddress = some validator := by
      rw [h.operator _ _ hval]
      exact hval
    have hrest : ∀ e ∈ rest, acc.s.validatorsByPowerIndex.get e.1 = some e.2 :=
      fun e he => hl e (List.mem_cons_of_mem _ he)
    rw [State.applyPowerIndex] at happly
    split at happly
    · cases happly
    have hmust : acc.s.mustGetValidator valAddr = pure validator := by
      simp [State.mustGetValidator, hval, pure, Except.pure]
    rw [hmust, pure_bind] at happly
    dsimp only at happly
    split at happly
    · rename_i hj
      rw [hjailed] at hj
      cases hj
    split at happly
    · cases happly
    -- the validator is bonded by `bondValidator`, unless it is already
    split at happly
    all_goals
      first
        | rw [State.unbondedToBonded_eq ‹_›] at happly
        | rw [State.unbondingToBonded_eq ‹_›] at happly
        | skip
    all_goals
      rcases Except.bind_eq_error.1 happly with hbond | ⟨⟨validator', s'⟩, hbond, happly⟩
      · first
          | exact State.bondValidator_error hbond
          | cases hbond
      · -- the bonded validator keeps its key, so the rest of the index is as it was
        have hbonded : PowerIndexed s' ∧
            ∀ k, s'.validatorsByPowerIndex.get k = acc.s.validatorsByPowerIndex.get k := by
          first
            | exact ⟨h.bondValidator hv hbond, h.bondValidator_index hv hjailed hbond⟩
            | cases Except.pure_eq_ok.1 hbond
              exact ⟨h, fun _ => rfl⟩
        have hrest' : ∀ e ∈ rest, s'.validatorsByPowerIndex.get e.1 = some e.2 := fun e he => by
          rw [hbonded.2]
          exact hrest e he
        dsimp only at happly
        -- the last validator set is another store
        split at happly
        · exact applyPowerIndex_error hbonded.1 hrest' happly
        · exact applyPowerIndex_error (hbonded.1.of_untouched ⟨rfl, rfl, rfl⟩) hrest' happly

/-- **`ApplyAndReturnValidatorSetUpdates` never finds a jailed validator in the
power index.** -/
theorem ApplyAndReturnValidatorSetUpdates_ne (h : PowerIndexed s) (ctx : Context P) :
    s.ApplyAndReturnValidatorSetUpdates ctx ≠ .error .jailedValidatorInPowerStore := by
  intro happly
  unfold State.ApplyAndReturnValidatorSetUpdates at happly
  rcases Except.bind_eq_error.1 happly with hloop | ⟨acc, -, happly⟩
  · -- the loop over the index reads the index's own entries
    have hentries : ∀ e ∈ s.validatorsByPowerIndex.entries.reverse,
        s.validatorsByPowerIndex.get e.1 = some e.2 :=
      fun e he => SortedKV.get_eq_some_iff.2 (List.mem_reverse.1 he)
    rcases applyPowerIndex_error h hentries hloop with hp | hp <;> cases hp
  · rcases Except.bind_eq_error.1 happly with hfold | ⟨_, -, hpure⟩
    · -- the validators no longer bonded fail on a missing record, a bad transition or the pools
      refine (Except.sat_foldlM_of_step (E := fun p : Panic => p ≠ .jailedValidatorInPowerStore)
        (Q := fun _ : List (P × ℤ) × State A P => True) (fun x e _ => ?_) _ _ trivial).of_error
          hfold rfl
      refine Except.sat_of_eq_error fun p hp => ?_
      obtain ⟨updates, t⟩ := x
      rcases Except.bind_eq_error.1 hp with hmust | ⟨validator, -, hp⟩
      · unfold State.mustGetValidator at hmust
        split at hmust <;> cases hmust
        exact Panic.noConfusion
      rcases Except.bind_eq_error.1 hp with hbegin | ⟨_, -, hpure⟩
      · rcases State.bondedToUnbonding_error hbegin with rfl | rfl | rfl <;> exact Panic.noConfusion
      · cases hpure
    · cases hpure

/-- **The EndBlocker keeps the invariant.** -/
theorem EndBlocker (h : PowerIndexed s) {ctx : Context P} {r : List (P × ℤ) × State A P}
    (hend : s.EndBlocker ctx = .ok r) : PowerIndexed r.2 := by
  unfold State.EndBlocker at hend
  obtain ⟨⟨updates, s₁⟩, happly, hend⟩ := Except.bind_eq_ok.1 hend
  have h₁ : PowerIndexed s₁ := h.ApplyAndReturnValidatorSetUpdates happly
  obtain ⟨s₂, hunbond, hend⟩ := Except.bind_eq_ok.1 hend
  have h₂ := h₁.UnbondAllMatureValidatorQueue hunbond
  -- the mature unbonding delegations pay out
  split at hend
  rename_i matureUnbonds s₃ hdequeue
  have h₃ : PowerIndexed s₃ := by
    have hu := Untouched.DequeueAllMatureUBDQueue s₂ ctx.BlockTime
    rw [hdequeue] at hu
    exact h₂.of_untouched hu
  dsimp only at hend
  obtain ⟨s₄, hfold, hend⟩ := Except.bind_eq_ok.1 hend
  have h₄ : PowerIndexed s₄ := by
    refine (Except.sat_foldlM_of_step (E := fun _ => True) (Q := PowerIndexed)
      (fun t pair ht => ?_) matureUnbonds s₃ h₃).of_ok hfold
    -- an error is skipped, and a panic stops the block
    split
    · exact Except.sat_pure (ht.of_untouched (Untouched.CompleteUnbonding ‹_›))
    · exact Except.sat_pure ht
    · trivial
  -- the mature redelegations are dropped
  cases Except.pure_eq_ok.1 hend
  refine List.foldl_invariant (Q := PowerIndexed) (fun t triplet ht => ?_) _ _
    (h₄.of_untouched (Untouched.DequeueAllMatureRedelegationQueue _ _))
  split
  · exact ht.CompleteRedelegation ‹_›
  · exact ht

/-! ### Runs -/

/-- A store without validators, index or redelegations satisfies the invariant. -/
theorem of_empty (hvals : s.validators = .empty) (hindex : s.validatorsByPowerIndex = .empty)
    (hred : s.redelegations = .empty) : PowerIndexed s where
  operator a v hv := by
    rw [State.GetValidator, hvals, SortedKV.get_empty] at hv
    cases hv
  index k := by
    rw [hindex, SortedKV.get_empty, State.indexed, State.GetValidator, hvals, SortedKV.get_empty]
  redelegations k red hget := by
    rw [hred, SortedKV.get_empty] at hget
    cases hget

/-- **Every step keeps the invariant.** -/
theorem step (h : PowerIndexed s) (hstep : Step s t) : PowerIndexed t := by
  cases hstep with
  | deliver ctx _ msg => exact h.DeliverMsg ctx msg
  | slash ctx consAddr infractionHeight power slashFactor hslash => exact h.Slash hslash
  | jail consAddr hjail => exact h.Jail hjail
  | unjail consAddr hunjail => exact h.Unjail hunjail
  | endBlock ctx updates hend => exact h.EndBlocker hend

theorem reachable (h : PowerIndexed s) (hreach : Reachable s t) : PowerIndexed t := by
  induction hreach with
  | refl => exact h
  | tail _ hstep ih => exact ih.step hstep

end PowerIndexed

theorem genesis_powerIndexed : PowerIndexed genesis :=
  PowerIndexed.of_empty rfl rfl rfl

/-- **Power-index consistency.**  In every state reachable from one that
satisfies the invariant, such as a genesis with no validators, a key of the
power index holds an address exactly when the validator stored there has that
operator address, is not jailed and has that key; so each such validator has
one entry, and a jailed or removed one has none.  The loop of
`ApplyAndReturnValidatorSetUpdates` over the index finds a record for every
address it reads, none of them jailed, and fails only when a pool would go
negative; the whole update never panics on a jailed validator. -/
theorem power_index_consistent {s₀ s : State A P} (h₀ : PowerIndexed s₀)
    (hreach : Reachable s₀ s) :
    (∀ k a, s.validatorsByPowerIndex.get k = some a ↔ ∃ v, s.GetValidator a = some v ∧
      v.OperatorAddress = a ∧ v.Jailed = false ∧ GetValidatorsByPowerIndexKey v = k) ∧
    (∀ p, State.applyPowerIndex s.params.MaxValidators s.validatorsByPowerIndex.entries.reverse
        ⟨s, s.lastValidatorPowers, [], 0, 0⟩ = .error p →
      p = .notBondedTokensNegative ∨ p = .bondedTokensNegative) ∧
    ∀ ctx : Context P, s.ApplyAndReturnValidatorSetUpdates ctx ≠ .error .jailedValidatorInPowerStore := by
  have h := h₀.reachable hreach
  refine ⟨fun k a => ?_, fun p hloop => ?_, h.ApplyAndReturnValidatorSetUpdates_ne⟩
  · rw [h.get_eq_some_iff]
    constructor
    · rintro ⟨v, hv, hjailed, hkey⟩
      exact ⟨v, hv, h.operator a v hv, hjailed, hkey⟩
    · rintro ⟨v, hv, -, hjailed, hkey⟩
      exact ⟨v, hv, hjailed, hkey⟩
  · -- the loop reads the index's own entries
    have hentries : ∀ e ∈ s.validatorsByPowerIndex.entries.reverse,
        s.validatorsByPowerIndex.get e.1 = some e.2 :=
      fun e he => SortedKV.get_eq_some_iff.2 (List.mem_reverse.1 he)
    exact PowerIndexed.applyPowerIndex_error h hentries hloop

theorem power_index_consistent_sampleCreated :
    PowerIndexed genesis ∧ Reachable genesis sampleCreated ∧
    (∀ k a, sampleCreated.validatorsByPowerIndex.get k = some a ↔
      ∃ v, sampleCreated.GetValidator a = some v ∧ v.OperatorAddress = a ∧ v.Jailed = false ∧
        GetValidatorsByPowerIndexKey v = k) ∧
    (∀ p, State.applyPowerIndex sampleCreated.params.MaxValidators
        sampleCreated.validatorsByPowerIndex.entries.reverse
        ⟨sampleCreated, sampleCreated.lastValidatorPowers, [], 0, 0⟩ = .error p →
      p = .notBondedTokensNegative ∨ p = .bondedTokensNegative) ∧
    ∀ ctx : Context ℕ, sampleCreated.ApplyAndReturnValidatorSetUpdates ctx ≠
      .error .jailedValidatorInPowerStore :=
  have hreach : Reachable genesis sampleCreated := .single (.deliver _ _ _)
  ⟨genesis_powerIndexed, hreach, power_index_consistent genesis_powerIndexed hreach⟩

end Staking
end ColorSdk
