import ColorSdk.Staking.SlashBound

/-!
# What the keeper calls change

The facts about single keeper calls that the invariants of the staking store are
built from.  A successful call of a validator function keeps the record's
address and whether it is jailed; a failed one failed on a pool.  The keeper
functions store a changed validator at its operator address, and `Delegate`
is taken apart into its parts.  `Untouched s t` says that a call wrote neither
the validators, nor the power index, nor the redelegations: it holds of every
call that writes only the delegations, the bank, the queues, the pool, the last
validator set or the council members.  `OthersKept a s t` says that no validator
but the one at `a` changed.

## Main definitions

* `Untouched` — the validators, the index and the redelegations are as they were.
* `OthersKept` — the validators at every other address are as they were.

## Main results

* `Validator.UpdateStatus_eq`, `Validator.UpdateStatus_error` — a change of status
  changes the status alone, and fails only on the pools.
* `State.Delegate_inv` — what a successful `Delegate` does.
* `Untouched.CompleteUnbonding`, `Untouched.slashUnbondingDelegation` — the loops
  that pay out or slash unbonding delegations write no validator.
-/

namespace ColorSdk
namespace Staking

variable {A P : Type} [LinearOrder A] [LinearOrder P]

/-! ### What the validator functions keep -/

theorem Pool.notBondedTokensToBonded_error {pool : Pool} {tokens : ℤ} {p : Panic}
    (h : pool.notBondedTokensToBonded tokens = .error p) : p = .notBondedTokensNegative := by
  unfold Pool.notBondedTokensToBonded at h
  dsimp only at h
  split_ifs at h
  cases h
  rfl

theorem Pool.bondedTokensToNotBonded_error {pool : Pool} {tokens : ℤ} {p : Panic}
    (h : pool.bondedTokensToNotBonded tokens = .error p) : p = .bondedTokensNegative := by
  unfold Pool.bondedTokensToNotBonded at h
  dsimp only at h
  split_ifs at h
  cases h
  rfl

namespace Validator

variable {v : Validator A P} {pool : Pool}

omit [LinearOrder A] [LinearOrder P]

theorem AddTokensFromDel_keeps {amount : ℤ} {r : Validator A P × Pool × Dec}
    (h : v.AddTokensFromDel pool amount = .ok r) :
    r.1.OperatorAddress = v.OperatorAddress ∧ r.1.Jailed = v.Jailed := by
  unfold AddTokensFromDel at h
  dsimp only at h
  -- every branch ends by storing the tokens and shares in the record
  repeat' split at h
  all_goals
    repeat (obtain ⟨_, -, h⟩ := Except.bind_eq_ok.1 h)
    cases Except.pure_eq_ok.1 h
    exact ⟨rfl, rfl⟩

theorem RemoveDelShares_keeps {delShares : Dec} {r : Validator A P × Pool × ℤ}
    (h : v.RemoveDelShares pool delShares = .ok r) :
    r.1.OperatorAddress = v.OperatorAddress ∧ r.1.Jailed = v.Jailed := by
  unfold RemoveDelShares at h
  dsimp only at h
  repeat' split at h
  all_goals try simp only [pure_bind] at h
  -- the pool moves only for a bonded validator
  repeat' split at h
  all_goals
    first
      | obtain ⟨_, -, h⟩ := Except.bind_eq_ok.1 h
        cases Except.pure_eq_ok.1 h
        exact ⟨rfl, rfl⟩
      | cases Except.pure_eq_ok.1 h
        exact ⟨rfl, rfl⟩
      | cases h

theorem RemoveTokens_keeps {tokens : ℤ} {r : Validator A P × Pool}
    (h : v.RemoveTokens pool tokens = .ok r) :
    r.1.OperatorAddress = v.OperatorAddress ∧ r.1.Jailed = v.Jailed := by
  rw [RemoveTokens_fst h]
  exact ⟨rfl, rfl⟩

/-- A change of status keeps everything but the status. -/
theorem UpdateStatus_eq {status : BondStatus} {r : Validator A P × Pool}
    (h : v.UpdateStatus pool status = .ok r) : r.1 = { v with Status := r.1.Status } := by
  unfold UpdateStatus at h
  split at h
  all_goals
    first
      | cases h
        rfl
      | -- a move between the pools changes the status alone
        obtain ⟨pool', -, rfl⟩ := Except.map_eq_ok.1 h
        rfl

/-- A change of status fails only when a pool would go negative. -/
theorem UpdateStatus_error {status : BondStatus} {p : Panic}
    (h : v.UpdateStatus pool status = .error p) :
    p = .notBondedTokensNegative ∨ p = .bondedTokensNegative := by
  unfold UpdateStatus at h
  split at h
  all_goals
    first
      | cases h
      | -- a move between the pools checks the pool it takes from
        have hmove := Except.map_eq_error.1 h
        first
          | exact .inl (Pool.notBondedTokensToBonded_error hmove)
          | exact .inr (Pool.bondedTokensToNotBonded_error hmove)

end Validator

namespace State

variable {s t : State A P} {validator : Validator A P}

/-! ### Where the keeper functions store a validator -/

theorem validators_replace_seq (s : State A P) (v v' : Validator A P) (pool : Pool) :
    ((((s.DeleteValidatorByPowerIndex v).SetValidator v').SetPool pool).SetValidatorByPowerIndex
      v').validators = s.validators.set v'.OperatorAddress v' := by
  rw [SetValidatorByPowerIndex_eq]
  rfl

theorem validators_AddValidatorTokensAndShares {amount : ℤ} {r : Validator A P × Dec × State A P}
    (hadd : s.AddValidatorTokensAndShares validator amount = .ok r) :
    r.2.2.validators = s.validators.set validator.OperatorAddress r.1 := by
  unfold AddValidatorTokensAndShares at hadd
  obtain ⟨⟨v', pool, shares⟩, hdel, hadd⟩ := Except.bind_eq_ok.1 hadd
  cases Except.pure_eq_ok.1 hadd
  rw [validators_replace_seq, (Validator.AddTokensFromDel_keeps hdel).1]

theorem validators_RemoveValidatorTokensAndShares {shares : Dec}
    {r : Validator A P × ℤ × State A P}
    (hremove : s.RemoveValidatorTokensAndShares validator shares = .ok r) :
    r.2.2.validators = s.validators.set validator.OperatorAddress r.1 := by
  unfold RemoveValidatorTokensAndShares at hremove
  obtain ⟨⟨v', pool, tokens⟩, hdel, hremove⟩ := Except.bind_eq_ok.1 hremove
  cases Except.pure_eq_ok.1 hremove
  rw [validators_replace_seq, (Validator.RemoveDelShares_keeps hdel).1]

theorem validators_jailValidator (hjail : s.jailValidator validator = .ok t) :
    t.validators = s.validators.set validator.OperatorAddress { validator with Jailed := true } := by
  unfold jailValidator at hjail
  split at hjail
  · cases hjail
  · cases hjail
    rfl

/-- `RemoveValidator` deletes the validator at the address, if any. -/
theorem validators_RemoveValidator {address : A} (hremove : s.RemoveValidator address = .ok t) :
    t.validators = s.validators.delete address := by
  unfold RemoveValidator at hremove
  split at hremove
  · rename_i hnone
    cases hremove
    exact (SortedKV.delete_of_get_eq_none hnone).symm
  · split_ifs at hremove
    cases hremove
    rfl

theorem unbondedToBonded_eq (hstatus : validator.Status = .Unbonded) :
    s.unbondedToBonded validator = s.bondValidator validator := by
  unfold unbondedToBonded
  rw [if_neg (by simpa)]

theorem unbondingToBonded_eq (hstatus : validator.Status = .Unbonding) :
    s.unbondingToBonded validator = s.bondValidator validator := by
  unfold unbondingToBonded
  rw [if_neg (by simpa)]

/-- **What `Delegate` does**, when it succeeds: it takes the coins if asked,
adds the tokens to the validator, stores the delegation and updates the council
members. -/
theorem Delegate_inv {delAddr : A} {bondAmt : ℤ} {subtractAccount : Bool} {newShares : Dec}
    (hdelegate : s.Delegate delAddr bondAmt validator subtractAccount = .ok (newShares, t)) :
    ∃ s₁, (subtractAccount = true ∧ s.DelegateCoins ((s.GetDelegation delAddr
        validator.OperatorAddress).getD ⟨delAddr, validator.OperatorAddress, ZeroDec⟩).DelegatorAddress
          bondAmt = .ok s₁ ∨ subtractAccount = false ∧ s₁ = s) ∧
      ∃ v' s₂, s₁.AddValidatorTokensAndShares validator bondAmt = .ok (v', newShares, s₂) ∧
        let delegation := (s.GetDelegation delAddr validator.OperatorAddress).getD
          ⟨delAddr, validator.OperatorAddress, ZeroDec⟩
        let s₃ := s₂.SetDelegation { delegation with Shares := delegation.Shares.Add newShares }
        t = if (s₃.GetTotalDelegatorDelegations delAddr).GTE s₃.params.CouncilMemberMinCoin then
            if (s₃.GetCouncilMember delAddr).isSome then
              (s₃.SetCouncilMemberShares delAddr (s₃.GetTotalDelegatorDelegations delAddr)).1
            else s₃.SetCouncilMember ⟨delAddr, s₃.GetTotalDelegatorDelegations delAddr⟩
          else s₃ := by
  unfold Delegate at hdelegate
  dsimp only at hdelegate
  split at hdelegate
  · exact absurd hdelegate Except.error_bind_ne_ok
  · split at hdelegate
    all_goals
      obtain ⟨s₁, hs₁, hdelegate⟩ := Except.bind_eq_ok.1 hdelegate
      obtain ⟨⟨v', shares, s₂⟩, hadd, hdelegate⟩ := Except.bind_eq_ok.1 hdelegate
      cases Except.pure_eq_ok.1 hdelegate
      refine ⟨s₁, ?_, v', s₂, Except.mapError_eq_ok.1 hadd, rfl⟩
    -- the coins are taken only if asked
    · exact .inl ⟨‹_›, Except.mapError_eq_ok.1 hs₁⟩
    · exact .inr ⟨by simpa using ‹¬subtractAccount = true›, (Except.pure_eq_ok.1 hs₁).symm⟩

/-- A redelegation from a validator is a stored one with that source. -/
theorem mem_GetRedelegationsFromValidator {valAddr : A} {red : Redelegation A}
    (hmem : red ∈ s.GetRedelegationsFromValidator valAddr) :
    red.ValidatorSrcAddress = valAddr ∧ ∃ k, s.redelegations.get k = some red := by
  obtain ⟨e, he, rfl⟩ := List.mem_map.1 hmem
  obtain ⟨hentry, hsrc⟩ := List.mem_filter.1 he
  exact ⟨of_decide_eq_true hsrc, e.1, SortedKV.get_eq_some_iff.2 hentry⟩

/-- Bonding a validator fails only when a pool would go negative. -/
theorem bondValidator_error {validator : Validator A P} {p : Panic}
    (hbond : s.bondValidator validator = .error p) :
    p = .notBondedTokensNegative ∨ p = .bondedTokensNegative := by
  unfold bondValidator at hbond
  dsimp only at hbond
  rcases Except.bind_eq_error.1 hbond with hupdate | ⟨_, -, hpure⟩
  · exact Validator.UpdateStatus_error hupdate
  · cases hpure

/-- A validator that begins unbonding fails only on a bad transition or on the
pools. -/
theorem bondedToUnbonding_error {ctx : Context P} {validator : Validator A P} {p : Panic}
    (hbegin : s.bondedToUnbonding ctx validator = .error p) :
    p = .badStateTransition ∨ p = .notBondedTokensNegative ∨ p = .bondedTokensNegative := by
  unfold bondedToUnbonding at hbegin
  split at hbegin
  · cases hbegin
    exact .inl rfl
  unfold beginUnbondingValidator at hbegin
  dsimp only at hbegin
  split at hbegin
  · cases hbegin
    exact .inl rfl
  rcases Except.bind_eq_error.1 hbegin with hupdate | ⟨_, -, hpure⟩
  · exact .inr (Validator.UpdateStatus_error hupdate)
  · cases hpure

end State

/-! ### Keeper calls that leave the validators alone -/

/-- A keeper call that leaves the validators, the power index and the
redelegations as they were: one that writes only the delegations, the bank, the
queues, the pool, the last validator set or the council members. -/
structure Untouched (s t : State A P) : Prop where
  validators : t.validators = s.validators
  index : t.validatorsByPowerIndex = s.validatorsByPowerIndex
  redelegations : t.redelegations = s.redelegations

namespace Untouched

variable {s t u : State A P}

theorem refl (s : State A P) : Untouched s s := ⟨rfl, rfl, rfl⟩

theorem trans (h₁ : Untouched s t) (h₂ : Untouched t u) : Untouched s u :=
  ⟨h₂.validators.trans h₁.validators, h₂.index.trans h₁.index,
    h₂.redelegations.trans h₁.redelegations⟩

theorem GetValidator (h : Untouched s t) (a : A) : t.GetValidator a = s.GetValidator a := by
  rw [State.GetValidator, h.validators]
  rfl

theorem DelegateCoins {addr : A} {amt : ℤ} (h : s.DelegateCoins addr amt = .ok t) :
    Untouched s t := by
  unfold State.DelegateCoins at h
  split_ifs at h
  cases h
  exact ⟨rfl, rfl, rfl⟩

theorem UndelegateCoins {addr : A} {amt : ℤ} (h : s.UndelegateCoins addr amt = .ok t) :
    Untouched s t := by
  unfold State.UndelegateCoins at h
  split_ifs at h
  cases h
  exact ⟨rfl, rfl, rfl⟩

theorem SetCouncilMemberShares (s : State A P) (memAddr : A) (newVal : Dec) :
    Untouched s (s.SetCouncilMemberShares memAddr newVal).1 := by
  unfold State.SetCouncilMemberShares
  split <;> exact ⟨rfl, rfl, rfl⟩

theorem InsertUBDQueue (s : State A P) (ubd : UnbondingDelegation A) (completionTime : Time) :
    Untouched s (s.InsertUBDQueue ubd completionTime) := by
  rw [State.InsertUBDQueue_eq]
  exact ⟨rfl, rfl, rfl⟩

theorem InsertRedelegationQueue (s : State A P) (red : Redelegation A) (completionTime : Time) :
    Untouched s (s.InsertRedelegationQueue red completionTime) := by
  rw [State.InsertRedelegationQueue_eq]
  exact ⟨rfl, rfl, rfl⟩

theorem DequeueAllMatureUBDQueue (s : State A P) (currTime : Time) :
    Untouched s (s.DequeueAllMatureUBDQueue currTime).2 := ⟨rfl, rfl, rfl⟩

theorem DequeueAllMatureRedelegationQueue (s : State A P) (currTime : Time) :
    Untouched s (s.DequeueAllMatureRedelegationQueue currTime).2 := ⟨rfl, rfl, rfl⟩

theorem InsertValidatorQueue (s : State A P) (val : Validator A P) :
    Untouched s (s.InsertValidatorQueue val) := ⟨rfl, rfl, rfl⟩

theorem DeleteValidatorQueue (s : State A P) (val : Validator A P) :
    Untouched s (s.DeleteValidatorQueue val) := by
  unfold State.DeleteValidatorQueue
  dsimp only
  split <;> exact ⟨rfl, rfl, rfl⟩

/-- Slashing an unbonding delegation writes the unbonding delegations and the
pool alone. -/
theorem slashUnbondingDelegation (ctx : Context P) (s : State A P) (ubd : UnbondingDelegation A)
    (infractionHeight : ℤ) (slashFactor : Dec) :
    Untouched s (s.slashUnbondingDelegation ctx ubd infractionHeight slashFactor).2 := by
  unfold State.slashUnbondingDelegation
  dsimp only
  refine List.foldl_invariant (Q := fun acc : ℤ × List UnbondingDelegationEntry × State A P =>
    Untouched s acc.2.2) ?_ _ _ (refl s)
  rintro ⟨total, done, t⟩ entry ht
  dsimp only
  split_ifs
  all_goals first
    | exact ht
    | exact ht.trans ⟨rfl, rfl, rfl⟩

/-- Completing an unbonding delegation pays out to the bank and writes the
unbonding delegations alone. -/
theorem CompleteUnbonding {ctx : Context P} {delAddr valAddr : A}
    (hcomplete : s.CompleteUnbonding ctx delAddr valAddr = .ok t) : Untouched s t := by
  unfold State.CompleteUnbonding at hcomplete
  split at hcomplete
  · rename_i ubd hubd
    obtain ⟨⟨entries, t₁⟩, hloop, hcomplete⟩ := Except.bind_eq_ok.1 hcomplete
    -- the mature entries pay out to the bank alone
    have hu₁ : Untouched s t₁ := by
      refine (Except.sat_foldlM_of_step (E := fun _ => True)
        (Q := fun x : List UnbondingDelegationEntry × State A P => Untouched s x.2)
        (fun x entry hx => Except.sat_of_eq_ok fun y hy => ?_) _ _ (Untouched.refl s)).of_ok hloop
      obtain ⟨kept, t₂⟩ := x
      dsimp only at hy
      split at hy
      · split at hy
        · obtain ⟨t₃, hcoins, rfl⟩ := Except.map_eq_ok.1 hy
          exact hx.trans (Untouched.UndelegateCoins (State.undelegateBalance_eq_ok hcoins))
        · cases Except.pure_eq_ok.1 hy
          exact hx
      · cases Except.pure_eq_ok.1 hy
        exact hx
    cases Except.pure_eq_ok.1 hcomplete
    split
    · exact hu₁.trans ⟨rfl, rfl, rfl⟩
    · exact hu₁.trans ⟨rfl, rfl, rfl⟩
  · cases hcomplete

theorem SetUnbondingDelegationEntry (s : State A P) (delegatorAddr validatorAddr : A)
    (creationHeight : ℤ) (minTime : Time) (balance : ℤ) :
    Untouched s (s.SetUnbondingDelegationEntry delegatorAddr validatorAddr creationHeight minTime
      balance).2 := ⟨rfl, rfl, rfl⟩

end Untouched

/-- The validators at every address but `a` are as they were. -/
def OthersKept (a : A) (s t : State A P) : Prop :=
  ∀ b, b ≠ a → t.GetValidator b = s.GetValidator b

namespace OthersKept

variable {a : A} {s t u : State A P}

theorem refl (a : A) (s : State A P) : OthersKept a s s := fun _ _ => rfl

theorem trans (h₁ : OthersKept a s t) (h₂ : OthersKept a t u) : OthersKept a s u :=
  fun b hb => (h₂ b hb).trans (h₁ b hb)

theorem of_untouched (h : Untouched s t) : OthersKept a s t := fun b _ => h.GetValidator b

theorem of_set {v : Validator A P} (hvals : t.validators = s.validators.set a v) :
    OthersKept a s t := fun b hb => by
  rw [State.GetValidator, hvals, SortedKV.get_set, if_neg hb]
  rfl

theorem of_delete (hvals : t.validators = s.validators.delete a) : OthersKept a s t := fun b hb => by
  rw [State.GetValidator, hvals, SortedKV.get_delete, if_neg hb]
  rfl

end OthersKept

end Staking
end ColorSdk
