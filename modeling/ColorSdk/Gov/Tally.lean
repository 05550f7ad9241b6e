import ColorSdk.Gov.Genesis
import ColorSdk.Gov.Funding
import ColorSdk.Types.DecCoin
import ColorSdk.Staking.Council
import Mathlib

/-!
# The council tally

At the end of a funding cycle every proposal in its voting period is tallied.
`tally` walks the votes stored for the proposal and adds to the voter's option,
and to the voting power, the shares that staking's council member record of the
voter holds; a voter without a record adds nothing.  `CalculateCouncilPower` sums
the shares of all records.  The proposal needs the voting power to reach the
quorum of the council's power, and more yes than no votes by the threshold part
of it.

The vote store is keyed by proposal and voter, but `tally` reads the voter from
the stored vote: on a store whose records hold another key's voter one member
can be counted twice, and a record of an option other than yes, abstain or no
makes the loop add to a nil `sdk.Dec`.  The keeper writes neither: its only
writers of votes, `AddVote` and the genesis import, store a vote under its own
voter, and `AddVote` refuses the other options, as the JSON of a genesis does.

`CalculateCouncilPower` decodes staking's `CouncilMember` records into gov's
`councilMemberGovInfo`; both are an address and a decimal, so `Power` is read
as `Shares`, and the loop and the sum read the one store of staking's council
member records.

## Main definitions

* `TallyParams`, `CalculateCouncilPower`, `tally`.
* `VotesWellKeyed` — every vote record holds its key's voter and a counted
  option, as `AddVote` and `InitGenesis` store them; `SharesNonneg`.
* `countVote` — the round of the loop as a pure function.

## Main results

* `VotesWellKeyed.AddVote`, `VotesWellKeyed.InitGenesis` — the writers of votes
  keep the store well keyed.
* `foldlM_tallyVote`, `foldl_countVote` — the loop gives each option the shares
  of the members that chose it.
* `nodup_voters` — on a well-keyed store the voters of a proposal are distinct.
* `votingPower_le` — so the voting power is at most the council's power.
* `tally_sound` — what `tally` returns, on a well-keyed store and a council
  without negative shares.

## References

* src/x/gov/tally.go, src/x/gov/proposals.go, src/x/staking/keeper/council.go
-/

namespace ColorSdk
namespace Gov

variable {A C P : Type} [LinearOrder A] [LinearOrder P]

/-- `TallyParams`. -/
structure TallyParams where
  Quorum : Dec
  Threshold : Dec

/-- The error of `CalculateCouncilPower`. -/
inductive CouncilPowerError
  /-- `sdk.ErrZeroVotingPower`: "Totaol council voting power is zero". -/
  | ErrZeroVotingPower

/-- The panic of `tally`: the results map holds the three counted options, and
adding to another one adds to the nil `sdk.Dec` a Go map returns for a missing
key. -/
inductive TallyPanic
  | nilDecAdd (option : VoteOption)

/-- `CalculateCouncilPower`: the sum of the powers of all council member
records, and an error when it is zero. -/
def CalculateCouncilPower (stk : Staking.State A P) : Except CouncilPowerError Dec :=
  let total := stk.councilMembers.entries.foldl (fun total cm => total.Add cm.2.Shares) (ToDec 0)
  if total.Equal ZeroDec then .error .ErrZeroVotingPower else .ok total

/-- One round of the loop of `tally`: the shares of a council member added to
the result of its option and to the voting power. -/
def tallyVote (stk : Staking.State A P) (acc : (VoteOption → Dec) × Dec) (vote : Vote A) :
    Except TallyPanic ((VoteOption → Dec) × Dec) :=
  let (cmpower, found) := stk.GetCouncilMemberShares vote.Voter
  if found then
    if validVoteOption vote.Option then
      pure (Function.update acc.1 vote.Option ((acc.1 vote.Option).Add cmpower), acc.2.Add cmpower)
    else throw (.nilDecAdd vote.Option)
  else pure acc

/-- `NewTallyResultFromMap`. -/
def NewTallyResultFromMap (results : VoteOption → Dec) : TallyResult :=
  ⟨(results .OptionYes).TruncateInt, (results .OptionAbstain).TruncateInt,
    (results .OptionNo).TruncateInt⟩

/-- `tally`: whether the proposal passes, its results, and whether the vote is
neutral. -/
def tally (stk : Staking.State A P) (tallyParams : TallyParams) (s : State A C)
    (proposal : Proposal A C) : Except TallyPanic (Bool × TallyResult × Bool) := do
  let (results, totalVotingPower) ←
    ((s.GetVotes proposal.ProposalID).map Prod.snd).foldlM (tallyVote stk)
      (fun _ => ZeroDec, ZeroDec)
  let tallyResults := NewTallyResultFromMap results
  match CalculateCouncilPower stk with
  | .error _ => pure (false, tallyResults, true)
  | .ok totalCouncilPower =>
    let threshold := totalCouncilPower.Mul tallyParams.Threshold
    -- without the quorum the vote is neutral
    let percentVoting := totalVotingPower.Quo totalCouncilPower
    if percentVoting.LT tallyParams.Quorum then pure (false, tallyResults, true)
    else if ((results .OptionYes).Sub (results .OptionNo)).GT threshold then
      pure (true, tallyResults, false)
    else if ((results .OptionNo).Sub (results .OptionYes)).GT threshold then
      pure (false, tallyResults, false)
    else pure (false, tallyResults, true)

/-! ### What the keeper keeps of the two stores -/

/-- Every vote record holds the voter of its key and a counted option. -/
def VotesWellKeyed (s : State A C) : Prop :=
  ∀ e ∈ s.votes.entries, e.2.Voter = (ofLex e.1).2 ∧ validVoteOption e.2.Option = true

/-- No council member holds negative shares. -/
def SharesNonneg (stk : Staking.State A P) : Prop :=
  ∀ e ∈ stk.councilMembers.entries, 0 ≤ e.2.Shares.i

/-- The weight of a voter: the shares staking returns for it, its council
member record's or zero. -/
def councilWeight (stk : Staking.State A P) (voter : A) : ℤ :=
  (stk.GetCouncilMemberShares voter).1.i

namespace VotesWellKeyed

variable {s : State A C}

/-- Only the vote store counts. -/
theorem of_votes (hs : VotesWellKeyed s) {s' : State A C} (h : s'.votes = s.votes) :
    VotesWellKeyed s' := fun e he => hs e (h ▸ he)

/-- Storing a vote under its own voter, of a counted option, keeps the store
well keyed. -/
theorem setVote (hs : VotesWellKeyed s) (proposalID : ℕ) {voterAddr : A} {vote : Vote A}
    (hvoter : vote.Voter = voterAddr) (hoption : validVoteOption vote.Option = true) :
    VotesWellKeyed (s.setVote proposalID voterAddr vote) := by
  intro e he
  rcases List.mem_insertKey he with rfl | he
  · exact ⟨hvoter, hoption⟩
  · exact hs e he

/-- A vote message stores the vote under its own voter, after checking its
option. -/
theorem AddVote [AddCommMonoid C] [LE C] [DecidableLE C] [Sub C] (hs : VotesWellKeyed s)
    {env : Env A C} {now : Time} {proposalID : ℕ} {voterAddr : A} {option : VoteOption}
    {s' : State A C} (h : s.AddVote env now proposalID voterAddr option = .ok s') :
    VotesWellKeyed s' := by
  unfold State.AddVote at h
  -- the checks in the order of the source; each failure stores nothing
  split at h
  · cases h
  split at h
  · cases h
  split at h
  · cases h
  split at h
  · cases h
  split at h
  · cases h
  rename_i hoption
  cases h
  exact hs.setVote proposalID rfl (by simpa using hoption)

/-- A genesis whose votes are of counted options is imported into a well-keyed
store: each vote is stored under its own voter, and the rest of the import
writes other stores. -/
theorem InitGenesis (hs : VotesWellKeyed s) {data : GenesisState A C} {s' : State A C}
    (hvotes : ∀ vote ∈ data.Votes, validVoteOption vote.Vote.Option = true)
    (h : s.InitGenesis data = .ok s') : VotesWellKeyed s' := by
  unfold State.InitGenesis at h
  cases hid : s.setInitialProposalID data.StartingProposalID with
  | error e =>
    rw [hid] at h
    cases h
  | ok s₁ =>
    rw [hid] at h
    cases h
    have h₁ : s₁.votes = s.votes := by
      unfold State.setInitialProposalID at hid
      split at hid <;> cases hid
      rfl
    -- backwards through the loops of the import: proposals, votes, deposits
    refine List.foldl_invariant (Q := VotesWellKeyed) (f := State.initProposal)
      (fun s' proposal h => ?_) data.Proposals _ ?_
    · -- the queues and the proposals are other stores
      unfold State.initProposal
      split <;> exact h
    refine List.foldl_invariant_of_mem (Q := VotesWellKeyed)
      (f := fun s vote => s.setVote vote.ProposalID vote.Vote.Voter vote.Vote)
      (fun _ vote hvote h => h.setVote vote.ProposalID rfl hvote) data.Votes hvotes _ ?_
    refine List.foldl_invariant (Q := VotesWellKeyed) (f := fun s deposit =>
        s.setDeposit deposit.ProposalID deposit.Deposit.Depositor deposit.Deposit)
      (fun _ _ h => h) data.Deposits _ ?_
    refine hs.of_votes ?_
    unfold State.setInitialFundingCycleID
    rcases s₁.nextFundingCycleID with _ | _ <;> exact h₁

end VotesWellKeyed

/-! ### The loop over the votes -/

/-- The round of `tallyVote` on a counted option, as a pure function: a voter
that is not a council member adds nothing. -/
def countVote (stk : Staking.State A P) (acc : (VoteOption → Dec) × Dec) (vote : Vote A) :
    (VoteOption → Dec) × Dec :=
  let cmpower := (stk.GetCouncilMemberShares vote.Voter).1
  (Function.update acc.1 vote.Option (acc.1 vote.Option + cmpower), acc.2 + cmpower)

theorem tallyVote_eq (stk : Staking.State A P) (acc : (VoteOption → Dec) × Dec)
    {vote : Vote A} (hvote : validVoteOption vote.Option = true) :
    tallyVote stk acc vote = .ok (countVote stk acc vote) := by
  unfold tallyVote countVote Staking.State.GetCouncilMemberShares
  cases stk.GetCouncilMember vote.Voter with
  | none => simp [pure, Except.pure, show ZeroDec = 0 from rfl]
  | some cm =>
    simp only [hvote, if_true]
    rfl

/-- **The loop of the tally**: on votes of counted options it does not panic,
and it gives each option the weights of the voters that chose it and the
voting power the weights of all voters. -/
theorem foldlM_tallyVote (stk : Staking.State A P) {votes : List (Vote A)}
    (hvotes : ∀ v ∈ votes, validVoteOption v.Option = true)
    (acc : (VoteOption → Dec) × Dec) :
    votes.foldlM (tallyVote stk) acc = .ok (votes.foldl (countVote stk) acc) :=
  Except.foldlM_eq_ok (f := tallyVote stk) (g := countVote stk)
    (fun acc _ hv => tallyVote_eq stk acc hv) votes hvotes acc

theorem foldl_countVote (stk : Staking.State A P) (votes : List (Vote A))
    (acc : (VoteOption → Dec) × Dec) :
    (∀ o, ((votes.foldl (countVote stk) acc).1 o).i = (acc.1 o).i +
      (votes.map fun v => if v.Option = o then councilWeight stk v.Voter else 0).sum) ∧
    (votes.foldl (countVote stk) acc).2.i =
      acc.2.i + (votes.map fun v => councilWeight stk v.Voter).sum := by
  -- induction on the votes, from any accumulator
  induction votes generalizing acc with
  | nil => simp
  | cons v votes ih =>
    obtain ⟨hopt, htotal⟩ := ih (countVote stk acc v)
    refine ⟨fun o => ?_, ?_⟩
    · rw [List.foldl_cons, hopt o]
      by_cases ho : v.Option = o
      · subst ho
        simp [countVote, councilWeight]
        ring
      · simp [countVote, councilWeight, Ne.symm ho, ho]
    · rw [List.foldl_cons, htotal]
      simp [countVote, councilWeight]
      ring

omit [LinearOrder A] in
/-- The counted options share out each vote's weight. -/
theorem sum_options {votes : List (Vote A)}
    (hvotes : ∀ v ∈ votes, validVoteOption v.Option = true) (w : Vote A → ℤ) :
    (votes.map fun v => if v.Option = .OptionYes then w v else 0).sum +
      (votes.map fun v => if v.Option = .OptionAbstain then w v else 0).sum +
      (votes.map fun v => if v.Option = .OptionNo then w v else 0).sum = (votes.map w).sum := by
  rw [← List.sum_map_add, ← List.sum_map_add]
  congr 1
  apply List.map_congr_left
  intro v hv
  have hvalid := hvotes v hv
  cases h : v.Option <;> simp_all [validVoteOption]

/-! ### The voting power is within the council's power -/

omit [LinearOrder A] [LinearOrder P] in
/-- Decimals added onto a running total add their counts of units. -/
theorem foldl_Add_i {β : Type} (f : β → Dec) (l : List β) (total : Dec) :
    (l.foldl (fun total x => total.Add (f x)) total).i =
      total.i + (l.map fun x => (f x).i).sum := by
  induction l generalizing total with
  | nil => simp
  | cons x l ih =>
    rw [List.foldl_cons, ih]
    simp only [Dec.Add, List.map_cons, List.sum_cons]
    ring

/-- **The council's power** is the sum of the shares, and there is none
exactly when it is zero: the quotient by it is never taken by zero. -/
theorem CalculateCouncilPower_spec (stk : Staking.State A P) :
    (CalculateCouncilPower stk = .error .ErrZeroVotingPower ↔
      stk.councilMembers.sumBy (fun cm => cm.Shares.i) = 0) ∧
    ∀ total, CalculateCouncilPower stk = .ok total →
      total.i = stk.councilMembers.sumBy (fun cm => cm.Shares.i) ∧ total.i ≠ 0 := by
  have hsum := foldl_Add_i (fun cm => cm.2.Shares) stk.councilMembers.entries (ToDec 0)
  simp only [Dec.toDec_i, zero_mul, zero_add] at hsum
  unfold CalculateCouncilPower SortedKV.sumBy
  dsimp only
  split
  · rename_i hzero
    rw [Dec.Equal, Dec.zeroDec_i, decide_eq_true_iff] at hzero
    simp [← hsum, hzero]
  · rename_i hzero
    rw [Dec.Equal, Dec.zeroDec_i, decide_eq_true_iff] at hzero
    refine ⟨by simp [← hsum, hzero], ?_⟩
    rintro total ⟨⟩
    exact ⟨hsum, hzero⟩

theorem councilWeight_of_mem {stk : Staking.State A P} {e : A × Staking.CouncilMember A}
    (he : e ∈ stk.councilMembers.entries) : councilWeight stk e.1 = e.2.Shares.i := by
  simp [councilWeight, Staking.State.GetCouncilMemberShares, Staking.State.GetCouncilMember,
    SortedKV.get_eq_some_iff.2 he]

theorem councilWeight_of_not_mem {stk : Staking.State A P} {voter : A}
    (hvoter : voter ∉ stk.councilMembers.entries.map Prod.fst) : councilWeight stk voter = 0 := by
  simp [councilWeight, Staking.State.GetCouncilMemberShares, Staking.State.GetCouncilMember,
    SortedKV.get_eq_none_of_not_mem hvoter]

/-- The shares summed over the members, as a sum of weights. -/
theorem sumBy_eq_sum_councilWeight (stk : Staking.State A P) :
    stk.councilMembers.sumBy (fun cm => cm.Shares.i) =
      ∑ x ∈ (stk.councilMembers.entries.map Prod.fst).toFinset, councilWeight stk x := by
  rw [List.sum_toFinset _ stk.councilMembers.nodup_keys, List.map_map, SortedKV.sumBy]
  congr 1
  apply List.map_congr_left
  intro e he
  exact (councilWeight_of_mem he).symm

/-- A weight that is not negative on a set `t` and zero off it sums over any set
to at most its sum over `t`. -/
theorem sum_le_sum_of_zero_off {ι : Type} [DecidableEq ι] (s : Finset ι) {t : Finset ι}
    {f : ι → ℤ} (hzero : ∀ x ∉ t, f x = 0) (hnonneg : ∀ x ∈ t, 0 ≤ f x) :
    ∑ x ∈ s, f x ≤ ∑ x ∈ t, f x :=
  calc ∑ x ∈ s, f x ≤ ∑ x ∈ s ∪ t, f x := by
        apply Finset.sum_le_sum_of_subset_of_nonneg Finset.subset_union_left
        intro x hx hxs
        exact hnonneg x ((Finset.mem_union.1 hx).resolve_left hxs)
    _ = ∑ x ∈ t, f x := by
        refine (Finset.sum_subset Finset.subset_union_right fun x _ hx => hzero x ?_).symm
        simpa using hx

/-- **The voting power is within the council's power**: distinct voters add
at most the shares of all members. -/
theorem votingPower_le {stk : Staking.State A P} (hc : SharesNonneg stk)
    {voters : List A} (hvoters : voters.Nodup) :
    (voters.map (councilWeight stk)).sum ≤ stk.councilMembers.sumBy fun cm => cm.Shares.i := by
  rw [← List.sum_toFinset _ hvoters, sumBy_eq_sum_councilWeight]
  apply sum_le_sum_of_zero_off
  · intro x hx
    exact councilWeight_of_not_mem (by simpa using hx)
  · intro x hx
    obtain ⟨e, he, rfl⟩ := List.mem_map.1 (List.mem_toFinset.1 hx)
    rw [councilWeight_of_mem he]
    exact hc e he

/-- **The voters of a proposal are distinct** on a well-keyed store: the
records of one proposal are ordered by the voter of their key. -/
theorem nodup_voters {s : State A C} (hs : VotesWellKeyed s) (proposalID : ℕ) :
    ((s.GetVotes proposalID).map fun e => e.2.Voter).Nodup := by
  have hsorted : (s.GetVotes proposalID).Pairwise KeyLt := s.votes.sorted.filter _
  refine List.pairwise_map.2 (hsorted.imp_of_mem fun ha hb hab => ?_)
  simp only [State.GetVotes, List.mem_filter, decide_eq_true_eq] at ha hb
  rw [(hs _ ha.1).1, (hs _ hb.1).1]
  -- the keys share the proposal, so they are ordered by the voter
  rcases Prod.Lex.lt_iff.1 hab with h | ⟨_, h⟩
  · rw [ha.2, hb.2] at h
    exact absurd h (lt_irrefl _)
  · exact ne_of_lt h

/-! ### The decision -/

/-- After the loop `tally` is pure: it passes with the quorum and yes votes over
no votes by more than the threshold, and is neutral without council power. -/
theorem tally_decision (stk : Staking.State A P) (tallyParams : TallyParams) (s : State A C)
    (proposal : Proposal A C) {results : VoteOption → Dec} {totalVotingPower : Dec}
    (hloop : ((s.GetVotes proposal.ProposalID).map Prod.snd).foldlM (tallyVote stk)
      (fun _ => ZeroDec, ZeroDec) = .ok (results, totalVotingPower)) :
    ∃ passes neutral,
      tally stk tallyParams s proposal = .ok (passes, NewTallyResultFromMap results, neutral) ∧
      (passes = true ↔ ∃ total, CalculateCouncilPower stk = .ok total ∧
        ¬ (totalVotingPower.Quo total).LT tallyParams.Quorum ∧
        ((results .OptionYes).Sub (results .OptionNo)).GT (total.Mul tallyParams.Threshold)) ∧
      (CalculateCouncilPower stk = .error .ErrZeroVotingPower →
        passes = false ∧ neutral = true) := by
  unfold tally
  rw [hloop]
  cases hpower : CalculateCouncilPower stk with
  | error e => exact ⟨false, true, rfl, by simp, fun _ => ⟨rfl, rfl⟩⟩
  | ok total =>
    -- the three comparisons, in the order of the source
    simp only [bind, Except.bind]
    split_ifs with hquorum hyes hno
    · refine ⟨false, true, rfl, ⟨nofun, ?_⟩, nofun⟩
      rintro ⟨_, ⟨⟩, hq, _⟩
      exact absurd hquorum hq
    · refine ⟨true, false, rfl, ⟨fun _ => ⟨total, rfl, hquorum, hyes⟩, fun _ => rfl⟩,
        nofun⟩
    · refine ⟨false, false, rfl, ⟨nofun, ?_⟩, nofun⟩
      rintro ⟨_, ⟨⟩, _, hy⟩
      exact absurd hy hyes
    · refine ⟨false, true, rfl, ⟨nofun, ?_⟩, nofun⟩
      rintro ⟨_, ⟨⟩, _, hy⟩
      exact absurd hy hyes

/-- **The council tally is sound** on a well-keyed store and a council without
negative shares: it counts each voter once, with the shares of its council
member record and nothing without one, never panics, shares the voting power
out among the three options, stays within the council's power, and passes a
proposal exactly when the quorum is reached and yes beats no by more than the
threshold; without council power the vote is neutral and nothing is divided. -/
theorem tally_sound (stk : Staking.State A P) (tallyParams : TallyParams) (s : State A C)
    (proposal : Proposal A C) (hs : VotesWellKeyed s) (hc : SharesNonneg stk) :
    let votes := (s.GetVotes proposal.ProposalID).map Prod.snd
    (votes.map Vote.Voter).Nodup ∧
    ∃ results totalVotingPower passes neutral,
      votes.foldlM (tallyVote stk) (fun _ => ZeroDec, ZeroDec) = .ok (results, totalVotingPower) ∧
      tally stk tallyParams s proposal = .ok (passes, NewTallyResultFromMap results, neutral) ∧
      (∀ o, (results o).i =
        (votes.map fun v => if v.Option = o then councilWeight stk v.Voter else 0).sum) ∧
      totalVotingPower.i = (votes.map fun v => councilWeight stk v.Voter).sum ∧
      (results .OptionYes).i + (results .OptionAbstain).i + (results .OptionNo).i =
        totalVotingPower.i ∧
      (CalculateCouncilPower stk = .error .ErrZeroVotingPower ↔
        stk.councilMembers.sumBy (fun cm => cm.Shares.i) = 0) ∧
      (∀ total, CalculateCouncilPower stk = .ok total →
        total.i = stk.councilMembers.sumBy (fun cm => cm.Shares.i) ∧ total.i ≠ 0 ∧
          totalVotingPower.i ≤ total.i) ∧
      (passes = true ↔ ∃ total, CalculateCouncilPower stk = .ok total ∧
        ¬ (totalVotingPower.Quo total).LT tallyParams.Quorum ∧
        ((results .OptionYes).Sub (results .OptionNo)).GT (total.Mul tallyParams.Threshold)) ∧
      (CalculateCouncilPower stk = .error .ErrZeroVotingPower →
        passes = false ∧ neutral = true) := by
  intro votes
  have hvalid : ∀ v ∈ votes, validVoteOption v.Option = true := by
    intro v hv
    obtain ⟨e, he, rfl⟩ := List.mem_map.1 hv
    exact (hs e (List.mem_filter.1 he).1).2
  have hnodup : (votes.map Vote.Voter).Nodup := by
    rw [List.map_map]
    exact nodup_voters hs proposal.ProposalID
  have hloop := foldlM_tallyVote stk hvalid (fun _ => ZeroDec, ZeroDec)
  obtain ⟨hopt, htotal⟩ := foldl_countVote stk votes (fun _ => ZeroDec, ZeroDec)
  obtain ⟨passes, neutral, htally, hpasses, hnone⟩ :=
    tally_decision stk tallyParams s proposal hloop
  obtain ⟨hzero, hpower⟩ := CalculateCouncilPower_spec stk
  refine ⟨hnodup, _, _, passes, neutral, hloop, htally, fun o => by simpa using hopt o,
    by simpa using htotal, ?_, hzero, fun total h => ?_, hpasses, hnone⟩
  · rw [hopt, hopt, hopt, htotal]
    simpa using sum_options hvalid fun v => councilWeight stk v.Voter
  · obtain ⟨htotal_i, hne⟩ := hpower total h
    refine ⟨htotal_i, hne, ?_⟩
    have hle := votingPower_le hc hnodup
    rw [List.map_map] at hle
    rw [htotal_i, htotal, Dec.zeroDec_i, zero_add]
    exact hle

end Gov
end ColorSdk
