import ColorSdk.Gov.EndBlocker
import Mathlib.Algebra.Group.Nat.Defs

/-!
# The proposal queues agree with the proposals

A proposal in its deposit period has exactly one entry in the inactive queue,
keyed by its deposit end time and its id; a proposal in its voting period has
exactly one in the active queue, keyed by its voting end time; and no other
entry exists.  `QueuesConsistent` states this proposal by proposal
(`QueueAt`), together with the freshness of the proposal counter.

Every keeper operation touches one proposal: it keeps the other proposals'
slices of the state (their record and their queue entries) as they were, and
restores the invariant at its own proposal.  The end-of-block loops walk a
snapshot of a queue while they change it; their invariant adds that the
entries still to come are still queued, which holds because an entry's key
determines its proposal.  Hence every queue entry the loops read names a stored
proposal, and the panic "proposal %d does not exist" never fires.

## Main definitions

* `QueueAt s id`, `QueuesConsistent s`.

## Main results

* `QueuesConsistent.deliverMsg` — a transaction keeps the invariant.
* `QueuesConsistent.endBlocker` — the end of block keeps it and does not panic
  for a missing proposal.
* `proposal_queues_consistent` — **the invariant holds along every run**.

## References

* src/x/gov/keeper.go, src/x/gov/endblocker.go
-/

namespace ColorSdk
namespace Gov

open ProposalStatus

variable {A C : Type} [LinearOrder A]

/-! ### The invariant -/

/-- The slice of the proposal `id` agrees: its queue entries name it and match
its status and times, it has the entry its status asks for, and the counter
has not handed out its id yet if it is not stored. -/
structure QueueAt (s : State A C) (id : ℕ) : Prop where
  inactive : ∀ t v, s.inactiveQueue.get (toLex (t, id)) = some v → v = id ∧
    ∃ p, s.GetProposal id = some p ∧ p.Status = StatusDepositPeriod ∧ p.DepositEndTime = t
  active : ∀ t v, s.activeQueue.get (toLex (t, id)) = some v → v = id ∧
    ∃ p, s.GetProposal id = some p ∧ p.Status = StatusVotingPeriod ∧ p.VotingEndTime = t
  stored : ∀ p, s.GetProposal id = some p → p.ProposalID = id ∧
    (p.Status = StatusDepositPeriod → s.inactiveQueue.get (toLex (p.DepositEndTime, id)) = some id) ∧
    (p.Status = StatusVotingPeriod → s.activeQueue.get (toLex (p.VotingEndTime, id)) = some id)
  fresh : ∀ n, s.nextProposalID = some n → n ≤ id → s.GetProposal id = none

/-- **The queues agree with the proposals**, at every proposal id. -/
def QueuesConsistent (s : State A C) : Prop := ∀ id, QueueAt s id

/-- Two states have the same slice at `id`. -/
structure SameSlice (s s' : State A C) (id : ℕ) : Prop where
  proposal : s'.GetProposal id = s.GetProposal id
  inactive : ∀ t, s'.inactiveQueue.get (toLex (t, id)) = s.inactiveQueue.get (toLex (t, id))
  active : ∀ t, s'.activeQueue.get (toLex (t, id)) = s.activeQueue.get (toLex (t, id))
  next : s'.nextProposalID = s.nextProposalID

theorem SameSlice.refl (s : State A C) (id : ℕ) : SameSlice s s id := ⟨rfl, fun _ => rfl, fun _ => rfl, rfl⟩

theorem SameSlice.trans {s s' s'' : State A C} {id : ℕ} (h : SameSlice s s' id)
    (h' : SameSlice s' s'' id) : SameSlice s s'' id :=
  ⟨h'.proposal.trans h.proposal, fun t => (h'.inactive t).trans (h.inactive t),
    fun t => (h'.active t).trans (h.active t), h'.next.trans h.next⟩

namespace QueueAt

variable {s s' : State A C} {id : ℕ}

theorem of_sameSlice (h : QueueAt s id) (hs : SameSlice s s' id) : QueueAt s' id where
  inactive t v hv := by
    rw [hs.inactive, hs.proposal] at *
    exact h.inactive t v hv
  active t v hv := by
    rw [hs.active, hs.proposal] at *
    exact h.active t v hv
  stored p hp := by
    rw [hs.proposal] at hp
    rw [hs.inactive, hs.active]
    exact h.stored p hp
  fresh n hn := by
    rw [hs.next] at hn
    rw [hs.proposal]
    exact h.fresh n hn

end QueueAt

/-- Two states agree on the proposals, the queues and the proposal counter. -/
structure SameQueues (s s' : State A C) : Prop where
  proposals : s'.proposals = s.proposals
  inactiveQueue : s'.inactiveQueue = s.inactiveQueue
  activeQueue : s'.activeQueue = s.activeQueue
  nextProposalID : s'.nextProposalID = s.nextProposalID

namespace SameQueues

variable {s s' s'' : State A C}

theorem refl (s : State A C) : SameQueues s s := ⟨rfl, rfl, rfl, rfl⟩

theorem trans (h : SameQueues s s') (h' : SameQueues s' s'') : SameQueues s s'' :=
  ⟨h'.proposals.trans h.proposals, h'.inactiveQueue.trans h.inactiveQueue,
    h'.activeQueue.trans h.activeQueue, h'.nextProposalID.trans h.nextProposalID⟩

theorem sameSlice (h : SameQueues s s') (id : ℕ) : SameSlice s s' id where
  proposal := by simp [State.GetProposal, h.proposals]
  inactive _ := by rw [h.inactiveQueue]
  active _ := by rw [h.activeQueue]
  next := h.nextProposalID

theorem queuesConsistent (h : SameQueues s s') (hs : QueuesConsistent s) : QueuesConsistent s' :=
  fun id => (hs id).of_sameSlice (h.sameSlice id)

theorem SetBlockTime (s : State A C) (now : Time) : SameQueues s (s.SetBlockTime now) := by
  rw [State.SetBlockTime]
  split
  · exact refl s
  · exact ⟨rfl, rfl, rfl, rfl⟩

theorem AddFundingCycle {now : Time} (s : State A C) :
    (s.AddFundingCycle now).Sat (· = .addFundingCycleFail) (SameQueues s) := by
  rw [State.AddFundingCycle, State.GetNewFundingCycleID]
  cases s.nextFundingCycleID
  · rfl
  · exact ⟨rfl, rfl, rfl, rfl⟩

theorem setProposal (h : SameQueues s s') (p : Proposal A C) :
    SameQueues (s.SetProposal p) (s'.SetProposal p) :=
  ⟨by simp [State.SetProposal, h.proposals], h.inactiveQueue, h.activeQueue, h.nextProposalID⟩

theorem setDeposit (s : State A C) (proposalID : ℕ) (depositorAddr : A) (deposit : Deposit A C) :
    SameQueues s (s.setDeposit proposalID depositorAddr deposit) :=
  ⟨rfl, rfl, rfl, rfl⟩

end SameQueues

/-- A store with no proposal and empty queues is consistent. -/
theorem QueuesConsistent.of_empty {s : State A C} (hp : s.proposals = .empty)
    (hi : s.inactiveQueue = .empty) (ha : s.activeQueue = .empty) : QueuesConsistent s := by
  have hnone : ∀ id, s.GetProposal id = none := fun id => by simp [State.GetProposal, hp]
  refine fun id => ⟨fun t v hv => ?_, fun t v hv => ?_, fun p hp' => ?_, fun _ _ _ => hnone id⟩
  · simp [hi] at hv
  · simp [ha] at hv
  · rw [hnone] at hp'
    cases hp'

/-! ### Operations on one proposal -/

section Operations

variable {s : State A C} {id j : ℕ}

/-- A proposal agrees with the state when a record is stored at its id with the
same status and times: storing it changes what no queue entry means. -/
def Agree (s : State A C) (p : Proposal A C) : Prop :=
  ∃ q, s.GetProposal p.ProposalID = some q ∧ q.Status = p.Status ∧
    q.DepositEndTime = p.DepositEndTime ∧ q.VotingEndTime = p.VotingEndTime

theorem Agree.of_sameSlice {s' : State A C} {p : Proposal A C} (hp : Agree s p)
    (hs : SameSlice s s' p.ProposalID) : Agree s' p := by
  rw [Agree, hs.proposal]
  exact hp

/-- Storing an agreeing proposal keeps every proposal that agreed. -/
theorem Agree.setProposal {p q : Proposal A C} (hp : Agree s p) (hq : Agree s q) :
    Agree (s.SetProposal q) p := by
  by_cases hid : p.ProposalID = q.ProposalID
  · obtain ⟨r, hr, hs, hd, hv⟩ := hp
    obtain ⟨r', hr', hs', hd', hv'⟩ := hq
    rw [hid, hr'] at hr
    cases hr
    exact ⟨q, by simp [hid], hs'.symm.trans hs, hd'.symm.trans hd, hv'.symm.trans hv⟩
  · obtain ⟨r, hr, hrest⟩ := hp
    exact ⟨r, by simpa [hid] using hr, hrest⟩

/-- A stored record agrees with its state. -/
theorem QueueAt.agree (h : QueueAt s id) {q : Proposal A C} (hq : s.GetProposal id = some q) :
    Agree s q :=
  ⟨q, by rw [(h.stored q hq).1, hq], rfl, rfl, rfl⟩

/-- A stored proposal may be rewritten with anything but its id, status and
times. -/
theorem QueueAt.setProposal (h : QueueAt s id) {p : Proposal A C} (hp : Agree s p) :
    QueueAt (s.SetProposal p) id := by
  obtain ⟨q, hq, hs, hd, hv⟩ := hp
  by_cases hid : id = p.ProposalID
  · subst hid
    have hq' := h.stored q hq
    refine ⟨fun t v hv' => ?_, fun t v hv' => ?_, fun p' hp' => ?_, fun n hn hle => ?_⟩
    · obtain ⟨rfl, q', hq'', hst, rfl⟩ := h.inactive t v (by simpa using hv')
      rw [hq] at hq''
      cases hq''
      exact ⟨rfl, p, by simp, hs.symm.trans hst, hd.symm⟩
    · obtain ⟨rfl, q', hq'', hst, rfl⟩ := h.active t v (by simpa using hv')
      rw [hq] at hq''
      cases hq''
      exact ⟨rfl, p, by simp, hs.symm.trans hst, hv.symm⟩
    · simp only [State.GetProposal_SetProposal, if_true, Option.some.injEq] at hp'
      subst hp'
      refine ⟨rfl, fun hst => ?_, fun hst => ?_⟩
      · simpa [hd] using hq'.2.1 (hs.trans hst)
      · simpa [hv] using hq'.2.2 (hs.trans hst)
    · rw [h.fresh n (by simpa using hn) hle] at hq
      cases hq
  · refine h.of_sameSlice ⟨?_, fun _ => rfl, fun _ => rfl, rfl⟩
    simp [hid]

theorem QueuesConsistent.setProposal (h : QueuesConsistent s) {p : Proposal A C}
    (hp : Agree s p) : QueuesConsistent (s.SetProposal p) :=
  fun id => (h id).setProposal hp

theorem sameSlice_setProposal {p : Proposal A C} (hj : j ≠ p.ProposalID) :
    SameSlice s (s.SetProposal p) j :=
  ⟨by simp [hj], fun _ => rfl, fun _ => rfl, rfl⟩

theorem sameSlice_activateVotingPeriod (now : Time) (p : Proposal A C) (hj : j ≠ p.ProposalID) :
    SameSlice s (State.activateVotingPeriod now s p) j where
  proposal := by simp [State.activateVotingPeriod, hj]
  inactive _ := by simp [State.activateVotingPeriod, hj]
  active _ := by simp [State.activateVotingPeriod, hj]
  next := rfl

/-- Starting the voting period of a proposal whose only inactive entries lie at
its deposit end time, and which has no active entry, leaves its slice
consistent. -/
theorem queueAt_activateVotingPeriod (now : Time) {p : Proposal A C}
    (hin : ∀ t v, s.inactiveQueue.get (toLex (t, p.ProposalID)) = some v → t = p.DepositEndTime)
    (hact : ∀ t, s.activeQueue.get (toLex (t, p.ProposalID)) = none)
    (hfresh : ∀ n, s.nextProposalID = some n → p.ProposalID < n) :
    QueueAt (State.activateVotingPeriod now s p) p.ProposalID where
  inactive t v hv := by
    simp only [State.activateVotingPeriod, State.inactiveQueue_InsertActiveProposalQueue,
      State.inactiveQueue_RemoveFromInactiveProposalQueue, State.inactiveQueue_SetProposal,
      SortedKV.get_delete, toLex_inj, Prod.mk.injEq, and_true] at hv
    split_ifs at hv with ht
    exact absurd (hin t v hv) ht
  active t v hv := by
    simp only [State.activateVotingPeriod, State.activeQueue_InsertActiveProposalQueue,
      State.activeQueue_RemoveFromInactiveProposalQueue, State.activeQueue_SetProposal,
      SortedKV.get_set, toLex_inj, Prod.mk.injEq, and_true] at hv
    split_ifs at hv with ht
    · cases hv
      subst ht
      exact ⟨rfl, { p with VotingStartTime := t, VotingEndTime := t, Status := StatusVotingPeriod },
        by simp [State.activateVotingPeriod], rfl, rfl⟩
    · rw [hact t] at hv
      cases hv
  stored p' hp' := by
    simp only [State.activateVotingPeriod, State.GetProposal_InsertActiveProposalQueue,
      State.GetProposal_RemoveFromInactiveProposalQueue, State.GetProposal_SetProposal,
      if_true, Option.some.injEq] at hp'
    subst hp'
    refine ⟨rfl, fun hst => by simp at hst, fun _ => ?_⟩
    simp [State.activateVotingPeriod]
  fresh n hn hle := absurd hle (Nat.not_le.2 (hfresh n (by simpa [State.activateVotingPeriod] using hn)))

/-- A queue entry's key names a stored proposal that the counter has passed. -/
theorem QueueAt.lt_of_stored (h : QueueAt s id) {p : Proposal A C}
    (hp : s.GetProposal id = some p) : ∀ n, s.nextProposalID = some n → id < n := by
  intro n hn
  by_contra hle
  rw [h.fresh n hn (Nat.not_lt.1 hle)] at hp
  cases hp

/-- Starting the voting period of a stored proposal in its deposit period. -/
theorem QueuesConsistent.activateVotingPeriod (h : QueuesConsistent s) (now : Time)
    {p q : Proposal A C} (hq : s.GetProposal p.ProposalID = some q)
    (hst : q.Status = StatusDepositPeriod) (hd : p.DepositEndTime = q.DepositEndTime) :
    QueuesConsistent (State.activateVotingPeriod now s p) := by
  intro j
  by_cases hj : j = p.ProposalID
  · subst hj
    refine queueAt_activateVotingPeriod now (fun t v hv => ?_) (fun t => ?_)
      ((h _).lt_of_stored hq)
    · obtain ⟨-, q', hq', -, rfl⟩ := (h _).inactive t v hv
      rw [hq] at hq'
      cases hq'
      exact hd.symm
    · -- a proposal in its deposit period has no active entry
      cases hv : s.activeQueue.get (toLex (t, p.ProposalID)) with
      | none => rfl
      | some v =>
        obtain ⟨-, q', hq', hst', -⟩ := (h _).active t v hv
        rw [hq] at hq'
        cases hq'
        rw [hst] at hst'
        cases hst'
  · exact (h j).of_sameSlice (sameSlice_activateVotingPeriod now p hj)

/-- A slice with no queue entry, and no record or a record in a final status,
is consistent. -/
theorem queueAt_of_unqueued (hin : ∀ t, s.inactiveQueue.get (toLex (t, id)) = none)
    (hact : ∀ t, s.activeQueue.get (toLex (t, id)) = none)
    (hp : ∀ p, s.GetProposal id = some p →
      p.ProposalID = id ∧ p.Status ≠ StatusDepositPeriod ∧ p.Status ≠ StatusVotingPeriod)
    (hfresh : ∀ n, s.nextProposalID = some n → n ≤ id → s.GetProposal id = none) :
    QueueAt s id where
  inactive t v hv := by
    rw [hin t] at hv
    cases hv
  active t v hv := by
    rw [hact t] at hv
    cases hv
  stored p h := by
    obtain ⟨hid, hnd, hnv⟩ := hp p h
    exact ⟨hid, fun hd => absurd hd hnd, fun hv => absurd hv hnv⟩
  fresh := hfresh

/-- An inactive entry of a stored proposal lies at its deposit end time. -/
theorem QueueAt.inactive_eq_none (h : QueueAt s id) {q : Proposal A C}
    (hq : s.GetProposal id = some q) {t : Time} (ht : t ≠ q.DepositEndTime) :
    s.inactiveQueue.get (toLex (t, id)) = none := by
  cases hv : s.inactiveQueue.get (toLex (t, id)) with
  | none => rfl
  | some v =>
    obtain ⟨-, q', hq', -, rfl⟩ := h.inactive t v hv
    rw [hq] at hq'
    cases hq'
    exact absurd rfl ht

/-- An active entry of a stored proposal lies at its voting end time. -/
theorem QueueAt.active_eq_none (h : QueueAt s id) {q : Proposal A C}
    (hq : s.GetProposal id = some q) {t : Time} (ht : t ≠ q.VotingEndTime) :
    s.activeQueue.get (toLex (t, id)) = none := by
  cases hv : s.activeQueue.get (toLex (t, id)) with
  | none => rfl
  | some v =>
    obtain ⟨-, q', hq', -, rfl⟩ := h.active t v hv
    rw [hq] at hq'
    cases hq'
    exact absurd rfl ht

/-- Removing the entries of a stored proposal at its times leaves it no entry. -/
theorem QueueAt.removed (h : QueueAt s id) {q : Proposal A C} (hq : s.GetProposal id = some q)
    (t : Time) :
    ((s.RemoveFromInactiveProposalQueue q.DepositEndTime id).RemoveFromActiveProposalQueue
        q.VotingEndTime id).inactiveQueue.get (toLex (t, id)) = none ∧
    ((s.RemoveFromInactiveProposalQueue q.DepositEndTime id).RemoveFromActiveProposalQueue
        q.VotingEndTime id).activeQueue.get (toLex (t, id)) = none := by
  simp only [State.inactiveQueue_RemoveFromActiveProposalQueue,
    State.inactiveQueue_RemoveFromInactiveProposalQueue, State.activeQueue_RemoveFromActiveProposalQueue,
    State.activeQueue_RemoveFromInactiveProposalQueue, SortedKV.get_delete, toLex_inj,
    Prod.mk.injEq, and_true]
  constructor
  · split_ifs with ht
    · rfl
    · exact h.inactive_eq_none hq ht
  · split_ifs with ht
    · rfl
    · exact h.active_eq_none hq ht

theorem sameSlice_remove (t t' : Time) (hj : j ≠ id) :
    SameSlice s ((s.RemoveFromInactiveProposalQueue t id).RemoveFromActiveProposalQueue t' id) j where
  proposal := rfl
  inactive _ := by simp [hj]
  active _ := by simp [hj]
  next := rfl

/-- Deleting a stored proposal removes its whole slice. -/
theorem QueuesConsistent.DeleteProposal (h : QueuesConsistent s) {q : Proposal A C}
    (hq : s.GetProposal id = some q) :
    ∃ s', s.DeleteProposal id = .ok s' ∧ QueuesConsistent s' ∧ ∀ j ≠ id, SameSlice s s' j := by
  refine ⟨_, by rw [State.DeleteProposal, hq], fun j => ?_, fun j hj => ?_⟩
  · by_cases hj : j = id
    · subst hj
      have hrem := (h j).removed hq
      refine queueAt_of_unqueued (fun t => (hrem t).1) (fun t => (hrem t).2) (fun p hp => ?_)
        (fun _ _ _ => ?_)
      · simp [State.GetProposal] at hp
      · simp [State.GetProposal]
    · have hs := sameSlice_remove (s := s) q.DepositEndTime q.VotingEndTime hj
      exact (h j).of_sameSlice ⟨by simp [State.GetProposal, hj], hs.inactive, hs.active, rfl⟩
  · have hs := sameSlice_remove (s := s) q.DepositEndTime q.VotingEndTime hj
    exact ⟨by simp [State.GetProposal, hj], hs.inactive, hs.active, rfl⟩

/-- Taking an agreeing proposal out of both queues at its times, and storing
it in a final status, leaves its slice consistent and every other slice as it
was. -/
theorem QueuesConsistent.retire (h : QueuesConsistent s) {p q : Proposal A C} (hp : Agree s p)
    (hid : q.ProposalID = p.ProposalID) (hd : q.Status ≠ StatusDepositPeriod)
    (hv : q.Status ≠ StatusVotingPeriod) :
    QueuesConsistent (((s.RemoveFromInactiveProposalQueue p.DepositEndTime p.ProposalID
        ).RemoveFromActiveProposalQueue p.VotingEndTime p.ProposalID).SetProposal q) ∧
      ∀ j ≠ p.ProposalID, SameSlice s (((s.RemoveFromInactiveProposalQueue p.DepositEndTime
        p.ProposalID).RemoveFromActiveProposalQueue p.VotingEndTime p.ProposalID).SetProposal q) j := by
  obtain ⟨r, hr, -, hrd, hrv⟩ := hp
  have hframe : ∀ j ≠ p.ProposalID, SameSlice s (((s.RemoveFromInactiveProposalQueue
      p.DepositEndTime p.ProposalID).RemoveFromActiveProposalQueue p.VotingEndTime
      p.ProposalID).SetProposal q) j := fun j hj =>
    (sameSlice_remove _ _ hj).trans (sameSlice_setProposal (hid ▸ hj))
  refine ⟨fun j => ?_, hframe⟩
  by_cases hj : j = p.ProposalID
  · subst hj
    -- the entries of `r` lie at its own times, which are `p`'s
    have hrem := (h _).removed hr
    rw [hrd, hrv] at hrem
    refine queueAt_of_unqueued (fun t => (hrem t).1) (fun t => (hrem t).2) (fun p' hp' => ?_)
      (fun n hn hle => ?_)
    · simp only [State.GetProposal_SetProposal, hid, if_true, Option.some.injEq] at hp'
      subst hp'
      exact ⟨hid, hd, hv⟩
    · exact absurd hle (Nat.not_le.2 ((h _).lt_of_stored hr n (by simpa using hn)))
  · exact (h j).of_sameSlice (hframe j hj)

/-- Moving the counter past its current value keeps every other slice. -/
theorem QueueAt.bump (h : QueueAt s j) {n : ℕ} (hn : s.nextProposalID = some n) :
    QueueAt { s with nextProposalID := some (n + 1) } j where
  inactive := h.inactive
  active := h.active
  stored := h.stored
  fresh m hm hle := by
    cases hm
    exact h.fresh n hn (by omega)

/-- A proposal not stored has no queue entry. -/
theorem QueueAt.unqueued_of_none (h : QueueAt s id) (hnone : s.GetProposal id = none) (t : Time) :
    s.inactiveQueue.get (toLex (t, id)) = none ∧ s.activeQueue.get (toLex (t, id)) = none := by
  constructor
  · cases hv : s.inactiveQueue.get (toLex (t, id)) with
    | none => rfl
    | some v =>
      obtain ⟨-, p, hp, -⟩ := h.inactive t v hv
      rw [hnone] at hp
      cases hp
  · cases hv : s.activeQueue.get (toLex (t, id)) with
    | none => rfl
    | some v =>
      obtain ⟨-, p, hp, -⟩ := h.active t v hv
      rw [hnone] at hp
      cases hp

/-- Storing a proposal in its deposit period with its inactive entry, where it
had no entry. -/
theorem queueAt_insertInactive {p : Proposal A C}
    (hin : ∀ t, s.inactiveQueue.get (toLex (t, p.ProposalID)) = none)
    (hact : ∀ t, s.activeQueue.get (toLex (t, p.ProposalID)) = none)
    (hst : p.Status = StatusDepositPeriod)
    (hfresh : ∀ n, s.nextProposalID = some n → p.ProposalID < n) :
    QueueAt ((s.SetProposal p).InsertInactiveProposalQueue p.DepositEndTime p.ProposalID)
      p.ProposalID where
  inactive t v hv := by
    simp only [State.inactiveQueue_InsertInactiveProposalQueue, State.inactiveQueue_SetProposal,
      SortedKV.get_set, toLex_inj, Prod.mk.injEq, and_true] at hv
    split_ifs at hv with ht
    · cases hv
      exact ⟨rfl, p, by simp, hst, ht.symm⟩
    · rw [hin t] at hv
      cases hv
  active t v hv := by
    simp only [State.activeQueue_InsertInactiveProposalQueue, State.activeQueue_SetProposal,
      hact t] at hv
    cases hv
  stored p' hp' := by
    simp only [State.GetProposal_InsertInactiveProposalQueue, State.GetProposal_SetProposal,
      if_true, Option.some.injEq] at hp'
    subst hp'
    exact ⟨rfl, fun _ => by simp, fun hv => absurd (hst.symm.trans hv) (by decide)⟩
  fresh n hn hle := absurd hle (Nat.not_le.2 (hfresh n (by simpa using hn)))

end Operations

section Handlers

variable {s : State A C}

/-- **Voting** writes a vote record only. -/
theorem QueuesConsistent.AddVote (h : QueuesConsistent s) {env : Env A C} {now : Time}
    {proposalID : ℕ} {voterAddr : A} {option : VoteOption} {s' : State A C}
    (hr : State.AddVote env now s proposalID voterAddr option = .ok s') : QueuesConsistent s' := by
  rw [State.AddVote] at hr
  -- each check either fails with an error or passes on to the next
  split at hr
  · cases hr
  split at hr
  · cases hr
  split at hr
  · cases hr
  split at hr
  · cases hr
  split at hr
  · cases hr
  cases hr
  exact SameQueues.queuesConsistent (s := s) ⟨rfl, rfl, rfl, rfl⟩ h

variable [AddCommMonoid C]

/-- **Submitting** stores a fresh proposal with its one queue entry. -/
theorem QueuesConsistent.SubmitProposal (h : QueuesConsistent s) {now : Time}
    {content : ProposalContent A C} {r : Proposal A C × State A C}
    (hr : State.SubmitProposal now s content = .ok r) : QueuesConsistent r.2 := by
  cases hn : s.nextProposalID with
  | none => simp [State.SubmitProposal, State.getNewProposalID, hn, bind, Except.bind] at hr
  | some n =>
    simp only [State.SubmitProposal, State.getNewProposalID, hn, bind, Except.bind, pure,
      Except.pure] at hr
    -- the id handed out is fresh: no record and no entry
    have hnone : s.GetProposal n = none := (h n).fresh n hn (Nat.le_refl n)
    have hkeys := (h n).unqueued_of_none hnone
    split at hr <;> cases hr <;> intro j <;> dsimp only <;> by_cases hj : j = n
    · subst hj
      exact queueAt_insertInactive (fun t => (hkeys t).1) (fun t => (hkeys t).2) rfl
        (fun m hm => by cases hm; exact Nat.lt_succ_self _)
    · refine ((h j).bump hn).of_sameSlice ⟨by simp [hj], fun t => ?_, fun t => rfl, rfl⟩
      simp [hj]
    · subst hj
      exact queueAt_activateVotingPeriod now (fun t v hv => by simp [(hkeys t).1] at hv)
        (fun t => by simpa using (hkeys t).2) (fun m hm => by cases hm; exact Nat.lt_succ_self _)
    · refine QueueAt.of_sameSlice ?_ (sameSlice_activateVotingPeriod now _ hj)
      exact ((h j).bump hn).of_sameSlice ⟨by simp [hj], fun _ => rfl, fun _ => rfl, rfl⟩

variable [LE C] [DecidableLE C] [Sub C] (DepositedCoinsAccAddr BurnedDepositCoinsAccAddr : A)

/-- **Depositing** raises a stored proposal's total, and may start its voting
period. -/
theorem QueuesConsistent.AddDeposit (h : QueuesConsistent s) {now : Time} {proposalID : ℕ}
    {depositorAddr : A} {depositAmount : C} {r : State A C × Bool}
    (hr : State.AddDeposit DepositedCoinsAccAddr now s proposalID depositorAddr depositAmount =
      .ok r) : QueuesConsistent r.1 := by
  rw [State.AddDeposit] at hr
  split at hr
  · cases hr
  rename_i proposal hp
  split at hr
  · cases hr
  split at hr
  · cases hr
  rename_i balances _
  let s₁ : State A C := { s with balances := balances }
  let proposal' := { proposal with TotalDeposit := proposal.TotalDeposit + depositAmount }
  have h₁ : QueuesConsistent s₁ := (⟨rfl, rfl, rfl, rfl⟩ : SameQueues s s₁).queuesConsistent h
  have hagree : Agree s₁ proposal' := (h₁ proposalID).agree (q := proposal) hp
  have h₂ : QueuesConsistent (s₁.SetProposal proposal') := h₁.setProposal hagree
  dsimp only at hr
  -- the deposit is recorded last, over whichever state the minimum leads to
  split_ifs at hr with hmin
  · have h₃ := h₂.activateVotingPeriod now (q := proposal') (by simp) hmin.1 rfl
    split at hr <;> cases hr <;> exact (SameQueues.setDeposit _ _ _ _).queuesConsistent h₃
  · split at hr <;> cases hr <;> exact (SameQueues.setDeposit _ _ _ _).queuesConsistent h₂

theorem QueuesConsistent.handleMsgSubmitProposal (h : QueuesConsistent s) {env : Env A C}
    {now : Time} {kind : ProposalKind} {fund : C} {cycle : ℕ} {proposer : A} {deposit : C}
    {s' : State A C}
    (hr : State.handleMsgSubmitProposal DepositedCoinsAccAddr env now s kind fund cycle proposer
      deposit = .ok s') : QueuesConsistent s' := by
  simp only [State.handleMsgSubmitProposal, bind, Except.bind, pure, Except.pure, throw,
    throwThe, MonadExceptOf.throw] at hr
  split at hr
  · cases hr
  split at hr
  · cases hr
  split at hr
  · cases hr
  rename_i r hsubmit
  split at hr
  · cases hr
  rename_i r' hdeposit
  cases hr
  exact (h.SubmitProposal hsubmit).AddDeposit DepositedCoinsAccAddr hdeposit

/-- **A transaction keeps the invariant**: a handler that succeeds keeps it, and
one that fails changes nothing. -/
theorem QueuesConsistent.DeliverMsg (h : QueuesConsistent s) (env : Env A C) (now : Time)
    (msg : Msg A C) : QueuesConsistent (s.DeliverMsg DepositedCoinsAccAddr env now msg) := by
  rw [State.DeliverMsg]
  split
  · rename_i s' hs'
    cases msg with
    | MsgSubmitProposal kind fund cycle proposer deposit =>
      exact h.handleMsgSubmitProposal DepositedCoinsAccAddr hs'
    | MsgDeposit proposalID depositor amount =>
      simp only [State.NewHandler, Except.map] at hs'
      split at hs'
      · cases hs'
      · rename_i r hr
        cases hs'
        exact h.AddDeposit DepositedCoinsAccAddr hr
    | MsgVote proposalID voter option => exact h.AddVote hs'
  · exact h

end Handlers

/-! ### Loops over a snapshot of a queue -/

/-- A panic other than a missing proposal. -/
def Panic.NotMissing (e : Panic) : Prop := ∀ id, e ≠ .proposalDoesNotExist id

theorem QueuesConsistent.AddFundingCycle {s : State A C} (h : QueuesConsistent s) (now : Time) :
    (s.AddFundingCycle now).Sat Panic.NotMissing QueuesConsistent :=
  (SameQueues.AddFundingCycle s).mono (fun _ he => by subst he; exact fun _ => nofun)
    fun _ hs => hs.queuesConsistent h

section Loops

variable {s s' : State A C}

/-- An inactive entry names a stored proposal in its deposit period and lies at
its deposit end time. -/
theorem QueuesConsistent.inactive_entry (h : QueuesConsistent s) {k : Time ×ₗ ℕ} {v : ℕ}
    (hv : s.inactiveQueue.get k = some v) :
    ∃ p, s.GetProposal v = some p ∧ p.ProposalID = v ∧ p.Status = StatusDepositPeriod ∧
      k = toLex (p.DepositEndTime, v) := by
  obtain ⟨rfl, p, hp, hst, ht⟩ := (h (ofLex k).2).inactive (ofLex k).1 v hv
  exact ⟨p, hp, ((h _).stored p hp).1, hst, by rw [ht]; rfl⟩

/-- An active entry names a stored proposal in its voting period and lies at
its voting end time. -/
theorem QueuesConsistent.active_entry (h : QueuesConsistent s) {k : Time ×ₗ ℕ} {v : ℕ}
    (hv : s.activeQueue.get k = some v) :
    ∃ p, s.GetProposal v = some p ∧ p.ProposalID = v ∧ p.Status = StatusVotingPeriod ∧
      k = toLex (p.VotingEndTime, v) := by
  obtain ⟨rfl, p, hp, hst, ht⟩ := (h (ofLex k).2).active (ofLex k).1 v hv
  exact ⟨p, hp, ((h _).stored p hp).1, hst, by rw [ht]; rfl⟩

/-- A proposal id is held at one inactive key only. -/
theorem QueuesConsistent.inactive_inj (h : QueuesConsistent s) {e : (Time ×ₗ ℕ) × ℕ}
    (he : s.inactiveQueue.get e.1 = some e.2) :
    ∀ k, s.inactiveQueue.get k = some e.2 → k = e.1 := by
  intro k hk
  obtain ⟨p, hp, -, -, rfl⟩ := h.inactive_entry hk
  obtain ⟨p', hp', -, -, he'⟩ := h.inactive_entry he
  rw [hp] at hp'
  cases hp'
  exact he'.symm

/-- A proposal id is held at one active key only. -/
theorem QueuesConsistent.active_inj (h : QueuesConsistent s) {e : (Time ×ₗ ℕ) × ℕ}
    (he : s.activeQueue.get e.1 = some e.2) :
    ∀ k, s.activeQueue.get k = some e.2 → k = e.1 := by
  intro k hk
  obtain ⟨p, hp, -, -, rfl⟩ := h.active_entry hk
  obtain ⟨p', hp', -, -, he'⟩ := h.active_entry he
  rw [hp] at hp'
  cases hp'
  exact he'.symm

/-- A step that keeps every slice but `i` keeps the inactive entries of every
other id. -/
theorem QueuesConsistent.inactive_frame (h : QueuesConsistent s) {i : ℕ}
    (hs : ∀ j ≠ i, SameSlice s s' j) :
    ∀ k v, s.inactiveQueue.get k = some v → v ≠ i → s'.inactiveQueue.get k = some v := by
  intro k v hv hvi
  obtain ⟨p, -, -, -, rfl⟩ := h.inactive_entry hv
  rw [(hs v hvi).inactive]
  exact hv

/-- A step that keeps every slice but `i` keeps the active entries of every
other id. -/
theorem QueuesConsistent.active_frame (h : QueuesConsistent s) {i : ℕ}
    (hs : ∀ j ≠ i, SameSlice s s' j) :
    ∀ k v, s.activeQueue.get k = some v → v ≠ i → s'.activeQueue.get k = some v := by
  intro k v hv hvi
  obtain ⟨p, -, -, -, rfl⟩ := h.active_entry hv
  rw [(hs v hvi).active]
  exact hv

/-- **The rule of inactive-queue loops.**  If a round at a queued entry keeps
the invariant and the slices of every other proposal, a loop over a snapshot of
the inactive queue keeps the invariant. -/
theorem inactive_loop {f : State A C → (Time ×ₗ ℕ) × ℕ → Except Panic (State A C)}
    (hf : ∀ s e, QueuesConsistent s → s.inactiveQueue.get e.1 = some e.2 →
      (f s e).Sat Panic.NotMissing fun s' => QueuesConsistent s' ∧ ∀ j ≠ e.2, SameSlice s s' j)
    (l : List ((Time ×ₗ ℕ) × ℕ)) (h : QueuesConsistent s)
    (hl : SortedKV.Stored s.inactiveQueue l) :
    (l.foldlM f s).Sat Panic.NotMissing QueuesConsistent := by
  -- the invariant adds that the entries still to come are still queued
  refine (Except.sat_foldlM (fun s rest => QueuesConsistent s ∧ SortedKV.Stored s.inactiveQueue rest)
    (fun s e rest hI => ?_) l s ⟨h, hl⟩).mono (fun _ he => he) fun _ hI => hI.1
  obtain ⟨h, hl⟩ := hI
  have he := hl.mem e List.mem_cons_self
  exact (hf s e h he).mono (fun _ he => he) fun s' ⟨h', hs⟩ =>
    ⟨h', hl.tail (h.inactive_inj he) (h.inactive_frame hs)⟩

/-- What a round of an active-queue loop does at the proposal `i`: it keeps the
invariant and every other slice, and collects at most its own proposal, which
agrees with the state. -/
structure ActiveRound (s : State A C) (proposals : List (Proposal A C)) (i : ℕ)
    (r : State A C × List (Proposal A C) × List TallyResult) : Prop where
  consistent : QueuesConsistent r.1
  frame : ∀ j ≠ i, SameSlice s r.1 j
  collected : r.2.1 = proposals ∨ ∃ p, r.2.1 = proposals ++ [p] ∧ p.ProposalID = i ∧ Agree r.1 p

/-- The proposals an active loop has collected agree with the state, have
distinct ids, and none is visited again. -/
structure Collected (s : State A C) (proposals : List (Proposal A C))
    (rest : List ((Time ×ₗ ℕ) × ℕ)) : Prop where
  agree : ∀ p ∈ proposals, Agree s p
  unvisited : ∀ p ∈ proposals, ∀ e ∈ rest, e.2 ≠ p.ProposalID
  nodup : (proposals.map Proposal.ProposalID).Nodup

/-- One round keeps the collected proposals collected. -/
theorem Collected.round {proposals : List (Proposal A C)} {e : (Time ×ₗ ℕ) × ℕ}
    {rest : List ((Time ×ₗ ℕ) × ℕ)} {r : State A C × List (Proposal A C) × List TallyResult}
    (hc : Collected s proposals (e :: rest)) (hr : ActiveRound s proposals e.2 r)
    (hrest : ∀ e' ∈ rest, e'.2 ≠ e.2) : Collected r.1 r.2.1 rest := by
  -- the proposals collected before are not at `e`, so the round keeps them
  have hold : ∀ p ∈ proposals, Agree r.1 p := fun p hp =>
    (hc.agree p hp).of_sameSlice (hr.frame _ (hc.unvisited p hp e List.mem_cons_self).symm)
  have hunvisited : ∀ p ∈ proposals, ∀ e' ∈ rest, e'.2 ≠ p.ProposalID := fun p hp e' he' =>
    hc.unvisited p hp e' (List.mem_cons_of_mem _ he')
  rcases hr.collected with hprops | ⟨p, hprops, hid, hagree⟩
  · rw [hprops]
    exact ⟨hold, hunvisited, hc.nodup⟩
  · rw [hprops]
    refine ⟨fun p' hp' => ?_, fun p' hp' => ?_, ?_⟩
    · rcases List.mem_append.1 hp' with hp' | hp'
      · exact hold p' hp'
      · rw [List.mem_singleton.1 hp']
        exact hagree
    · rcases List.mem_append.1 hp' with hp' | hp'
      · exact hunvisited p' hp'
      · rw [List.mem_singleton.1 hp', hid]
        exact hrest
    · rw [List.map_append, List.nodup_append]
      refine ⟨hc.nodup, List.nodup_singleton _, fun a ha b hb hab => ?_⟩
      obtain ⟨p', hp', rfl⟩ := List.mem_map.1 ha
      rw [List.map_singleton, List.mem_singleton] at hb
      exact hc.unvisited p' hp' e List.mem_cons_self (by rw [hab, hb, hid])

/-- **The rule of active-queue loops.**  If a round at a queued entry is an
`ActiveRound`, a loop over a snapshot of the active queue keeps the invariant
and ends with agreeing proposals of distinct ids. -/
theorem active_loop {f : State A C × List (Proposal A C) × List TallyResult →
      (Time ×ₗ ℕ) × ℕ → Except Panic (State A C × List (Proposal A C) × List TallyResult)}
    (hf : ∀ s proposals results e, QueuesConsistent s → s.activeQueue.get e.1 = some e.2 →
      (f (s, proposals, results) e).Sat Panic.NotMissing (ActiveRound s proposals e.2))
    (l : List ((Time ×ₗ ℕ) × ℕ)) (h : QueuesConsistent s)
    (hl : SortedKV.Stored s.activeQueue l) :
    (l.foldlM f (s, [], [])).Sat Panic.NotMissing fun r => QueuesConsistent r.1 ∧
      (∀ p ∈ r.2.1, Agree r.1 p) ∧ (r.2.1.map Proposal.ProposalID).Nodup := by
  refine (Except.sat_foldlM (fun r rest => QueuesConsistent r.1 ∧
      SortedKV.Stored r.1.activeQueue rest ∧ Collected r.1 r.2.1 rest)
    (fun r e rest hI => ?_) l (s, [], []) ⟨h, hl, ⟨by simp, by simp, by simp⟩⟩).mono
    (fun _ he => he) fun _ hI => ⟨hI.1, hI.2.2.agree, hI.2.2.nodup⟩
  obtain ⟨s, proposals, results⟩ := r
  obtain ⟨h, hl, hc⟩ := hI
  have he := hl.mem e List.mem_cons_self
  exact (hf s proposals results e h he).mono (fun _ he => he) fun r' hr =>
    ⟨hr.consistent, hl.tail (h.active_inj he) (h.active_frame hr.frame),
      hc.round hr (hl.value_ne (h.active_inj he))⟩

/-- A round that stores an agreeing proposal back, collecting nothing. -/
theorem ActiveRound.keep (h : QueuesConsistent s) {p : Proposal A C} (hp : Agree s p) {i : ℕ}
    (hid : p.ProposalID = i) (proposals : List (Proposal A C)) (results : List TallyResult) :
    ActiveRound s proposals i (s.SetProposal p, proposals, results) :=
  ⟨h.setProposal hp, fun _ hj => sameSlice_setProposal (hid ▸ hj), .inl rfl⟩

/-- A round that stores an agreeing proposal back with its tally and collects
it. -/
theorem ActiveRound.collect (h : QueuesConsistent s) {p : Proposal A C} (hp : Agree s p) {i : ℕ}
    (hid : p.ProposalID = i) (t : TallyResult) (proposals : List (Proposal A C))
    (results : List TallyResult) :
    ActiveRound s proposals i
      (s.SetProposal { p with FinalTallyResult := t }, proposals ++ [p], results) :=
  -- the tally is not a field the queues read
  have hq : Agree s { p with FinalTallyResult := t } := hp
  ⟨h.setProposal hq, fun _ hj => sameSlice_setProposal (hid ▸ hj),
    .inr ⟨p, rfl, hid, hp.setProposal hq⟩⟩

/-- A round at an inactive entry starts its proposal's voting period. -/
theorem QueuesConsistent.activateInactiveProposal (h : QueuesConsistent s) (now : Time)
    {e : (Time ×ₗ ℕ) × ℕ} (he : s.inactiveQueue.get e.1 = some e.2) :
    (State.activateInactiveProposal now s e).Sat Panic.NotMissing fun s' =>
      QueuesConsistent s' ∧ ∀ j ≠ e.2, SameSlice s s' j := by
  obtain ⟨p, hp, hid, hst, -⟩ := h.inactive_entry he
  simp only [State.activateInactiveProposal, State.queuedProposal, hp, bind, Except.bind, pure,
    Except.pure, Except.sat_ok]
  refine ⟨h.activateVotingPeriod now (by rw [hid]; exact hp) hst rfl, fun j hj => ?_⟩
  exact sameSlice_activateVotingPeriod now p (by rw [hid]; exact hj)

theorem QueuesConsistent.RemoveFromInactiveProposalQueueIterator (h : QueuesConsistent s)
    (now : Time) :
    (s.RemoveFromInactiveProposalQueueIterator now).Sat Panic.NotMissing QueuesConsistent :=
  inactive_loop (fun _ _ h he => h.activateInactiveProposal now he) _ h
    (SortedKV.stored_filter _ _)

/-- A round of `UpdateActiveProposals` collects a passing proposal and resets
the ranking of the others. -/
theorem QueuesConsistent.tallyActiveProposal (h : QueuesConsistent s) (env : Env A C)
    (proposals : List (Proposal A C)) (results : List TallyResult) {e : (Time ×ₗ ℕ) × ℕ}
    (he : s.activeQueue.get e.1 = some e.2) :
    (State.tallyActiveProposal env (s, proposals, results) e).Sat Panic.NotMissing
      (ActiveRound s proposals e.2) := by
  obtain ⟨p, hp, hid, -, -⟩ := h.active_entry he
  have hagree : Agree s p := (h _).agree hp
  simp only [State.tallyActiveProposal, State.queuedProposal, hp, bind, Except.bind, pure,
    Except.pure]
  split_ifs
  · exact ActiveRound.collect h hagree hid _ proposals _
  · exact ActiveRound.keep h (p := { p with Ranking := 0, FinalTallyResult := _ }) hagree hid
      proposals results

/-- Ranking agreeing proposals keeps them agreeing. -/
theorem QueuesConsistent.SetEligibilityDetails (h : QueuesConsistent s)
    {proposals : List (Proposal A C)} (hagree : ∀ p ∈ proposals, Agree s p) :
    (s.SetEligibilityDetails proposals).Sat Panic.NotMissing fun s' =>
      QueuesConsistent s' ∧ ∀ p ∈ proposals, Agree s' p := by
  refine (Except.sat_foldlM (fun s' rest => (QueuesConsistent s' ∧ ∀ p ∈ proposals, Agree s' p) ∧
      ∀ x ∈ rest, x.1 ∈ proposals) (fun s' x rest hI => ?_) _ s
    ⟨⟨h, hagree⟩, fun _ hx => List.fst_mem_of_mem_zipIdx hx⟩).mono (fun _ he => he)
    fun _ hI => hI.1
  obtain ⟨⟨h', hagree'⟩, hrest⟩ := hI
  obtain ⟨p, rank⟩ := x
  -- the proposal to rank is stored, since it agrees
  obtain ⟨q, hq, -⟩ := hagree' p (hrest _ List.mem_cons_self)
  have hq' : Agree s' { q with Ranking := (rank : ℤ) } := (h' _).agree (q := q) hq
  simp only [hq, Except.sat_ok]
  exact ⟨⟨h'.setProposal hq', fun p' hp' => (hagree' p' hp').setProposal hq'⟩,
    fun x hx => hrest x (List.mem_cons_of_mem _ hx)⟩

theorem QueuesConsistent.UpdateActiveProposals (h : QueuesConsistent s) (env : Env A C)
    (now : Time) : (State.UpdateActiveProposals env now s).Sat Panic.NotMissing QueuesConsistent := by
  rw [State.UpdateActiveProposals]
  refine Except.sat_bind (active_loop (fun _ proposals results _ h he =>
    h.tallyActiveProposal env proposals results he) _ h (SortedKV.stored_filter _ _))
    fun ⟨s', proposals, results⟩ ⟨h', hagree, _⟩ => ?_
  -- the sort permutes the collected proposals
  exact (h'.SetEligibilityDetails fun p hp => hagree p ((env.sortSlice_perm _ _).subset hp)).mono
    (fun _ he => he) fun _ h => h.1

end Loops

/-! ### The end of block -/

section EndBlock

variable [AddCommMonoid C] [LE C] [DecidableLE C] [Sub C]
  (DepositedCoinsAccAddr BurnedDepositCoinsAccAddr : A) {s : State A C}

/-- Settling deposits moves coins and deletes deposit records only; it fails
only when the escrow cannot pay. -/
theorem sameQueues_settleDeposits (destination : Deposit A C → A) (s : State A C)
    (proposalID : ℕ) :
    (State.settleDeposits DepositedCoinsAccAddr destination s proposalID).Sat
      (· = .depositShouldNotHappen) (SameQueues s) := by
  refine Except.sat_foldlM (fun s' _ => SameQueues s s') (fun s' e rest hs' => ?_) _ s
    (SameQueues.refl s)
  rw [State.settleDeposit]
  split
  · rfl
  · exact hs'.trans ⟨rfl, rfl, rfl, rfl⟩

theorem Panic.notMissing_of_depositShouldNotHappen {e : Panic} (he : e = .depositShouldNotHappen) :
    e.NotMissing := by
  subst he
  exact fun _ => nofun

/-- A round of `UpdateInactiveProposals` deletes its proposal and burns its
deposits. -/
theorem QueuesConsistent.dropInactiveProposal (h : QueuesConsistent s)
    {e : (Time ×ₗ ℕ) × ℕ} (he : s.inactiveQueue.get e.1 = some e.2) :
    (State.dropInactiveProposal DepositedCoinsAccAddr BurnedDepositCoinsAccAddr s e).Sat
      Panic.NotMissing fun s' => QueuesConsistent s' ∧ ∀ j ≠ e.2, SameSlice s s' j := by
  obtain ⟨p, hp, -, -, -⟩ := h.inactive_entry he
  obtain ⟨s₁, hdel, h₁, hs₁⟩ := h.DeleteProposal hp
  simp only [State.dropInactiveProposal, State.queuedProposal, hp, hdel, State.DeleteDeposits,
    bind, Except.bind]
  exact (sameQueues_settleDeposits _ _ _ _).mono (fun _ => Panic.notMissing_of_depositShouldNotHappen)
    fun s₂ hs₂ => ⟨hs₂.queuesConsistent h₁, fun j hj => (hs₁ j hj).trans (hs₂.sameSlice j)⟩

theorem QueuesConsistent.UpdateInactiveProposals (h : QueuesConsistent s) (now : Time) :
    (State.UpdateInactiveProposals DepositedCoinsAccAddr BurnedDepositCoinsAccAddr now s).Sat
      Panic.NotMissing QueuesConsistent :=
  inactive_loop (fun _ _ h he => h.dropInactiveProposal DepositedCoinsAccAddr BurnedDepositCoinsAccAddr he)
    _ h (SortedKV.stored_filter _ _)

/-- Rejecting an agreeing proposal, and storing the rejected record, retires it. -/
theorem QueuesConsistent.rejectProposal (h : QueuesConsistent s) {p : Proposal A C}
    (hp : Agree s p) :
    (State.rejectProposal DepositedCoinsAccAddr BurnedDepositCoinsAccAddr s p).Sat
      Panic.NotMissing fun r => ∀ t : TallyResult,
        QueuesConsistent (r.1.SetProposal { r.2 with FinalTallyResult := t }) ∧
        ∀ j ≠ p.ProposalID, SameSlice s (r.1.SetProposal { r.2 with FinalTallyResult := t }) j := by
  -- ranking it zero keeps it agreeing, and the burn keeps the queues
  have h₁ : QueuesConsistent (s.DeleteProposalEligibility p) := h.setProposal hp
  have hp₁ : Agree (s.DeleteProposalEligibility p) p := hp.setProposal hp
  simp only [State.rejectProposal, State.DeleteDeposits]
  refine Except.sat_bind ((sameQueues_settleDeposits _ _ _ _).mono
    (fun _ => Panic.notMissing_of_depositShouldNotHappen) fun s₂ hs₂ => hs₂) fun s₂ hs₂ t => ?_
  obtain ⟨h₂, hframe⟩ := (hs₂.queuesConsistent h₁).retire (q := { p with
    Status := StatusRejected, Ranking := 0, FinalTallyResult := t })
    (hp₁.of_sameSlice (hs₂.sameSlice _)) rfl nofun nofun
  exact ⟨h₂, fun j hj =>
    ((sameSlice_setProposal (p := { p with Ranking := 0 }) hj).trans (hs₂.sameSlice j)).trans
      (hframe j hj)⟩

/-- A round that rejects an agreeing proposal. -/
theorem ActiveRound.reject (h : QueuesConsistent s) {p : Proposal A C} (hp : Agree s p)
    (proposals : List (Proposal A C)) (results : List TallyResult) (t : TallyResult) :
    (State.rejectProposal DepositedCoinsAccAddr BurnedDepositCoinsAccAddr s p >>= fun r =>
      (pure (r.1.SetProposal { r.2 with FinalTallyResult := t }, proposals, results) :
        Except Panic _)).Sat Panic.NotMissing (ActiveRound s proposals p.ProposalID) :=
  Except.sat_bind (h.rejectProposal DepositedCoinsAccAddr BurnedDepositCoinsAccAddr hp)
    fun _ hr => ⟨(hr t).1, (hr t).2, .inl rfl⟩

/-- A round of `ExecuteProposal` collects a passing proposal and rejects a
failing one, or a neutral one at its last allowed cycle. -/
theorem QueuesConsistent.executeActiveProposal (h : QueuesConsistent s) (env : Env A C)
    (proposals : List (Proposal A C)) (results : List TallyResult) {e : (Time ×ₗ ℕ) × ℕ}
    (he : s.activeQueue.get e.1 = some e.2) :
    (State.executeActiveProposal DepositedCoinsAccAddr BurnedDepositCoinsAccAddr env
      (s, proposals, results) e).Sat Panic.NotMissing (ActiveRound s proposals e.2) := by
  obtain ⟨p, hp, hid, -, -⟩ := h.active_entry he
  have hagree : Agree s p := (h _).agree hp
  simp only [State.executeActiveProposal, State.queuedProposal, hp, bind, Except.bind, pure,
    Except.pure]
  rw [← hid]
  split_ifs
  · exact ActiveRound.collect h hagree rfl _ proposals _
  · exact ActiveRound.reject DepositedCoinsAccAddr BurnedDepositCoinsAccAddr h hagree proposals
      results _
  · -- a neutral proposal counts one more cycle, which keeps it agreeing
    exact ActiveRound.reject DepositedCoinsAccAddr BurnedDepositCoinsAccAddr h
      (p := { p with FundingCycleCount := p.FundingCycleCount + 1 }) hagree proposals results _
  · exact ActiveRound.keep h
      (p := { { p with FundingCycleCount := p.FundingCycleCount + 1 } with
        FinalTallyResult := (env.tally s p).2.1 })
      hagree rfl proposals results

theorem sameQueues_DistributeFeePool {s' : State A C} {amount : C} {receiveAddr : A}
    (h : s.DistributeFeePool amount receiveAddr = some s') : SameQueues s s' := by
  rw [State.DistributeFeePool] at h
  split_ifs at h
  cases h
  exact ⟨rfl, rfl, rfl, rfl⟩

/-- The payment that ends a round of `TransferFunds` keeps what storing the
proposal kept. -/
theorem sat_distributeFeePool {s₁ : State A C} {q : Proposal A C} {i : ℕ}
    (h₁ : QueuesConsistent (s₁.SetProposal q)) (hframe : ∀ j ≠ i, SameSlice s (s₁.SetProposal q) j)
    {β : Type} (rest : β) :
    (match s₁.DistributeFeePool q.RequestedFund q.Proposer with
      | none => Except.error Panic.transferShouldNotHappen
      | some s₂ => pure (s₂.SetProposal q, rest)).Sat Panic.NotMissing
        fun r : State A C × β => QueuesConsistent r.1 ∧ ∀ j ≠ i, SameSlice s r.1 j := by
  split
  · exact fun _ => nofun
  · rename_i s₂ hs₂
    have hq := (sameQueues_DistributeFeePool hs₂).setProposal q
    exact ⟨hq.queuesConsistent h₁, fun j hj => (hframe j hj).trans (hq.sameSlice j)⟩

/-- A round of `TransferFunds` pays an agreeing proposal, and retires it after
its last cycle. -/
theorem QueuesConsistent.transferFund (h : QueuesConsistent s) (env : Env A C)
    (fundingcycle : FundingCycle) (totalFundCount : C) {p : Proposal A C} (hp : Agree s p) :
    (State.transferFund DepositedCoinsAccAddr env (s, fundingcycle, totalFundCount) p).Sat
      Panic.NotMissing fun r => QueuesConsistent r.1 ∧ ∀ j ≠ p.ProposalID, SameSlice s r.1 j := by
  simp only [State.transferFund]
  split_ifs with hverify
  · refine Except.sat_bind (P := fun p₁ => Agree s p₁ ∧ p₁.ProposalID = p.ProposalID) ?_
      fun p₁ ⟨hp₁, hid₁⟩ => ?_
    · rw [State.ReduceCycleCount]
      split_ifs
      · exact fun _ => nofun
      · exact ⟨hp, rfl⟩
    split_ifs
    · -- after its last cycle the proposal passes: its deposits are refunded and it
      -- leaves the queues, the status changing before the entries go
      refine Except.sat_bind ((sameQueues_settleDeposits _ _ _ _).mono
        (fun _ => Panic.notMissing_of_depositShouldNotHappen) fun s₁ hs₁ => hs₁) fun s₁ hs₁ => ?_
      rw [pure_bind]
      obtain ⟨hR, hframe⟩ := (hs₁.queuesConsistent h).retire
        (q := { p₁ with Status := StatusPassed, Ranking := 0 }) (hp₁.of_sameSlice (hs₁.sameSlice _))
        rfl nofun nofun
      refine sat_distributeFeePool (hR.setProposal ((hR p₁.ProposalID).agree
          (q := { p₁ with Status := StatusPassed, Ranking := 0 }) (by simp)))
        (fun j hj => ((hs₁.sameSlice j).trans (hframe j (hid₁ ▸ hj))).trans
          (sameSlice_setProposal (hid₁ ▸ hj))) _
    · rw [pure_bind]
      exact sat_distributeFeePool (h.setProposal hp₁) (fun j hj => sameSlice_setProposal (hid₁ ▸ hj)) _
  · exact ⟨h, fun j _ => SameSlice.refl s j⟩

/-- Paying agreeing proposals of distinct ids. -/
theorem QueuesConsistent.TransferFunds (h : QueuesConsistent s) (env : Env A C)
    {proposals : List (Proposal A C)} (hagree : ∀ p ∈ proposals, Agree s p)
    (hnodup : (proposals.map Proposal.ProposalID).Nodup) :
    (State.TransferFunds DepositedCoinsAccAddr env s proposals).Sat Panic.NotMissing
      QueuesConsistent := by
  rw [State.TransferFunds]
  split
  · exact h
  rename_i fundingcycle _
  -- a round pays one proposal and keeps the others' slices, so the proposals
  -- still to be paid keep agreeing
  have hloop : (proposals.foldlM (State.transferFund DepositedCoinsAccAddr env)
      (s, fundingcycle, 0)).Sat Panic.NotMissing fun r => QueuesConsistent r.1 := by
    refine (Except.sat_foldlM (fun r rest => QueuesConsistent r.1 ∧ (∀ p ∈ rest, Agree r.1 p) ∧
        (rest.map Proposal.ProposalID).Nodup) (fun r p rest hI => ?_) _ _
      ⟨h, hagree, hnodup⟩).mono (fun _ he => he) fun _ hI => hI.1
    obtain ⟨s₀, fc, totalFundCount⟩ := r
    obtain ⟨h₀, hagree₀, hnodup₀⟩ := hI
    rw [List.map_cons, List.nodup_cons] at hnodup₀
    refine (h₀.transferFund DepositedCoinsAccAddr env fc totalFundCount
      (hagree₀ p List.mem_cons_self)).mono (fun _ he => he) fun r' ⟨h', hframe⟩ =>
        ⟨h', fun q hq => (hagree₀ q (List.mem_cons_of_mem _ hq)).of_sameSlice (hframe _ ?_),
          hnodup₀.2⟩
    exact fun heq => hnodup₀.1 (heq ▸ List.mem_map_of_mem hq)
  exact Except.sat_bind hloop fun ⟨s', fc, _⟩ h' =>
    SameQueues.queuesConsistent (s := s') ⟨rfl, rfl, rfl, rfl⟩ h'

/-- At the end of a funding cycle: execute the voting proposals, rank and pay
the passing ones. -/
theorem QueuesConsistent.ExecuteProposal (h : QueuesConsistent s) (env : Env A C) (now : Time) :
    (State.ExecuteProposal DepositedCoinsAccAddr BurnedDepositCoinsAccAddr env now s).Sat
      Panic.NotMissing QueuesConsistent := by
  rw [State.ExecuteProposal]
  refine Except.sat_bind (active_loop (fun _ proposals results _ h he =>
    h.executeActiveProposal DepositedCoinsAccAddr BurnedDepositCoinsAccAddr env proposals results he)
    _ h (SortedKV.stored_filter _ _)) fun ⟨s', proposals, results⟩ ⟨h', hagree, hnodup⟩ => ?_
  -- the sort permutes the collected proposals
  have hperm : (State.SortProposalEligibility env proposals results).Perm proposals :=
    env.sortSlice_perm _ _
  exact Except.sat_bind (h'.SetEligibilityDetails fun p hp => hagree p (hperm.subset hp))
    fun _ ⟨h'', hagree''⟩ => h''.TransferFunds DepositedCoinsAccAddr env hagree''
      ((hperm.map _).nodup_iff.2 hnodup)

/-- **The end of block keeps the invariant**, and panics for no missing
proposal. -/
theorem QueuesConsistent.EndBlocker (h : QueuesConsistent s) (env : Env A C) (now : Time) :
    (s.EndBlocker DepositedCoinsAccAddr BurnedDepositCoinsAccAddr env now).Sat Panic.NotMissing
      QueuesConsistent := by
  rw [State.EndBlocker]
  -- every branch of the funding cycle ends with the same two loops
  have hk : ∀ s₁, QueuesConsistent s₁ →
      (State.UpdateInactiveProposals DepositedCoinsAccAddr BurnedDepositCoinsAccAddr now s₁ >>=
        State.UpdateActiveProposals env now).Sat Panic.NotMissing QueuesConsistent :=
    fun s₁ h₁ => Except.sat_bind
      (h₁.UpdateInactiveProposals DepositedCoinsAccAddr BurnedDepositCoinsAccAddr now)
      fun s₂ h₂ => h₂.UpdateActiveProposals env now
  -- the funding cycle: the first one starts, or the current one ends
  split
  · split
    · rw [pure_bind]
      exact hk _ ((SameQueues.SetBlockTime s now).queuesConsistent h)
    · split_ifs
      · exact Except.sat_bind (h.RemoveFromInactiveProposalQueueIterator now)
          fun s₁ h₁ => Except.sat_bind (h₁.AddFundingCycle now) hk
      · rw [pure_bind]
        exact hk s h
  · split_ifs
    · exact Except.sat_bind (h.ExecuteProposal DepositedCoinsAccAddr BurnedDepositCoinsAccAddr env now)
        fun s₁ h₁ => Except.sat_bind (h₁.AddFundingCycle now) hk
    · rw [pure_bind]
      exact hk s h

end EndBlock

/-! ### Runs -/

section Runs

variable [AddCommMonoid C] [LE C] [DecidableLE C] [Sub C]
  (DepositedCoinsAccAddr BurnedDepositCoinsAccAddr : A)

theorem QueuesConsistent.step {Signs : A → Prop} {s s' : State A C} (h : QueuesConsistent s)
    (hs : Step DepositedCoinsAccAddr BurnedDepositCoinsAccAddr Signs s s') : QueuesConsistent s' := by
  cases hs with
  | deliver env now s msg _ => exact h.DeliverMsg DepositedCoinsAccAddr env now msg
  | endBlock env now s s' hend =>
    exact (h.EndBlocker DepositedCoinsAccAddr BurnedDepositCoinsAccAddr env now).of_ok hend

/-- **The queues agree with the proposals along every run**, and no end of
block of a reachable state panics for a missing proposal. -/
theorem proposal_queues_consistent (Signs : A → Prop) {s₀ s : State A C}
    (h₀ : QueuesConsistent s₀)
    (hs : Reachable DepositedCoinsAccAddr BurnedDepositCoinsAccAddr Signs s₀ s) :
    QueuesConsistent s ∧ ∀ (env : Env A C) (now : Time) (id : ℕ),
      s.EndBlocker DepositedCoinsAccAddr BurnedDepositCoinsAccAddr env now ≠
        .error (.proposalDoesNotExist id) := by
  have h : QueuesConsistent s := by
    induction hs with
    | refl => exact h₀
    | tail _ hstep ih => exact ih.step DepositedCoinsAccAddr BurnedDepositCoinsAccAddr hstep
  exact ⟨h, fun env now id hend =>
    (h.EndBlocker DepositedCoinsAccAddr BurnedDepositCoinsAccAddr env now).of_error hend id rfl⟩

theorem proposal_queues_consistent_submit :
    QueuesConsistent emptyState ∧
      Reachable 0 1 (fun _ => True) emptyState
        (emptyState.DeliverMsg 0 acceptingEnv 0 (.MsgSubmitProposal .ProposalTypeText 5 1 2 20)) ∧
      (QueuesConsistent
          (emptyState.DeliverMsg 0 acceptingEnv 0 (.MsgSubmitProposal .ProposalTypeText 5 1 2 20)) ∧
        ∀ (env : Env ℕ ℕ) (now : Time) (id : ℕ),
          (emptyState.DeliverMsg 0 acceptingEnv 0
            (.MsgSubmitProposal .ProposalTypeText 5 1 2 20)).EndBlocker 0 1 env now ≠
            .error (.proposalDoesNotExist id)) := by
  have h₀ : QueuesConsistent emptyState := QueuesConsistent.of_empty rfl rfl rfl
  have hreach : Reachable 0 1 (fun _ => True) emptyState
      (emptyState.DeliverMsg 0 acceptingEnv 0 (.MsgSubmitProposal .ProposalTypeText 5 1 2 20)) :=
    Relation.ReflTransGen.single (Step.deliver _ _ _ _ trivial)
  exact ⟨h₀, hreach, proposal_queues_consistent 0 1 (fun _ => True) h₀ hreach⟩

end Runs

end Gov

end ColorSdk
