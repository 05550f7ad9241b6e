import ColorSdk.Gov.EndBlocker
import Mathlib.Algebra.Order.Sub.Unbundled.Basic
import Mathlib.Algebra.Order.Monoid.Canonical.Defs
import Mathlib.Algebra.Order.Group.Nat

/-!
# The deposit escrow holds the deposits

Deposits are paid into the escrow account `DepositedCoinsAccAddr` and leave it
only when their records are settled: refunded to their depositors, or burned
to `BurnedDepositCoinsAccAddr`.  `EscrowHolds R s` states that the escrow's
balance is the sum of the stored deposits and a remainder `R` governance never
touches, that no deposit record is the escrow's own, and that no proposal pays
the escrow.

Each operation either moves no coin of the escrow and no deposit, or moves the
same coins in both: a deposit adds its amount to the balance and to a record,
and settling a record sends its amount out and deletes it.  Since the records
are in the escrow, the escrow can always pay a settlement, and the "should not
happen" panics of `RefundDeposits` and `DeleteDeposits` never fire.  A settled
record is deleted, so it is paid out once: a second payment would take coins
the equation leaves no room for.

Coins form a canonically ordered cancellative monoid with a truncated
subtraction, as `sdk.Coins` do denomination by denomination.  The escrow is a
module account, which signs no message.

## Main definitions

* `State.depositSum`, `State.ProposersNot`, `EscrowHolds`.

## Main results

* `EscrowHolds.settleDeposits` — settling deposits never fails, and keeps the
  invariant.
* `EscrowHolds.DeliverMsg`, `EscrowHolds.EndBlocker` — the steps keep it.
* `deposit_escrow_conserved` — **the escrow holds the deposits along every
  run, and never refuses to pay one out**.

## References

* src/x/gov/keeper.go, src/x/gov/endblocker.go, src/x/gov/handler.go,
  src/x/bank/keeper.go
-/

namespace ColorSdk
namespace Gov

open ProposalStatus

variable {A C : Type} [LinearOrder A]

/-- The coins the stored deposits hold. -/
def State.depositSum [AddCommMonoid C] (s : State A C) : C := s.deposits.sumBy Deposit.Amount

/-- No stored proposal pays `a`. -/
def State.ProposersNot (a : A) (s : State A C) : Prop :=
  ∀ id p, s.GetProposal id = some p → p.Proposer ≠ a

/-- A panic other than a refused payment out of the escrow. -/
def Panic.NotEscrow (e : Panic) : Prop := e ≠ .depositShouldNotHappen

/-! ### Proposals that do not pay the escrow -/

namespace State.ProposersNot

variable {a : A} {s s' : State A C}

theorem setProposal (h : s.ProposersNot a) {p : Proposal A C} (hp : p.Proposer ≠ a) :
    (s.SetProposal p).ProposersNot a := by
  intro id q hq
  rw [GetProposal_SetProposal] at hq
  split_ifs at hq
  · cases hq
    exact hp
  · exact h id q hq

theorem of_proposals (h : s.ProposersNot a) (hp : s'.proposals = s.proposals) :
    s'.ProposersNot a := fun id q hq => h id q (by simpa [GetProposal, hp] using hq)

theorem activateVotingPeriod (h : s.ProposersNot a) (now : Time) {p : Proposal A C}
    (hp : p.Proposer ≠ a) : (State.activateVotingPeriod now s p).ProposersNot a :=
  (h.setProposal (p := { p with
    VotingStartTime := now, VotingEndTime := now, Status := StatusVotingPeriod }) hp).of_proposals rfl

end State.ProposersNot

section Escrow

variable [AddCommMonoid C] (DepositedCoinsAccAddr BurnedDepositCoinsAccAddr : A) (R : C)
  {s s' : State A C}

/-- The escrow holds the stored deposits and the remainder `R`; no deposit is
the escrow's own, and no proposal pays the escrow. -/
structure EscrowHolds (s : State A C) : Prop where
  balance : s.balances DepositedCoinsAccAddr = s.depositSum + R
  depositors : ∀ k d, s.deposits.get k = some d → d.Depositor ≠ DepositedCoinsAccAddr
  proposers : s.ProposersNot DepositedCoinsAccAddr

variable {DepositedCoinsAccAddr BurnedDepositCoinsAccAddr R}

/-- A step that moves no coin of the escrow, keeps the deposit records, and
stores no proposal paying the escrow keeps the invariant. -/
theorem EscrowHolds.of_frame (h : EscrowHolds DepositedCoinsAccAddr R s)
    (hb : s'.balances DepositedCoinsAccAddr = s.balances DepositedCoinsAccAddr)
    (hd : s'.deposits = s.deposits) (hp : s'.ProposersNot DepositedCoinsAccAddr) :
    EscrowHolds DepositedCoinsAccAddr R s' where
  balance := by rw [hb, h.balance, State.depositSum, State.depositSum, hd]
  depositors k d := by
    rw [hd]
    exact h.depositors k d
  proposers := hp

/-- Queues, counters, cycles and votes are none of the escrow's concern. -/
theorem EscrowHolds.of_proposals (h : EscrowHolds DepositedCoinsAccAddr R s)
    (hb : s'.balances = s.balances) (hd : s'.deposits = s.deposits)
    (hp : s'.proposals = s.proposals) : EscrowHolds DepositedCoinsAccAddr R s' :=
  h.of_frame (by rw [hb]) hd (h.proposers.of_proposals hp)

theorem EscrowHolds.setProposal (h : EscrowHolds DepositedCoinsAccAddr R s) {p : Proposal A C}
    (hp : p.Proposer ≠ DepositedCoinsAccAddr) :
    EscrowHolds DepositedCoinsAccAddr R (s.SetProposal p) :=
  h.of_frame rfl rfl (h.proposers.setProposal hp)

theorem EscrowHolds.activateVotingPeriod (h : EscrowHolds DepositedCoinsAccAddr R s) (now : Time)
    {p : Proposal A C} (hp : p.Proposer ≠ DepositedCoinsAccAddr) :
    EscrowHolds DepositedCoinsAccAddr R (State.activateVotingPeriod now s p) :=
  h.of_frame rfl rfl (h.proposers.activateVotingPeriod now hp)

/-- **Submitting** stores a proposal of its signer, and moves no coin. -/
theorem EscrowHolds.SubmitProposal (h : EscrowHolds DepositedCoinsAccAddr R s) {now : Time}
    {content : ProposalContent A C} (hprop : content.Proposer ≠ DepositedCoinsAccAddr)
    {r : Proposal A C × State A C} (hr : State.SubmitProposal now s content = .ok r) :
    EscrowHolds DepositedCoinsAccAddr R r.2 := by
  cases hn : s.nextProposalID with
  | none => simp [State.SubmitProposal, State.getNewProposalID, hn, bind, Except.bind] at hr
  | some n =>
    simp only [State.SubmitProposal, State.getNewProposalID, hn, bind, Except.bind, pure,
      Except.pure] at hr
    -- whether it waits or votes at once, the one proposal stored is the new one
    refine h.of_frame (by split at hr <;> cases hr <;> rfl) (by split at hr <;> cases hr <;> rfl)
      fun id q hq => ?_
    split at hr <;> cases hr <;>
      simp only [State.activateVotingPeriod, State.GetProposal_InsertInactiveProposalQueue,
        State.GetProposal_InsertActiveProposalQueue, State.GetProposal_RemoveFromInactiveProposalQueue,
        State.GetProposal_SetProposal] at hq <;> split_ifs at hq
    all_goals first
      | (cases hq; exact hprop)
      | exact h.proposers id q hq

/-- **Voting** writes a vote record only. -/
theorem EscrowHolds.AddVote (h : EscrowHolds DepositedCoinsAccAddr R s) {env : Env A C}
    {now : Time} {proposalID : ℕ} {voterAddr : A} {option : VoteOption}
    (hr : State.AddVote env now s proposalID voterAddr option = .ok s') :
    EscrowHolds DepositedCoinsAccAddr R s' := by
  rw [State.AddVote] at hr
  -- each check either fails with an error or passes on to the next
  split at hr
  · cases hr
  split at hr
  · cases hr
  split at hr
  · cases hr
  split at hr
  · cases hr
  split at hr
  · cases hr
  cases hr
  exact h.of_proposals rfl rfl rfl

/-! ### Rounds of the end of block that move no coin -/

theorem EscrowHolds.queuedProposal (h : EscrowHolds DepositedCoinsAccAddr R s)
    (entry : (Time ×ₗ ℕ) × ℕ) :
    (s.queuedProposal entry).Sat Panic.NotEscrow fun p => p.Proposer ≠ DepositedCoinsAccAddr := by
  rw [State.queuedProposal]
  split
  · exact nofun
  · rename_i p hp
    exact h.proposers _ _ hp

theorem EscrowHolds.DeleteProposal (h : EscrowHolds DepositedCoinsAccAddr R s) (proposalID : ℕ) :
    (s.DeleteProposal proposalID).Sat Panic.NotEscrow (EscrowHolds DepositedCoinsAccAddr R) := by
  rw [State.DeleteProposal]
  split
  · exact nofun
  · refine h.of_frame rfl rfl fun id q hq => h.proposers id q ?_
    simp only [State.GetProposal, State.proposals_RemoveFromActiveProposalQueue,
      State.proposals_RemoveFromInactiveProposalQueue, SortedKV.get_delete] at hq
    split_ifs at hq
    exact hq

theorem EscrowHolds.activateInactiveProposal (h : EscrowHolds DepositedCoinsAccAddr R s)
    (now : Time) (entry : (Time ×ₗ ℕ) × ℕ) :
    (State.activateInactiveProposal now s entry).Sat Panic.NotEscrow
      (EscrowHolds DepositedCoinsAccAddr R) :=
  Except.sat_bind (h.queuedProposal entry) fun _ hp => h.activateVotingPeriod now hp

theorem EscrowHolds.RemoveFromInactiveProposalQueueIterator
    (h : EscrowHolds DepositedCoinsAccAddr R s) (now : Time) :
    (s.RemoveFromInactiveProposalQueueIterator now).Sat Panic.NotEscrow
      (EscrowHolds DepositedCoinsAccAddr R) :=
  Except.sat_foldlM_of_step (fun _ entry h => h.activateInactiveProposal now entry) _ s h

/-- A round of `UpdateActiveProposals` stores its proposal back and may collect
it; collected proposals are stored ones. -/
theorem EscrowHolds.tallyActiveProposal (h : EscrowHolds DepositedCoinsAccAddr R s)
    {proposals : List (Proposal A C)} (hps : ∀ p ∈ proposals, p.Proposer ≠ DepositedCoinsAccAddr)
    (env : Env A C) (results : List TallyResult) (entry : (Time ×ₗ ℕ) × ℕ) :
    (State.tallyActiveProposal env (s, proposals, results) entry).Sat Panic.NotEscrow fun r =>
      EscrowHolds DepositedCoinsAccAddr R r.1 ∧ ∀ p ∈ r.2.1, p.Proposer ≠ DepositedCoinsAccAddr := by
  simp only [State.tallyActiveProposal]
  refine Except.sat_bind (h.queuedProposal entry) fun p hp => ?_
  rcases env.tally s p with ⟨passes, tallyResults, netural⟩
  split_ifs
  · exact ⟨h.setProposal hp, List.forall_mem_append.2 ⟨hps, List.forall_mem_singleton.2 hp⟩⟩
  · exact ⟨h.setProposal hp, hps⟩

/-- Ranking stored proposals keeps their proposers. -/
theorem EscrowHolds.SetEligibilityDetails (h : EscrowHolds DepositedCoinsAccAddr R s)
    (proposals : List (Proposal A C)) :
    (s.SetEligibilityDetails proposals).Sat Panic.NotEscrow (EscrowHolds DepositedCoinsAccAddr R) := by
  refine Except.sat_foldlM_of_step (fun s' x h' => ?_) _ s h
  obtain ⟨p, rank⟩ := x
  dsimp only
  split
  · exact nofun
  · rename_i q hq
    exact h'.setProposal (h'.proposers _ q hq)

theorem EscrowHolds.UpdateActiveProposals (h : EscrowHolds DepositedCoinsAccAddr R s)
    (env : Env A C) (now : Time) :
    (State.UpdateActiveProposals env now s).Sat Panic.NotEscrow
      (EscrowHolds DepositedCoinsAccAddr R) := by
  rw [State.UpdateActiveProposals]
  refine Except.sat_bind (Except.sat_foldlM_of_step (Q := fun r =>
      EscrowHolds DepositedCoinsAccAddr R r.1 ∧ ∀ p ∈ r.2.1, p.Proposer ≠ DepositedCoinsAccAddr)
    (fun ⟨_, _, results⟩ entry ⟨h', hps⟩ => h'.tallyActiveProposal hps env results entry) _ _
    ⟨h, by simp⟩) fun ⟨_, _, _⟩ ⟨h', _⟩ => h'.SetEligibilityDetails _

theorem EscrowHolds.AddFundingCycle (h : EscrowHolds DepositedCoinsAccAddr R s) (now : Time) :
    (s.AddFundingCycle now).Sat Panic.NotEscrow (EscrowHolds DepositedCoinsAccAddr R) := by
  rw [State.AddFundingCycle, State.GetNewFundingCycleID]
  cases s.nextFundingCycleID
  · exact nofun
  · exact h.of_proposals rfl rfl rfl

theorem EscrowHolds.SetBlockTime (h : EscrowHolds DepositedCoinsAccAddr R s) (now : Time) :
    EscrowHolds DepositedCoinsAccAddr R (s.SetBlockTime now) := by
  rw [State.SetBlockTime]
  split
  · exact h
  · exact h.of_proposals rfl rfl rfl

variable [PartialOrder C] [IsOrderedCancelAddMonoid C]

/-- **Accounting.**  Changing the escrow's balance and the deposits' sum by the
same coins keeps the remainder. -/
theorem balance_of_same_change {x y : C}
    (h : s.balances DepositedCoinsAccAddr = s.depositSum + R)
    (hb : s'.balances DepositedCoinsAccAddr + x = s.balances DepositedCoinsAccAddr + y)
    (hsum : s'.depositSum + x = s.depositSum + y) :
    s'.balances DepositedCoinsAccAddr = s'.depositSum + R := by
  apply add_right_cancel (b := x)
  calc s'.balances DepositedCoinsAccAddr + x = s.balances DepositedCoinsAccAddr + y := hb
    _ = s.depositSum + y + R := by rw [h, add_right_comm]
    _ = s'.depositSum + x + R := by rw [hsum]
    _ = s'.depositSum + R + x := add_right_comm _ _ _

/-! ### Deposits in and out of the escrow -/

/-- Storing a record `d` at a key, which adds `depositAmount` to the coins the
key held, while the escrow gains `depositAmount`. -/
theorem EscrowHolds.record (h : EscrowHolds DepositedCoinsAccAddr R s) {k : ℕ ×ₗ A}
    {d : Deposit A C} {depositAmount : C}
    (hb : s'.balances DepositedCoinsAccAddr = s.balances DepositedCoinsAccAddr + depositAmount)
    (hd : s'.deposits = s.deposits.set k d) (hdep : d.Depositor ≠ DepositedCoinsAccAddr)
    (hamt : d.Amount = ((s.deposits.get k).map Deposit.Amount).getD 0 + depositAmount)
    (hp : s'.ProposersNot DepositedCoinsAccAddr) : EscrowHolds DepositedCoinsAccAddr R s' := by
  -- the record's coins replace the coins the key held
  have hsum : s'.depositSum + 0 = s.depositSum + depositAmount := by
    rw [add_zero, State.depositSum, State.depositSum, hd, SortedKV.sumBy_set, hamt]
    cases hk : s.deposits.get k with
    | none =>
      rw [SortedKV.delete_of_get_eq_none hk, Option.map_none, Option.getD_none, zero_add,
        add_comm]
    | some old =>
      rw [SortedKV.sumBy_eq_add_delete _ hk, Option.map_some, Option.getD_some, add_right_comm]
  refine ⟨balance_of_same_change h.balance (by rw [add_zero, hb]) hsum, fun k' d' hk' => ?_, hp⟩
  rw [hd, SortedKV.get_set] at hk'
  split_ifs at hk'
  · cases hk'
    exact hdep
  · exact h.depositors k' d' hk'

/-- The last step of `AddDeposit`: the deposit the escrow received is added to
the depositor's record, or starts one. -/
theorem EscrowHolds.recordDeposit (h : EscrowHolds DepositedCoinsAccAddr R s) {proposalID : ℕ}
    {depositorAddr : A} {depositAmount : C} (hdep : depositorAddr ≠ DepositedCoinsAccAddr)
    (hb : s'.balances DepositedCoinsAccAddr = s.balances DepositedCoinsAccAddr + depositAmount)
    (hd : s'.deposits = s.deposits) (hp : s'.ProposersNot DepositedCoinsAccAddr) :
    EscrowHolds DepositedCoinsAccAddr R (match s'.GetDeposit proposalID depositorAddr with
      | none => s'.setDeposit proposalID depositorAddr ⟨depositorAddr, proposalID, depositAmount⟩
      | some currDeposit => s'.setDeposit proposalID depositorAddr
          { currDeposit with Amount := currDeposit.Amount + depositAmount }) := by
  have hget : s'.GetDeposit proposalID depositorAddr =
      s.deposits.get (toLex (proposalID, depositorAddr)) := by
    rw [State.GetDeposit, hd]
  rw [hget]
  cases hcur : s.deposits.get (toLex (proposalID, depositorAddr)) with
  | none =>
    dsimp only
    exact h.record (d := ⟨depositorAddr, proposalID, depositAmount⟩) hb
      (by rw [State.setDeposit, hd]) hdep (by rw [hcur]; simp) hp
  | some currDeposit =>
    dsimp only
    exact h.record (d := { currDeposit with Amount := currDeposit.Amount + depositAmount }) hb
      (by rw [State.setDeposit, hd]) (h.depositors _ currDeposit hcur) (by rw [hcur]; rfl) hp

variable [Sub C] [DecidableLE C]

/-- **Depositing** sends the deposit into the escrow and records it. -/
theorem EscrowHolds.AddDeposit (h : EscrowHolds DepositedCoinsAccAddr R s) {now : Time}
    {proposalID : ℕ} {depositorAddr : A} {depositAmount : C}
    (hdep : depositorAddr ≠ DepositedCoinsAccAddr) {r : State A C × Bool}
    (hr : State.AddDeposit DepositedCoinsAccAddr now s proposalID depositorAddr depositAmount =
      .ok r) : EscrowHolds DepositedCoinsAccAddr R r.1 := by
  rw [State.AddDeposit] at hr
  split at hr
  · cases hr
  rename_i proposal hp
  split at hr
  · cases hr
  split at hr
  · cases hr
  rename_i balances hsend
  -- the escrow gains the deposit; the proposal raised keeps its proposer
  have hb : balances DepositedCoinsAccAddr = s.balances DepositedCoinsAccAddr + depositAmount :=
    SendCoins_to hsend hdep
  have hprop : proposal.Proposer ≠ DepositedCoinsAccAddr := h.proposers _ _ hp
  have hP : (({ s with balances := balances } : State A C).SetProposal
      { proposal with TotalDeposit := proposal.TotalDeposit + depositAmount }).ProposersNot
        DepositedCoinsAccAddr :=
    (h.proposers.of_proposals
      (show ({ s with balances := balances } : State A C).proposals = s.proposals from rfl)).setProposal
        hprop
  dsimp only at hr
  split_ifs at hr
  · cases hr
    exact h.recordDeposit hdep hb rfl (hP.activateVotingPeriod now hprop)
  · cases hr
    exact h.recordDeposit hdep hb rfl hP

/-- Submitting through the handler: the proposal and its initial deposit are
its signer's. -/
theorem EscrowHolds.handleMsgSubmitProposal (h : EscrowHolds DepositedCoinsAccAddr R s)
    {env : Env A C} {now : Time} {kind : ProposalKind} {fund : C} {cycle : ℕ} {proposer : A}
    {deposit : C} (hproposer : proposer ≠ DepositedCoinsAccAddr)
    (hr : State.handleMsgSubmitProposal DepositedCoinsAccAddr env now s kind fund cycle proposer
      deposit = .ok s') : EscrowHolds DepositedCoinsAccAddr R s' := by
  simp only [State.handleMsgSubmitProposal, bind, Except.bind, pure, Except.pure, throw,
    throwThe, MonadExceptOf.throw] at hr
  split at hr
  · cases hr
  split at hr
  · cases hr
  split at hr
  · cases hr
  rename_i r hsubmit
  split at hr
  · cases hr
  rename_i r' hdeposit
  cases hr
  exact (h.SubmitProposal hproposer hsubmit).AddDeposit hproposer hdeposit

/-- **A transaction of a signer other than the escrow keeps the invariant.** -/
theorem EscrowHolds.DeliverMsg (h : EscrowHolds DepositedCoinsAccAddr R s) (env : Env A C)
    (now : Time) (msg : Msg A C) (hsigner : msg.signer ≠ DepositedCoinsAccAddr) :
    EscrowHolds DepositedCoinsAccAddr R (s.DeliverMsg DepositedCoinsAccAddr env now msg) := by
  rw [State.DeliverMsg]
  split
  · rename_i s' hs'
    cases msg with
    | MsgSubmitProposal kind fund cycle proposer deposit =>
      exact h.handleMsgSubmitProposal hsigner hs'
    | MsgDeposit proposalID depositor amount =>
      simp only [State.NewHandler, Except.map] at hs'
      split at hs'
      · cases hs'
      · rename_i r hr
        cases hs'
        exact h.AddDeposit hsigner hr
    | MsgVote proposalID voter option => exact h.AddVote hs'
  · exact h

omit [IsOrderedCancelAddMonoid C] in
/-- The community pool pays a proposer other than the escrow. -/
theorem EscrowHolds.DistributeFeePool (h : EscrowHolds DepositedCoinsAccAddr R s) {amount : C}
    {receiveAddr : A} (hrecv : receiveAddr ≠ DepositedCoinsAccAddr)
    (hr : s.DistributeFeePool amount receiveAddr = some s') :
    EscrowHolds DepositedCoinsAccAddr R s' := by
  rw [State.DistributeFeePool] at hr
  split_ifs at hr
  cases hr
  exact h.of_frame (by simp [addCoins, Function.update_of_ne (Ne.symm hrecv)]) rfl h.proposers

omit [IsOrderedCancelAddMonoid C] in
/-- The payment that ends a round of `TransferFunds`. -/
theorem EscrowHolds.pay (h : EscrowHolds DepositedCoinsAccAddr R s) {q : Proposal A C}
    (hq : q.Proposer ≠ DepositedCoinsAccAddr) {β : Type} (rest : β) :
    (match s.DistributeFeePool q.RequestedFund q.Proposer with
      | none => Except.error Panic.transferShouldNotHappen
      | some s₂ => pure (s₂.SetProposal q, rest)).Sat Panic.NotEscrow
        fun r : State A C × β => EscrowHolds DepositedCoinsAccAddr R r.1 := by
  split
  · exact nofun
  · rename_i s₂ hs₂
    exact (h.DistributeFeePool hq hs₂).setProposal hq

variable [CanonicallyOrderedAdd C] [OrderedSub C]

/-- One round of settling: the escrow pays a stored record to a destination
other than itself, and the record is deleted. -/
theorem EscrowHolds.settleDeposit (h : EscrowHolds DepositedCoinsAccAddr R s)
    {destination : Deposit A C → A} {e : (ℕ ×ₗ A) × Deposit A C}
    (he : s.deposits.get e.1 = some e.2) (hdest : destination e.2 ≠ DepositedCoinsAccAddr) :
    ∃ s', State.settleDeposit DepositedCoinsAccAddr destination s e = .ok s' ∧
      s'.deposits = s.deposits.delete e.1 ∧ EscrowHolds DepositedCoinsAccAddr R s' := by
  have hsum := SortedKV.sumBy_eq_add_delete Deposit.Amount he
  -- the escrow holds the record's coins
  have hle : e.2.Amount ≤ s.balances DepositedCoinsAccAddr := by
    rw [h.balance, State.depositSum, hsum, add_assoc]
    exact le_self_add
  obtain ⟨balances, hsend⟩ : ∃ balances, SendCoins s.balances DepositedCoinsAccAddr
      (destination e.2) e.2.Amount = some balances :=
    ⟨_, SendCoins_eq_some.2 ⟨hle, rfl⟩⟩
  refine ⟨{ s with balances := balances, deposits := s.deposits.delete e.1 },
    by rw [State.settleDeposit, hsend], rfl, ?_, ?_, h.proposers⟩
  · refine balance_of_same_change (x := e.2.Amount) (y := 0) h.balance ?_ ?_
    · dsimp only
      rw [add_zero, SendCoins_from hsend (Ne.symm hdest)]
      exact tsub_add_cancel_of_le hle
    · rw [add_zero, State.depositSum, State.depositSum, hsum, add_comm]
  · intro k d hk
    rw [SortedKV.get_delete] at hk
    split_ifs at hk
    exact h.depositors k d hk

/-- **Settling never fails.**  Paying the deposits on a proposal out of the
escrow, to destinations other than the escrow, keeps the invariant. -/
theorem EscrowHolds.settleDeposits (h : EscrowHolds DepositedCoinsAccAddr R s)
    {destination : Deposit A C → A}
    (hdest : ∀ d : Deposit A C, d.Depositor ≠ DepositedCoinsAccAddr →
      destination d ≠ DepositedCoinsAccAddr) (proposalID : ℕ) :
    (State.settleDeposits DepositedCoinsAccAddr destination s proposalID).Sat (fun _ => False)
      (EscrowHolds DepositedCoinsAccAddr R) := by
  -- the records still to settle are still stored: each round deletes its own
  refine (Except.sat_foldlM (fun s' rest => EscrowHolds DepositedCoinsAccAddr R s' ∧
      SortedKV.Stored s'.deposits rest) (fun s' e rest ⟨h', hl⟩ => ?_) _ s
    ⟨h, SortedKV.stored_filter _ _⟩).mono (fun _ he => he) fun _ hI => hI.1
  have he := hl.mem e List.mem_cons_self
  obtain ⟨s'', hsettle, hd, h''⟩ := h'.settleDeposit he (hdest _ (h'.depositors _ _ he))
  rw [hsettle]
  exact ⟨h'', hd ▸ hl.delete⟩

theorem EscrowHolds.RefundDeposits (h : EscrowHolds DepositedCoinsAccAddr R s) (proposalID : ℕ) :
    (State.RefundDeposits DepositedCoinsAccAddr s proposalID).Sat Panic.NotEscrow
      (EscrowHolds DepositedCoinsAccAddr R) :=
  (h.settleDeposits (fun _ hd => hd) proposalID).mono (fun _ => False.elim) fun _ h => h

theorem EscrowHolds.DeleteDeposits (h : EscrowHolds DepositedCoinsAccAddr R s)
    (hburn : BurnedDepositCoinsAccAddr ≠ DepositedCoinsAccAddr) (proposalID : ℕ) :
    (State.DeleteDeposits DepositedCoinsAccAddr BurnedDepositCoinsAccAddr s proposalID).Sat
      Panic.NotEscrow (EscrowHolds DepositedCoinsAccAddr R) :=
  (h.settleDeposits (fun _ _ => hburn) proposalID).mono (fun _ => False.elim) fun _ h => h

/-! ### Rounds of the end of block that settle deposits -/

variable (BurnedDepositCoinsAccAddr) in
theorem EscrowHolds.dropInactiveProposal (h : EscrowHolds DepositedCoinsAccAddr R s)
    (hburn : BurnedDepositCoinsAccAddr ≠ DepositedCoinsAccAddr) (entry : (Time ×ₗ ℕ) × ℕ) :
    (State.dropInactiveProposal DepositedCoinsAccAddr BurnedDepositCoinsAccAddr s entry).Sat
      Panic.NotEscrow (EscrowHolds DepositedCoinsAccAddr R) :=
  Except.sat_bind (h.queuedProposal entry) fun _ _ =>
    Except.sat_bind (h.DeleteProposal entry.2) fun _ h₁ => h₁.DeleteDeposits hburn entry.2

theorem EscrowHolds.UpdateInactiveProposals (h : EscrowHolds DepositedCoinsAccAddr R s)
    (hburn : BurnedDepositCoinsAccAddr ≠ DepositedCoinsAccAddr) (now : Time) :
    (State.UpdateInactiveProposals DepositedCoinsAccAddr BurnedDepositCoinsAccAddr now s).Sat
      Panic.NotEscrow (EscrowHolds DepositedCoinsAccAddr R) :=
  Except.sat_foldlM_of_step (fun _ entry h => h.dropInactiveProposal _ hburn entry) _ s h

/-- Rejecting a proposal burns its deposits. -/
theorem EscrowHolds.rejectProposal (h : EscrowHolds DepositedCoinsAccAddr R s)
    (hburn : BurnedDepositCoinsAccAddr ≠ DepositedCoinsAccAddr) {p : Proposal A C}
    (hp : p.Proposer ≠ DepositedCoinsAccAddr) :
    (State.rejectProposal DepositedCoinsAccAddr BurnedDepositCoinsAccAddr s p).Sat Panic.NotEscrow
      fun r => ∀ t : TallyResult,
        EscrowHolds DepositedCoinsAccAddr R (r.1.SetProposal { r.2 with FinalTallyResult := t }) := by
  simp only [State.rejectProposal]
  refine Except.sat_bind ((h.setProposal (p := { p with Ranking := 0 }) hp).DeleteDeposits hburn _)
    fun s₂ h₂ => ?_
  -- the rejected record is stored over the queues without its entries
  refine Except.sat_pure fun t => EscrowHolds.setProposal ?_ hp
  exact h₂.of_proposals rfl rfl rfl

/-- A round of `ExecuteProposal` collects a stored proposal, or rejects it and
burns its deposits. -/
theorem EscrowHolds.executeActiveProposal (h : EscrowHolds DepositedCoinsAccAddr R s)
    (hburn : BurnedDepositCoinsAccAddr ≠ DepositedCoinsAccAddr) {proposals : List (Proposal A C)}
    (hps : ∀ p ∈ proposals, p.Proposer ≠ DepositedCoinsAccAddr) (env : Env A C)
    (results : List TallyResult) (entry : (Time ×ₗ ℕ) × ℕ) :
    (State.executeActiveProposal DepositedCoinsAccAddr BurnedDepositCoinsAccAddr env
      (s, proposals, results) entry).Sat Panic.NotEscrow fun r =>
        EscrowHolds DepositedCoinsAccAddr R r.1 ∧ ∀ p ∈ r.2.1, p.Proposer ≠ DepositedCoinsAccAddr := by
  simp only [State.executeActiveProposal]
  refine Except.sat_bind (h.queuedProposal entry) fun p hp => ?_
  rcases env.tally s p with ⟨passes, tallyResults, netural⟩
  split_ifs
  · exact ⟨h.setProposal hp, List.forall_mem_append.2 ⟨hps, List.forall_mem_singleton.2 hp⟩⟩
  · exact Except.sat_bind (h.rejectProposal hburn hp) fun ⟨_, _⟩ hr => ⟨hr _, hps⟩
  · exact Except.sat_bind (h.rejectProposal hburn
      (p := { p with FundingCycleCount := p.FundingCycleCount + 1 }) hp) fun ⟨_, _⟩ hr => ⟨hr _, hps⟩
  · exact ⟨h.setProposal (p := { { p with FundingCycleCount := p.FundingCycleCount + 1 } with
      FinalTallyResult := (env.tally s p).2.1 }) hp, hps⟩

/-- A round of `TransferFunds` pays a proposal's proposer, and refunds its
deposits after its last cycle. -/
theorem EscrowHolds.transferFund (h : EscrowHolds DepositedCoinsAccAddr R s) (env : Env A C)
    (fundingcycle : FundingCycle) (totalFundCount : C) {p : Proposal A C}
    (hp : p.Proposer ≠ DepositedCoinsAccAddr) :
    (State.transferFund DepositedCoinsAccAddr env (s, fundingcycle, totalFundCount) p).Sat
      Panic.NotEscrow fun r => EscrowHolds DepositedCoinsAccAddr R r.1 := by
  simp only [State.transferFund]
  split_ifs
  · refine Except.sat_bind (P := fun p₁ => p₁.Proposer ≠ DepositedCoinsAccAddr) ?_
      fun p₁ hp₁ => ?_
    · rw [State.ReduceCycleCount]
      split_ifs
      · exact nofun
      · exact hp
    split_ifs
    · refine Except.sat_bind (h.RefundDeposits _) fun s₁ h₁ => ?_
      rw [pure_bind]
      -- the passed record is stored, and taken out of the queues, before the payment
      refine EscrowHolds.pay ?_ (q := { p₁ with Status := StatusPassed, Ranking := 0 }) hp₁ _
      exact (h₁.setProposal (p := { p₁ with Status := StatusPassed, Ranking := 0 }) hp₁).of_proposals
        rfl rfl rfl
    · rw [pure_bind]
      exact h.pay hp₁ _
  · exact h

theorem EscrowHolds.TransferFunds (h : EscrowHolds DepositedCoinsAccAddr R s) (env : Env A C)
    {proposals : List (Proposal A C)}
    (hps : ∀ p ∈ proposals, p.Proposer ≠ DepositedCoinsAccAddr) :
    (State.TransferFunds DepositedCoinsAccAddr env s proposals).Sat Panic.NotEscrow
      (EscrowHolds DepositedCoinsAccAddr R) := by
  rw [State.TransferFunds]
  split
  · exact h
  rename_i fundingcycle _
  have hloop : (proposals.foldlM (State.transferFund DepositedCoinsAccAddr env)
      (s, fundingcycle, 0)).Sat Panic.NotEscrow fun r => EscrowHolds DepositedCoinsAccAddr R r.1 := by
    refine (Except.sat_foldlM (fun r rest => EscrowHolds DepositedCoinsAccAddr R r.1 ∧
        ∀ p ∈ rest, p.Proposer ≠ DepositedCoinsAccAddr) (fun r p rest hI => ?_) _ _
      ⟨h, hps⟩).mono (fun _ he => he) fun _ hI => hI.1
    obtain ⟨s₀, fc, totalFundCount⟩ := r
    exact (hI.1.transferFund env fc totalFundCount (hI.2 p List.mem_cons_self)).mono
      (fun _ he => he) fun _ h' => ⟨h', fun q hq => hI.2 q (List.mem_cons_of_mem _ hq)⟩
  exact Except.sat_bind hloop fun ⟨_, _, _⟩ h' => h'.of_proposals rfl rfl rfl

theorem EscrowHolds.ExecuteProposal (h : EscrowHolds DepositedCoinsAccAddr R s)
    (hburn : BurnedDepositCoinsAccAddr ≠ DepositedCoinsAccAddr) (env : Env A C) (now : Time) :
    (State.ExecuteProposal DepositedCoinsAccAddr BurnedDepositCoinsAccAddr env now s).Sat
      Panic.NotEscrow (EscrowHolds DepositedCoinsAccAddr R) := by
  rw [State.ExecuteProposal]
  refine Except.sat_bind (Except.sat_foldlM_of_step (Q := fun r =>
      EscrowHolds DepositedCoinsAccAddr R r.1 ∧ ∀ p ∈ r.2.1, p.Proposer ≠ DepositedCoinsAccAddr)
    (fun ⟨_, _, results⟩ entry ⟨h', hps⟩ => h'.executeActiveProposal hburn hps env results entry)
    _ _ ⟨h, by simp⟩) fun ⟨_, proposals, results⟩ ⟨h', hps⟩ => ?_
  -- the sort permutes the collected proposals
  have hperm : (State.SortProposalEligibility env proposals results).Perm proposals :=
    env.sortSlice_perm _ _
  exact Except.sat_bind (h'.SetEligibilityDetails _) fun _ h'' =>
    h''.TransferFunds env fun p hp => hps p (hperm.subset hp)

/-- **The end of block keeps the invariant**, and never fails to pay a deposit
out of the escrow. -/
theorem EscrowHolds.EndBlocker (h : EscrowHolds DepositedCoinsAccAddr R s)
    (hburn : BurnedDepositCoinsAccAddr ≠ DepositedCoinsAccAddr) (env : Env A C) (now : Time) :
    (s.EndBlocker DepositedCoinsAccAddr BurnedDepositCoinsAccAddr env now).Sat Panic.NotEscrow
      (EscrowHolds DepositedCoinsAccAddr R) := by
  rw [State.EndBlocker]
  -- every branch of the funding cycle ends with the same two loops
  have hk : ∀ s₁, EscrowHolds DepositedCoinsAccAddr R s₁ →
      (State.UpdateInactiveProposals DepositedCoinsAccAddr BurnedDepositCoinsAccAddr now s₁ >>=
        State.UpdateActiveProposals env now).Sat Panic.NotEscrow
          (EscrowHolds DepositedCoinsAccAddr R) :=
    fun _ h₁ => Except.sat_bind (h₁.UpdateInactiveProposals hburn now)
      fun _ h₂ => h₂.UpdateActiveProposals env now
  split
  · split
    · rw [pure_bind]
      exact hk _ (h.SetBlockTime now)
    · split_ifs
      · exact Except.sat_bind (h.RemoveFromInactiveProposalQueueIterator now)
          fun _ h₁ => Except.sat_bind (h₁.AddFundingCycle now) hk
      · rw [pure_bind]
        exact hk s h
  · split_ifs
    · exact Except.sat_bind (h.ExecuteProposal hburn env now)
        fun _ h₁ => Except.sat_bind (h₁.AddFundingCycle now) hk
    · rw [pure_bind]
      exact hk s h

/-! ### Runs -/

theorem EscrowHolds.step {Signs : A → Prop}
    (hsigns : ∀ a, Signs a → a ≠ DepositedCoinsAccAddr)
    (hburn : BurnedDepositCoinsAccAddr ≠ DepositedCoinsAccAddr)
    (h : EscrowHolds DepositedCoinsAccAddr R s)
    (hs : Step DepositedCoinsAccAddr BurnedDepositCoinsAccAddr Signs s s') :
    EscrowHolds DepositedCoinsAccAddr R s' := by
  cases hs with
  | deliver env now s msg hmsg => exact h.DeliverMsg env now msg (hsigns _ hmsg)
  | endBlock env now s s' hend => exact (h.EndBlocker hburn env now).of_ok hend

variable (DepositedCoinsAccAddr BurnedDepositCoinsAccAddr) in
/-- **The escrow holds the deposits along every run**: its balance is the
stored deposits and the remainder it started with, so it covers them, and no
end of block of a reachable state fails to pay one out. -/
theorem deposit_escrow_conserved (Signs : A → Prop)
    (hsigns : ∀ a, Signs a → a ≠ DepositedCoinsAccAddr)
    (hburn : BurnedDepositCoinsAccAddr ≠ DepositedCoinsAccAddr) {s₀ : State A C}
    (h₀ : EscrowHolds DepositedCoinsAccAddr R s₀)
    (hs : Reachable DepositedCoinsAccAddr BurnedDepositCoinsAccAddr Signs s₀ s) :
    s.balances DepositedCoinsAccAddr = s.depositSum + R ∧
      s.depositSum ≤ s.balances DepositedCoinsAccAddr ∧
      ∀ (env : Env A C) (now : Time),
        s.EndBlocker DepositedCoinsAccAddr BurnedDepositCoinsAccAddr env now ≠
          .error .depositShouldNotHappen := by
  have h : EscrowHolds DepositedCoinsAccAddr R s := by
    induction hs with
    | refl => exact h₀
    | tail _ hstep ih => exact ih.step hsigns hburn hstep
  refine ⟨h.balance, ?_, fun env now hend => (h.EndBlocker hburn env now).of_error hend rfl⟩
  rw [h.balance]
  exact le_self_add

end Escrow

theorem deposit_escrow_conserved_submit :
    (∀ a : ℕ, a ≠ 0 → a ≠ 0) ∧ (1 : ℕ) ≠ 0 ∧ EscrowHolds 0 100 emptyState ∧
      Reachable 0 1 (fun a : ℕ => a ≠ 0) emptyState
        (emptyState.DeliverMsg 0 acceptingEnv 0 (.MsgSubmitProposal .ProposalTypeText 5 1 2 20)) ∧
      ((emptyState.DeliverMsg 0 acceptingEnv 0
            (.MsgSubmitProposal .ProposalTypeText 5 1 2 20)).balances 0 =
          (emptyState.DeliverMsg 0 acceptingEnv 0
            (.MsgSubmitProposal .ProposalTypeText 5 1 2 20)).depositSum + 100 ∧
        (emptyState.DeliverMsg 0 acceptingEnv 0
            (.MsgSubmitProposal .ProposalTypeText 5 1 2 20)).depositSum ≤
          (emptyState.DeliverMsg 0 acceptingEnv 0
            (.MsgSubmitProposal .ProposalTypeText 5 1 2 20)).balances 0 ∧
        ∀ (env : Env ℕ ℕ) (now : Time),
          (emptyState.DeliverMsg 0 acceptingEnv 0
            (.MsgSubmitProposal .ProposalTypeText 5 1 2 20)).EndBlocker 0 1 env now ≠
            .error .depositShouldNotHappen) := by
  have h₀ : EscrowHolds 0 100 emptyState :=
    ⟨rfl, fun _ _ h => by simp [emptyState] at h,
      fun _ _ h => by simp [emptyState, State.GetProposal] at h⟩
  have hreach : Reachable 0 1 (fun a : ℕ => a ≠ 0) emptyState
      (emptyState.DeliverMsg 0 acceptingEnv 0 (.MsgSubmitProposal .ProposalTypeText 5 1 2 20)) :=
    Relation.ReflTransGen.single (Step.deliver _ _ _ _ (show (2 : ℕ) ≠ 0 by decide))
  exact ⟨fun _ h => h, by decide, h₀, hreach,
    deposit_escrow_conserved 0 1 (fun a : ℕ => a ≠ 0) (fun _ h => h) (by decide) h₀ hreach⟩

/-- After the submission the escrow holds the initial deposit besides its
remainder. -/
example : (emptyState.DeliverMsg 0 acceptingEnv 0
      (.MsgSubmitProposal .ProposalTypeText 5 1 2 20)).balances 0 = 120 ∧
    (emptyState.DeliverMsg 0 acceptingEnv 0
      (.MsgSubmitProposal .ProposalTypeText 5 1 2 20)).depositSum = 20 := by
  decide

end Gov

end ColorSdk
