import ColorSdk.Gov.Keeper

/-!
# The governance module's messages and end of block

Three messages reach the governance handler: submitting a proposal (with its
initial deposit), depositing, and voting.  A handler that returns an error
leaves the state as it was, since the transaction's writes are dropped.

At the end of each block `EndBlocker` first runs the funding cycle: before
the first cycle it activates the waiting proposals and starts one; at the end
of a cycle it executes the voting proposals (`ExecuteProposal`) and starts
the next.  Then it drops the proposals that did not reach the minimum deposit
(`UpdateInactiveProposals`) and tallies the voting ones
(`UpdateActiveProposals`).  Each of these loops walks the entries a queue
iterator yields, an iteration that sees the queue as it was when the iterator
was opened.

`Step` is one transaction or one end of block, at any block time, and
`Reachable` its runs.

## Main definitions

* `UpdateInactiveProposals`, `UpdateActiveProposals`, `ExecuteProposal`,
  `RemoveFromInactiveProposalQueueIterator`, `EndBlocker`.
* `Msg`, `Msg.ValidateBasic`, `NewHandler`, `DeliverMsg`.
* `Step`, `Reachable`; `ValidatedStep`, `ValidatedReachable` — the steps baseapp
  runs, whose messages pass `ValidateBasic`.
* `emptyState`, `acceptingEnv` — a chain just after genesis, and neighbouring
  modules that accept everything.

## References

* src/x/gov/endblocker.go, src/x/gov/handler.go, src/x/gov/msgs.go,
  src/x/gov/proposals.go (`validProposalType`),
  src/x/gov/keeper.go (`RemoveFromInactiveProposalQueueIterator`),
  src/baseapp/baseapp.go (`validateBasicTxMsgs`)
-/

namespace ColorSdk
namespace Gov

open ProposalStatus

variable {A C : Type} [LinearOrder A] [AddCommMonoid C] [LE C] [DecidableLE C] [Sub C]
  (DepositedCoinsAccAddr BurnedDepositCoinsAccAddr : A)

namespace State

/-! ### End of block -/

/-- The proposal an entry of a queue names; a missing one panics. -/
def queuedProposal (s : State A C) (entry : (Time ×ₗ ℕ) × ℕ) : Except Panic (Proposal A C) :=
  match s.GetProposal entry.2 with
  | none => .error (.proposalDoesNotExist entry.2)
  | some proposal => .ok proposal

/-- One entry of `UpdateInactiveProposals`: the proposal is deleted and its
deposits burned. -/
def dropInactiveProposal (s : State A C) (entry : (Time ×ₗ ℕ) × ℕ) : Except Panic (State A C) := do
  let _ ← s.queuedProposal entry
  let s ← s.DeleteProposal entry.2
  DeleteDeposits DepositedCoinsAccAddr BurnedDepositCoinsAccAddr s entry.2

/-- Delete the proposals whose deposit period ended. -/
def UpdateInactiveProposals (now : Time) (s : State A C) : Except Panic (State A C) :=
  (s.InactiveProposalQueueIterator now).foldlM
    (dropInactiveProposal DepositedCoinsAccAddr BurnedDepositCoinsAccAddr) s

/-- One entry of `UpdateActiveProposals`: tally the proposal, and collect it if
it passes.  The collected copy is taken before the tally is recorded in the
stored one. -/
def tallyActiveProposal (env : Env A C)
    (acc : State A C × List (Proposal A C) × List TallyResult) (entry : (Time ×ₗ ℕ) × ℕ) :
    Except Panic (State A C × List (Proposal A C) × List TallyResult) := do
  let (s, proposals, results) := acc
  let activeProposal ← s.queuedProposal entry
  let (passes, tallyResults, _) := env.tally s activeProposal
  if passes then
    pure (s.SetProposal { activeProposal with FinalTallyResult := tallyResults },
      proposals ++ [activeProposal], results ++ [tallyResults])
  else
    pure (s.SetProposal { activeProposal with Ranking := 0, FinalTallyResult := tallyResults },
      proposals, results)

/-- Tally the voting proposals on every block and rank the passing ones. -/
def UpdateActiveProposals (env : Env A C) (now : Time) (s : State A C) :
    Except Panic (State A C) := do
  let (s, proposals, results) ←
    (s.ActiveProposalQueueIterator now).foldlM (tallyActiveProposal env) (s, [], [])
  s.SetEligibilityDetails (SortProposalEligibility env proposals results)

/-- Reject a proposal: burn its deposits and take it out of the queues. -/
def rejectProposal (s : State A C) (activeProposal : Proposal A C) :
    Except Panic (State A C × Proposal A C) := do
  let s := s.DeleteProposalEligibility activeProposal
  let s ← DeleteDeposits DepositedCoinsAccAddr BurnedDepositCoinsAccAddr s activeProposal.ProposalID
  let s := s.RemoveFromInactiveProposalQueue activeProposal.DepositEndTime activeProposal.ProposalID
  let s := s.RemoveFromActiveProposalQueue activeProposal.VotingEndTime activeProposal.ProposalID
  pure (s, { activeProposal with Status := StatusRejected, Ranking := 0 })

/-- One entry of `ExecuteProposal`: a passing proposal is collected, a failing
one rejected, and a neutral one rejected at its last allowed cycle.  Each is
stored with its tally; the collected copy is taken before that. -/
def executeActiveProposal (env : Env A C)
    (acc : State A C × List (Proposal A C) × List TallyResult) (entry : (Time ×ₗ ℕ) × ℕ) :
    Except Panic (State A C × List (Proposal A C) × List TallyResult) := do
  let (s, proposals, results) := acc
  let activeProposal ← s.queuedProposal entry
  let (passes, tallyResults, netural) := env.tally s activeProposal
  if passes then
    pure (s.SetProposal { activeProposal with FinalTallyResult := tallyResults },
      proposals ++ [activeProposal], results ++ [tallyResults])
  else if !netural then
    let (s, activeProposal) ←
      rejectProposal DepositedCoinsAccAddr BurnedDepositCoinsAccAddr s activeProposal
    pure (s.SetProposal { activeProposal with FinalTallyResult := tallyResults }, proposals, results)
  else
    let activeProposal :=
      { activeProposal with FundingCycleCount := activeProposal.FundingCycleCount + 1 }
    if activeProposal.CheckMaxCycleCount then
      let (s, activeProposal) ←
        rejectProposal DepositedCoinsAccAddr BurnedDepositCoinsAccAddr s activeProposal
      pure (s.SetProposal { activeProposal with FinalTallyResult := tallyResults }, proposals,
        results)
    else
      pure (s.SetProposal { activeProposal with FinalTallyResult := tallyResults }, proposals,
        results)

/-- Execute the voting proposals whose voting ended, and fund the passing ones. -/
def ExecuteProposal (env : Env A C) (now : Time) (s : State A C) : Except Panic (State A C) := do
  let (s, proposals, results) ← (s.ActiveProposalQueueIterator now).foldlM
    (executeActiveProposal DepositedCoinsAccAddr BurnedDepositCoinsAccAddr env) (s, [], [])
  let proposals := SortProposalEligibility env proposals results
  let s ← s.SetEligibilityDetails proposals
  TransferFunds DepositedCoinsAccAddr env s proposals

/-- One entry of `RemoveFromInactiveProposalQueueIterator`. -/
def activateInactiveProposal (now : Time) (s : State A C) (entry : (Time ×ₗ ℕ) × ℕ) :
    Except Panic (State A C) := do
  let inactiveProposal ← s.queuedProposal entry
  pure (activateVotingPeriod now s inactiveProposal)

/-- Start the voting period of every proposal waiting for the first cycle. -/
def RemoveFromInactiveProposalQueueIterator (now : Time) (s : State A C) :
    Except Panic (State A C) :=
  (s.InactiveProposalQueueIterator now).foldlM (activateInactiveProposal now) s

/-- Called every block: run the funding cycle, then drop and tally proposals. -/
def EndBlocker (env : Env A C) (now : Time) (s : State A C) : Except Panic (State A C) := do
  let s ← match s.GetCurrentCycle with
    | none =>
      match s.GetDaysPassed now with
      | none => pure (s.SetBlockTime now)
      | some days =>
        if LimitFirstFundingCycle ≤ days then do
          let s ← s.RemoveFromInactiveProposalQueueIterator now
          s.AddFundingCycle now
        else pure s
    | some currentFundingCycle =>
      if currentFundingCycle.CheckEqualEndTime now then do
        let s ← ExecuteProposal DepositedCoinsAccAddr BurnedDepositCoinsAccAddr env now s
        s.AddFundingCycle now
      else pure s
  let s ← UpdateInactiveProposals DepositedCoinsAccAddr BurnedDepositCoinsAccAddr now s
  UpdateActiveProposals env now s

end State

/-! ### Messages -/

/-- The messages of the governance module. -/
inductive Msg (A C : Type)
  | MsgSubmitProposal (ProposalType : ProposalKind) (RequestedFund : C) (FundingCycle : ℕ)
      (Proposer : A) (InitialDeposit : C)
  | MsgDeposit (ProposalID : ℕ) (Depositor : A) (Amount : C)
  | MsgVote (ProposalID : ℕ) (Voter : A) (Option : VoteOption)

/-- The address that signs a message. -/
def Msg.signer : Msg A C → A
  | .MsgSubmitProposal _ _ _ proposer _ => proposer
  | .MsgDeposit _ depositor _ => depositor
  | .MsgVote _ voter _ => voter

/-- The kinds of proposal a message may submit. -/
def validProposalType : ProposalKind → Bool
  | .ProposalTypeText | .ProposalTypeParameterChange | .ProposalTypeSoftwareUpgrade => true
  | .ProposalTypeNil => false

/-- The errors of `ValidateBasic`: the governance module's own, and the sdk's
`ErrUnauthorized` with its text. -/
inductive ValidateBasicError
  | gov (err : GovError)
  | ErrUnauthorized (msg : String)
  deriving DecidableEq, Repr

/-- `FeeLimit`: the least initial deposit of a proposal, in the bond
denomination. -/
def FeeLimit : ℤ := 10000000000

/-- The stateless checks baseapp runs on a message before its handler, on the
fields the model has: the kind of a proposal, the bond denomination of its
request and of its initial deposit, read by `AmountOfBond`, how many cycles it
asks for, and the option of a vote.  The checks of titles, addresses and of the
coins' validity read data the model does not have. -/
def Msg.ValidateBasic (AmountOfBond : C → ℤ) : Msg A C → Option ValidateBasicError
  | .MsgSubmitProposal ProposalType RequestedFund FundingCycle _ InitialDeposit =>
    if !validProposalType ProposalType then some (.gov (.ErrInvalidProposalType ProposalType))
    else if AmountOfBond RequestedFund = 0 then some (.ErrUnauthorized "Value Should be in uclr")
    else if FundingCycle = 0 then some (.ErrUnauthorized "Zero cycle is not allowed")
    else if FundingCycle > 6 then some (.ErrUnauthorized "Fund cycle more than 6 is not allowed")
    else if AmountOfBond InitialDeposit < FeeLimit then
      some (.ErrUnauthorized "Minimum Deposit fee should be 10,000 CLR")
    else none
  | .MsgDeposit _ _ _ => none
  | .MsgVote _ _ option =>
    if !validVoteOption option then some (.gov (.ErrInvalidVote option)) else none

namespace State

def handleMsgSubmitProposal (env : Env A C) (now : Time) (s : State A C)
    (ProposalType : ProposalKind) (RequestedFund : C) (FundingCycle : ℕ) (Proposer : A)
    (InitialDeposit : C) : Except GovError (State A C) := do
  if env.ExpectedTreasureIncome RequestedFund then throw .ErrInvalidTreasureIncome
  let content : ProposalContent A C := ⟨RequestedFund, FundingCycle, Proposer⟩
  if ProposalType ≠ .ProposalTypeText ∧ ProposalType ≠ .ProposalTypeSoftwareUpgrade then
    throw (.ErrInvalidProposalType ProposalType)
  let (proposal, s) ← SubmitProposal now s content
  let (s, _) ← AddDeposit DepositedCoinsAccAddr now s proposal.ProposalID Proposer InitialDeposit
  pure s

/-- Handle all governance messages. -/
def NewHandler (env : Env A C) (now : Time) (s : State A C) : Msg A C → Except GovError (State A C)
  | .MsgSubmitProposal kind requestedFund fundingCycle proposer initialDeposit =>
    handleMsgSubmitProposal DepositedCoinsAccAddr env now s kind requestedFund fundingCycle proposer
      initialDeposit
  | .MsgDeposit proposalID depositor amount =>
    (AddDeposit DepositedCoinsAccAddr now s proposalID depositor amount).map Prod.fst
  | .MsgVote proposalID voter option => AddVote env now s proposalID voter option

/-- A transaction carrying one message: on an error its writes are dropped. -/
def DeliverMsg (env : Env A C) (now : Time) (s : State A C) (msg : Msg A C) : State A C :=
  match NewHandler DepositedCoinsAccAddr env now s msg with
  | .ok s' => s'
  | .error _ => s

end State

/-! ### Runs -/

/-- One step of the chain, at any block time: a transaction whose signer
satisfies `Signs`, or an end of block that does not panic. -/
inductive Step (Signs : A → Prop) : State A C → State A C → Prop
  | deliver (env : Env A C) (now : Time) (s : State A C) (msg : Msg A C) (hmsg : Signs msg.signer) :
      Step Signs s (s.DeliverMsg DepositedCoinsAccAddr env now msg)
  | endBlock (env : Env A C) (now : Time) (s s' : State A C)
      (h : s.EndBlocker DepositedCoinsAccAddr BurnedDepositCoinsAccAddr env now = .ok s') :
      Step Signs s s'

/-- The states a run of steps reaches from `s₀`. -/
def Reachable (Signs : A → Prop) (s₀ : State A C) : State A C → Prop :=
  Relation.ReflTransGen (Step DepositedCoinsAccAddr BurnedDepositCoinsAccAddr Signs) s₀

/-- One step of the chain as baseapp runs it: a transaction whose message passes
`ValidateBasic` before its handler runs, or an end of block. -/
inductive ValidatedStep (AmountOfBond : C → ℤ) (Signs : A → Prop) : State A C → State A C → Prop
  | deliver (env : Env A C) (now : Time) (s : State A C) (msg : Msg A C) (hmsg : Signs msg.signer)
      (hvalid : msg.ValidateBasic AmountOfBond = none) :
      ValidatedStep AmountOfBond Signs s (s.DeliverMsg DepositedCoinsAccAddr env now msg)
  | endBlock (env : Env A C) (now : Time) (s s' : State A C)
      (h : s.EndBlocker DepositedCoinsAccAddr BurnedDepositCoinsAccAddr env now = .ok s') :
      ValidatedStep AmountOfBond Signs s s'

/-- The states the chain reaches from `s₀`. -/
def ValidatedReachable (AmountOfBond : C → ℤ) (Signs : A → Prop) (s₀ : State A C) : State A C → Prop :=
  Relation.ReflTransGen
    (ValidatedStep DepositedCoinsAccAddr BurnedDepositCoinsAccAddr AmountOfBond Signs) s₀

variable {DepositedCoinsAccAddr BurnedDepositCoinsAccAddr} in
/-- A step of the chain is a step of the keeper. -/
theorem ValidatedStep.step {AmountOfBond : C → ℤ} {Signs : A → Prop} {s s' : State A C}
    (h : ValidatedStep DepositedCoinsAccAddr BurnedDepositCoinsAccAddr AmountOfBond Signs s s') :
    Step DepositedCoinsAccAddr BurnedDepositCoinsAccAddr Signs s s' := by
  cases h with
  | deliver env now s msg hmsg _ => exact .deliver env now s msg hmsg
  | endBlock env now s s' h => exact .endBlock env now s s' h

variable {DepositedCoinsAccAddr BurnedDepositCoinsAccAddr} in
theorem ValidatedReachable.reachable {AmountOfBond : C → ℤ} {Signs : A → Prop} {s₀ s : State A C}
    (h : ValidatedReachable DepositedCoinsAccAddr BurnedDepositCoinsAccAddr AmountOfBond Signs s₀ s) :
    Reachable DepositedCoinsAccAddr BurnedDepositCoinsAccAddr Signs s₀ s := by
  induction h with
  | refl => exact .refl
  | tail _ hstep ih => exact ih.tail hstep.step

/-! ### An example chain -/

/-- No address, coin or proposal: a store just after genesis. -/
def emptyState : State ℕ ℕ where
  proposals := .empty
  deposits := .empty
  votes := .empty
  inactiveQueue := .empty
  activeQueue := .empty
  nextProposalID := some 1
  fundingCycles := .empty
  nextFundingCycleID := some 0
  firstBlockTime := none
  MinDeposit := 10
  balances := fun _ => 100
  communityPool := 0

/-- A store just after genesis whose accounts hold `10¹¹` each, enough for a
proposal's initial deposit of `FeeLimit`. -/
def fundedGenesis : State ℕ ℕ := { emptyState with balances := fun _ => 100000000000 }

/-- Modules around governance that accept every request, pass every proposal
and sort nothing. -/
def acceptingEnv : Env ℕ ℕ where
  ExpectedTreasureIncome _ := false
  VerifyAmount _ := true
  IsCouncilMember _ := true
  tally _ _ := (true, ⟨1, 0, 0⟩, false)
  sortSlice l _ := l
  sortSlice_perm _ _ := List.Perm.refl _

end Gov

end ColorSdk
