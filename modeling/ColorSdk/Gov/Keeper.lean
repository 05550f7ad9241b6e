import ColorSdk.Lib.SortedKV
import ColorSdk.Lib.ExceptSpec
import Mathlib.Data.Prod.Lex
import Mathlib.Algebra.Group.Defs

/-!
# The governance keeper

Color's governance module funds proposals from the community pool.  A
proposal waits in the deposit period until its deposits reach the minimum, or
enters the voting period at once while a funding cycle runs; at the end of a
cycle the voting proposals are tallied, the rejected ones lose their deposits,
and the passed ones are paid for as many cycles as they asked for, after which
their deposits are refunded.

The keeper keeps proposals in two queues, keyed by a time and the proposal's
id: the inactive queue at the proposal's deposit end time, the active queue at
its voting end time.  Deposits are held in the escrow account
`DepositedCoinsAccAddr` of the bank and leave it as refunds or as burns to
`BurnedDepositCoinsAccAddr`.

This file models the keeper, one definition per Go function.  The state is the
governance store, the balances of the bank, and the community pool of
distribution, which `TransferFunds` draws on.  Addresses are of any linearly
ordered type; coins of any additive monoid with an order and a subtraction,
the way `sdk.Coins` add and compare denomination by denomination.  Times are
nanoseconds since the Unix epoch.  What other modules compute for the keeper
(the tally of council votes, the treasury income, `sort.Slice`) is an `Env`
given with each block.

## Main definitions

* `Proposal`, `Deposit`, `Vote`, `FundingCycle`, `State`, `Env`.
* `SendCoins` — the bank's transfer.
* `SubmitProposal`, `AddDeposit`, `AddVote`, `activateVotingPeriod`,
  `DeleteProposal`.
* `RefundDeposits`, `DeleteDeposits` — both `settleDeposits`.
* `TransferFunds`, `AddFundingCycle`, `GetCurrentCycle`.
* `InactiveProposalQueueIterator`, `ActiveProposalQueueIterator`.

## References

* src/x/gov/keeper.go, src/x/gov/proposals.go, src/x/gov/depositsvotes.go,
  src/x/gov/funding_cycle.go, src/x/gov/keeper_keys.go,
  src/x/distribution/keeper/fee_pool.go, src/x/bank/keeper.go
-/

namespace ColorSdk
namespace Gov

/-! ### Constants and records -/

/-- Block times, in nanoseconds since the Unix epoch. -/
abbrev Time := ℤ

/-- `time.Hour`. -/
def Hour : Time := 3600 * 10 ^ 9

/-- Total hours in 4 weeks. -/
def FourWeeksHours : Time := Hour * (24 * 28)

/-- The first funding cycle starts once this many days have passed. -/
def LimitFirstFundingCycle : ℤ := 0

/-- Stop funding on the last two days of a funding cycle. -/
def StopFundingBeforeDays : ℤ := 2

/-- The max limit of neutral tallies for a proposal. -/
def MaxCycleCount : ℕ := 2

/-- Go's zero `time.Time`: January 1 of year 1, UTC. -/
def zeroTime : Time := -62135596800 * 10 ^ 9

inductive ProposalStatus
  | StatusNil
  | StatusDepositPeriod
  | StatusVotingPeriod
  | StatusPassed
  | StatusRejected
  deriving DecidableEq, Repr

inductive ProposalKind
  | ProposalTypeNil
  | ProposalTypeText
  | ProposalTypeParameterChange
  | ProposalTypeSoftwareUpgrade
  deriving DecidableEq, Repr

inductive VoteOption
  | OptionEmpty
  | OptionYes
  | OptionAbstain
  | OptionNo
  deriving DecidableEq, Repr

def validVoteOption : VoteOption → Bool
  | .OptionYes | .OptionAbstain | .OptionNo => true
  | .OptionEmpty => false

open ProposalStatus

structure TallyResult where
  Yes : ℤ
  Abstain : ℤ
  No : ℤ

def EmptyTallyResult : TallyResult := ⟨0, 0, 0⟩

/-- A proposal with the fields of its content that the keeper reads. -/
structure Proposal (A C : Type) where
  RequestedFund : C
  FundingCycle : ℕ
  Proposer : A
  ProposalID : ℕ
  Status : ProposalStatus
  FinalTallyResult : TallyResult
  SubmitTime : Time
  DepositEndTime : Time
  TotalDeposit : C
  RemainingFundingCycle : ℕ
  FundingCycleCount : ℕ
  Ranking : ℤ
  VotingStartTime : Time
  VotingEndTime : Time

/-- What a proposal asks for. -/
structure ProposalContent (A C : Type) where
  RequestedFund : C
  FundingCycle : ℕ
  Proposer : A

structure Deposit (A C : Type) where
  Depositor : A
  ProposalID : ℕ
  Amount : C

structure Vote (A : Type) where
  ProposalID : ℕ
  Voter : A
  Option : VoteOption

structure FundingCycle where
  CycleID : ℕ
  CycleStartTime : Time
  CycleEndTime : Time
  FundedProposals : List ℕ

namespace Proposal

variable {A C : Type}

def IsZeroRemainingCycle (p : Proposal A C) : Bool := p.RemainingFundingCycle = 0

def CheckMaxCycleCount (p : Proposal A C) : Bool := p.FundingCycleCount = MaxCycleCount

end Proposal

/-- Checks whether the current time is past the end of a funding cycle. -/
def FundingCycle.CheckEqualEndTime (fs : FundingCycle) (currentTime : Time) : Bool :=
  decide (fs.CycleEndTime < currentTime)

/-- Errors a message handler returns; its transaction then changes nothing. -/
inductive GovError
  | ErrUnknownProposal (proposalID : ℕ)
  | ErrAlreadyFinishedProposal (proposalID : ℕ)
  | ErrInactiveProposal (proposalID : ℕ)
  | ErrInvalidVote (option : VoteOption)
  | ErrInvalidCouncilMember
  | ErrInvalidCycle
  | ErrInvalidGenesis
  | ErrInsufficientCoins
  | ErrInvalidTreasureIncome
  | ErrInvalidProposalType (kind : ProposalKind)
  deriving DecidableEq, Repr

/-- Panics, which halt the chain. -/
inductive Panic
  /-- "proposal %d does not exist" -/
  | proposalDoesNotExist (proposalID : ℕ)
  /-- "should not happen" in `RefundDeposits` and `DeleteDeposits`: the bank
  refused to send a deposit out of the escrow. -/
  | depositShouldNotHappen
  /-- "should not happen" in `TransferFunds`: the community pool could not pay. -/
  | transferShouldNotHappen
  /-- "DeleteProposal cannot fail to GetProposal" -/
  | deleteProposalCannotFail
  /-- "Remaining funding Cycle cannot be less then zero" -/
  | remainingFundingCycleNegative
  /-- "AddFundingCycle fail to get New Funding Cycle ID" -/
  | addFundingCycleFail
  deriving DecidableEq, Repr

/-! ### The state -/

/-- What the governance module reads and writes: its store, the balances of the
bank, and the community pool of distribution. -/
structure State (A C : Type) [LinearOrder A] where
  proposals : SortedKV ℕ (Proposal A C)
  /-- Deposits, keyed by proposal and depositor. -/
  deposits : SortedKV (ℕ ×ₗ A) (Deposit A C)
  /-- Votes, keyed by proposal and voter. -/
  votes : SortedKV (ℕ ×ₗ A) (Vote A)
  /-- The inactive queue: proposal ids keyed by deposit end time and id. -/
  inactiveQueue : SortedKV (Time ×ₗ ℕ) ℕ
  /-- The active queue: proposal ids keyed by voting end time and id. -/
  activeQueue : SortedKV (Time ×ₗ ℕ) ℕ
  nextProposalID : Option ℕ
  fundingCycles : SortedKV ℕ FundingCycle
  nextFundingCycleID : Option ℕ
  firstBlockTime : Option Time
  /-- `DepositParams.MinDeposit`. -/
  MinDeposit : C
  /-- The bank's balances. -/
  balances : A → C
  /-- Distribution's community pool, truncated to whole coins. -/
  communityPool : C

/-- What other modules and libraries compute for the keeper during a block. -/
structure Env (A C : Type) [LinearOrder A] where
  /-- `ExpectedTreasureIncome`: whether a requested fund exceeds half the
  treasury's weekly income. -/
  ExpectedTreasureIncome : C → Bool
  /-- `VerifyAmount` against the limit `TransferFunds` takes from the treasury's
  weekly income. -/
  VerifyAmount : C → Bool
  /-- Whether staking has a council member record for an address. -/
  IsCouncilMember : A → Bool
  /-- `tally`: whether a proposal passes, its results, and whether the vote is
  neutral. -/
  tally : State A C → Proposal A C → Bool × TallyResult × Bool
  /-- `sort.Slice` with a less function on indices. -/
  sortSlice : List (Proposal A C) → (ℕ → ℕ → Bool) → List (Proposal A C)
  /-- `sort.Slice` permutes the slice. -/
  sortSlice_perm : ∀ l less, (sortSlice l less).Perm l

section Keeper

variable {A C : Type} [LinearOrder A] [AddCommMonoid C] [LE C] [DecidableLE C] [Sub C]

/-! ### The bank and the community pool -/

/-- Subtract coins from an account; fails if the account cannot spend them. -/
def subtractCoins (balances : A → C) (addr : A) (amt : C) : Option (A → C) :=
  if amt ≤ balances addr then some (Function.update balances addr (balances addr - amt)) else none

def addCoins (balances : A → C) (addr : A) (amt : C) : A → C :=
  Function.update balances addr (balances addr + amt)

/-- SendCoins moves coins from one account to another. -/
def SendCoins (balances : A → C) (fromAddr toAddr : A) (amt : C) : Option (A → C) :=
  (subtractCoins balances fromAddr amt).map fun balances => addCoins balances toAddr amt

theorem SendCoins_eq_some {balances balances' : A → C} {fromAddr toAddr : A} {amt : C} :
    SendCoins balances fromAddr toAddr amt = some balances' ↔ amt ≤ balances fromAddr ∧
      balances' = addCoins (Function.update balances fromAddr (balances fromAddr - amt)) toAddr amt := by
  unfold SendCoins subtractCoins
  split_ifs with h <;> simp [h, eq_comm]

/-- The receiver of a transfer gains the coins. -/
theorem SendCoins_to {balances balances' : A → C} {fromAddr toAddr : A} {amt : C}
    (h : SendCoins balances fromAddr toAddr amt = some balances') (hne : fromAddr ≠ toAddr) :
    balances' toAddr = balances toAddr + amt := by
  obtain ⟨-, rfl⟩ := SendCoins_eq_some.1 h
  simp [addCoins, Function.update_of_ne (Ne.symm hne)]

/-- The sender of a transfer loses the coins. -/
theorem SendCoins_from {balances balances' : A → C} {fromAddr toAddr : A} {amt : C}
    (h : SendCoins balances fromAddr toAddr amt = some balances') (hne : fromAddr ≠ toAddr) :
    balances' fromAddr = balances fromAddr - amt := by
  obtain ⟨-, rfl⟩ := SendCoins_eq_some.1 h
  simp [addCoins, Function.update_of_ne hne]

namespace State

/-- DistributeFeePool distributes funds from the community pool to a receiver
address. -/
def DistributeFeePool (s : State A C) (amount : C) (receiveAddr : A) : Option (State A C) :=
  if amount ≤ s.communityPool then
    some { s with communityPool := s.communityPool - amount,
                  balances := addCoins s.balances receiveAddr amount }
  else none

/-! ### Proposals -/

def GetProposal (s : State A C) (proposalID : ℕ) : Option (Proposal A C) :=
  s.proposals.get proposalID

def SetProposal (s : State A C) (proposal : Proposal A C) : State A C :=
  { s with proposals := s.proposals.set proposal.ProposalID proposal }

/-- Inserts a proposal id into the inactive proposal queue at endTime. -/
def InsertInactiveProposalQueue (s : State A C) (endTime : Time) (proposalID : ℕ) : State A C :=
  { s with inactiveQueue := s.inactiveQueue.set (toLex (endTime, proposalID)) proposalID }

/-- Removes a proposal id from the inactive proposal queue. -/
def RemoveFromInactiveProposalQueue (s : State A C) (endTime : Time) (proposalID : ℕ) :
    State A C :=
  { s with inactiveQueue := s.inactiveQueue.delete (toLex (endTime, proposalID)) }

/-- Inserts a proposal id into the active proposal queue at endTime. -/
def InsertActiveProposalQueue (s : State A C) (endTime : Time) (proposalID : ℕ) : State A C :=
  { s with activeQueue := s.activeQueue.set (toLex (endTime, proposalID)) proposalID }

/-- Removes a proposal id from the active proposal queue. -/
def RemoveFromActiveProposalQueue (s : State A C) (endTime : Time) (proposalID : ℕ) :
    State A C :=
  { s with activeQueue := s.activeQueue.delete (toLex (endTime, proposalID)) }

/-- The entries of a queue that expire by endTime, in key order: Go iterates
from the queue's prefix to the end of the prefix of endTime. -/
def queueUntil (queue : SortedKV (Time ×ₗ ℕ) ℕ) (endTime : Time) : List ((Time ×ₗ ℕ) × ℕ) :=
  queue.entries.filter fun e => decide ((ofLex e.1).1 ≤ endTime)

/-- The proposals in the inactive queue that expire by endTime. -/
def InactiveProposalQueueIterator (s : State A C) (endTime : Time) : List ((Time ×ₗ ℕ) × ℕ) :=
  queueUntil s.inactiveQueue endTime

/-- The proposals in the active queue that expire by endTime. -/
def ActiveProposalQueueIterator (s : State A C) (endTime : Time) : List ((Time ×ₗ ℕ) × ℕ) :=
  queueUntil s.activeQueue endTime

/-- Deletes a proposal and its queue entries. -/
def DeleteProposal (s : State A C) (proposalID : ℕ) : Except Panic (State A C) :=
  match s.GetProposal proposalID with
  | none => .error .deleteProposalCannotFail
  | some proposal =>
    let s := s.RemoveFromInactiveProposalQueue proposal.DepositEndTime proposalID
    let s := s.RemoveFromActiveProposalQueue proposal.VotingEndTime proposalID
    .ok { s with proposals := s.proposals.delete proposalID }

/-- Gets the next available proposal id and increments it. -/
def getNewProposalID (s : State A C) : Except GovError (ℕ × State A C) :=
  match s.nextProposalID with
  | none => .error .ErrInvalidGenesis
  | some proposalID => .ok (proposalID, { s with nextProposalID := some (proposalID + 1) })

/-! ### Funding cycles -/

/-- The last used funding cycle id: the counter less one, as a `uint64`. -/
def GetLastFundingCycleID (s : State A C) : ℕ :=
  match s.nextFundingCycleID with
  | none => 0
  | some fundingCycleID => if fundingCycleID = 0 then 2 ^ 64 - 1 else fundingCycleID - 1

/-- The active funding cycle. -/
def GetCurrentCycle (s : State A C) : Option FundingCycle :=
  s.fundingCycles.get s.GetLastFundingCycleID

def SetFundingCycle (s : State A C) (fundingCycle : FundingCycle) : State A C :=
  { s with fundingCycles := s.fundingCycles.set fundingCycle.CycleID fundingCycle }

/-- Gets the next available funding cycle id and increments it. -/
def GetNewFundingCycleID (s : State A C) : Option (ℕ × State A C) :=
  s.nextFundingCycleID.map fun fundingCycleID =>
    (fundingCycleID, { s with nextFundingCycleID := some (fundingCycleID + 1) })

/-- Start a new funding cycle. -/
def AddFundingCycle (now : Time) (s : State A C) : Except Panic (State A C) :=
  match s.GetNewFundingCycleID with
  | none => .error .addFundingCycleFail
  | some (fundingCycleID, s) => .ok (s.SetFundingCycle ⟨fundingCycleID, now, now + FourWeeksHours, []⟩)

/-- Total days passed since the first block; Go truncates the float quotient. -/
def GetDaysPassed (now : Time) (s : State A C) : Option ℤ :=
  s.firstBlockTime.map fun firstBlockTime => (now - firstBlockTime).tdiv (Hour * 24)

def SetBlockTime (now : Time) (s : State A C) : State A C :=
  match s.firstBlockTime with
  | some _ => s
  | none => { s with firstBlockTime := some now }

/-- Stop funding on the last two days of the funding cycle. -/
def CheckCycleActive (now : Time) (s : State A C) : Bool :=
  match s.GetCurrentCycle with
  | some currentFundingCycle =>
    !decide (currentFundingCycle.CycleEndTime + StopFundingBeforeDays * (Hour * 24) < now)
  | none => false

/-! ### Submitting, depositing, voting -/

/-- Start the voting period of a proposal. -/
def activateVotingPeriod (now : Time) (s : State A C) (proposal : Proposal A C) : State A C :=
  let proposal := { proposal with
    VotingStartTime := now, VotingEndTime := now, Status := StatusVotingPeriod }
  let s := s.SetProposal proposal
  let s := s.RemoveFromInactiveProposalQueue proposal.DepositEndTime proposal.ProposalID
  s.InsertActiveProposalQueue proposal.VotingEndTime proposal.ProposalID

/-- Store a new proposal: in the inactive queue, or voting at once while a
funding cycle runs. -/
def SubmitProposal (now : Time) (s : State A C) (content : ProposalContent A C) :
    Except GovError (Proposal A C × State A C) := do
  let (proposalID, s) ← s.getNewProposalID
  let proposal : Proposal A C :=
    { RequestedFund := content.RequestedFund
      FundingCycle := content.FundingCycle
      Proposer := content.Proposer
      ProposalID := proposalID
      Status := StatusDepositPeriod
      FinalTallyResult := EmptyTallyResult
      SubmitTime := now
      DepositEndTime := now
      TotalDeposit := 0
      RemainingFundingCycle := content.FundingCycle
      FundingCycleCount := 0
      Ranking := 0
      VotingStartTime := zeroTime
      VotingEndTime := zeroTime }
  let s := s.SetProposal proposal
  match s.GetCurrentCycle with
  | none => pure (proposal, s.InsertInactiveProposalQueue proposal.DepositEndTime proposalID)
  | some _ => pure (proposal, activateVotingPeriod now s proposal)

def GetDeposit (s : State A C) (proposalID : ℕ) (depositorAddr : A) : Option (Deposit A C) :=
  s.deposits.get (toLex (proposalID, depositorAddr))

def setDeposit (s : State A C) (proposalID : ℕ) (depositorAddr : A) (deposit : Deposit A C) :
    State A C :=
  { s with deposits := s.deposits.set (toLex (proposalID, depositorAddr)) deposit }

/-- The deposits on a proposal, in key order. -/
def GetDeposits (s : State A C) (proposalID : ℕ) : List ((ℕ ×ₗ A) × Deposit A C) :=
  s.deposits.entries.filter fun e => decide ((ofLex e.1).1 = proposalID)

variable (DepositedCoinsAccAddr BurnedDepositCoinsAccAddr : A)

/-- Adds or updates a deposit of a specific depositor on a specific proposal,
and activates the voting period when the deposits reach the minimum.  Returns
whether the voting period started. -/
def AddDeposit (now : Time) (s : State A C) (proposalID : ℕ) (depositorAddr : A)
    (depositAmount : C) : Except GovError (State A C × Bool) :=
  match s.GetProposal proposalID with
  | none => .error (.ErrUnknownProposal proposalID)
  | some proposal =>
    if proposal.Status ≠ StatusDepositPeriod ∧ proposal.Status ≠ StatusVotingPeriod then
      .error (.ErrAlreadyFinishedProposal proposalID)
    else
      match SendCoins s.balances depositorAddr DepositedCoinsAccAddr depositAmount with
      | none => .error .ErrInsufficientCoins
      | some balances =>
        let s := { s with balances := balances }
        let proposal := { proposal with TotalDeposit := proposal.TotalDeposit + depositAmount }
        let s := s.SetProposal proposal
        let (s, activatedVotingPeriod) :=
          if proposal.Status = StatusDepositPeriod ∧ s.MinDeposit ≤ proposal.TotalDeposit then
            (activateVotingPeriod now s proposal, true)
          else (s, false)
        let s := match s.GetDeposit proposalID depositorAddr with
          | none => s.setDeposit proposalID depositorAddr ⟨depositorAddr, proposalID, depositAmount⟩
          | some currDeposit =>
            s.setDeposit proposalID depositorAddr
              { currDeposit with Amount := currDeposit.Amount + depositAmount }
        .ok (s, activatedVotingPeriod)

/-- Adds a vote on a specific proposal. -/
def AddVote (env : Env A C) (now : Time) (s : State A C) (proposalID : ℕ) (voterAddr : A)
    (option : VoteOption) : Except GovError (State A C) :=
  if !env.IsCouncilMember voterAddr then .error .ErrInvalidCouncilMember
  else if !s.CheckCycleActive now then .error .ErrInvalidCycle
  else
    match s.GetProposal proposalID with
    | none => .error (.ErrUnknownProposal proposalID)
    | some proposal =>
      if proposal.Status ≠ StatusVotingPeriod then .error (.ErrInactiveProposal proposalID)
      else if !validVoteOption option then .error (.ErrInvalidVote option)
      else .ok { s with votes := s.votes.set (toLex (proposalID, voterAddr)) ⟨proposalID, voterAddr, option⟩ }

/-! ### Refunds and burns -/

/-- The loop of `RefundDeposits` and `DeleteDeposits`: send each deposit from
the escrow to its destination and delete it; a refused send panics. -/
def settleDeposit (destination : Deposit A C → A) (s : State A C)
    (entry : (ℕ ×ₗ A) × Deposit A C) : Except Panic (State A C) :=
  match SendCoins s.balances DepositedCoinsAccAddr (destination entry.2) entry.2.Amount with
  | none => .error .depositShouldNotHappen
  | some balances => .ok { s with balances := balances, deposits := s.deposits.delete entry.1 }

def settleDeposits (destination : Deposit A C → A) (s : State A C) (proposalID : ℕ) :
    Except Panic (State A C) :=
  (s.GetDeposits proposalID).foldlM (settleDeposit DepositedCoinsAccAddr destination) s

/-- Refunds and deletes all the deposits on a specific proposal. -/
def RefundDeposits (s : State A C) (proposalID : ℕ) : Except Panic (State A C) :=
  settleDeposits DepositedCoinsAccAddr (·.Depositor) s proposalID

/-- Deletes all the deposits on a specific proposal without refunding them:
they are burned. -/
def DeleteDeposits (s : State A C) (proposalID : ℕ) : Except Panic (State A C) :=
  settleDeposits DepositedCoinsAccAddr (fun _ => BurnedDepositCoinsAccAddr) s proposalID

/-! ### Funding -/

/-- Count down one funded cycle; panics at zero. -/
def ReduceCycleCount (p : Proposal A C) : Except Panic (Proposal A C) :=
  if p.RemainingFundingCycle = 0 then .error .remainingFundingCycleNegative
  else .ok { p with RemainingFundingCycle := p.RemainingFundingCycle - 1 }

def DeleteProposalEligibility (s : State A C) (proposal : Proposal A C) : State A C :=
  s.SetProposal { proposal with Ranking := 0 }

/-- Rank the stored proposals in the order given. -/
def SetEligibilityDetails (s : State A C) (proposals : List (Proposal A C)) :
    Except Panic (State A C) :=
  (proposals.zipIdx 1).foldlM (fun s (proposal, rank) =>
    match s.GetProposal proposal.ProposalID with
    | none => .error (.proposalDoesNotExist proposal.ProposalID)
    | some updatedProposal => .ok (s.SetProposal { updatedProposal with Ranking := rank }))
    s

/-- Sort proposals by yes minus no votes; the less function reads the results of
its first index twice. -/
def SortProposalEligibility (env : Env A C) (proposals : List (Proposal A C))
    (results : List TallyResult) : List (Proposal A C) :=
  env.sortSlice proposals fun i _ =>
    let votesA := (results.getD i ⟨0, 0, 0⟩).Yes - (results.getD i ⟨0, 0, 0⟩).No
    let votesB := (results.getD i ⟨0, 0, 0⟩).Yes - (results.getD i ⟨0, 0, 0⟩).No
    decide (votesB < votesA)

/-- One proposal of `TransferFunds`: within the limit, pay for one cycle, and
after the last one mark it passed, refund its deposits and take it out of the
queues. -/
def transferFund (env : Env A C)
    (acc : State A C × FundingCycle × C) (proposal : Proposal A C) :
    Except Panic (State A C × FundingCycle × C) := do
  let (s, fundingcycle, totalFundCount) := acc
  let totalFundCount := totalFundCount + proposal.RequestedFund
  if env.VerifyAmount totalFundCount then
    let proposal ← ReduceCycleCount proposal
    let (s, proposal) ← if proposal.IsZeroRemainingCycle then do
        let proposal := { proposal with Status := StatusPassed }
        let s ← RefundDeposits DepositedCoinsAccAddr s proposal.ProposalID
        let s := s.DeleteProposalEligibility proposal
        let s := s.RemoveFromInactiveProposalQueue proposal.DepositEndTime proposal.ProposalID
        let s := s.RemoveFromActiveProposalQueue proposal.VotingEndTime proposal.ProposalID
        pure (s, { proposal with Ranking := 0 })
      else pure (s, proposal)
    match s.DistributeFeePool proposal.RequestedFund proposal.Proposer with
    | none => .error .transferShouldNotHappen
    | some s =>
      let fundingcycle := { fundingcycle with
        FundedProposals := fundingcycle.FundedProposals ++ [proposal.ProposalID] }
      pure (s.SetProposal proposal, fundingcycle, totalFundCount)
  else pure (s, fundingcycle, totalFundCount)

/-- Transfer funds from the treasury to the passed proposals, in order, as
long as the total stays within the limit. -/
def TransferFunds (env : Env A C) (s : State A C) (proposals : List (Proposal A C)) :
    Except Panic (State A C) :=
  match s.GetCurrentCycle with
  | none => .ok s
  | some fundingcycle => do
    let (s, fundingcycle, _) ←
      proposals.foldlM (transferFund DepositedCoinsAccAddr env) (s, fundingcycle, 0)
    pure (s.SetFundingCycle fundingcycle)

end State

end Keeper

/-! ### Field lemmas -/

namespace State

section Fields

variable {A C : Type} [LinearOrder A] (s : State A C) (p : Proposal A C) (t : Time) (id j : ℕ)

@[simp] theorem GetProposal_SetProposal :
    (s.SetProposal p).GetProposal j = if j = p.ProposalID then some p else s.GetProposal j := by
  simp [SetProposal, GetProposal]

@[simp] theorem inactiveQueue_SetProposal : (s.SetProposal p).inactiveQueue = s.inactiveQueue := rfl

@[simp] theorem activeQueue_SetProposal : (s.SetProposal p).activeQueue = s.activeQueue := rfl

@[simp] theorem nextProposalID_SetProposal :
    (s.SetProposal p).nextProposalID = s.nextProposalID := rfl

@[simp] theorem GetProposal_InsertInactiveProposalQueue :
    (s.InsertInactiveProposalQueue t id).GetProposal j = s.GetProposal j := rfl

@[simp] theorem inactiveQueue_InsertInactiveProposalQueue :
    (s.InsertInactiveProposalQueue t id).inactiveQueue =
      s.inactiveQueue.set (toLex (t, id)) id := rfl

@[simp] theorem activeQueue_InsertInactiveProposalQueue :
    (s.InsertInactiveProposalQueue t id).activeQueue = s.activeQueue := rfl

@[simp] theorem nextProposalID_InsertInactiveProposalQueue :
    (s.InsertInactiveProposalQueue t id).nextProposalID = s.nextProposalID := rfl

@[simp] theorem GetProposal_RemoveFromInactiveProposalQueue :
    (s.RemoveFromInactiveProposalQueue t id).GetProposal j = s.GetProposal j := rfl

@[simp] theorem inactiveQueue_RemoveFromInactiveProposalQueue :
    (s.RemoveFromInactiveProposalQueue t id).inactiveQueue =
      s.inactiveQueue.delete (toLex (t, id)) := rfl

@[simp] theorem activeQueue_RemoveFromInactiveProposalQueue :
    (s.RemoveFromInactiveProposalQueue t id).activeQueue = s.activeQueue := rfl

@[simp] theorem nextProposalID_RemoveFromInactiveProposalQueue :
    (s.RemoveFromInactiveProposalQueue t id).nextProposalID = s.nextProposalID := rfl

@[simp] theorem GetProposal_InsertActiveProposalQueue :
    (s.InsertActiveProposalQueue t id).GetProposal j = s.GetProposal j := rfl

@[simp] theorem inactiveQueue_InsertActiveProposalQueue :
    (s.InsertActiveProposalQueue t id).inactiveQueue = s.inactiveQueue := rfl

@[simp] theorem activeQueue_InsertActiveProposalQueue :
    (s.InsertActiveProposalQueue t id).activeQueue = s.activeQueue.set (toLex (t, id)) id := rfl

@[simp] theorem nextProposalID_InsertActiveProposalQueue :
    (s.InsertActiveProposalQueue t id).nextProposalID = s.nextProposalID := rfl

@[simp] theorem proposals_RemoveFromInactiveProposalQueue :
    (s.RemoveFromInactiveProposalQueue t id).proposals = s.proposals := rfl

@[simp] theorem proposals_RemoveFromActiveProposalQueue :
    (s.RemoveFromActiveProposalQueue t id).proposals = s.proposals := rfl

@[simp] theorem GetProposal_RemoveFromActiveProposalQueue :
    (s.RemoveFromActiveProposalQueue t id).GetProposal j = s.GetProposal j := rfl

@[simp] theorem inactiveQueue_RemoveFromActiveProposalQueue :
    (s.RemoveFromActiveProposalQueue t id).inactiveQueue = s.inactiveQueue := rfl

@[simp] theorem activeQueue_RemoveFromActiveProposalQueue :
    (s.RemoveFromActiveProposalQueue t id).activeQueue = s.activeQueue.delete (toLex (t, id)) := rfl

@[simp] theorem nextProposalID_RemoveFromActiveProposalQueue :
    (s.RemoveFromActiveProposalQueue t id).nextProposalID = s.nextProposalID := rfl

end Fields

end State

end Gov

end ColorSdk
