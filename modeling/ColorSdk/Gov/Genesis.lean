import ColorSdk.Gov.EndBlocker

/-!
# Governance genesis

`ExportGenesis` writes out the next proposal id, the proposals below it with
their deposits and votes, and the minimum deposit; `InitGenesis` writes them
back and rebuilds the two queues from each proposal's status.

Color's funding cycles are in neither.  The export leaves the starting funding
cycle id at Go's zero value and writes no cycle and no first-block time, and
the import sets the funding cycle id to that zero, ignoring its error.  A chain
restarted from its exported genesis has no current cycle: `CheckCycleActive`
turns false and `AddVote` refuses every vote until the next end of block
starts a cycle from scratch.

## Main definitions

* `GenesisState`, `State.ExportGenesis`, `State.InitGenesis`.
* `State.GetProposalsFiltered` — the unfiltered listing the export uses.
* `State.empty` — a governance store with nothing written.

## Main results

* `sameCycles_InitGenesis` — the import writes no funding cycle and no
  first-block time.
* `gov_genesis_loses_funding_cycle` — after a funding cycle has started and a
  proposal is voting, the round trip brings back the proposal but not the
  cycle, and a vote accepted before is refused after.

## References

* src/x/gov/genesis.go, src/x/gov/keeper.go
-/

namespace ColorSdk
namespace Gov

/-- A deposit and the proposal it is on. -/
structure DepositWithMetadata (A C : Type) where
  ProposalID : ℕ
  Deposit : Gov.Deposit A C

/-- A vote and the proposal it is on. -/
structure VoteWithMetadata (A : Type) where
  ProposalID : ℕ
  Vote : Gov.Vote A

/-- The governance module's part of the genesis file.  Of the parameters, the
model has the minimum deposit only. -/
structure GenesisState (A C : Type) where
  StartingProposalID : ℕ
  StartingFundingCycleID : ℕ
  Deposits : List (DepositWithMetadata A C)
  Votes : List (VoteWithMetadata A)
  Proposals : List (Proposal A C)
  MinDeposit : C

namespace State

variable {A C : Type} [LinearOrder A]

/-- A governance store with nothing written, beside the bank's balances and the
community pool of distribution. -/
def empty [AddCommMonoid C] (balances : A → C) (communityPool : C) : State A C where
  proposals := .empty
  deposits := .empty
  votes := .empty
  inactiveQueue := .empty
  activeQueue := .empty
  nextProposalID := none
  fundingCycles := .empty
  nextFundingCycleID := none
  firstBlockTime := none
  MinDeposit := 0
  balances := balances
  communityPool := communityPool

/-- Peeks the next available proposal id without incrementing it. -/
def peekCurrentProposalID (s : State A C) : Except GovError ℕ :=
  match s.nextProposalID with
  | none => .error .ErrInvalidGenesis
  | some proposalID => .ok proposalID

/-- The stored proposals with an id below the next one, in id order: the call
with no voter, no depositor, no status and no limit, the one the export makes. -/
def GetProposalsFiltered (s : State A C) : List (Proposal A C) :=
  match s.peekCurrentProposalID with
  | .error _ => []
  | .ok maxProposalID => (List.range maxProposalID).filterMap s.GetProposal

/-- The votes on a proposal, in key order. -/
def GetVotes (s : State A C) (proposalID : ℕ) : List ((ℕ ×ₗ A) × Vote A) :=
  s.votes.entries.filter fun e => decide ((ofLex e.1).1 = proposalID)

def setVote (s : State A C) (proposalID : ℕ) (voterAddr : A) (vote : Vote A) : State A C :=
  { s with votes := s.votes.set (toLex (proposalID, voterAddr)) vote }

/-- Set the initial proposal id; it must not be set already. -/
def setInitialProposalID (s : State A C) (proposalID : ℕ) : Except GovError (State A C) :=
  match s.nextProposalID with
  | some _ => .error .ErrInvalidGenesis
  | none => .ok { s with nextProposalID := some proposalID }

/-- Set the initial funding cycle id; it must not be set already. -/
def setInitialFundingCycleID (s : State A C) (fundingCycleID : ℕ) : Except GovError (State A C) :=
  match s.nextFundingCycleID with
  | some _ => .error .ErrInvalidGenesis
  | none => .ok { s with nextFundingCycleID := some fundingCycleID }

/-- A proposal of a genesis, queued by its status and stored. -/
def initProposal (s : State A C) (proposal : Proposal A C) : State A C :=
  let s := match proposal.Status with
    | .StatusDepositPeriod => s.InsertInactiveProposalQueue proposal.DepositEndTime proposal.ProposalID
    | .StatusVotingPeriod => s.InsertActiveProposalQueue proposal.VotingEndTime proposal.ProposalID
    | _ => s
  s.SetProposal proposal

/-- Write a genesis into the store.  An error is Go's panic with it. -/
def InitGenesis (s : State A C) (data : GenesisState A C) : Except GovError (State A C) := do
  let s ← s.setInitialProposalID data.StartingProposalID
  -- the error of the funding cycle id is ignored
  let s := match s.setInitialFundingCycleID data.StartingFundingCycleID with
    | .ok s => s
    | .error _ => s
  let s := { s with MinDeposit := data.MinDeposit }
  let s := data.Deposits.foldl (fun s deposit =>
    s.setDeposit deposit.ProposalID deposit.Deposit.Depositor deposit.Deposit) s
  let s := data.Votes.foldl (fun s vote => s.setVote vote.ProposalID vote.Vote.Voter vote.Vote) s
  pure (data.Proposals.foldl initProposal s)

/-- The genesis of the current store. -/
def ExportGenesis (s : State A C) : GenesisState A C :=
  let startingProposalID := match s.peekCurrentProposalID with
    | .ok proposalID => proposalID
    | .error _ => 0
  let proposals := s.GetProposalsFiltered
  { StartingProposalID := startingProposalID
    -- not written by the export: Go's zero value
    StartingFundingCycleID := 0
    Deposits := proposals.flatMap fun proposal =>
      (s.GetDeposits proposal.ProposalID).map fun e => ⟨proposal.ProposalID, e.2⟩
    Votes := proposals.flatMap fun proposal =>
      (s.GetVotes proposal.ProposalID).map fun e => ⟨proposal.ProposalID, e.2⟩
    Proposals := proposals
    MinDeposit := s.MinDeposit }

/-! ### The funding cycles are not imported -/

/-- A store with the funding cycles and the first-block time of `s₀`. -/
def SameCycles (s₀ s : State A C) : Prop :=
  s.fundingCycles = s₀.fundingCycles ∧ s.firstBlockTime = s₀.firstBlockTime

variable {s₀ : State A C}

theorem SameCycles.setInitialProposalID {s s' : State A C} {proposalID : ℕ}
    (hs : SameCycles s₀ s) (h : s.setInitialProposalID proposalID = .ok s') : SameCycles s₀ s' := by
  unfold State.setInitialProposalID at h
  split at h
  · cases h
  · cases h
    exact hs

theorem SameCycles.setInitialFundingCycleID {s : State A C} (hs : SameCycles s₀ s)
    (fundingCycleID : ℕ) :
    SameCycles s₀ (match s.setInitialFundingCycleID fundingCycleID with
      | .ok s => s
      | .error _ => s) := by
  unfold State.setInitialFundingCycleID
  rcases s.nextFundingCycleID with _ | _ <;> exact hs

theorem SameCycles.initProposals {s : State A C} (hs : SameCycles s₀ s)
    (proposals : List (Proposal A C)) : SameCycles s₀ (proposals.foldl initProposal s) := by
  refine List.foldl_invariant (Q := SameCycles s₀) (f := initProposal) (fun s' proposal h => ?_)
    proposals s hs
  -- the queues and the proposals are other stores
  unfold initProposal
  split <;> exact h

/-- **Importing a genesis writes no funding cycle and no first-block time**:
those of the store it starts from are kept. -/
theorem sameCycles_InitGenesis {s s' : State A C} {data : GenesisState A C}
    (h : s.InitGenesis data = .ok s') : SameCycles s s' := by
  unfold InitGenesis at h
  cases hid : s.setInitialProposalID data.StartingProposalID with
  | error e =>
    rw [hid] at h
    cases h
  | ok s₁ =>
    rw [hid] at h
    cases h
    have h₁ := (show SameCycles s s from ⟨rfl, rfl⟩).setInitialProposalID hid
    -- the minimum deposit, the deposits and the votes are other stores too
    have h₂ : SameCycles s { (match s₁.setInitialFundingCycleID data.StartingFundingCycleID with
        | .ok s => s
        | .error _ => s₁) with MinDeposit := data.MinDeposit } :=
      h₁.setInitialFundingCycleID data.StartingFundingCycleID
    have hdeposits := List.foldl_invariant (Q := SameCycles s) (f := fun s deposit =>
        s.setDeposit deposit.ProposalID deposit.Deposit.Depositor deposit.Deposit)
      (fun _ _ h => h) data.Deposits _ h₂
    have hvotes := List.foldl_invariant (Q := SameCycles s)
      (f := fun s vote => s.setVote vote.ProposalID vote.Vote.Voter vote.Vote)
      (fun _ _ h => h) data.Votes _ hdeposits
    exact hvotes.initProposals data.Proposals

/-- With no current funding cycle, no vote of a council member is accepted. -/
theorem AddVote_of_GetCurrentCycle_eq_none [AddCommMonoid C] [LE C] [DecidableLE C] [Sub C]
    {s : State A C} (hcycle : s.GetCurrentCycle = none) (env : Env A C) (now : Time)
    (proposalID : ℕ) {voterAddr : A} (hmember : env.IsCouncilMember voterAddr = true)
    (option : VoteOption) : s.AddVote env now proposalID voterAddr option = .error .ErrInvalidCycle := by
  have hinactive : s.CheckCycleActive now = false := by
    rw [CheckCycleActive, hcycle]
  simp [AddVote, hmember, hinactive]

end State

/-! ### A funding cycle lost in the round trip -/

/-- **The round trip loses the funding cycle.**  Two ends of block set the first
block time and start funding cycle 0; a proposal that passes `ValidateBasic`,
with the initial deposit `FeeLimit` paid by its proposer, then goes straight to
voting, and council member 7 can vote on it.  Exported and imported into an
empty store, the proposal is back, but the cycle is not, and the same vote is
refused. -/
theorem gov_genesis_loses_funding_cycle :
    ∃ s₁ s₂ : State ℕ ℕ,
      fundedGenesis.EndBlocker 0 1 acceptingEnv 0 = .ok s₁ ∧
      s₁.EndBlocker 0 1 acceptingEnv 0 = .ok s₂ ∧
      let s₃ := s₂.DeliverMsg 0 acceptingEnv 0
        (.MsgSubmitProposal .ProposalTypeText 5 1 2 10000000000)
      ValidatedReachable 0 1 (fun c : ℕ => (c : ℤ)) (fun _ => True) fundedGenesis s₃ ∧
      (s₃.GetProposal 1).map Proposal.Status = some .StatusVotingPeriod ∧
      s₃.GetCurrentCycle = some ⟨0, 0, FourWeeksHours, []⟩ ∧
      (∃ voted, s₃.AddVote acceptingEnv 0 1 7 .OptionYes = .ok voted) ∧
      (∃ imported, (State.empty s₃.balances s₃.communityPool).InitGenesis s₃.ExportGenesis =
          .ok imported ∧ imported.GetProposal 1 = s₃.GetProposal 1) ∧
      ∀ imported, (State.empty s₃.balances s₃.communityPool).InitGenesis s₃.ExportGenesis =
          .ok imported →
        imported.GetCurrentCycle = none ∧
          imported.AddVote acceptingEnv 0 1 7 .OptionYes = .error .ErrInvalidCycle := by
  refine ⟨_, _, rfl, rfl, ?_⟩
  intro s₃
  have hreach : ValidatedReachable 0 1 (fun c : ℕ => (c : ℤ)) (fun _ => True) fundedGenesis s₃ :=
    .tail (.tail (.single (ValidatedStep.endBlock acceptingEnv 0 fundedGenesis _ rfl))
      (ValidatedStep.endBlock acceptingEnv 0 _ _ rfl)) (ValidatedStep.deliver _ _ _ _ trivial (by decide))
  refine ⟨hreach, rfl, rfl, ⟨_, rfl⟩, ⟨_, rfl, rfl⟩, fun imported himport => ?_⟩
  -- the import keeps the empty store's funding cycles: there are none
  have hcycle : imported.GetCurrentCycle = none := by
    rw [State.GetCurrentCycle, (State.sameCycles_InitGenesis himport).1]
    rfl
  exact ⟨hcycle, State.AddVote_of_GetCurrentCycle_eq_none hcycle _ _ _ rfl _⟩

end Gov
end ColorSdk
