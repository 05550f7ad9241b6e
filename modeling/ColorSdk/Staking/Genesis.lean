import ColorSdk.Staking.Council
import ColorSdk.Lib.ExceptSpec

/-!
# Staking genesis

`ExportGenesis` writes out the pool, the parameters, the last validator set, the
validators, the delegations, the unbonding delegations and the redelegations;
`InitGenesis` writes them back into a store, rebuilding the consensus-address
and power indexes and the three queues by hand.

The council member records are in neither: they are not exported, and
`InitGenesis` writes delegations with `SetDelegation`, which leaves the records
alone, where `Delegate` would have refreshed them.  A chain restarted from its
exported genesis has no council, so gov's tally gives every former member no
voting power.

## Main definitions

* `GenesisState`, `State.ExportGenesis`, `State.InitGenesis`.
* `State.empty` — a staking store with nothing written.

## Main results

* `councilMembers_InitGenesis` — importing a genesis never writes a council
  record.
* `staking_genesis_loses_council` — a chain whose one validator made its
  operator a council member loses the record in the round trip, though its
  validators and delegations come back.

## References

* src/x/staking/genesis.go, src/x/staking/keeper/council.go
-/

namespace ColorSdk
namespace Staking

/-- Tendermint applies a validator update this many blocks later. -/
def ValidatorUpdateDelay : ℤ := 1

/-- A validator of the last validator set and its power. -/
structure LastValidatorPower (A : Type) where
  Address : A
  Power : ℤ
  deriving DecidableEq, Repr

/-- The staking module's part of the genesis file. -/
structure GenesisState (A P : Type) where
  Pool : Staking.Pool
  Params : Staking.Params
  LastTotalPower : ℤ
  LastValidatorPowers : List (LastValidatorPower A)
  Validators : List (Validator A P)
  Delegations : List (Delegation A)
  UnbondingDelegations : List (UnbondingDelegation A)
  Redelegations : List (Redelegation A)
  Exported : Bool

namespace State

variable {A P : Type} [LinearOrder A] [LinearOrder P]

/-- A staking store with nothing written, beside the bank's balances.  The
parameters stand for an unset subspace; `InitGenesis` sets them first. -/
def empty (coins : A → ℤ) : State A P where
  pool := ⟨0, 0⟩
  params := DefaultParams
  lastTotalPower := 0
  validators := .empty
  validatorsByConsAddr := .empty
  validatorsByPowerIndex := .empty
  lastValidatorPowers := .empty
  delegations := .empty
  unbondingDelegations := .empty
  redelegations := .empty
  ubdQueue := .empty
  redelegationQueue := .empty
  validatorQueue := .empty
  councilMembers := .empty
  coins := coins

/-- The validators of a genesis, each written with its indexes and, when
unbonding, its place in the validator queue. -/
def initValidators (s : State A P) (validators : List (Validator A P)) : State A P :=
  validators.foldl (fun s validator =>
    let s := ((s.SetValidator validator).SetValidatorByConsAddr validator).SetValidatorByPowerIndex
      validator
    -- set timeslice if necessary
    if validator.Status = .Unbonding then s.InsertValidatorQueue validator else s) s

/-- The unbonding delegations of a genesis, each entry queued at its completion
time. -/
def initUnbondingDelegations (s : State A P) (ubds : List (UnbondingDelegation A)) :
    State A P :=
  ubds.foldl (fun s ubd =>
    ubd.Entries.foldl (fun s entry => s.InsertUBDQueue ubd entry.CompletionTime)
      (s.SetUnbondingDelegation ubd)) s

/-- The redelegations of a genesis, each entry queued at its completion time. -/
def initRedelegations (s : State A P) (reds : List (Redelegation A)) : State A P :=
  reds.foldl (fun s red =>
    red.Entries.foldl (fun s entry => s.InsertRedelegationQueue red entry.CompletionTime)
      (s.SetRedelegation red)) s

/-- The last validator set of an exported genesis, kept as it was: each
validator's update carries its last power. -/
def initLastValidatorPowers (s : State A P) (lastValidatorPowers : List (LastValidatorPower A)) :
    Except Panic (List (P × ℤ) × State A P) :=
  lastValidatorPowers.foldlM (fun (acc : List (P × ℤ) × State A P) lv => do
    let (res, s) := acc
    let s := s.SetLastValidatorPower lv.Address lv.Power
    let some validator := s.GetValidator lv.Address | throw .expectedValidator
    -- keep the next-val-set offset, use the last power for the first block
    pure (res ++ [(validator.ConsPubKey, lv.Power)], s)) ([], s)

/-- Write a genesis into the store and return the validator set.  Hooks of
other modules run only for a genesis that was not exported. -/
def InitGenesis (ctx : Context P) (s : State A P) (data : GenesisState A P) :
    Except Panic (List (P × ℤ) × State A P) :=
  -- pretend to be the validator update delay before the first block
  let ctx := { ctx with BlockHeight := 1 - ValidatorUpdateDelay }
  let s := { s.SetPool data.Pool with params := data.Params, lastTotalPower := data.LastTotalPower }
  let s := s.initValidators data.Validators
  let s := data.Delegations.foldl State.SetDelegation s
  let s := s.initUnbondingDelegations data.UnbondingDelegations
  let s := s.initRedelegations data.Redelegations
  if data.Exported then s.initLastValidatorPowers data.LastValidatorPowers
  else s.ApplyAndReturnValidatorSetUpdates ctx

/-- The genesis of the current store, marked as exported. -/
def ExportGenesis (s : State A P) : GenesisState A P where
  Pool := s.pool
  Params := s.params
  LastTotalPower := s.lastTotalPower
  LastValidatorPowers := s.lastValidatorPowers.entries.map fun e => ⟨e.1, e.2⟩
  Validators := s.validators.entries.map (·.2)
  Delegations := s.delegations.entries.map (·.2)
  UnbondingDelegations := s.unbondingDelegations.entries.map (·.2)
  Redelegations := s.redelegations.entries.map (·.2)
  Exported := true

/-! ### The council is not imported -/

/-- A store write of the import that is not to the council records. -/
def SameCouncil (s : State A P) (s' : State A P) : Prop := s'.councilMembers = s.councilMembers

theorem sameCouncil_initValidators (s : State A P) (validators : List (Validator A P)) :
    SameCouncil s (s.initValidators validators) := by
  refine List.foldl_invariant (Q := SameCouncil s) (fun s' validator h => ?_) validators s rfl
  -- the indexes and the queue are other stores
  dsimp only
  rw [SetValidatorByPowerIndex_eq]
  split <;> exact h

theorem sameCouncil_SetDelegations (s : State A P) (delegations : List (Delegation A)) :
    SameCouncil s (delegations.foldl State.SetDelegation s) :=
  List.foldl_invariant (Q := SameCouncil s) (f := State.SetDelegation) (fun _ _ h => h)
    delegations s rfl

theorem sameCouncil_initUnbondingDelegations (s : State A P) (ubds : List (UnbondingDelegation A)) :
    SameCouncil s (s.initUnbondingDelegations ubds) :=
  List.foldl_invariant (Q := SameCouncil s) (fun s' ubd h =>
    List.foldl_invariant (Q := SameCouncil s)
      (fun s'' _ h' => by rw [SameCouncil, InsertUBDQueue_eq]; exact h')
      ubd.Entries (s'.SetUnbondingDelegation ubd) h) ubds s rfl

theorem sameCouncil_initRedelegations (s : State A P) (reds : List (Redelegation A)) :
    SameCouncil s (s.initRedelegations reds) :=
  List.foldl_invariant (Q := SameCouncil s) (fun s' red h =>
    List.foldl_invariant (Q := SameCouncil s)
      (fun s'' _ h' => by rw [SameCouncil, InsertRedelegationQueue_eq]; exact h')
      red.Entries (s'.SetRedelegation red) h) reds s rfl

theorem sat_initLastValidatorPowers (s : State A P)
    (lastValidatorPowers : List (LastValidatorPower A)) :
    (s.initLastValidatorPowers lastValidatorPowers).Sat (fun _ => True)
      (fun r => SameCouncil s r.2) := by
  unfold initLastValidatorPowers
  refine Except.sat_foldlM_of_step (Q := fun r : List (P × ℤ) × State A P => SameCouncil s r.2)
    (fun r lv h => ?_) lastValidatorPowers ([], s) rfl
  obtain ⟨res, s'⟩ := r
  dsimp only
  -- the lookup after the write either fails or returns the written store
  split
  · exact h
  · trivial

/-- **Importing a genesis never writes a council record.**  An exported genesis
has no council records to write, and every write of `InitGenesis` goes to
another store. -/
theorem councilMembers_InitGenesis (ctx : Context P) (s : State A P) (data : GenesisState A P)
    (hexported : data.Exported = true) {r : List (P × ℤ) × State A P}
    (h : s.InitGenesis ctx data = .ok r) : r.2.councilMembers = s.councilMembers := by
  rw [InitGenesis, if_pos hexported] at h
  refine (sat_initLastValidatorPowers _ data.LastValidatorPowers).of_ok h |>.trans ?_
  exact ((sameCouncil_initRedelegations _ _).trans (sameCouncil_initUnbondingDelegations _ _)).trans
    ((sameCouncil_SetDelegations _ _).trans (sameCouncil_initValidators _ _))

end State

/-! ### A council lost in the round trip -/

/-- **The round trip loses the council.**  Account 1 creates a validator with a
self-delegation of `10¹¹`, which makes it a council member.  Exporting the
chain and importing the genesis into an empty store brings back the validators
and the delegations, but not the record: gov's tally then counts no voting
power for account 1. -/
theorem staking_genesis_loses_council :
    let ctx : Context ℕ := ⟨1, 0, none⟩
    let created := genesis.DeliverMsg ctx
      (.MsgCreateValidator ⟨"validator", "", "", ""⟩ ⟨ZeroDec, ZeroDec, ZeroDec⟩ 1 1 1 7
        ⟨"uclr", 100000000000⟩)
    Reachable genesis created ∧
      created.GetCouncilMember 1 = some ⟨1, ToDec 100000000000⟩ ∧
      (∃ r, (State.empty created.coins).InitGenesis ctx created.ExportGenesis = .ok r ∧
        r.2.validators.entries = created.validators.entries ∧
        r.2.delegations.entries = created.delegations.entries) ∧
      ∀ r, (State.empty created.coins).InitGenesis ctx created.ExportGenesis = .ok r →
        r.2.GetCouncilMember 1 = none := by
  intro ctx created
  have hreach : Reachable genesis created := .single (.deliver ctx genesis _)
  have hmember : created.GetCouncilMember 1 = some ⟨1, ToDec 100000000000⟩ := by decide
  refine ⟨hreach, hmember, ⟨_, rfl, by decide, by decide⟩, fun r himport => ?_⟩
  -- the import writes no council record into the empty store
  rw [State.GetCouncilMember, State.councilMembers_InitGenesis ctx _ _ rfl himport]
  rfl

end Staking
end ColorSdk
