import ColorSdk.Types.Coin
import ColorSdk.Lib.ExceptSpec
import Mathlib

/-!
# Genesis accounts

The application's genesis file lists accounts in one flat record,
`GenesisAccount`, whatever their type: the fields of a base account, and the
fields of a vesting account, left zero for an account that does not vest.
`NewGenesisAccountI` writes an account into such a record, and
`GenesisAccount.ToAccount` reads the account back.  The record does not say
which type the account was: `ToAccount` reads a base account when the original
vesting coins are zero, a continuous vesting account when the start and end
times are both set, a delayed vesting account when only the end time is, and
panics on original vesting coins with no end time.  A delayed vesting account
reports a start time of zero, so a continuous vesting account that starts at
time zero reads back as a delayed one.

`validateGenesisStateAccounts` checks the records of a genesis file: no
address twice, and a vesting record with an end time after its start time.

Accounts are modelled without their public keys, which genesis records do not
carry.

## Main definitions

* `BaseAccount`, `BaseVestingAccount`, `VestingAccount`, `Account`.
* `GenesisAccount`, `NewGenesisAccountI`, `GenesisAccount.ToAccount`.
* `validateGenesisStateAccounts`.
* `Account.Equiv` — the same type, with the same fields and the same coins.
* `Account.Restorable` — the accounts a round trip gives back.

## Main results

* `ToAccount_NewGenesisAccountI_iff` — the round trip gives back an account of
  the same type with the same fields exactly for the restorable accounts.
* `ToAccount_of_validateGenesisStateAccounts` — no record the validation
  accepts makes `ToAccount` panic.
* `genesis_account_type_lost` — a continuous vesting account that starts at
  time zero reads back as a delayed one, and other accounts lose their type.

## References

* src/cmd/gaia/app/genesis.go, src/x/auth/account.go
-/

namespace ColorSdk
namespace App

open ColorSdk.Types

/-! ### Accounts -/

/-- `auth.BaseAccount`, without the public key. -/
structure BaseAccount (A : Type) where
  Address : A
  Coins : Coins
  AccountNumber : ℕ
  Sequence : ℕ
  deriving DecidableEq, Repr

/-- `auth.BaseVestingAccount`. -/
structure BaseVestingAccount (A : Type) where
  BaseAccount : App.BaseAccount A
  OriginalVesting : Coins
  DelegatedFree : Coins
  DelegatedVesting : Coins
  EndTime : ℤ
  deriving DecidableEq, Repr

/-- The implementations of `auth.VestingAccount`. -/
inductive VestingAccount (A : Type) where
  /-- `auth.ContinuousVestingAccount`. -/
  | continuous (bva : BaseVestingAccount A) (StartTime : ℤ)
  /-- `auth.DelayedVestingAccount`. -/
  | delayed (bva : BaseVestingAccount A)
  deriving DecidableEq, Repr

/-- The implementations of `auth.Account`. -/
inductive Account (A : Type) where
  /-- `auth.BaseAccount`. -/
  | base (acc : BaseAccount A)
  | vesting (vacc : VestingAccount A)
  deriving DecidableEq, Repr

variable {A : Type}

namespace VestingAccount

def baseVesting : VestingAccount A → BaseVestingAccount A
  | continuous bva _ => bva
  | delayed bva => bva

/-- `GetStartTime`: zero for a delayed vesting account, which has no start
time. -/
def GetStartTime : VestingAccount A → ℤ
  | continuous _ StartTime => StartTime
  | delayed _ => 0

def GetEndTime (vacc : VestingAccount A) : ℤ := vacc.baseVesting.EndTime

end VestingAccount

/-- The base account inside an account. -/
def Account.baseAccount : Account A → BaseAccount A
  | .base acc => acc
  | .vesting vacc => vacc.baseVesting.BaseAccount

/-! ### Genesis records -/

/-- `GenesisAccount`: the fields of every account type, in one record. -/
structure GenesisAccount (A : Type) where
  Address : A
  Coins : Types.Coins
  Sequence : ℕ
  AccountNumber : ℕ
  OriginalVesting : Types.Coins
  DelegatedFree : Types.Coins
  DelegatedVesting : Types.Coins
  StartTime : ℤ
  EndTime : ℤ
  deriving DecidableEq, Repr

/-- The panic of `ToAccount`: "invalid genesis vesting account: %+v". -/
inductive GenesisPanic (A : Type) where
  | invalidGenesisVestingAccount (ga : GenesisAccount A)
  deriving DecidableEq, Repr

/-- The errors of `validateGenesisStateAccounts`. -/
inductive GenesisError (A : Type) where
  /-- "duplicate account found in genesis state; address: %s" -/
  | duplicateAccount (address : A)
  /-- "missing end time for vesting account; address: %s" -/
  | missingEndTime (address : A)
  /-- "vesting start time must before end time; address: %s, start: %s, end: %s" -/
  | startNotBeforeEnd (address : A) (startTime endTime : ℤ)
  deriving DecidableEq, Repr

/-- The record of an account: the vesting fields are read only from a vesting
account, through the cast to `auth.VestingAccount`. -/
def NewGenesisAccountI (acc : Account A) : GenesisAccount A :=
  let bacc := acc.baseAccount
  let gacc : GenesisAccount A :=
    { Address := bacc.Address, Coins := bacc.Coins, AccountNumber := bacc.AccountNumber,
      Sequence := bacc.Sequence, OriginalVesting := [], DelegatedFree := [],
      DelegatedVesting := [], StartTime := 0, EndTime := 0 }
  match acc with
  | .vesting vacc =>
    { gacc with
      OriginalVesting := vacc.baseVesting.OriginalVesting
      DelegatedFree := vacc.baseVesting.DelegatedFree
      DelegatedVesting := vacc.baseVesting.DelegatedVesting
      StartTime := vacc.GetStartTime
      EndTime := vacc.GetEndTime }
  | .base _ => gacc

/-- The account of a record, its type read off which vesting fields are zero. -/
def GenesisAccount.ToAccount (ga : GenesisAccount A) : Except (GenesisPanic A) (Account A) :=
  let bacc : BaseAccount A := ⟨ga.Address, ga.Coins.sort, ga.AccountNumber, ga.Sequence⟩
  if !ga.OriginalVesting.IsZero then
    let baseVestingAcc : BaseVestingAccount A :=
      ⟨bacc, ga.OriginalVesting, ga.DelegatedFree, ga.DelegatedVesting, ga.EndTime⟩
    if ga.StartTime ≠ 0 ∧ ga.EndTime ≠ 0 then
      .ok (.vesting (.continuous baseVestingAcc ga.StartTime))
    else if ga.EndTime ≠ 0 then .ok (.vesting (.delayed baseVestingAcc))
    else .error (.invalidGenesisVestingAccount ga)
  else .ok (.base bacc)

section Validate

variable [DecidableEq A]

/-- One round of the validation: the address not seen before, and the times of
a vesting record in order; the address is then recorded in `addrMap`. -/
def validateGenesisStateAccount (addrMap : List A) (acc : GenesisAccount A) :
    Except (GenesisError A) (List A) :=
  if acc.Address ∈ addrMap then .error (.duplicateAccount acc.Address)
  else if !acc.OriginalVesting.IsZero then
    if acc.EndTime = 0 then .error (.missingEndTime acc.Address)
    else if acc.StartTime ≥ acc.EndTime then
      .error (.startNotBeforeEnd acc.Address acc.StartTime acc.EndTime)
    else .ok (acc.Address :: addrMap)
  else .ok (acc.Address :: addrMap)

def validateGenesisStateAccounts (accs : List (GenesisAccount A)) :
    Except (GenesisError A) Unit := do
  let _ ← accs.foldlM validateGenesisStateAccount []
  pure ()

end Validate

/-! ### The round trip -/

/-- Two base accounts agree but for the order of their coins. -/
def BaseAccount.Equiv (a b : BaseAccount A) : Prop :=
  a.Address = b.Address ∧ a.Coins.Perm b.Coins ∧ a.AccountNumber = b.AccountNumber ∧
    a.Sequence = b.Sequence

/-- Two base vesting accounts agree but for the order of their coins. -/
def BaseVestingAccount.Equiv (a b : BaseVestingAccount A) : Prop :=
  a.BaseAccount.Equiv b.BaseAccount ∧ a.OriginalVesting = b.OriginalVesting ∧
    a.DelegatedFree = b.DelegatedFree ∧ a.DelegatedVesting = b.DelegatedVesting ∧
    a.EndTime = b.EndTime

/-- Two accounts are of the same type and agree but for the order of their
coins. -/
def Account.Equiv : Account A → Account A → Prop
  | .base a, .base b => a.Equiv b
  | .vesting (.continuous a s), .vesting (.continuous b t) => a.Equiv b ∧ s = t
  | .vesting (.delayed a), .vesting (.delayed b) => a.Equiv b
  | _, _ => False

/-- The accounts whose record says their type: original vesting coins, an end
time, and for a continuous account a start time, none of them zero. -/
def Account.Restorable : Account A → Prop
  | .base _ => True
  | .vesting (.continuous bva StartTime) =>
    bva.OriginalVesting.IsZero = false ∧ StartTime ≠ 0 ∧ bva.EndTime ≠ 0
  | .vesting (.delayed bva) => bva.OriginalVesting.IsZero = false ∧ bva.EndTime ≠ 0

/-- Sorting the coins keeps a base account up to the order of its coins. -/
theorem BaseAccount.equiv_sort (a : BaseAccount A) :
    BaseAccount.Equiv ⟨a.Address, a.Coins.sort, a.AccountNumber, a.Sequence⟩ a :=
  ⟨rfl, List.mergeSort_perm _ _, rfl, rfl⟩

/-- **The round trip.**  An account written into a genesis record and read back
is of the same type, with the same fields and the same coins, exactly when its
record says its type. -/
theorem ToAccount_NewGenesisAccountI_iff (acc : Account A) :
    (∃ acc', (NewGenesisAccountI acc).ToAccount = .ok acc' ∧ acc'.Equiv acc) ↔ acc.Restorable := by
  cases acc with
  | base a =>
    -- a base account has no vesting coins
    exact iff_of_true ⟨_, rfl, BaseAccount.equiv_sort a⟩ trivial
  | vesting vacc =>
    cases vacc with
    | continuous bva startTime =>
      -- the three vesting fields of the record decide what is read back
      by_cases hz : bva.OriginalVesting.IsZero <;> by_cases hs : startTime = 0 <;>
        by_cases he : bva.EndTime = 0 <;>
        simp [NewGenesisAccountI, GenesisAccount.ToAccount, Account.baseAccount,
          VestingAccount.baseVesting, VestingAccount.GetStartTime, VestingAccount.GetEndTime,
          Account.Restorable, Account.Equiv, BaseVestingAccount.Equiv, BaseAccount.equiv_sort,
          hz, hs, he]
    | delayed bva =>
      -- a delayed account's record has no start time
      by_cases hz : bva.OriginalVesting.IsZero <;> by_cases he : bva.EndTime = 0 <;>
        simp [NewGenesisAccountI, GenesisAccount.ToAccount, Account.baseAccount,
          VestingAccount.baseVesting, VestingAccount.GetStartTime, VestingAccount.GetEndTime,
          Account.Restorable, Account.Equiv, BaseVestingAccount.Equiv, BaseAccount.equiv_sort,
          hz, he]

/-! ### Validated records -/

section Validate

variable [DecidableEq A]

/-- A record that one round of the validation accepts reads back without a
panic: a vesting record has an end time. -/
theorem ToAccount_of_validateGenesisStateAccount {addrMap addrMap' : List A}
    {ga : GenesisAccount A} (h : validateGenesisStateAccount addrMap ga = .ok addrMap') :
    ∃ acc, ga.ToAccount = .ok acc := by
  unfold validateGenesisStateAccount at h
  unfold GenesisAccount.ToAccount
  -- the rounds that fail close at the split; `h` gives a vesting record an
  -- end time
  split_ifs at h ⊢ <;> first | exact ⟨_, rfl⟩ | (exfalso; omega)

/-- **No validated record panics.**  Every record of a list that
`validateGenesisStateAccounts` accepts reads back as an account. -/
theorem ToAccount_of_validateGenesisStateAccounts {accs : List (GenesisAccount A)}
    (h : validateGenesisStateAccounts accs = .ok ()) : ∀ ga ∈ accs, ∃ acc, ga.ToAccount = .ok acc := by
  intro ga hga
  obtain ⟨addrMap, hloop, -⟩ := Except.bind_eq_ok.1 h
  obtain ⟨s₁, s₂, hround⟩ := Except.step_ok_of_foldlM_eq_ok hloop ga hga
  exact ToAccount_of_validateGenesisStateAccount hround

end Validate

/-! ### Accounts that lose their type -/

/-- **A genesis record loses the type of an account.**  A continuous vesting
account of `10stake` vesting from time `0` to time `100` passes the validation
of its record, and reads back as a delayed vesting account.  The same account
with no original vesting coins, starting at time `1`, reads back as a base
account, and a delayed vesting account with no end time makes `ToAccount`
panic. -/
theorem genesis_account_type_lost :
    let bacc : BaseAccount ℕ := ⟨1, [⟨"stake", 10⟩], 0, 0⟩
    let bva : BaseVestingAccount ℕ := ⟨bacc, [⟨"stake", 10⟩], [], [], 100⟩
    validateGenesisStateAccounts [NewGenesisAccountI (.vesting (.continuous bva 0))] = .ok () ∧
    (NewGenesisAccountI (.vesting (.continuous bva 0))).ToAccount = .ok (.vesting (.delayed bva)) ∧
    (NewGenesisAccountI (.vesting (.continuous { bva with OriginalVesting := [] } 1))).ToAccount =
      .ok (.base bacc) ∧
    (NewGenesisAccountI (.vesting (.delayed { bva with EndTime := 0 }))).ToAccount =
      .error (.invalidGenesisVestingAccount
        (NewGenesisAccountI (.vesting (.delayed { bva with EndTime := 0 })))) := by
  refine ⟨?_, ?_, ?_, ?_⟩ <;> decide +kernel

/-- **The genesis round trip, as far as it holds.**  An account read back from
its genesis record is of the same type with the same fields, its coins up to
order, exactly when it is a base account or a vesting account with original
vesting coins, an end time and, if continuous, a start time, none of them zero;
and no record that `validateGenesisStateAccounts` accepts makes `ToAccount`
panic. -/
theorem genesis_round_trip [DecidableEq A] (acc : Account A) {accs : List (GenesisAccount A)}
    (hvalid : validateGenesisStateAccounts accs = .ok ()) :
    ((∃ acc', (NewGenesisAccountI acc).ToAccount = .ok acc' ∧ acc'.Equiv acc) ↔ acc.Restorable) ∧
      ∀ ga ∈ accs, ∃ acc', ga.ToAccount = .ok acc' :=
  ⟨ToAccount_NewGenesisAccountI_iff acc, ToAccount_of_validateGenesisStateAccounts hvalid⟩

theorem genesis_round_trip_stake :
    let bva : BaseVestingAccount ℕ := ⟨⟨1, [⟨"stake", 10⟩], 0, 0⟩, [⟨"stake", 10⟩], [], [], 100⟩
    validateGenesisStateAccounts [NewGenesisAccountI (.vesting (.continuous bva 0))] = .ok () ∧
      ((∃ acc', (NewGenesisAccountI (.vesting (.continuous bva 0))).ToAccount = .ok acc' ∧
          acc'.Equiv (.vesting (.continuous bva 0))) ↔ Account.Restorable (.vesting (.continuous bva 0))) ∧
      ∀ ga ∈ [NewGenesisAccountI (.vesting (.continuous bva 0))], ∃ acc', ga.ToAccount = .ok acc' :=
  ⟨by decide +kernel, genesis_round_trip _ (by decide +kernel)⟩

end App
end ColorSdk
