import ColorSdk.Types.CoinString
import ColorSdk.Store.Types
import ColorSdk.Lib.ExceptSpec
import Mathlib

/-!
# The bank

The bank moves coins between accounts.  `MsgSend` takes an amount from one
account and gives it to another; `MsgMultiSend` takes coins from a list of
inputs and gives coins to a list of outputs, after `ValidateInputsOutputs` has
checked each input and output and that the inputs add up to the outputs.  Each
account's coins are taken by `subtractCoins`, which refuses an amount above what
the account may spend, and given by `addCoins`; both write through `setCoins`,
which refuses a coin list that `IsValid` rejects.

Every account here is a base account, which may spend all its coins; the
vesting accounts' limit is the subject of `ColorSdk.Auth`.  An address that has
no account has no coins, as `getCoins` reads it.  The tags the keeper returns
are not modelled.

`ValidateInputsOutputs` compares the two totals with `Coins.IsEqual`, which
panics on two lists of one length whose denominations differ at some position,
so a multi-send whose inputs and outputs name different denominations panics in
`ValidateBasic` instead of being refused.

## Main definitions

* `Input`, `Output`, `ValidateInputsOutputs`, `Msg.ValidateBasic`.
* `State.subtractCoins`, `State.addCoins`, `State.sendCoins`,
  `State.inputOutputCoins`, `State.handleMsgSend`, `State.handleMsgMultiSend`.

## Main results

* `State.subtractCoins_eq`, `State.addCoins_eq` — what a successful call writes.
* `State.sendCoins_amountAt` — a send moves the amount, denomination by
  denomination, from the sender to the recipient.
* `State.inputOutputCoins_amountAt`, `State.handleMsgMultiSend_conserves` — a
  multi-send moves the coins of its entries and conserves every denomination.
* `multiSend_panics` — a multi-send of one coin in and one coin out, of two
  denominations, panics.

## References

* src/x/bank/handler.go, src/x/bank/keeper.go, src/x/bank/msgs.go,
  src/types/coin.go, src/types/address.go
-/

open ColorSdk.Types

namespace ColorSdk
namespace Bank

/-- `sdk.AccAddress`: the bytes of an address. -/
abbrev AccAddress := Bytes

/-- The errors of the bank, with their messages. -/
inductive BankError
  /-- `sdk.ErrInvalidAddress`. -/
  | ErrInvalidAddress (msg : String)
  /-- `sdk.ErrInvalidCoins`. -/
  | ErrInvalidCoins (msg : String)
  /-- `sdk.ErrInsufficientCoins`. -/
  | ErrInsufficientCoins (msg : String)
  /-- `ErrNoInputs`: "no inputs to send transaction". -/
  | ErrNoInputs
  /-- `ErrNoOutputs`: "no outputs to send transaction". -/
  | ErrNoOutputs
  /-- `ErrInputOutputMismatch`: "sum inputs != sum outputs". -/
  | ErrInputOutputMismatch
  /-- `ErrSendDisabled`: "send transactions are currently disabled". -/
  | ErrSendDisabled
  deriving DecidableEq, Repr

/-- What ends a bank call early: an error, or a panic of the coin code. -/
inductive Failure
  | error (err : BankError)
  | panic (p : CoinPanic)
  deriving DecidableEq, Repr

/-- `Input`: an account and the coins it gives. -/
structure Input where
  Address : AccAddress
  Coins : Types.Coins
  deriving DecidableEq, Repr

/-- `Output`: an account and the coins it receives. -/
structure Output where
  Address : AccAddress
  Coins : Types.Coins
  deriving DecidableEq, Repr

/-! ### Messages and their checks -/

/-- The checks of `Input.ValidateBasic` and `Output.ValidateBasic`: an address,
and coins that are valid and all positive.  The message of an empty address is
its `String`, the empty string. -/
def validateAddressCoins (address : AccAddress) (coins : Coins) : Option BankError :=
  if address.length = 0 then some (.ErrInvalidAddress "")
  else if !coins.IsValid then some (.ErrInvalidCoins coins.String)
  else if !coins.IsAllPositive then some (.ErrInvalidCoins coins.String)
  else none

/-- `Input.ValidateBasic`. -/
def Input.ValidateBasic (input : Input) : Option BankError :=
  validateAddressCoins input.Address input.Coins

/-- `Output.ValidateBasic`. -/
def Output.ValidateBasic (output : Output) : Option BankError :=
  validateAddressCoins output.Address output.Coins

/-- The loop of `ValidateInputsOutputs` over the inputs: each is checked, and
its coins are added to the total. -/
def totalInputs (inputs : List Input) : Except Failure Coins :=
  inputs.foldlM (fun (totalIn : Coins) input =>
    match input.ValidateBasic with
    | some err => .error (.error err)
    | none => .ok (totalIn.Add input.Coins)) []

/-- The loop of `ValidateInputsOutputs` over the outputs. -/
def totalOutputs (outputs : List Output) : Except Failure Coins :=
  outputs.foldlM (fun (totalOut : Coins) output =>
    match output.ValidateBasic with
    | some err => .error (.error err)
    | none => .ok (totalOut.Add output.Coins)) []

/-- `ValidateInputsOutputs`: every input and output is checked, and the inputs
must add up to the outputs, as `Coins.IsEqual` compares them. -/
def ValidateInputsOutputs (inputs : List Input) (outputs : List Output) : Except Failure Unit := do
  let totalIn ← totalInputs inputs
  let totalOut ← totalOutputs outputs
  -- make sure inputs and outputs match
  let equal ← (totalIn.IsEqual totalOut).mapError .panic
  if equal then pure () else throw (.error .ErrInputOutputMismatch)

/-- The messages of the bank. -/
inductive Msg
  | MsgSend (FromAddress ToAddress : AccAddress) (Amount : Coins)
  | MsgMultiSend (Inputs : List Input) (Outputs : List Output)
  deriving DecidableEq, Repr

/-- `MsgSend.ValidateBasic` and `MsgMultiSend.ValidateBasic`. -/
def Msg.ValidateBasic : Msg → Except Failure Unit
  | .MsgSend FromAddress ToAddress Amount =>
    if FromAddress.length = 0 then .error (.error (.ErrInvalidAddress "missing sender address"))
    else if ToAddress.length = 0 then
      .error (.error (.ErrInvalidAddress "missing recipient address"))
    else if !Amount.IsValid then
      .error (.error (.ErrInvalidCoins ("send amount is invalid: " ++ Amount.String)))
    else if !Amount.IsAllPositive then
      .error (.error (.ErrInsufficientCoins "send amount must be positive"))
    else .ok ()
  | .MsgMultiSend Inputs Outputs =>
    -- this just makes sure all the inputs and outputs are properly formatted
    if Inputs.length = 0 then .error (.error .ErrNoInputs)
    else if Outputs.length = 0 then .error (.error .ErrNoOutputs)
    else ValidateInputsOutputs Inputs Outputs

/-! ### The keeper -/

/-- The coins of every account, and the parameter `SendEnabled`. -/
structure State where
  accounts : AccAddress → Coins
  SendEnabled : Bool

namespace State

/-- `getCoins`: an address without an account has no coins. -/
def getCoins (s : State) (addr : AccAddress) : Coins := s.accounts addr

/-- `setCoins`: the coins must be valid. -/
def setCoins (s : State) (addr : AccAddress) (amt : Coins) : Except Failure State :=
  if !amt.IsValid then .error (.error (.ErrInvalidCoins amt.String))
  else .ok { s with accounts := Function.update s.accounts addr amt }

/-- `subtractCoins`: the amount must be valid and no more than the account may
spend, which for a base account is all its coins. -/
def subtractCoins (s : State) (addr : AccAddress) (amt : Coins) :
    Except Failure (Coins × State) :=
  if !amt.IsValid then .error (.error (.ErrInvalidCoins amt.String))
  else
    let oldCoins := s.getCoins addr
    let spendableCoins := oldCoins
    let hasNeg := (spendableCoins.SafeSub amt).2
    if hasNeg then
      .error (.error (.ErrInsufficientCoins
        ("insufficient account funds; " ++ spendableCoins.String ++ " < " ++ amt.String)))
    else do
      -- should not panic as spendable coins was already checked
      let newCoins ← (oldCoins.Sub amt).mapError .panic
      let s ← s.setCoins addr newCoins
      pure (newCoins, s)

/-- `addCoins`: the amount must be valid and the sum not negative. -/
def addCoins (s : State) (addr : AccAddress) (amt : Coins) : Except Failure (Coins × State) :=
  if !amt.IsValid then .error (.error (.ErrInvalidCoins amt.String))
  else
    let oldCoins := s.getCoins addr
    let newCoins := oldCoins.Add amt
    if newCoins.IsAnyNegative then
      .error (.error (.ErrInsufficientCoins
        ("insufficient account funds; " ++ oldCoins.String ++ " < " ++ amt.String)))
    else do
      let s ← s.setCoins addr newCoins
      pure (newCoins, s)

/-- `sendCoins`: take the amount from one account, then give it to the other. -/
def sendCoins (s : State) (fromAddr toAddr : AccAddress) (amt : Coins) : Except Failure State :=
  if !amt.IsValid then .error (.error (.ErrInvalidCoins amt.String))
  else do
    let subtracted ← s.subtractCoins fromAddr amt
    let added ← subtracted.2.addCoins toAddr amt
    pure added.2

/-- `BaseSendKeeper.SendCoins`. -/
def SendCoins (s : State) (fromAddr toAddr : AccAddress) (amt : Coins) : Except Failure State :=
  if !amt.IsValid then .error (.error (.ErrInvalidCoins amt.String))
  else s.sendCoins fromAddr toAddr amt

/-- `inputOutputCoins`: check the inputs and outputs, take every input, then
give every output. -/
def inputOutputCoins (s : State) (inputs : List Input) (outputs : List Output) :
    Except Failure State := do
  ValidateInputsOutputs inputs outputs
  let s ← inputs.foldlM (fun s input => (·.2) <$> s.subtractCoins input.Address input.Coins) s
  outputs.foldlM (fun s output => (·.2) <$> s.addCoins output.Address output.Coins) s

/-- `handleMsgSend`. -/
def handleMsgSend (s : State) (FromAddress ToAddress : AccAddress) (Amount : Coins) :
    Except Failure State :=
  if !s.SendEnabled then .error (.error .ErrSendDisabled)
  else s.SendCoins FromAddress ToAddress Amount

/-- `handleMsgMultiSend`. -/
def handleMsgMultiSend (s : State) (Inputs : List Input) (Outputs : List Output) :
    Except Failure State :=
  -- totalIn == totalOut should already have been checked
  if !s.SendEnabled then .error (.error .ErrSendDisabled)
  else s.inputOutputCoins Inputs Outputs

/-! ### What a successful call writes -/

variable {s s' : State} {addr : AccAddress} {amt newCoins : Coins}

theorem setCoins_eq_ok : s.setCoins addr amt = .ok s' ↔
    amt.IsValid = true ∧ s' = { s with accounts := Function.update s.accounts addr amt } := by
  unfold setCoins
  cases amt.IsValid <;> simp [eq_comm]

/-- A successful `subtractCoins` writes the account's coins less the amount,
which the account held in every denomination. -/
theorem subtractCoins_eq (h : s.subtractCoins addr amt = .ok (newCoins, s')) :
    newCoins = ((s.getCoins addr).SafeSub amt).1 ∧ ((s.getCoins addr).SafeSub amt).2 = false ∧
      s'.accounts = Function.update s.accounts addr newCoins := by
  unfold subtractCoins at h
  dsimp only at h
  -- the amount is valid, the account holds it, and `Sub` does not panic
  split_ifs at h with hvalid hneg
  simp only [Bool.not_eq_true] at hneg
  obtain ⟨diff, hsub, h⟩ := Except.bind_eq_ok.1 h
  rw [Except.mapError_eq_ok, Coins.Sub, hneg] at hsub
  obtain ⟨s₁, hset, h⟩ := Except.bind_eq_ok.1 h
  cases Except.pure_eq_ok.1 h
  obtain ⟨-, rfl⟩ := setCoins_eq_ok.1 hset
  exact ⟨(Except.pure_eq_ok.1 hsub).symm, hneg, rfl⟩

/-- A successful `addCoins` writes the account's coins plus the amount. -/
theorem addCoins_eq (h : s.addCoins addr amt = .ok (newCoins, s')) :
    newCoins = (s.getCoins addr).Add amt ∧
      s'.accounts = Function.update s.accounts addr newCoins := by
  unfold addCoins at h
  dsimp only at h
  split_ifs at h with hvalid hneg
  obtain ⟨s₁, hset, h⟩ := Except.bind_eq_ok.1 h
  cases Except.pure_eq_ok.1 h
  obtain ⟨-, rfl⟩ := setCoins_eq_ok.1 hset
  exact ⟨rfl, rfl⟩

/-- A successful `subtractCoins` takes the amount from one account. -/
theorem subtractCoins_amountAt (h : s.subtractCoins addr amt = .ok (newCoins, s'))
    (a : AccAddress) (denom : String) :
    (s'.getCoins a).amountAt denom =
      (s.getCoins a).amountAt denom - (if a = addr then amt.amountAt denom else 0) := by
  obtain ⟨rfl, -, hs'⟩ := subtractCoins_eq h
  simp only [getCoins, hs', Function.update_apply]
  split_ifs with ha
  · rw [Coins.amountAt_SafeSub, ha]
  · ring

/-- A successful `addCoins` gives the amount to one account. -/
theorem addCoins_amountAt (h : s.addCoins addr amt = .ok (newCoins, s')) (a : AccAddress)
    (denom : String) :
    (s'.getCoins a).amountAt denom =
      (s.getCoins a).amountAt denom + (if a = addr then amt.amountAt denom else 0) := by
  obtain ⟨rfl, hs'⟩ := addCoins_eq h
  simp only [getCoins, hs', Function.update_apply]
  split_ifs with ha
  · rw [Coins.amountAt_Add, ha]
  · ring

/-- **A send moves the amount.**  Denomination by denomination, the sender
loses the amount and the recipient gains it, and no other account changes; when
the two are one account, it ends where it started. -/
theorem sendCoins_amountAt {fromAddr toAddr : AccAddress}
    (h : s.sendCoins fromAddr toAddr amt = .ok s') (a : AccAddress) (denom : String) :
    (s'.getCoins a).amountAt denom = (s.getCoins a).amountAt denom -
      (if a = fromAddr then amt.amountAt denom else 0) +
      (if a = toAddr then amt.amountAt denom else 0) := by
  unfold sendCoins at h
  split_ifs at h with hvalid
  obtain ⟨⟨c₁, s₁⟩, hsub, h⟩ := Except.bind_eq_ok.1 h
  obtain ⟨⟨c₂, s₂⟩, hadd, h⟩ := Except.bind_eq_ok.1 h
  cases Except.pure_eq_ok.1 h
  -- the subtraction, then the addition
  rw [addCoins_amountAt hadd, subtractCoins_amountAt hsub]

/-- The loop over the inputs takes each input's coins from its account. -/
theorem foldlM_subtractCoins_amountAt : ∀ (inputs : List Input) {s s' : State},
    inputs.foldlM (fun s input => (·.2) <$> s.subtractCoins input.Address input.Coins) s =
      .ok s' → ∀ a denom, (s'.getCoins a).amountAt denom = (s.getCoins a).amountAt denom -
        (inputs.map fun input => if a = input.Address then input.Coins.amountAt denom else 0).sum
  | [], s, s', h, a, denom => by
    cases h
    simp
  | input :: inputs, s, s', h, a, denom => by
    rw [List.foldlM_cons, Except.bind_eq_ok] at h
    obtain ⟨s₁, hs₁, h⟩ := h
    obtain ⟨⟨c, s₁'⟩, hsub, rfl⟩ := Except.map_eq_ok.1 hs₁
    rw [foldlM_subtractCoins_amountAt inputs h a denom, subtractCoins_amountAt hsub,
      List.map_cons, List.sum_cons]
    ring

/-- The loop over the outputs gives each output's coins to its account. -/
theorem foldlM_addCoins_amountAt : ∀ (outputs : List Output) {s s' : State},
    outputs.foldlM (fun s output => (·.2) <$> s.addCoins output.Address output.Coins) s =
      .ok s' → ∀ a denom, (s'.getCoins a).amountAt denom = (s.getCoins a).amountAt denom +
        (outputs.map fun output => if a = output.Address then output.Coins.amountAt denom else 0).sum
  | [], s, s', h, a, denom => by
    cases h
    simp
  | output :: outputs, s, s', h, a, denom => by
    rw [List.foldlM_cons, Except.bind_eq_ok] at h
    obtain ⟨s₁, hs₁, h⟩ := h
    obtain ⟨⟨c, s₁'⟩, hadd, rfl⟩ := Except.map_eq_ok.1 hs₁
    rw [foldlM_addCoins_amountAt outputs h a denom, addCoins_amountAt hadd,
      List.map_cons, List.sum_cons]
    ring

end State

/-! ### The totals of a multi-send -/

/-- A coin list's amounts do not depend on the order of its coins. -/
theorem amountAt_perm {a b : Coins} (h : a.Perm b) (denom : String) :
    a.amountAt denom = b.amountAt denom :=
  ((h.filter _).map _).sum_eq

/-- The loop of `IsEqual` says yes to two lists of one length only when they are
equal. -/
theorem eq_of_isEqualLoop : ∀ {a b : Coins}, a.length = b.length →
    Coins.isEqualLoop a b = .ok true → a = b
  | [], [], _, _ => rfl
  | [], _ :: _, hlen, _ => absurd hlen (by simp)
  | _ :: _, [], hlen, _ => absurd hlen (by simp)
  | coin :: a, coinB :: b, hlen, h => by
    rw [Coins.isEqualLoop, Except.bind_eq_ok] at h
    obtain ⟨equal, hcoin, h⟩ := h
    unfold Coin.IsEqual at hcoin
    -- the heads have one denomination, else `Coin.IsEqual` panics
    split_ifs at hcoin with hden
    cases hcoin
    split_ifs at h with hamount
    · have hrest := eq_of_isEqualLoop (by simpa using hlen) h
      have hcoins : coin = coinB := by
        cases coin
        cases coinB
        simp only [ne_eq, not_not] at hden
        simp only [decide_eq_true_eq] at hamount
        rw [hden, hamount]
      rw [hcoins, hrest]
    · cases h

/-- `IsEqual` says yes only to two lists with the same amount at every
denomination. -/
theorem amountAt_eq_of_IsEqual {a b : Coins} (h : a.IsEqual b = .ok true) (denom : String) :
    a.amountAt denom = b.amountAt denom := by
  unfold Coins.IsEqual at h
  split_ifs at h with hlen
  · cases h
  · -- the sorted lists are equal, and sorting permutes
    have hsort := eq_of_isEqualLoop (by simpa [Coins.sort] using hlen) h
    rw [← amountAt_perm (List.mergeSort_perm a _), ← amountAt_perm (List.mergeSort_perm b _)]
    exact congrArg (Coins.amountAt · denom) hsort

/-- The loops of `ValidateInputsOutputs` add up the coins they check. -/
theorem foldlM_total_amountAt {ι : Type} (coinsOf : ι → Coins) (check : ι → Option BankError) :
    ∀ (l : List ι) (acc t : Coins),
      l.foldlM (fun (total : Coins) x =>
        match check x with
        | some err => (Except.error (Failure.error err) : Except Failure Coins)
        | none => .ok (total.Add (coinsOf x))) acc = .ok t →
      ∀ denom, t.amountAt denom = acc.amountAt denom + (l.map fun x => (coinsOf x).amountAt denom).sum
  | [], acc, t, h, denom => by
    cases h
    simp
  | x :: l, acc, t, h, denom => by
    rw [List.foldlM_cons, Except.bind_eq_ok] at h
    obtain ⟨acc₁, hacc₁, h⟩ := h
    -- the checked element passed, and its coins joined the total
    split at hacc₁
    · cases hacc₁
    · cases hacc₁
      rw [foldlM_total_amountAt coinsOf check l _ t h denom, Coins.amountAt_Add, List.map_cons,
        List.sum_cons]
      ring

/-- **Validated inputs and outputs balance.**  When `ValidateInputsOutputs`
accepts, the inputs carry as much of every denomination as the outputs. -/
theorem sum_inputs_eq_sum_outputs {inputs : List Input} {outputs : List Output}
    (h : ValidateInputsOutputs inputs outputs = .ok ()) (denom : String) :
    (inputs.map fun input => input.Coins.amountAt denom).sum =
      (outputs.map fun output => output.Coins.amountAt denom).sum := by
  unfold ValidateInputsOutputs at h
  obtain ⟨totalIn, hIn, h⟩ := Except.bind_eq_ok.1 h
  obtain ⟨totalOut, hOut, h⟩ := Except.bind_eq_ok.1 h
  obtain ⟨equal, hequal, h⟩ := Except.bind_eq_ok.1 h
  rw [Except.mapError_eq_ok] at hequal
  -- a mismatch would have been refused
  cases equal
  · cases h
  · have htotals := amountAt_eq_of_IsEqual hequal denom
    rw [foldlM_total_amountAt Input.Coins Input.ValidateBasic inputs [] totalIn hIn,
      foldlM_total_amountAt Output.Coins Output.ValidateBasic outputs [] totalOut hOut] at htotals
    simpa using htotals

/-- Summed over a set of accounts that holds every entry's account, the amounts
each account receives from a list of entries are the entries' amounts. -/
theorem sum_accounts {ι : Type} (l : List ι) (addr : ι → AccAddress) (amount : ι → ℤ)
    (S : Finset AccAddress) (hS : ∀ x ∈ l, addr x ∈ S) :
    ∑ a ∈ S, (l.map fun x => if a = addr x then amount x else 0).sum = (l.map amount).sum := by
  induction l with
  | nil => simp
  | cons x l ih =>
    simp only [List.map_cons, List.sum_cons, Finset.sum_add_distrib]
    rw [Finset.sum_ite_eq' S (addr x) fun _ => amount x, if_pos (hS x List.mem_cons_self),
      ih fun y hy => hS y (List.mem_cons_of_mem x hy)]

namespace State

variable {s s' : State} {inputs : List Input} {outputs : List Output}

/-- A successful `inputOutputCoins` validated its inputs and outputs, took the
inputs and gave the outputs. -/
theorem inputOutputCoins_eq_ok (h : s.inputOutputCoins inputs outputs = .ok s') :
    ValidateInputsOutputs inputs outputs = .ok () ∧ ∃ s₁,
      inputs.foldlM (fun s input => (·.2) <$> s.subtractCoins input.Address input.Coins) s =
        .ok s₁ ∧
      outputs.foldlM (fun s output => (·.2) <$> s.addCoins output.Address output.Coins) s₁ =
        .ok s' := by
  unfold inputOutputCoins at h
  obtain ⟨u, hvalid, h⟩ := Except.bind_eq_ok.1 h
  obtain ⟨s₁, hin, hout⟩ := Except.bind_eq_ok.1 h
  exact ⟨hvalid, s₁, hin, hout⟩

/-- **A multi-send moves the coins of its entries.**  Denomination by
denomination, every account loses its inputs and gains its outputs. -/
theorem inputOutputCoins_amountAt (h : s.inputOutputCoins inputs outputs = .ok s')
    (a : AccAddress) (denom : String) :
    (s'.getCoins a).amountAt denom = (s.getCoins a).amountAt denom -
      (inputs.map fun input => if a = input.Address then input.Coins.amountAt denom else 0).sum +
      (outputs.map fun output => if a = output.Address then output.Coins.amountAt denom else 0).sum := by
  obtain ⟨-, s₁, hin, hout⟩ := inputOutputCoins_eq_ok h
  rw [foldlM_addCoins_amountAt outputs hout, foldlM_subtractCoins_amountAt inputs hin]

/-- **A multi-send conserves every denomination.**  Over any set of accounts
that holds every input and output account, the total of each denomination after
a successful multi-send is the total before it. -/
theorem handleMsgMultiSend_conserves (h : s.handleMsgMultiSend inputs outputs = .ok s')
    (S : Finset AccAddress) (hin : ∀ input ∈ inputs, input.Address ∈ S)
    (hout : ∀ output ∈ outputs, output.Address ∈ S) (denom : String) :
    ∑ a ∈ S, (s'.getCoins a).amountAt denom = ∑ a ∈ S, (s.getCoins a).amountAt denom := by
  unfold handleMsgMultiSend at h
  split_ifs at h with henabled
  have hbalance := sum_inputs_eq_sum_outputs (inputOutputCoins_eq_ok h).1 denom
  calc ∑ a ∈ S, (s'.getCoins a).amountAt denom
      = ∑ a ∈ S, ((s.getCoins a).amountAt denom -
          (inputs.map fun input => if a = input.Address then input.Coins.amountAt denom
            else 0).sum +
          (outputs.map fun output => if a = output.Address then output.Coins.amountAt denom
            else 0).sum) :=
        Finset.sum_congr rfl fun a _ => inputOutputCoins_amountAt h a denom
    _ = ∑ a ∈ S, (s.getCoins a).amountAt denom -
          (inputs.map fun input => input.Coins.amountAt denom).sum +
          (outputs.map fun output => output.Coins.amountAt denom).sum := by
        rw [Finset.sum_add_distrib, Finset.sum_sub_distrib,
          sum_accounts inputs Input.Address (fun input => input.Coins.amountAt denom) S hin,
          sum_accounts outputs Output.Address (fun output => output.Coins.amountAt denom) S hout]
    _ = ∑ a ∈ S, (s.getCoins a).amountAt denom := by
        rw [hbalance]
        ring

end State

/-! ### A multi-send of two denominations -/

/-- When every input passes its check, the first loop adds up their coins. -/
theorem totalInputs_eq {inputs : List Input} (h : ∀ input ∈ inputs, input.ValidateBasic = none) :
    totalInputs inputs = .ok (inputs.foldl (fun totalIn input => totalIn.Add input.Coins) []) :=
  Except.foldlM_eq_ok (p := fun input : Input => input.ValidateBasic = none)
    (fun totalIn input hinput => by simp only [hinput]) inputs h []

/-- When every output passes its check, the second loop adds up their coins. -/
theorem totalOutputs_eq {outputs : List Output}
    (h : ∀ output ∈ outputs, output.ValidateBasic = none) :
    totalOutputs outputs = .ok (outputs.foldl (fun totalOut output => totalOut.Add output.Coins) []) :=
  Except.foldlM_eq_ok (p := fun output : Output => output.ValidateBasic = none)
    (fun totalOut output houtput => by simp only [houtput]) outputs h []

/-- **A multi-send of two denominations panics.**  Account `[1]` gives one
`aaa` and account `[2]` receives one `bbb`.  Each input and output passes its
checks and the totals are one coin each, so `IsEqual` compares `aaa` with `bbb`
and panics: in `ValidateBasic`, and in the handler of every state that allows
sends. -/
theorem multiSend_panics :
    let inputs : List Input := [⟨[1], [⟨"aaa", 1⟩]⟩]
    let outputs : List Output := [⟨[2], [⟨"bbb", 1⟩]⟩]
    (∀ input ∈ inputs, input.ValidateBasic = none) ∧
      (∀ output ∈ outputs, output.ValidateBasic = none) ∧
      ValidateInputsOutputs inputs outputs = .error (.panic (.invalidCoinDenominations "aaa" "bbb")) ∧
      (Msg.MsgMultiSend inputs outputs).ValidateBasic =
        .error (.panic (.invalidCoinDenominations "aaa" "bbb")) ∧
      ∀ s : State, s.handleMsgMultiSend inputs outputs =
        if s.SendEnabled then .error (.panic (.invalidCoinDenominations "aaa" "bbb"))
        else .error (.error .ErrSendDisabled) := by
  intro inputs outputs
  have hin : ∀ input ∈ inputs, input.ValidateBasic = none := by decide
  have hout : ∀ output ∈ outputs, output.ValidateBasic = none := by decide
  -- the totals are the two single coins, and `IsEqual` panics on them
  have hequal : Coins.IsEqual [⟨"aaa", 1⟩] [⟨"bbb", 1⟩] =
      .error (.invalidCoinDenominations "aaa" "bbb") :=
    Coins.IsEqual_of_denom_ne (by decide) (by decide) rfl (by decide)
  have hvalidate : ValidateInputsOutputs inputs outputs =
      .error (.panic (.invalidCoinDenominations "aaa" "bbb")) := by
    -- an empty total plus one coin is that coin
    have htotalIn : inputs.foldl (fun (totalIn : Coins) input => totalIn.Add input.Coins) [] =
        [⟨"aaa", 1⟩] := by
      simp [inputs, Coins.Add, Coins.safeAdd, SortedMerge.mergeAdd, SortedMerge.removeZero,
        Coin.IsZero]
    have htotalOut : outputs.foldl (fun (totalOut : Coins) output => totalOut.Add output.Coins) [] =
        [⟨"bbb", 1⟩] := by
      simp [outputs, Coins.Add, Coins.safeAdd, SortedMerge.mergeAdd, SortedMerge.removeZero,
        Coin.IsZero]
    rw [ValidateInputsOutputs, totalInputs_eq hin, totalOutputs_eq hout]
    simp only [bind, Except.bind, htotalIn, htotalOut, hequal]
    rfl
  refine ⟨hin, hout, hvalidate, ?_, fun s => ?_⟩
  · rw [Msg.ValidateBasic, if_neg (by decide), if_neg (by decide)]
    exact hvalidate
  · -- a state that allows sends validates first, and panics there
    unfold State.handleMsgMultiSend
    cases s.SendEnabled
    · rfl
    · rw [if_neg (by decide), State.inputOutputCoins, hvalidate]
      rfl

end Bank
end ColorSdk
