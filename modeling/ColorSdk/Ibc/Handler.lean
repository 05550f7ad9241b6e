import ColorSdk.Bank.Keeper
import Mathlib

/-!
# IBC transfers: packets, the store and the handler

The IBC module moves coins between chains.  On the sending chain,
`MsgIBCTransfer` takes the packet's coins from its source account and appends
the packet to the egress queue of its destination chain: the packet at index
`i` of the queue to `d` is stored under `egress/d/i`, and the length of the
queue under `egress/d`.  A relayer reads the queue and posts each packet to the
destination chain as `MsgIBCReceive` with the packet's index as its sequence;
the receiving chain accepts it only at the sequence it expects from the
packet's source chain, stored under `ingress/c`, credits the coins and moves
that sequence on.

Nothing on either chain ties a packet to the chain that holds it: a transfer
may name any source chain, and a receive is taken from any relayer for any
packet.  The keys of the store are texts, and a destination chain whose name
contains `/` has the length of its queue stored under the key of another
queue's packet (`EgressKey_eq_EgressLengthKey`).

The store holds amino encodings.  A value is modelled by what it encodes, a
packet or a `uint64`; decoding a value as the other kind fails, and
`unmarshalBinaryPanic` then panics.  Sequence numbers and queue lengths are
`uint64`s that no run of the model comes near overflowing, and are natural
numbers here.

## Main definitions

* `IBCPacket`, `Msg`, `Msg.ValidateBasic`.
* `EgressKey`, `EgressLengthKey`, `IngressSequenceKey` — the keys.
* `State.GetIngressSequence`, `State.SetIngressSequence`,
  `State.getEgressLength`, `State.PostIBCPacket` — the mapper.
* `State.handleIBCTransferMsg`, `State.handleIBCReceiveMsg`, `State.deliver`.
* `refine` — the message the relayer builds from a packet it read.

## Main results

* `EgressKey_inj`, `EgressKey_ne_EgressLengthKey` — the keys of packets are
  distinct, and distinct from the key of a queue's length when the queue's
  chain has no `/` in its name.
* `State.handleIBCTransferMsg_eq_ok`, `State.handleIBCReceiveMsg_eq_ok` — what a
  successful transfer and receive write.

## References

* src/x/ibc/handler.go, src/x/ibc/mapper.go, src/x/ibc/types.go,
  src/x/ibc/errors.go, src/x/ibc/client/cli/relay.go, src/x/bank/keeper.go
-/

namespace ColorSdk

open ColorSdk.Types (Coins)

/-! ### The bank keeper's methods -/

namespace Bank
namespace State

/-- `BaseKeeper.SubtractCoins`: the amount is checked, then `subtractCoins`. -/
def SubtractCoins (s : State) (addr : AccAddress) (amt : Coins) : Except Failure (Coins × State) :=
  if !amt.IsValid then .error (.error (.ErrInvalidCoins amt.String)) else s.subtractCoins addr amt

/-- `BaseKeeper.AddCoins`: the amount is checked, then `addCoins`. -/
def AddCoins (s : State) (addr : AccAddress) (amt : Coins) : Except Failure (Coins × State) :=
  if !amt.IsValid then .error (.error (.ErrInvalidCoins amt.String)) else s.addCoins addr amt

theorem SubtractCoins_eq_ok {s s' : State} {addr : AccAddress} {amt newCoins : Coins}
    (h : s.SubtractCoins addr amt = .ok (newCoins, s')) :
    s.subtractCoins addr amt = .ok (newCoins, s') := by
  unfold SubtractCoins at h
  split_ifs at h
  exact h

theorem AddCoins_eq_ok {s s' : State} {addr : AccAddress} {amt newCoins : Coins}
    (h : s.AddCoins addr amt = .ok (newCoins, s')) : s.addCoins addr amt = .ok (newCoins, s') := by
  unfold AddCoins at h
  split_ifs at h
  exact h

end State
end Bank

namespace Ibc

open Bank (AccAddress)

/-! ### Packets and messages -/

/-- `IBCPacket`: coins sent from an account of one chain to an account of
another. -/
structure IBCPacket where
  SrcAddr : AccAddress
  DestAddr : AccAddress
  Coins : Types.Coins
  SrcChain : String
  DestChain : String
  deriving DecidableEq, Repr

/-- The errors of the IBC module, with `sdk.ErrInvalidCoins`. -/
inductive IbcError
  /-- `ErrInvalidSequence`, code 200: "invalid IBC packet sequence". -/
  | ErrInvalidSequence
  /-- `ErrIdenticalChains`, code 201: "source and destination chain cannot be
  identical". -/
  | ErrIdenticalChains
  /-- `sdk.ErrInvalidCoins`, with its message. -/
  | ErrInvalidCoins (msg : String)
  deriving DecidableEq, Repr

/-- What ends a message early: an error of the module or of the bank, or the
panic of a stored value that does not decode. -/
inductive Failure
  | error (err : IbcError)
  | bank (failure : Bank.Failure)
  | panic
  deriving DecidableEq, Repr

/-- `IBCPacket.ValidateBasic`. -/
def IBCPacket.ValidateBasic (p : IBCPacket) : Option IbcError :=
  if p.SrcChain = p.DestChain then some .ErrIdenticalChains
  else if !p.Coins.IsValid then some (.ErrInvalidCoins "")
  else none

/-- The messages of the module. -/
inductive Msg
  | MsgIBCTransfer (IBCPacket : IBCPacket)
  | MsgIBCReceive (IBCPacket : IBCPacket) (Relayer : AccAddress) (Sequence : ℕ)
  deriving DecidableEq, Repr

/-- Both messages check their packet alone. -/
def Msg.ValidateBasic : Msg → Option IbcError
  | .MsgIBCTransfer packet => packet.ValidateBasic
  | .MsgIBCReceive packet _ _ => packet.ValidateBasic

/-! ### Keys -/

/-- `EgressKey`: `egress/<chain>/<index>`. -/
def EgressKey (destChain : String) (index : ℕ) : String :=
  "egress/" ++ destChain ++ "/" ++ toString index

/-- `EgressLengthKey`: `egress/<chain>`. -/
def EgressLengthKey (destChain : String) : String := "egress/" ++ destChain

/-- `IngressSequenceKey`: `ingress/<chain>`. -/
def IngressSequenceKey (srcChain : String) : String := "ingress/" ++ srcChain

/-- A list split at a separator that its second part does not contain is split
at its last separator, so that the two parts are determined. -/
theorem append_sep_inj {α : Type} [DecidableEq α] {sep : α} {l₁ l₂ m₁ m₂ : List α}
    (h : l₁ ++ sep :: m₁ = l₂ ++ sep :: m₂) (h₁ : sep ∉ m₁) (h₂ : sep ∉ m₂) :
    l₁ = l₂ ∧ m₁ = m₂ := by
  -- the part after the last separator is what the reversed list starts with
  have hlast : ∀ {l m : List α}, sep ∉ m →
      (l ++ sep :: m).reverse.takeWhile (· ≠ sep) = m.reverse := by
    intro l m hm
    rw [List.reverse_append, List.reverse_cons, List.append_assoc, List.takeWhile_append_of_pos]
    · simp
    · intro x hx
      simp only [List.mem_reverse] at hx
      simp only [ne_eq, decide_eq_true_eq]
      rintro rfl
      exact hm hx
  have hm : m₁ = m₂ := by
    have := hlast (l := l₁) h₁
    rw [h, hlast h₂] at this
    exact List.reverse_injective this.symm
  subst hm
  exact ⟨List.append_inj_left' h rfl, rfl⟩

theorem slash_not_mem_toString (n : ℕ) : '/' ∉ (toString n).toList := by
  simp only [Nat.toString_eq_repr, Nat.repr, String.toList_ofList]
  intro h
  have := Nat.isDigit_of_mem_toDigits (by decide) (by decide) h
  revert this
  decide

/-- The key of a packet names its queue and its index. -/
theorem EgressKey_inj {d d' : String} {i i' : ℕ} (h : EgressKey d i = EgressKey d' i') :
    d = d' ∧ i = i' := by
  unfold EgressKey at h
  simp only [String.append_assoc, ← String.toList_inj, String.toList_append] at h
  -- the index is what follows the last `/`, since digits are not `/`
  obtain ⟨hd, hi⟩ := @append_sep_inj Char _ '/' _ _ _ _ (by simpa using h)
    (slash_not_mem_toString i) (slash_not_mem_toString i')
  exact ⟨String.toList_injective hd, Nat.repr_inj.1 (String.toList_injective hi)⟩

theorem EgressLengthKey_inj {d d' : String} (h : EgressLengthKey d = EgressLengthKey d') :
    d = d' :=
  (String.append_right_inj _).1 h

theorem IngressSequenceKey_inj {c c' : String} (h : IngressSequenceKey c = IngressSequenceKey c') :
    c = c' :=
  (String.append_right_inj _).1 h

/-- The key of a packet is not the key of a queue's length whose chain has no
`/` in its name. -/
theorem EgressKey_ne_EgressLengthKey {d' : String} (hd' : '/' ∉ d'.toList) (d : String) (i : ℕ) :
    EgressKey d i ≠ EgressLengthKey d' := by
  intro h
  unfold EgressKey EgressLengthKey at h
  simp only [String.append_assoc, String.append_right_inj] at h
  apply hd'
  rw [← h]
  simp

/-- **The keys collide**: the packet at index `i` of the queue to `d` is stored
under the key of the length of the queue to `d/i`. -/
theorem EgressKey_eq_EgressLengthKey (d : String) (i : ℕ) :
    EgressKey d i = EgressLengthKey (d ++ "/" ++ toString i) := by
  simp only [EgressKey, EgressLengthKey, String.append_assoc]

/-- The key of a packet is longer than the key of its queue's length. -/
theorem EgressKey_ne_EgressLengthKey_self (d : String) (i : ℕ) :
    EgressKey d i ≠ EgressLengthKey d := by
  intro h
  have := congrArg (fun s : String => s.toList.length) h
  simp only [EgressKey, EgressLengthKey, String.toList_append, List.length_append] at this
  have hslash : "/".toList.length = 1 := rfl
  omega

theorem IngressSequenceKey_ne_EgressKey (c d : String) (i : ℕ) :
    IngressSequenceKey c ≠ EgressKey d i := by
  intro h
  have := congrArg (fun s : String => s.toList.head?) h
  simp [IngressSequenceKey, EgressKey] at this

theorem IngressSequenceKey_ne_EgressLengthKey (c d : String) :
    IngressSequenceKey c ≠ EgressLengthKey d := by
  intro h
  have := congrArg (fun s : String => s.toList.head?) h
  simp [IngressSequenceKey, EgressLengthKey] at this

/-! ### The store and the mapper -/

/-- A stored value, by what its amino encoding encodes. -/
inductive Value
  | packet (p : IBCPacket)
  | uint (n : ℕ)
  deriving DecidableEq, Repr

/-- A chain as the module sees it: its IBC store and its bank. -/
structure State where
  store : String → Option Value
  bank : Bank.State

/-- `unmarshalBinaryPanic` into a `uint64`. -/
def unmarshalUint : Value → Except Failure ℕ
  | .uint n => .ok n
  | .packet _ => .error .panic

/-- `unmarshalBinaryPanic` into a packet; `nil` does not decode either. -/
def unmarshalPacket : Option Value → Except Failure IBCPacket
  | some (.packet p) => .ok p
  | _ => .error .panic

namespace State

/-- `store.Set`. -/
def set (s : State) (key : String) (value : Value) : State :=
  { s with store := Function.update s.store key (some value) }

/-- The `uint64` a key holds, zero when it holds none. -/
def uintAt (s : State) (key : String) : ℕ :=
  match s.store key with
  | some (.uint n) => n
  | _ => 0

/-- The reads of `GetIngressSequence` and `getEgressLength`: a missing value is
zero, written to the store. -/
def getUint (s : State) (key : String) : Except Failure (ℕ × State) :=
  match s.store key with
  | none => .ok (0, s.set key (.uint 0))
  | some bz => do
    let res ← unmarshalUint bz
    pure (res, s)

/-- `GetIngressSequence`. -/
def GetIngressSequence (s : State) (srcChain : String) : Except Failure (ℕ × State) :=
  s.getUint (IngressSequenceKey srcChain)

/-- `SetIngressSequence`. -/
def SetIngressSequence (s : State) (srcChain : String) (sequence : ℕ) : State :=
  s.set (IngressSequenceKey srcChain) (.uint sequence)

/-- `getEgressLength`. -/
def getEgressLength (s : State) (destChain : String) : Except Failure (ℕ × State) :=
  s.getUint (EgressLengthKey destChain)

/-- `PostIBCPacket`: the packet goes at the end of the queue to its
destination. -/
def PostIBCPacket (s : State) (packet : IBCPacket) : Except Failure State := do
  let (index, s) ← s.getEgressLength packet.DestChain
  let s := s.set (EgressKey packet.DestChain index) (.packet packet)
  pure (s.set (EgressLengthKey packet.DestChain) (.uint (index + 1)))

/-- `handleIBCTransferMsg`: the coins leave the source account, and the packet
is queued. -/
def handleIBCTransferMsg (s : State) (packet : IBCPacket) : Except Failure State := do
  let (_, bank) ← (s.bank.SubtractCoins packet.SrcAddr packet.Coins).mapError .bank
  { s with bank }.PostIBCPacket packet

/-- `handleIBCReceiveMsg`: a packet at the sequence expected from its source
chain is credited, and the sequence moves on. -/
def handleIBCReceiveMsg (s : State) (packet : IBCPacket) (sequence : ℕ) :
    Except Failure State := do
  let (seq, s) ← s.GetIngressSequence packet.SrcChain
  if sequence ≠ seq then throw (.error .ErrInvalidSequence)
  -- the packet's coins were checked by `ValidateBasic` only
  let (_, bank) ← (s.bank.AddCoins packet.DestAddr packet.Coins).mapError .bank
  pure ({ s with bank }.SetIngressSequence packet.SrcChain (seq + 1))

/-- `NewHandler`. -/
def handle (s : State) : Msg → Except Failure State
  | .MsgIBCTransfer packet => s.handleIBCTransferMsg packet
  | .MsgIBCReceive packet _ sequence => s.handleIBCReceiveMsg packet sequence

/-- A message as a transaction delivers it: `ValidateBasic`, then the handler;
a message that fails leaves the chain as it was. -/
def deliver (s : State) (msg : Msg) : Except Failure State :=
  match msg.ValidateBasic with
  | some err => .error (.error err)
  | none => s.handle msg

end State

/-- `refine`: the relayer's message for the packet it read at index `ibcSeq`
of a queue; a value that is not a packet makes it panic. -/
def refine (relayer : AccAddress) (bz : Option Value) (ibcSeq : ℕ) : Except Failure Msg := do
  let packet ← unmarshalPacket bz
  pure (.MsgIBCReceive packet relayer ibcSeq)

/-! ### What the handlers write -/

namespace State

variable {s s' : State}

@[simp] theorem store_set (s : State) (key : String) (value : Value) :
    (s.set key value).store = Function.update s.store key (some value) := rfl

@[simp] theorem bank_set (s : State) (key : String) (value : Value) :
    (s.set key value).bank = s.bank := rfl

theorem uintAt_set (s : State) (key key' : String) (value : Value) :
    (s.set key value).uintAt key' =
      if key' = key then (match value with | .uint n => n | .packet _ => 0) else s.uintAt key' := by
  unfold uintAt
  rw [store_set, Function.update_apply]
  split_ifs
  · cases value <;> rfl
  · rfl

/-- A read that does not panic returns what the key holds, and leaves it so. -/
theorem getUint_eq_ok {key : String} {n : ℕ} (h : s.getUint key = .ok (n, s')) :
    n = s.uintAt key ∧ (∀ p, s.store key ≠ some (.packet p)) ∧ s' = s.set key (.uint n) := by
  unfold getUint at h
  unfold uintAt
  split at h
  · next hnone =>
    cases h
    exact ⟨by rw [hnone], fun p => by rw [hnone]; simp, rfl⟩
  · next bz hbz =>
    obtain ⟨res, hres, h⟩ := Except.bind_eq_ok.1 h
    cases Except.pure_eq_ok.1 h
    cases bz with
    | packet p => cases hres
    | uint m =>
      cases hres
      refine ⟨by rw [hbz], fun p => by rw [hbz]; simp, ?_⟩
      -- writing back what the key holds changes nothing
      cases s
      simp only [set, State.mk.injEq, and_true]
      exact (Function.update_eq_self_iff.2 hbz.symm).symm

theorem set_set_self (s : State) (key : String) (v v' : Value) :
    (s.set key v).set key v' = s.set key v' := by
  simp only [set, Function.update_idem]

theorem set_comm (s : State) {key key' : String} (h : key ≠ key') (v v' : Value) :
    (s.set key v).set key' v' = (s.set key' v').set key v := by
  simp only [set, Function.update_comm h]

/-- A successful transfer takes the coins from the source account, stores the
packet at the end of its queue and makes the queue one longer. -/
theorem handleIBCTransferMsg_eq_ok {packet : IBCPacket} (h : s.handleIBCTransferMsg packet = .ok s') :
    ∃ newCoins bank, s.bank.SubtractCoins packet.SrcAddr packet.Coins = .ok (newCoins, bank) ∧
      (∀ p, s.store (EgressLengthKey packet.DestChain) ≠ some (.packet p)) ∧
      s' = (({ s with bank } : State).set
          (EgressKey packet.DestChain (s.uintAt (EgressLengthKey packet.DestChain)))
          (.packet packet)).set
        (EgressLengthKey packet.DestChain) (.uint (s.uintAt (EgressLengthKey packet.DestChain) + 1)) := by
  unfold handleIBCTransferMsg PostIBCPacket getEgressLength at h
  obtain ⟨⟨newCoins, bank⟩, hsub, h⟩ := Except.bind_eq_ok.1 h
  rw [Except.mapError_eq_ok] at hsub
  obtain ⟨⟨index, s₁⟩, hget, h⟩ := Except.bind_eq_ok.1 h
  cases Except.pure_eq_ok.1 h
  obtain ⟨rfl, hnot, rfl⟩ := getUint_eq_ok hget
  refine ⟨newCoins, bank, hsub, hnot, ?_⟩
  -- the zero written by the read is overwritten by the new length
  rw [set_comm _ (EgressKey_ne_EgressLengthKey_self _ _).symm, set_set_self]
  rfl

/-- A successful receive was at the sequence expected from the packet's source
chain: it credits the coins and moves that sequence on by one. -/
theorem handleIBCReceiveMsg_eq_ok {packet : IBCPacket} {sequence : ℕ}
    (h : s.handleIBCReceiveMsg packet sequence = .ok s') :
    sequence = s.uintAt (IngressSequenceKey packet.SrcChain) ∧
      ∃ newCoins bank, s.bank.AddCoins packet.DestAddr packet.Coins = .ok (newCoins, bank) ∧
        s' = ({ s with bank } : State).set (IngressSequenceKey packet.SrcChain)
          (.uint (sequence + 1)) := by
  unfold handleIBCReceiveMsg GetIngressSequence at h
  obtain ⟨⟨seq, s₁⟩, hget, h⟩ := Except.bind_eq_ok.1 h
  obtain ⟨rfl, -, rfl⟩ := getUint_eq_ok hget
  dsimp only at h
  by_cases hseq : sequence = s.uintAt (IngressSequenceKey packet.SrcChain)
  · rw [if_neg (not_not.2 hseq)] at h
    obtain ⟨⟨newCoins, bank⟩, hadd, h⟩ := Except.bind_eq_ok.1 h
    rw [Except.mapError_eq_ok] at hadd
    cases Except.pure_eq_ok.1 h
    refine ⟨hseq, newCoins, bank, hadd, ?_⟩
    -- the zero written by the read is overwritten by the next sequence
    simp only [SetIngressSequence, set, Function.update_idem, hseq]
  · rw [if_pos hseq] at h
    exact absurd h Except.error_bind_ne_ok

end State

end Ibc

end ColorSdk
