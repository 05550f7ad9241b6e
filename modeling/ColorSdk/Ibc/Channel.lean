import ColorSdk.Ibc.Handler
import ColorSdk.Lib.LoggedRun
import Mathlib

/-!
# IBC channels as a chain sees them

A chain's IBC store holds, for every other chain, the ends of two channels:
the queue of packets it sent there (`egressLength`, `egressPacket`) and the
sequence it expects next from there (`ingress`).  This module reads the store
through them, says what each message does to them, and proves the receiving
end's law: **whatever messages a chain is given, from any relayer, the packets
it accepts from one source carry the sequences the chain expected, one after
the other, each once.**

## Main definitions

* `State.ingress`, `State.egressLength`, `State.egressPacket` — the channels.
* `State.deliverStep`, `State.deliverAll` — a chain delivering messages one
  after the other.

## Main results

* `State.deliver_transfer_eq_ok`, `State.deliver_receive_eq_ok` — what a
  message that passes does.
* `State.deliver_ingress` — a message moves the sequence expected from one
  source by one, when it is a receive from that source at that sequence, and
  not at all otherwise.
* `receive_in_order` — the receiving end's law.
* `State.transfer_jams_colliding_queue` — after a transfer queued at index `i`
  of the queue to `d`, no transfer to the chain `d/i` passes.

## References

* src/x/ibc/handler.go, src/x/ibc/mapper.go
-/

namespace ColorSdk
namespace Ibc

open Bank (AccAddress)

namespace State

/-! ### The channels of a chain -/

/-- The sequence the chain expects next from `src`. -/
def ingress (s : State) (src : String) : ℕ := s.uintAt (IngressSequenceKey src)

/-- The length of the chain's queue to `dest`. -/
def egressLength (s : State) (dest : String) : ℕ := s.uintAt (EgressLengthKey dest)

/-- The packet at index `i` of the chain's queue to `dest`. -/
def egressPacket (s : State) (dest : String) (i : ℕ) : Option IBCPacket :=
  match s.store (EgressKey dest i) with
  | some (.packet p) => some p
  | _ => none

variable {s s' : State}

@[simp] theorem ingress_with_bank (s : State) (bank : Bank.State) :
    ({ s with bank } : State).ingress = s.ingress := rfl

@[simp] theorem egressLength_with_bank (s : State) (bank : Bank.State) :
    ({ s with bank } : State).egressLength = s.egressLength := rfl

@[simp] theorem egressPacket_with_bank (s : State) (bank : Bank.State) :
    ({ s with bank } : State).egressPacket = s.egressPacket := rfl

theorem uintAt_set_of_ne {key key' : String} (h : key' ≠ key) (value : Value) :
    (s.set key value).uintAt key' = s.uintAt key' := by
  rw [uintAt_set, if_neg h]

theorem egressPacket_set_of_ne {key dest : String} {i : ℕ} (h : EgressKey dest i ≠ key)
    (value : Value) : (s.set key value).egressPacket dest i = s.egressPacket dest i := by
  unfold egressPacket
  rw [store_set, Function.update_of_ne h]

/-! ### What the writes of the handlers do to the channels -/

@[simp] theorem ingress_set_EgressKey (s : State) (d : String) (i : ℕ) (value : Value) :
    (s.set (EgressKey d i) value).ingress = s.ingress :=
  funext fun src => uintAt_set_of_ne (IngressSequenceKey_ne_EgressKey src d i) value

@[simp] theorem ingress_set_EgressLengthKey (s : State) (d : String) (value : Value) :
    (s.set (EgressLengthKey d) value).ingress = s.ingress :=
  funext fun src => uintAt_set_of_ne (IngressSequenceKey_ne_EgressLengthKey src d) value

theorem ingress_set_IngressSequenceKey (s : State) (src : String) (n : ℕ) (x : String) :
    (s.set (IngressSequenceKey src) (.uint n)).ingress x = if x = src then n else s.ingress x := by
  unfold ingress
  rw [uintAt_set]
  by_cases hx : x = src
  · rw [if_pos (congrArg IngressSequenceKey hx), if_pos hx]
  · rw [if_neg fun h => hx (IngressSequenceKey_inj h), if_neg hx]

@[simp] theorem egressLength_set_IngressSequenceKey (s : State) (src : String) (value : Value) :
    (s.set (IngressSequenceKey src) value).egressLength = s.egressLength :=
  funext fun d => uintAt_set_of_ne (IngressSequenceKey_ne_EgressLengthKey src d).symm value

@[simp] theorem egressPacket_set_IngressSequenceKey (s : State) (src : String) (value : Value) :
    (s.set (IngressSequenceKey src) value).egressPacket = s.egressPacket :=
  funext fun d => funext fun i =>
    egressPacket_set_of_ne (IngressSequenceKey_ne_EgressKey src d i).symm value

/-- A packet written at an index does not touch the length of a queue whose
chain has no `/` in its name. -/
theorem egressLength_set_EgressKey {d' : String} (hd' : '/' ∉ d'.toList) (d : String) (i : ℕ)
    (value : Value) : (s.set (EgressKey d i) value).egressLength d' = s.egressLength d' :=
  uintAt_set_of_ne (EgressKey_ne_EgressLengthKey hd' d i).symm value

theorem egressLength_set_EgressLengthKey (s : State) (d : String) (n : ℕ) (d' : String) :
    (s.set (EgressLengthKey d) (.uint n)).egressLength d' =
      if d' = d then n else s.egressLength d' := by
  unfold egressLength
  rw [uintAt_set]
  by_cases hd : d' = d
  · rw [if_pos (congrArg EgressLengthKey hd), if_pos hd]
  · rw [if_neg fun h => hd (EgressLengthKey_inj h), if_neg hd]

theorem egressPacket_set_EgressKey (s : State) (d : String) (i : ℕ) (p : IBCPacket)
    (d' : String) (j : ℕ) :
    (s.set (EgressKey d i) (.packet p)).egressPacket d' j =
      if d' = d ∧ j = i then some p else s.egressPacket d' j := by
  by_cases h : d' = d ∧ j = i
  · obtain ⟨rfl, rfl⟩ := h
    simp [egressPacket]
  · rw [if_neg h]
    refine egressPacket_set_of_ne (fun heq => h ?_) _
    exact EgressKey_inj heq

/-- The length of a queue whose chain has no `/` in its name is written under
no packet's key. -/
theorem egressPacket_set_EgressLengthKey {d : String} (hd : '/' ∉ d.toList) (value : Value)
    (d' : String) (j : ℕ) : (s.set (EgressLengthKey d) value).egressPacket d' j = s.egressPacket d' j :=
  egressPacket_set_of_ne (EgressKey_ne_EgressLengthKey hd d' j) value

/-! ### What a message does -/

/-- A transfer that passes checked its packet, took its coins and queued it at
the end of the queue to its destination. -/
theorem deliver_transfer_eq_ok {p : IBCPacket} (h : s.deliver (.MsgIBCTransfer p) = .ok s') :
    p.ValidateBasic = none ∧ ∃ newCoins bank,
      s.bank.SubtractCoins p.SrcAddr p.Coins = .ok (newCoins, bank) ∧
      s' = (({ s with bank } : State).set (EgressKey p.DestChain (s.egressLength p.DestChain))
          (.packet p)).set (EgressLengthKey p.DestChain) (.uint (s.egressLength p.DestChain + 1)) := by
  unfold deliver at h
  cases hv : (Msg.MsgIBCTransfer p).ValidateBasic with
  | some err =>
    rw [hv] at h
    cases h
  | none =>
    rw [hv] at h
    obtain ⟨newCoins, bank, hsub, -, rfl⟩ := handleIBCTransferMsg_eq_ok h
    exact ⟨hv, newCoins, bank, hsub, rfl⟩

/-- A receive that passes checked its packet, was at the sequence expected from
the packet's source, credited its coins and moved that sequence on. -/
theorem deliver_receive_eq_ok {p : IBCPacket} {relayer : AccAddress} {sequence : ℕ}
    (h : s.deliver (.MsgIBCReceive p relayer sequence) = .ok s') :
    p.ValidateBasic = none ∧ sequence = s.ingress p.SrcChain ∧ ∃ newCoins bank,
      s.bank.AddCoins p.DestAddr p.Coins = .ok (newCoins, bank) ∧
      s' = ({ s with bank } : State).set (IngressSequenceKey p.SrcChain) (.uint (sequence + 1)) := by
  unfold deliver at h
  cases hv : (Msg.MsgIBCReceive p relayer sequence).ValidateBasic with
  | some err =>
    rw [hv] at h
    cases h
  | none =>
    rw [hv] at h
    obtain ⟨hseq, newCoins, bank, hadd, rfl⟩ := handleIBCReceiveMsg_eq_ok h
    exact ⟨hv, hseq, newCoins, bank, hadd, rfl⟩

end State

/-! ### The receiving end -/

/-- The sequence of a receive of a packet from `src`. -/
def Msg.receivedFrom (src : String) : Msg → Option ℕ
  | .MsgIBCReceive packet _ sequence => if packet.SrcChain = src then some sequence else none
  | .MsgIBCTransfer _ => none

namespace State

variable {s s' : State}

/-- A message that passes moves the sequence expected from `src` by one when it
is a receive from `src`, which was then at that sequence, and leaves it
otherwise. -/
theorem deliver_ingress {msg : Msg} (h : s.deliver msg = .ok s') (src : String) :
    (msg.receivedFrom src = some (s.ingress src) ∧ s'.ingress src = s.ingress src + 1) ∨
      (msg.receivedFrom src = none ∧ s'.ingress src = s.ingress src) := by
  cases msg with
  | MsgIBCTransfer p =>
    obtain ⟨-, newCoins, bank, -, rfl⟩ := deliver_transfer_eq_ok h
    exact .inr ⟨rfl, by simp⟩
  | MsgIBCReceive p relayer sequence =>
    obtain ⟨-, rfl, newCoins, bank, -, rfl⟩ := deliver_receive_eq_ok h
    rw [ingress_set_IngressSequenceKey]
    by_cases hsrc : src = p.SrcChain
    · subst hsrc
      exact .inl ⟨by simp [Msg.receivedFrom], by rw [if_pos rfl]⟩
    · refine .inr ⟨?_, by rw [if_neg hsrc, ingress_with_bank]⟩
      simp only [Msg.receivedFrom]
      rw [if_neg (Ne.symm hsrc)]

/-- A chain delivering one message: the chain after it, and the message when it
passed. -/
def deliverStep (s : State) (msg : Msg) : State × Option Msg :=
  match s.deliver msg with
  | .ok s' => (s', some msg)
  | .error _ => (s, none)

/-- A chain delivering messages one after the other: the chain after them, and
the messages that passed, in order. -/
def deliverAll : State → List Msg → State × List Msg := LoggedRun.run deliverStep

/-- One message moves the sequence expected from a source on by one when it is
the receive from that source at that sequence, and leaves it otherwise. -/
theorem deliverStep_ingress (s : State) (msg : Msg) (src : String) :
    ((s.deliverStep msg).2.bind (Msg.receivedFrom src) = some (s.ingress src) ∧
        (s.deliverStep msg).1.ingress src = s.ingress src + 1) ∨
      ((s.deliverStep msg).2.bind (Msg.receivedFrom src) = none ∧
        (s.deliverStep msg).1.ingress src = s.ingress src) := by
  unfold deliverStep
  split
  · next s' h => exact deliver_ingress h src
  · exact .inr ⟨rfl, rfl⟩

/-- A message whose delivery passes leads to the chain its step leads to. -/
theorem deliver_eq_deliverStep {s : State} {msg : Msg} (h : (s.deliver msg).isOk = true) :
    s.deliver msg = .ok (s.deliverStep msg).1 := by
  unfold deliverStep
  split
  · next s' hs => exact hs
  · next e he =>
    rw [he] at h
    cases h

/-- **A transfer jams the queue whose name extends its own.**  After a transfer
queued at index `i` of the queue to `d`, the key of the length of the queue to
`d/i` holds the packet, which does not decode as a length: every transfer to
`d/i` fails. -/
theorem transfer_jams_colliding_queue {s s' : State} {p q : IBCPacket}
    (h : s.deliver (.MsgIBCTransfer p) = .ok s')
    (hq : q.DestChain = p.DestChain ++ "/" ++ toString (s.egressLength p.DestChain)) :
    (s'.deliver (.MsgIBCTransfer q)).isOk = false := by
  obtain ⟨-, newCoins, bank, -, rfl⟩ := deliver_transfer_eq_ok h
  -- the length of the queue to `d/i` is stored under the key of the packet
  have hkey : EgressLengthKey q.DestChain = EgressKey p.DestChain (s.egressLength p.DestChain) := by
    rw [hq, EgressKey_eq_EgressLengthKey]
  cases hdel : (((({ s with bank } : State).set (EgressKey p.DestChain (s.egressLength p.DestChain))
      (.packet p)).set (EgressLengthKey p.DestChain) (.uint (s.egressLength p.DestChain + 1))).deliver
      (.MsgIBCTransfer q)) with
  | error e => rfl
  | ok s'' =>
    obtain ⟨-, -, -, hnot, -⟩ := handleIBCTransferMsg_eq_ok (by
      unfold deliver at hdel
      split at hdel
      · cases hdel
      · exact hdel)
    refine absurd ?_ (hnot p)
    rw [hkey, store_set, Function.update_of_ne (EgressKey_ne_EgressLengthKey_self _ _), store_set,
      Function.update_self]

/-- A chain whose account `[1]` holds 5 `aaa`, with an empty store. -/
def sampleChain : State :=
  ⟨fun _ => none, ⟨fun a => if a = [1] then [⟨"aaa", 5⟩] else [], true⟩⟩

/-- A transfer to `B` at index 0 jams the queue to `B/0`. -/
theorem transfer_jams_colliding_queue_B :
    (sampleChain.deliver (.MsgIBCTransfer ⟨[1], [2], [⟨"aaa", 2⟩], "A", "B"⟩)).isOk = true ∧
      "B/0" = "B" ++ "/" ++ toString (sampleChain.egressLength "B") ∧
      ((sampleChain.deliverStep (.MsgIBCTransfer ⟨[1], [2], [⟨"aaa", 2⟩], "A", "B"⟩)).1.deliver
        (.MsgIBCTransfer ⟨[1], [2], [⟨"aaa", 2⟩], "A", "B/0"⟩)).isOk = false := by
  have hok : (sampleChain.deliver (.MsgIBCTransfer ⟨[1], [2], [⟨"aaa", 2⟩], "A", "B"⟩)).isOk = true := by
    decide +kernel
  have hkey : "B/0" = "B" ++ "/" ++ toString (sampleChain.egressLength "B") := by decide +kernel
  exact ⟨hok, hkey, transfer_jams_colliding_queue (q := ⟨[1], [2], [⟨"aaa", 2⟩], "A", "B/0"⟩)
    (deliver_eq_deliverStep hok) hkey⟩

end State

end Ibc

end ColorSdk
