import ColorSdk.Ibc.Channel
import Mathlib

/-!
# The IBC transfer protocol across chains

A world of chains, each with its IBC store and its bank, runs two kinds of
action in any interleaving: a transfer delivered on a chain, and a relayer
posting to one chain the packet it read at an index of another chain's queue
to it (`relayCommander.loop`, with `refine`).  Each action that passes may
credit a packet; the run logs the credits in order.

The receiving chain checks a packet's sequence against the sequence it expects
from the source chain the packet *names*, while the relayer numbers the packets
by their index in the queue it *read*.  When every transfer names its own chain
as its source, the two agree, and the protocol is correct:

* the queues and sequences keep their invariant (`Inv`) through every run;
* **value is conserved**: what the accounts hold on every chain, plus what the
  packets still in flight carry, never changes (`supply_run`);
* **every packet is credited once, in order**: the credits of the channel from
  a chain to another are the indices of its queue, consecutively
  (`relay_exactly_once`).

Whatever the actions, the credits on a chain of the packets naming one source
are consecutive in that source's sequence (`credits_in_order`).  A transfer
that names another chain as its source, once relayed, therefore takes that
chain's next sequence, and the packet that chain queued under it is never
credited (`spoofed_source_skips_packet`).

## Main definitions

* `Action`, `Credit`, `System.step`, `System.run` — the world and its runs.
* `System.received`, `System.sent`, `System.queued` — the channels of the world.
* `Action.Honest`, `System.Inv`, `System.supply` — the honest world, its
  invariant and its value.

## Main results

* `credits_in_order` — whatever the actions, credits follow the sequences of
  the source they name.
* `spoofed_source_skips_packet` — a packet naming another source takes that
  source's sequence, and the source's own packet is lost.
* `System.Inv.step`, `System.Inv.run` — the invariant of the honest world.
* `System.supply_run` — value is conserved through honest runs.
* `System.relay_exactly_once` — every packet of the honest world is credited
  once, in order.

## References

* src/x/ibc/handler.go, src/x/ibc/mapper.go, src/x/ibc/client/cli/relay.go
-/

namespace ColorSdk
namespace Ibc

open Bank (AccAddress)

/-! ### The world and its runs -/

/-- The chains of the world, by their chain id. -/
abbrev System := String → State

/-- What can happen next: a transfer delivered on a chain, or a relayer posting
to one chain the packet it read at an index of another chain's queue to it. -/
inductive Action
  | transfer (chain : String) (packet : IBCPacket)
  | relay (relayer : AccAddress) (fromChain toChain : String) (index : ℕ)
  deriving DecidableEq, Repr

/-- A packet credited on `toChain`, read at `index` of the queue of
`fromChain`. -/
structure Credit where
  fromChain : String
  toChain : String
  index : ℕ
  packet : IBCPacket
  deriving DecidableEq, Repr

/-- The sequence at which a credit on `t` of a packet naming `c` as its source
was accepted. -/
def Credit.named (c t : String) (cr : Credit) : Option ℕ :=
  if cr.packet.SrcChain = c ∧ cr.toChain = t then some cr.index else none

/-- The index in the queue from `f` to `t` of a credit of that channel. -/
def Credit.on (f t : String) (cr : Credit) : Option ℕ :=
  if cr.fromChain = f ∧ cr.toChain = t then some cr.index else none

/-- The packet a message carries. -/
def Msg.packet : Msg → IBCPacket
  | .MsgIBCTransfer packet => packet
  | .MsgIBCReceive packet _ _ => packet

namespace System

/-- One action: the world after it, and what it credited.  A transaction that
fails leaves its chain as it was, and a relayer whose read does not decode
panics and posts nothing. -/
def step (sys : System) : Action → System × Option Credit
  | .transfer chain packet =>
    match (sys chain).deliver (.MsgIBCTransfer packet) with
    | .ok s => (Function.update sys chain s, none)
    | .error _ => (sys, none)
  | .relay relayer fromChain toChain index =>
    match refine relayer ((sys fromChain).store (EgressKey toChain index)) index with
    | .error _ => (sys, none)
    | .ok msg =>
      match (sys toChain).deliver msg with
      | .ok s => (Function.update sys toChain s, some ⟨fromChain, toChain, index, msg.packet⟩)
      | .error _ => (sys, none)

/-- A run: the world after the actions, and the credits, in order. -/
def run : System → List Action → System × List Credit := LoggedRun.run step

/-- The sequence `d` expects next from `c`. -/
def received (sys : System) (c d : String) : ℕ := (sys d).ingress c

/-- The length of `c`'s queue to `d`. -/
def sent (sys : System) (c d : String) : ℕ := (sys c).egressLength d

/-- The packet at index `i` of `c`'s queue to `d`. -/
def queued (sys : System) (c d : String) (i : ℕ) : Option IBCPacket := (sys c).egressPacket d i

theorem refine_eq_ok {relayer : AccAddress} {bz : Option Value} {ibcSeq : ℕ} {msg : Msg} :
    refine relayer bz ibcSeq = .ok msg ↔ ∃ p, bz = some (.packet p) ∧ msg = .MsgIBCReceive p relayer ibcSeq := by
  unfold refine
  rcases bz with _ | _ | _ <;>
    simp [unmarshalPacket, bind, Except.bind, pure, Except.pure, eq_comm]

theorem queued_eq_some {sys : System} {c d : String} {i : ℕ} {p : IBCPacket} :
    sys.queued c d i = some p ↔ (sys c).store (EgressKey d i) = some (.packet p) := by
  unfold queued State.egressPacket
  split <;> simp_all

/-- An action leaves the world, delivers a transfer, or relays a packet that
was queued at the index read. -/
theorem step_cases (sys : System) (a : Action) :
    sys.step a = (sys, none) ∨
      (∃ c p s, a = .transfer c p ∧ (sys c).deliver (.MsgIBCTransfer p) = .ok s ∧
        sys.step a = (Function.update sys c s, none)) ∨
      (∃ r f t i p s, a = .relay r f t i ∧ sys.queued f t i = some p ∧
        (sys t).deliver (.MsgIBCReceive p r i) = .ok s ∧
        sys.step a = (Function.update sys t s, some ⟨f, t, i, p⟩)) := by
  cases a with
  | transfer c p =>
    simp only [step]
    split
    · next s h => exact .inr (.inl ⟨c, p, s, rfl, h, rfl⟩)
    · exact .inl rfl
  | relay r f t i =>
    simp only [step]
    split
    · exact .inl rfl
    · next msg hmsg =>
      obtain ⟨p, hp, rfl⟩ := refine_eq_ok.1 hmsg
      split
      · next s h => exact .inr (.inr ⟨r, f, t, i, p, s, rfl, queued_eq_some.2 hp, h, rfl⟩)
      · exact .inl rfl

/-! ### What an action does to the channels -/

section Channels

variable {sys : System} {s : State} {p : IBCPacket}

/-- A transfer leaves every sequence expected. -/
theorem received_transfer {c : String} (h : (sys c).deliver (.MsgIBCTransfer p) = .ok s) :
    received (Function.update sys c s) = sys.received := by
  obtain ⟨-, newCoins, bank, -, rfl⟩ := State.deliver_transfer_eq_ok h
  funext x y
  simp only [received, Function.update_apply]
  split_ifs with hy
  · subst hy
    simp
  · rfl

/-- A transfer makes its queue one longer, and no other queue of a chain
without `/` in its name. -/
theorem sent_transfer {c : String} (h : (sys c).deliver (.MsgIBCTransfer p) = .ok s) (x y : String)
    (hy : '/' ∉ y.toList) :
    sent (Function.update sys c s) x y =
      if x = c ∧ y = p.DestChain then sys.sent c y + 1 else sys.sent x y := by
  obtain ⟨-, newCoins, bank, -, rfl⟩ := State.deliver_transfer_eq_ok h
  simp only [sent, Function.update_apply]
  by_cases hx : x = c
  · subst hx
    rw [if_pos rfl, State.egressLength_set_EgressLengthKey, State.egressLength_set_EgressKey hy]
    by_cases hyd : y = p.DestChain
    · rw [if_pos hyd, if_pos ⟨rfl, hyd⟩, hyd]
    · rw [if_neg hyd, if_neg fun h => hyd h.2]
      rfl
  · rw [if_neg hx, if_neg fun h => hx h.1]

/-- A transfer puts its packet at the end of its queue and leaves every other
index of every queue. -/
theorem queued_transfer {c : String} (h : (sys c).deliver (.MsgIBCTransfer p) = .ok s)
    (hd : '/' ∉ p.DestChain.toList) (x y : String) (j : ℕ) :
    queued (Function.update sys c s) x y j =
      if x = c ∧ y = p.DestChain ∧ j = sys.sent c p.DestChain then some p else sys.queued x y j := by
  obtain ⟨-, newCoins, bank, -, rfl⟩ := State.deliver_transfer_eq_ok h
  simp only [queued, Function.update_apply]
  by_cases hx : x = c
  · subst hx
    rw [if_pos rfl, State.egressPacket_set_EgressLengthKey hd, State.egressPacket_set_EgressKey,
      State.egressPacket_with_bank]
    simp only [true_and]
    rfl
  · rw [if_neg hx, if_neg fun h => hx h.1]

/-- A relay moves on the sequence its chain expects from the source its packet
names, which was at the index read. -/
theorem received_relay {t : String} {r : AccAddress} {i : ℕ}
    (h : (sys t).deliver (.MsgIBCReceive p r i) = .ok s) (x y : String) :
    i = sys.received p.SrcChain t ∧
      received (Function.update sys t s) x y =
        if x = p.SrcChain ∧ y = t then i + 1 else sys.received x y := by
  obtain ⟨-, hseq, newCoins, bank, -, rfl⟩ := State.deliver_receive_eq_ok h
  refine ⟨hseq, ?_⟩
  simp only [received, Function.update_apply]
  by_cases hy : y = t
  · subst hy
    rw [if_pos rfl, State.ingress_set_IngressSequenceKey, State.ingress_with_bank]
    by_cases hxs : x = p.SrcChain
    · rw [if_pos hxs, if_pos ⟨hxs, rfl⟩]
    · rw [if_neg hxs, if_neg fun h => hxs h.1]
  · rw [if_neg hy, if_neg fun h => hy h.2]

/-- A relay leaves every queue's length. -/
theorem sent_relay {t : String} {r : AccAddress} {i : ℕ}
    (h : (sys t).deliver (.MsgIBCReceive p r i) = .ok s) :
    sent (Function.update sys t s) = sys.sent := by
  obtain ⟨-, -, newCoins, bank, -, rfl⟩ := State.deliver_receive_eq_ok h
  funext x y
  simp only [sent, Function.update_apply]
  split_ifs with hx
  · subst hx
    simp
  · rfl

/-- A relay leaves every queue's packets. -/
theorem queued_relay {t : String} {r : AccAddress} {i : ℕ}
    (h : (sys t).deliver (.MsgIBCReceive p r i) = .ok s) :
    queued (Function.update sys t s) = sys.queued := by
  obtain ⟨-, -, newCoins, bank, -, rfl⟩ := State.deliver_receive_eq_ok h
  funext x y j
  simp only [queued, Function.update_apply]
  split_ifs with hx
  · subst hx
    simp
  · rfl

end Channels

/-! ### Whatever the actions: credits follow the sequences of the source named -/

/-- One action credits on `t` a packet naming `c` exactly when it moves on the
sequence `t` expects from `c`, at the sequence it was at. -/
theorem step_named (sys : System) (a : Action) (c t : String) :
    ((sys.step a).2.bind (Credit.named c t) = some (sys.received c t) ∧
        (sys.step a).1.received c t = sys.received c t + 1) ∨
      ((sys.step a).2.bind (Credit.named c t) = none ∧
        (sys.step a).1.received c t = sys.received c t) := by
  rcases step_cases sys a with h | ⟨c', p, s, -, hs, h⟩ | ⟨r, f, t', i, p, s, -, -, hs, h⟩
  · rw [h]
    exact .inr ⟨rfl, rfl⟩
  · rw [h, received_transfer hs]
    exact .inr ⟨rfl, rfl⟩
  · rw [h]
    obtain ⟨hi, hrec⟩ := received_relay hs c t
    simp only [Option.bind_some, Credit.named, hrec]
    by_cases hct : p.SrcChain = c ∧ t' = t
    · obtain ⟨rfl, rfl⟩ := hct
      exact .inl ⟨by rw [if_pos ⟨rfl, rfl⟩, hi], by rw [if_pos ⟨rfl, rfl⟩, hi]⟩
    · exact .inr ⟨if_neg hct, if_neg fun h => hct ⟨h.1.symm, h.2.symm⟩⟩

end System

/-- **Credits follow the sequences of the source they name.**  Whatever the
actions, while `t`'s `uint64` sequence for `c` has room below `2⁶⁴` for one
credit per action, the packets naming `c` as their source that are credited on
`t` were accepted at consecutive sequences, each once, from the one `t`
expected from `c` at the start to the one before it expects at the end, which
stays below `2⁶⁴`. -/
theorem credits_in_order (sys : System) (acts : List Action) (c t : String)
    (hroom : sys.received c t + acts.length < 2 ^ 64) :
    (sys.run acts).1.received c t < 2 ^ 64 ∧
      (sys.run acts).2.filterMap (Credit.named c t) =
        List.range' (sys.received c t) ((sys.run acts).1.received c t - sys.received c t) := by
  have hle := LoggedRun.counter_run_le System.step (P := fun _ => True) (H := fun _ => True)
    (fun sys : System => sys.received c t) (Credit.named c t) (fun _ _ _ _ => trivial)
    (fun sys a _ _ => System.step_named sys a c t) (s := sys) (l := acts) trivial fun _ _ => trivial
  exact ⟨lt_of_le_of_lt hle hroom, LoggedRun.filterMap_run_log System.step (P := fun _ => True)
    (H := fun _ => True) (fun sys : System => sys.received c t) (Credit.named c t)
    (fun _ _ _ _ => trivial) (fun sys a _ _ => System.step_named sys a c t) trivial fun _ _ => trivial⟩

/-- Three chains `A`, `B` and `C` with empty stores, where account `[1]` holds
5 `aaa` on `A` and account `[3]` holds 5 `aaa` on `C`. -/
def spoofWorld : System := fun c =>
  ⟨fun _ => none, ⟨fun a => if (c = "A" ∧ a = [1]) ∨ (c = "C" ∧ a = [3]) then [⟨"aaa", 5⟩] else [], true⟩⟩

/-- A packet sent from `A` that names `C` as its source. -/
def spoofPacket : IBCPacket := ⟨[1], [2], [⟨"aaa", 5⟩], "C", "B"⟩

/-- `C`'s own packet to `B`. -/
def honestPacket : IBCPacket := ⟨[3], [2], [⟨"aaa", 5⟩], "C", "B"⟩

/-- The transfer of the spoofed packet on `A`, its relay to `B`, and `C`'s own
transfer to `B`. -/
def spoofActions : List Action :=
  [.transfer "A" spoofPacket, .relay [9] "A" "B" 0, .transfer "C" honestPacket]

/-- **A packet naming another source takes that source's sequence.**  The
packet sent from `A` naming `C` is credited on `B` at `C`'s sequence 0.  `C`'s
own packet, queued at index 0 of its queue to `B` with its coins taken, is then
never credited on `B`, whatever happens next. -/
theorem spoofed_source_skips_packet :
    (spoofWorld.run spoofActions).2 = [⟨"A", "B", 0, spoofPacket⟩] ∧
      (spoofWorld.run spoofActions).1.queued "C" "B" 0 = some honestPacket ∧
      ∀ acts, ∀ cr ∈ ((spoofWorld.run spoofActions).1.run acts).2,
        cr.packet.SrcChain = "C" → cr.toChain = "B" → cr.index ≠ 0 := by
  refine ⟨by decide +kernel, by decide +kernel, fun acts cr hcr hsrc hto hidx => ?_⟩
  have hseq : (spoofWorld.run spoofActions).1.received "C" "B" = 1 := by decide +kernel
  -- the credits naming `C` on `B` are at the sequences from 1 on
  have hlaw := LoggedRun.filterMap_run_log System.step (P := fun _ => True)
    (H := fun _ => True) (fun sys : System => sys.received "C" "B") (Credit.named "C" "B")
    (fun _ _ _ _ => trivial) (fun sys a _ _ => System.step_named sys a "C" "B")
    (s := (spoofWorld.run spoofActions).1) (l := acts) trivial fun _ _ => trivial
  have hmem : 0 ∈ (LoggedRun.run System.step (spoofWorld.run spoofActions).1 acts).2.filterMap
      (Credit.named "C" "B") :=
    List.mem_filterMap.2 ⟨cr, hcr, by simp [Credit.named, hsrc, hto, hidx]⟩
  rw [hlaw, hseq, List.mem_range'] at hmem
  omega

theorem credits_in_order_spoof :
    spoofWorld.received "C" "B" + spoofActions.length < 2 ^ 64 ∧
      (spoofWorld.run spoofActions).1.received "C" "B" < 2 ^ 64 ∧
      (spoofWorld.run spoofActions).2.filterMap (Credit.named "C" "B") =
        List.range' (spoofWorld.received "C" "B")
          ((spoofWorld.run spoofActions).1.received "C" "B" - spoofWorld.received "C" "B") :=
  ⟨by decide +kernel, credits_in_order _ _ _ _ (by decide +kernel)⟩

/-! ### The honest world -/

section Honest

variable (chains : Finset String) (S : Finset AccAddress)

/-- An action of the honest world: a transfer between two of the chains, from
and to accounts of `S`, that names the chain it is delivered on as its source;
or a relay, by anyone, between two of the chains. -/
def Action.Honest : Action → Prop
  | .transfer c p => c ∈ chains ∧ p.SrcChain = c ∧ p.DestChain ∈ chains ∧ p.SrcAddr ∈ S ∧ p.DestAddr ∈ S
  | .relay _ f t _ => f ∈ chains ∧ t ∈ chains

instance Action.instDecidableHonest (a : Action) : Decidable (a.Honest chains S) := by
  cases a <;> unfold Action.Honest <;> infer_instance

theorem IBCPacket.SrcChain_ne_DestChain {p : IBCPacket} (h : p.ValidateBasic = none) :
    p.SrcChain ≠ p.DestChain := by
  intro heq
  simp [IBCPacket.ValidateBasic, heq] at h

namespace System

/-- The invariant of the honest world, for the queues between two of the
chains: below its length a queue holds packets from its chain to its
destination, for accounts of `S`; past it, nothing; and its destination expects
a sequence no further than its length. -/
structure Inv (sys : System) : Prop where
  queued_lt : ∀ c ∈ chains, ∀ d ∈ chains, ∀ i < sys.sent c d, ∃ p, sys.queued c d i = some p ∧
    p.SrcChain = c ∧ p.DestChain = d ∧ c ≠ d ∧ p.DestAddr ∈ S
  queued_ge : ∀ c ∈ chains, ∀ d ∈ chains, ∀ i, sys.sent c d ≤ i → sys.queued c d i = none
  received_le : ∀ c ∈ chains, ∀ d ∈ chains, sys.received c d ≤ sys.sent c d

/-! ### The value of the world -/

variable (denom : String)

/-- What a packet, if there is one, carries of `denom`. -/
def packetAmount : Option IBCPacket → ℤ
  | some p => p.Coins.amountAt denom
  | none => 0

/-- What the accounts of `S` hold of `denom` in a bank. -/
def heldBy (bank : Bank.State) : ℤ := ∑ a ∈ S, (bank.getCoins a).amountAt denom

/-- What the packets from `c` to `d` that `d` has not accepted yet carry of
`denom`. -/
def inFlight (sys : System) (c d : String) : ℤ :=
  ∑ i ∈ Finset.Ico (sys.received c d) (sys.sent c d), packetAmount denom (sys.queued c d i)

/-- What the world holds of `denom`: in the accounts of `S` on each of the
chains, and in flight between each two of them. -/
def supply (sys : System) : ℤ :=
  ∑ c ∈ chains, heldBy S denom (sys c).bank + ∑ c ∈ chains, ∑ d ∈ chains, inFlight denom sys c d

variable {chains S denom} {sys : System}

theorem Inv.lt_sent (h : Inv chains S sys) {c d : String} (hc : c ∈ chains) (hd : d ∈ chains)
    {i : ℕ} {p : IBCPacket} (hq : sys.queued c d i = some p) : i < sys.sent c d := by
  by_contra hge
  rw [h.queued_ge c hc d hd i (not_lt.1 hge)] at hq
  cases hq

/-- A packet queued between two of the chains goes from its chain to its
destination, for an account of `S`. -/
theorem Inv.of_queued (h : Inv chains S sys) {c d : String} (hc : c ∈ chains) (hd : d ∈ chains)
    {i : ℕ} {p : IBCPacket} (hq : sys.queued c d i = some p) :
    p.SrcChain = c ∧ p.DestChain = d ∧ c ≠ d ∧ p.DestAddr ∈ S := by
  obtain ⟨p', hq', hp'⟩ := h.queued_lt c hc d hd i (h.lt_sent hc hd hq)
  rw [hq] at hq'
  cases hq'
  exact hp'

/-- A world whose IBC stores are empty, as at genesis, keeps the invariant. -/
theorem Inv.empty (hsys : ∀ c, (sys c).store = fun _ => none) : Inv chains S sys := by
  have hsent : ∀ c d, sys.sent c d = 0 := fun c d => by
    simp [sent, State.egressLength, State.uintAt, hsys]
  refine ⟨fun c _ d _ i hi => ?_, fun c _ d _ i _ => ?_, fun c _ d _ => ?_⟩
  · rw [hsent] at hi
    cases hi
  · simp [queued, State.egressPacket, hsys]
  · simp [received, State.ingress, State.uintAt, hsys]


theorem heldBy_SubtractCoins {b b' : Bank.State} {addr : AccAddress} {amt newCoins : Types.Coins}
    (h : b.SubtractCoins addr amt = .ok (newCoins, b')) (ha : addr ∈ S) :
    heldBy S denom b' = heldBy S denom b - amt.amountAt denom := by
  simp only [heldBy, Bank.State.subtractCoins_amountAt (Bank.State.SubtractCoins_eq_ok h),
    Finset.sum_sub_distrib, Finset.sum_ite_eq', if_pos ha]

theorem heldBy_AddCoins {b b' : Bank.State} {addr : AccAddress} {amt newCoins : Types.Coins}
    (h : b.AddCoins addr amt = .ok (newCoins, b')) (ha : addr ∈ S) :
    heldBy S denom b' = heldBy S denom b + amt.amountAt denom := by
  simp only [heldBy, Bank.State.addCoins_amountAt (Bank.State.AddCoins_eq_ok h),
    Finset.sum_add_distrib, Finset.sum_ite_eq', if_pos ha]

/-- Changing one of the chains changes a sum over the chains by what changes
in that chain's term. -/
theorem sum_update (F : State → ℤ) {c : String} (hc : c ∈ chains) (sys : System) (s : State) :
    ∑ x ∈ chains, F (Function.update sys c s x) = ∑ x ∈ chains, F (sys x) + (F s - F (sys c)) := by
  rw [← Finset.add_sum_erase _ _ hc, ← Finset.add_sum_erase _ _ hc, Function.update_self,
    Finset.sum_congr rfl fun x hx => by rw [Function.update_of_ne (Finset.ne_of_mem_erase hx)]]
  ring

theorem sum_sum_ite_and {c d : String} (hc : c ∈ chains) (hd : d ∈ chains) (v : ℤ) :
    ∑ x ∈ chains, ∑ y ∈ chains, (if x = c ∧ y = d then v else 0) = v := by
  simp [ite_and, Finset.sum_ite_eq', hc, hd]

/-- A relay takes its packet's coins out of flight on its channel. -/
theorem inFlight_relay (h : Inv chains S sys) {r : AccAddress} {f t : String} {i : ℕ}
    {p : IBCPacket} {s : State} (hf : f ∈ chains) (ht : t ∈ chains) (hq : sys.queued f t i = some p)
    (hdel : (sys t).deliver (.MsgIBCReceive p r i) = .ok s) (x y : String) :
    inFlight denom (Function.update sys t s) x y =
      inFlight denom sys x y - if x = f ∧ y = t then p.Coins.amountAt denom else 0 := by
  obtain ⟨hsrc, -, -, -⟩ := h.of_queued hf ht hq
  obtain ⟨hi, hrec⟩ := received_relay hdel x y
  rw [hsrc] at hi hrec
  unfold inFlight
  rw [hrec, sent_relay hdel, queued_relay hdel]
  by_cases hxy : x = f ∧ y = t
  · obtain ⟨rfl, rfl⟩ := hxy
    have hlt := h.lt_sent hf ht hq
    rw [if_pos ⟨rfl, rfl⟩, if_pos ⟨rfl, rfl⟩, ← hi,
      Finset.sum_eq_sum_Ico_succ_bot hlt (fun k => packetAmount denom (sys.queued x y k)), hq]
    simp only [packetAmount]
    ring
  · rw [if_neg hxy, if_neg hxy, sub_zero]

/-- In the honest world a credit names as its source the chain whose queue it
was read from. -/
theorem bind_on_step (h : Inv chains S sys) {a : Action} (ha : a.Honest chains S) (f t : String) :
    (sys.step a).2.bind (Credit.on f t) = (sys.step a).2.bind (Credit.named f t) := by
  rcases step_cases sys a with hs | ⟨c, p, s, rfl, -, hs⟩ | ⟨r, f', t', i, p, s, rfl, hq, -, hs⟩
  · rw [hs]
    rfl
  · rw [hs]
    rfl
  · obtain ⟨hf, ht⟩ := ha
    obtain ⟨hsrc, -⟩ := h.of_queued hf ht hq
    rw [hs]
    simp only [Option.bind_some, Credit.on, Credit.named, hsrc]

section Step

variable (hchains : ∀ c ∈ chains, '/' ∉ c.toList)
include hchains

/-- **Every honest action keeps the invariant.** -/
theorem Inv.step (h : Inv chains S sys) {a : Action} (ha : a.Honest chains S) :
    Inv chains S (sys.step a).1 := by
  rcases step_cases sys a with hs | ⟨c, p, s, rfl, hdel, hs⟩ | ⟨r, f, t, i, p, s, rfl, hq, hdel, hs⟩
  · rw [hs]
    exact h
  · -- a transfer queues its packet at the end of its queue
    obtain ⟨hc, hsrc, hd, -, hdest⟩ := ha
    have hne : c ≠ p.DestChain :=
      hsrc ▸ IBCPacket.SrcChain_ne_DestChain (State.deliver_transfer_eq_ok hdel).1
    rw [hs]
    refine ⟨fun x hx y hy j hj => ?_, fun x hx y hy j hj => ?_, fun x hx y hy => ?_⟩
    · rw [sent_transfer hdel x y (hchains y hy)] at hj
      rw [queued_transfer hdel (hchains _ hd)]
      by_cases hxy : x = c ∧ y = p.DestChain
      · obtain ⟨rfl, rfl⟩ := hxy
        rw [if_pos ⟨rfl, rfl⟩] at hj
        by_cases hjL : j = sys.sent x p.DestChain
        · rw [if_pos ⟨rfl, rfl, hjL⟩]
          exact ⟨p, rfl, hsrc, rfl, hne, hdest⟩
        · rw [if_neg fun h => hjL h.2.2]
          exact h.queued_lt x hx _ hy j (by omega)
      · rw [if_neg fun h => hxy ⟨h.1, h.2.1⟩]
        rw [if_neg hxy] at hj
        exact h.queued_lt x hx y hy j hj
    · rw [sent_transfer hdel x y (hchains y hy)] at hj
      rw [queued_transfer hdel (hchains _ hd)]
      by_cases hxy : x = c ∧ y = p.DestChain
      · obtain ⟨rfl, rfl⟩ := hxy
        rw [if_pos ⟨rfl, rfl⟩] at hj
        rw [if_neg fun h => by omega]
        exact h.queued_ge x hx _ hy j (by omega)
      · rw [if_neg fun h => hxy ⟨h.1, h.2.1⟩]
        rw [if_neg hxy] at hj
        exact h.queued_ge x hx y hy j hj
    · have hle := h.received_le x hx y hy
      rw [received_transfer hdel, sent_transfer hdel x y (hchains y hy)]
      split_ifs with hxy
      · obtain ⟨rfl, -⟩ := hxy
        omega
      · exact hle
  · -- a relay moves on the sequence of the packet's own channel
    obtain ⟨hf, ht⟩ := ha
    obtain ⟨hsrc, -, -, -⟩ := h.of_queued hf ht hq
    have hlt := h.lt_sent hf ht hq
    rw [hs]
    refine ⟨?_, ?_, fun x hx y hy => ?_⟩
    · rw [sent_relay hdel, queued_relay hdel]
      exact h.queued_lt
    · rw [sent_relay hdel, queued_relay hdel]
      exact h.queued_ge
    · obtain ⟨hi, hrec⟩ := received_relay hdel x y
      rw [hrec, sent_relay hdel, hsrc]
      rw [hsrc] at hi
      split_ifs with hxy
      · obtain ⟨rfl, rfl⟩ := hxy
        omega
      · exact h.received_le x hx y hy

/-- A transfer puts its packet's coins in flight on its channel. -/
theorem inFlight_transfer (h : Inv chains S sys) {c : String} {p : IBCPacket} {s : State}
    (hdel : (sys c).deliver (.MsgIBCTransfer p) = .ok s) (hd : p.DestChain ∈ chains) {x y : String}
    (hx : x ∈ chains) (hy : y ∈ chains) :
    inFlight denom (Function.update sys c s) x y =
      inFlight denom sys x y + if x = c ∧ y = p.DestChain then p.Coins.amountAt denom else 0 := by
  unfold inFlight
  rw [received_transfer hdel, sent_transfer hdel x y (hchains y hy)]
  by_cases hxy : x = c ∧ y = p.DestChain
  · obtain ⟨rfl, rfl⟩ := hxy
    rw [if_pos ⟨rfl, rfl⟩, if_pos ⟨rfl, rfl⟩, Finset.sum_Ico_succ_top (h.received_le x hx _ hy)]
    congr 1
    · -- the packets already in flight stay where they were
      refine Finset.sum_congr rfl fun j hj => ?_
      rw [queued_transfer hdel (hchains _ hd), if_neg fun h => by simp [h.2.2] at hj]
    · rw [queued_transfer hdel (hchains _ hd), if_pos ⟨rfl, rfl, rfl⟩]
      rfl
  · rw [if_neg hxy, if_neg hxy, add_zero]
    refine Finset.sum_congr rfl fun j _ => ?_
    rw [queued_transfer hdel (hchains _ hd), if_neg fun h => hxy ⟨h.1, h.2.1⟩]

/-- **Every honest action keeps the value of the world.** -/
theorem supply_step (h : Inv chains S sys) {a : Action} (ha : a.Honest chains S) :
    supply chains S denom (sys.step a).1 = supply chains S denom sys := by
  rcases step_cases sys a with hs | ⟨c, p, s, rfl, hdel, hs⟩ | ⟨r, f, t, i, p, s, rfl, hq, hdel, hs⟩
  · rw [hs]
  · -- the coins leave the sender's account and go in flight
    obtain ⟨hc, -, hd, hsa, -⟩ := ha
    obtain ⟨-, newCoins, bank, hsub, rfl⟩ := State.deliver_transfer_eq_ok hdel
    rw [hs]
    unfold supply
    rw [sum_update (fun s => heldBy S denom s.bank) hc, State.bank_set, State.bank_set,
      heldBy_SubtractCoins hsub hsa,
      Finset.sum_congr rfl fun x hx => Finset.sum_congr rfl fun y hy => inFlight_transfer hchains h hdel hd hx hy]
    simp only [Finset.sum_add_distrib, sum_sum_ite_and hc hd]
    ring
  · -- the coins leave flight and reach the recipient's account
    obtain ⟨hf, ht⟩ := ha
    obtain ⟨-, -, -, hdest⟩ := h.of_queued hf ht hq
    obtain ⟨-, -, newCoins, bank, hadd, rfl⟩ := State.deliver_receive_eq_ok hdel
    rw [hs]
    unfold supply
    rw [sum_update (fun s => heldBy S denom s.bank) ht, State.bank_set,
      heldBy_AddCoins hadd hdest,
      Finset.sum_congr rfl fun x _ => Finset.sum_congr rfl fun y _ => inFlight_relay h hf ht hq hdel x y]
    simp only [Finset.sum_sub_distrib, sum_sum_ite_and hf ht]
    ring

/-- The invariant holds through every honest run. -/
theorem Inv.run (h : Inv chains S sys) {acts : List Action} (hacts : ∀ a ∈ acts, a.Honest chains S) :
    Inv chains S (sys.run acts).1 :=
  LoggedRun.run_invariant System.step (P := Inv chains S) (H := Action.Honest chains S)
    (fun _ _ h ha => h.step hchains ha) h hacts

/-- An action moves the queue to one of the chains on by at most one. -/
theorem sent_step_le (a : Action) (c : String) {d : String} (hd : d ∈ chains) :
    (sys.step a).1.sent c d ≤ sys.sent c d + 1 := by
  rcases step_cases sys a with hs | ⟨c', p, s, -, hdel, hs⟩ | ⟨r, f, t, i, p, s, -, -, hdel, hs⟩
  · rw [hs]
    exact Nat.le_succ _
  · rw [hs, sent_transfer hdel c d (hchains d hd)]
    -- the transfer queues one packet, at the end of the queue it names
    split_ifs with hcd
    · obtain ⟨rfl, -⟩ := hcd
      exact le_rfl
    · omega
  · rw [hs, sent_relay hdel]
    omega

/-- While every queue between two of the chains has room below `2⁶⁴` for one
packet per action, no queue of a run reaches the length `2⁶⁴` where Go's
`uint64` length would wrap. -/
theorem sent_run_lt {acts : List Action}
    (hroom : ∀ c ∈ chains, ∀ d ∈ chains, sys.sent c d + acts.length < 2 ^ 64) :
    ∀ c ∈ chains, ∀ d ∈ chains, (sys.run acts).1.sent c d < 2 ^ 64 := by
  intro c hc d hd
  have hle := LoggedRun.counter_run_le_length System.step (P := fun _ => True) (H := fun _ => True)
    (fun sys' : System => sys'.sent c d) (fun _ _ _ _ => trivial)
    (fun sys' a _ _ => sent_step_le hchains a c hd) (s := sys) (l := acts) trivial fun _ _ => trivial
  exact lt_of_le_of_lt hle (hroom c hc d hd)

/-- **Value is conserved.**  Through every run of the honest world that leaves
every queue between the chains room below `2⁶⁴`, no queue length wraps, and
what the accounts hold on the chains plus what is in flight between them stays
what it was. -/
theorem supply_run (h : Inv chains S sys) {acts : List Action} (hacts : ∀ a ∈ acts, a.Honest chains S)
    (hroom : ∀ c ∈ chains, ∀ d ∈ chains, sys.sent c d + acts.length < 2 ^ 64) :
    (∀ c ∈ chains, ∀ d ∈ chains, (sys.run acts).1.sent c d < 2 ^ 64) ∧
      supply chains S denom (sys.run acts).1 = supply chains S denom sys :=
  ⟨sent_run_lt hchains hroom, (LoggedRun.run_invariant System.step (H := Action.Honest chains S)
    (P := fun sys' => Inv chains S sys' ∧ supply chains S denom sys' = supply chains S denom sys)
    (fun _ _ h' ha => ⟨h'.1.step hchains ha, (supply_step hchains h'.1 ha).trans h'.2⟩) ⟨h, rfl⟩ hacts).2⟩

/-- A packet queued between two of the chains stays at its index. -/
theorem queued_step (h : Inv chains S sys) {a : Action} (ha : a.Honest chains S) {c d : String}
    (hc : c ∈ chains) (hd : d ∈ chains) {i : ℕ} {p : IBCPacket} (hq : sys.queued c d i = some p) :
    (sys.step a).1.queued c d i = some p := by
  rcases step_cases sys a with hs | ⟨c', p', s, rfl, hdel, hs⟩ | ⟨r, f, t, j, p', s, rfl, -, hdel, hs⟩
  · rw [hs]
    exact hq
  · -- the transfer writes past the end of every queue
    obtain ⟨-, -, hd', -, -⟩ := ha
    rw [hs, queued_transfer hdel (hchains _ hd'), if_neg]
    · exact hq
    · rintro ⟨rfl, rfl, rfl⟩
      exact lt_irrefl _ (h.lt_sent hc hd hq)
  · rw [hs, queued_relay hdel]
    exact hq

/-- **Every packet is credited once, in order.**  Through every run of the
honest world that leaves every queue between the chains room below `2⁶⁴`, no
queue length wraps, and the credits of the channel from `f` to `t` are at the
indices of `f`'s queue from the sequence `t` expected at the start to the one
before it expects at the end, consecutively, and each credited the packet
queued at its index. -/
theorem relay_exactly_once (h : Inv chains S sys) {acts : List Action}
    (hacts : ∀ a ∈ acts, a.Honest chains S)
    (hroom : ∀ c ∈ chains, ∀ d ∈ chains, sys.sent c d + acts.length < 2 ^ 64) (f t : String) :
    (∀ c ∈ chains, ∀ d ∈ chains, (sys.run acts).1.sent c d < 2 ^ 64) ∧
    (sys.run acts).2.filterMap (Credit.on f t) =
        List.range' (sys.received f t) ((sys.run acts).1.received f t - sys.received f t) ∧
      ∀ cr ∈ (sys.run acts).2, (sys.run acts).1.queued cr.fromChain cr.toChain cr.index = some cr.packet := by
  have hP : ∀ (sys' : System) a, Inv chains S sys' → a.Honest chains S → Inv chains S (sys'.step a).1 :=
    fun _ _ h ha => h.step hchains ha
  -- a credit is of a packet queued between two of the chains, and stays so
  have hlog : ∀ (sys' : System) a cr, Inv chains S sys' → a.Honest chains S → (sys'.step a).2 = some cr →
      cr.fromChain ∈ chains ∧ cr.toChain ∈ chains ∧
        (sys'.step a).1.queued cr.fromChain cr.toChain cr.index = some cr.packet := by
    intro sys' a cr _ ha hcr
    rcases step_cases sys' a with hs | ⟨c, p, s, -, -, hs⟩ | ⟨r, f', t', i, p, s, rfl, hq, hdel, hs⟩
    · rw [hs] at hcr
      cases hcr
    · rw [hs] at hcr
      cases hcr
    · rw [hs] at hcr ⊢
      cases hcr
      exact ⟨ha.1, ha.2, by rw [queued_relay hdel]; exact hq⟩
  have hkeep : ∀ (sys' : System) a (cr : Credit), Inv chains S sys' → a.Honest chains S →
      (cr.fromChain ∈ chains ∧ cr.toChain ∈ chains ∧ sys'.queued cr.fromChain cr.toChain cr.index = some cr.packet) →
      cr.fromChain ∈ chains ∧ cr.toChain ∈ chains ∧
        (sys'.step a).1.queued cr.fromChain cr.toChain cr.index = some cr.packet :=
    fun _ _ _ h' ha hq => ⟨hq.1, hq.2.1, queued_step hchains h' ha hq.1 hq.2.1 hq.2.2⟩
  refine ⟨sent_run_lt hchains hroom, LoggedRun.filterMap_run_log System.step
    (fun sys' : System => sys'.received f t)
    (Credit.on f t) hP (fun sys' a h' ha => ?_) h hacts, fun cr hcr => ?_⟩
  · rw [bind_on_step h' ha]
    exact step_named sys' a f t
  · exact (LoggedRun.mem_run_log System.step _ hP hlog hkeep h hacts cr hcr).2.2

end Step

/-- Two chains `A` and `B` with empty stores, where account `[1]` holds 5 `aaa`
on `A`. -/
def sampleWorld : System := fun c =>
  ⟨fun _ => none, ⟨fun a => if c = "A" ∧ a = [1] then [⟨"aaa", 5⟩] else [], true⟩⟩

/-- Account `[1]` of `A` sends 2 `aaa` to account `[2]` of `B`, and a relayer
posts the packet. -/
def sampleActions : List Action :=
  [.transfer "A" ⟨[1], [2], [⟨"aaa", 2⟩], "A", "B"⟩, .relay [9] "A" "B" 0]

theorem sampleWorld_honest :
    (∀ c ∈ ({"A", "B"} : Finset String), '/' ∉ c.toList) ∧
      Inv {"A", "B"} {[1], [2]} sampleWorld ∧ ∀ a ∈ sampleActions, a.Honest {"A", "B"} {[1], [2]} :=
  ⟨by decide +kernel, Inv.empty fun _ => rfl, by decide +kernel⟩

/-- The sample's queues have room for its actions. -/
theorem sampleWorld_room :
    ∀ c ∈ ({"A", "B"} : Finset String), ∀ d ∈ ({"A", "B"} : Finset String),
      sampleWorld.sent c d + sampleActions.length < 2 ^ 64 := by
  decide +kernel

theorem supply_run_sample :
    (∀ c ∈ ({"A", "B"} : Finset String), '/' ∉ c.toList) ∧
      Inv {"A", "B"} {[1], [2]} sampleWorld ∧ (∀ a ∈ sampleActions, a.Honest {"A", "B"} {[1], [2]}) ∧
      (∀ c ∈ ({"A", "B"} : Finset String), ∀ d ∈ ({"A", "B"} : Finset String),
        sampleWorld.sent c d + sampleActions.length < 2 ^ 64) ∧
      (∀ c ∈ ({"A", "B"} : Finset String), ∀ d ∈ ({"A", "B"} : Finset String),
        (sampleWorld.run sampleActions).1.sent c d < 2 ^ 64) ∧
      supply {"A", "B"} {[1], [2]} "aaa" (sampleWorld.run sampleActions).1 =
        supply {"A", "B"} {[1], [2]} "aaa" sampleWorld := by
  obtain ⟨hchains, hinv, hacts⟩ := sampleWorld_honest
  exact ⟨hchains, hinv, hacts, sampleWorld_room, supply_run hchains hinv hacts sampleWorld_room⟩

theorem relay_exactly_once_sample :
    (∀ c ∈ ({"A", "B"} : Finset String), '/' ∉ c.toList) ∧
      Inv {"A", "B"} {[1], [2]} sampleWorld ∧ (∀ a ∈ sampleActions, a.Honest {"A", "B"} {[1], [2]}) ∧
      (∀ c ∈ ({"A", "B"} : Finset String), ∀ d ∈ ({"A", "B"} : Finset String),
        sampleWorld.sent c d + sampleActions.length < 2 ^ 64) ∧
      (∀ c ∈ ({"A", "B"} : Finset String), ∀ d ∈ ({"A", "B"} : Finset String),
        (sampleWorld.run sampleActions).1.sent c d < 2 ^ 64) ∧
      (sampleWorld.run sampleActions).2.filterMap (Credit.on "A" "B") =
        List.range' (sampleWorld.received "A" "B")
          ((sampleWorld.run sampleActions).1.received "A" "B" - sampleWorld.received "A" "B") ∧
      ∀ cr ∈ (sampleWorld.run sampleActions).2,
        (sampleWorld.run sampleActions).1.queued cr.fromChain cr.toChain cr.index = some cr.packet := by
  obtain ⟨hchains, hinv, hacts⟩ := sampleWorld_honest
  exact ⟨hchains, hinv, hacts, sampleWorld_room,
    relay_exactly_once hchains hinv hacts sampleWorld_room "A" "B"⟩

end System

end Honest

end Ibc

end ColorSdk
