import ColorSdk.BaseApp.RunTx
import ColorSdk.Store.Types
import ColorSdk.Store.CacheKVRefinement
import Mathlib

/-!
# The gas-metered store

`gaskv.Store` is the store a context hands to a handler: every read, write,
presence test, deletion and iterator step charges the context's gas meter
before it reaches the parent store.  The meter is shared with the caller.  A
charge that runs past the meter's limit, or past the largest `uint64`, panics
and stops the call; the meter keeps what the charge made it.

The calls are programs of `EStateM Panic Store`, whose exceptions keep the
state as it was when they were raised, as Go's pointers to the meter and the
parent do.  Each call makes all its charges before it touches the parent, so
that its outcome is decided by the meter alone (`Charged`): when the charges
pass, the call does to the parent what the same operation does on a map, and
when one panics the parent is as it was.

An iterator charges the value of its current entry and a flat cost when it is
made on a valid position and on every `Next` from one.  A loop over the
iterator therefore pays for the first entry twice: once when the iterator is
made and once when it moves past it.

## Main definitions

* `GasConfig`, `KVGasConfig` — the costs.
* `Store.Get`, `Store.Set`, `Store.Has`, `Store.Delete`, `Store.iterator`,
  `gasIterator.consumeSeekGas`, `gasIterator.Next` — the calls.
* `apply`, `run` — operations of a client, and runs of them.
* `charges`, `cost` — the charges of one operation and the gas of a run, on the
  contents of the parent.

## Main results

* `apply_run` — every operation is its charges, then the operation on a map.
* `gasKV_run_ok` — a run that does not panic replies as the map does, leaves
  the map's contents in the parent and consumes exactly its cost.
* `gasKV_run_ok_iff` — it does not panic exactly when its cost fits in what
  the meter has left.
* `gasKV_run_panics` — a run that panics stops at the first operation that
  runs past the meter's budget, with the operations before it applied, nothing
  of it, and a panic that names one of its charges.
* `iterator_gas` — reading a range charges its first value twice.

## References

* src/store/gaskv/store.go, src/store/types/gas.go, src/types/context.go
-/

namespace ColorSdk

open BaseApp (GasMeter Panic MaxUint64)

/-! ### Charges on a meter -/

namespace BaseApp
namespace GasMeter

/-- The most gas a meter can have consumed after a charge that does not panic:
its limit, and the largest `uint64` for an infinite meter. -/
def budget (g : GasMeter) : ℕ :=
  match g.limit with
  | some limit => min limit MaxUint64
  | none => MaxUint64

/-- The gas of a list of charges. -/
def total (cs : List (ℕ × String)) : ℕ := (cs.map Prod.fst).sum

/-- The charges `cs` one after the other, until one panics. -/
def consumeAll (g : GasMeter) : List (ℕ × String) → GasMeter × Option Panic
  | [] => (g, none)
  | (amount, descriptor) :: cs =>
    match g.ConsumeGas amount descriptor with
    | (g, none) => consumeAll g cs
    | (g, some p) => (g, some p)

@[simp] theorem budget_consumed (g : GasMeter) (n : ℕ) :
    ({ g with consumed := n } : GasMeter).budget = g.budget := rfl

theorem budget_le (g : GasMeter) : g.budget ≤ MaxUint64 := by
  unfold budget
  split
  · exact min_le_right _ _
  · exact le_rfl

@[simp] theorem total_nil : total [] = 0 := rfl

@[simp] theorem total_cons (c : ℕ × String) (cs : List (ℕ × String)) :
    total (c :: cs) = c.1 + total cs := by
  simp [total]

@[simp] theorem total_append (cs cs' : List (ℕ × String)) :
    total (cs ++ cs') = total cs + total cs' := by
  simp [total]

/-- `ConsumeGas` in one piece: an overflow resets the meter to zero and panics;
otherwise the charge is added, and the meter panics if it is past its limit. -/
theorem ConsumeGas_eq (g : GasMeter) (amount : ℕ) (descriptor : String) :
    g.ConsumeGas amount descriptor =
      if MaxUint64 - g.consumed < amount then
        ({ g with consumed := 0 }, some (.ErrorGasOverflow descriptor))
      else
        ({ g with consumed := g.consumed + amount },
          if ({ g with consumed := g.consumed + amount } : GasMeter).IsPastLimit then
            some (.ErrorOutOfGas descriptor)
          else none) := by
  -- the limit decides which of the two checks can fire
  obtain ⟨_ | limit, consumed⟩ := g
  · simp only [ConsumeGas, addUint64Overflow, IsPastLimit]
    split_ifs <;> simp_all
  · simp only [ConsumeGas, addUint64Overflow, IsPastLimit, decide_eq_true_eq]
    split_ifs <;> simp_all

/-- Below the largest `uint64`, a meter is past its limit exactly when it is
past its budget. -/
theorem IsPastLimit_consumed (g : GasMeter) {n : ℕ} (hn : n ≤ MaxUint64) :
    ({ g with consumed := n } : GasMeter).IsPastLimit = decide (g.budget < n) := by
  obtain ⟨_ | limit, consumed⟩ := g
  · simp only [IsPastLimit, budget]
    exact (decide_eq_false (not_lt.2 hn)).symm
  · simp only [IsPastLimit, budget, min_lt_iff]
    exact decide_eq_decide.2 (by omega)

/-- A charge within the budget adds to the meter and does not panic. -/
theorem ConsumeGas_of_le {g : GasMeter} {amount : ℕ} (descriptor : String)
    (h : g.consumed + amount ≤ g.budget) :
    g.ConsumeGas amount descriptor = ({ g with consumed := g.consumed + amount }, none) := by
  have hmax : g.consumed + amount ≤ MaxUint64 := h.trans g.budget_le
  rw [ConsumeGas_eq, if_neg (by omega), IsPastLimit_consumed g hmax, decide_eq_false (not_lt.2 h)]
  rfl

/-- A charge that does not panic adds exactly its amount. -/
theorem ConsumeGas_eq_none {g g' : GasMeter} {amount : ℕ} {descriptor : String}
    (h : g.ConsumeGas amount descriptor = (g', none)) :
    g' = { g with consumed := g.consumed + amount } := by
  rw [ConsumeGas_eq] at h
  split_ifs at h
  · cases h
  · cases h
  · exact (Prod.mk.inj h).1.symm

/-- On a meter within its budget, a charge that does not panic stays within it. -/
theorem le_budget_of_ConsumeGas_eq_none {g g' : GasMeter} {amount : ℕ} {descriptor : String}
    (hb : g.consumed ≤ g.budget) (h : g.ConsumeGas amount descriptor = (g', none)) :
    g.consumed + amount ≤ g.budget := by
  have hmax := g.budget_le
  rw [ConsumeGas_eq] at h
  split_ifs at h with hover hpast
  · cases h
  · cases h
  · rw [IsPastLimit_consumed g (by omega), decide_eq_true_eq] at hpast
    omega

/-- A charge panics only for running out of gas or past the largest `uint64`,
and names its descriptor. -/
theorem ConsumeGas_eq_some {g g' : GasMeter} {amount : ℕ} {descriptor : String} {p : Panic}
    (h : g.ConsumeGas amount descriptor = (g', some p)) :
    p = .ErrorOutOfGas descriptor ∨ p = .ErrorGasOverflow descriptor := by
  rw [ConsumeGas_eq] at h
  split_ifs at h
  · exact .inr (Option.some.inj (Prod.mk.inj h).2).symm
  · exact .inl (Option.some.inj (Prod.mk.inj h).2).symm
  · cases h

theorem consumeAll_append (g : GasMeter) (cs cs' : List (ℕ × String)) :
    g.consumeAll (cs ++ cs') =
      match g.consumeAll cs with
      | (g, none) => g.consumeAll cs'
      | (g, some p) => (g, some p) := by
  induction cs generalizing g with
  | nil => rfl
  | cons c cs ih =>
    obtain ⟨amount, descriptor⟩ := c
    simp only [List.cons_append, consumeAll]
    rcases g.ConsumeGas amount descriptor with ⟨g₁, _ | p⟩
    · exact ih g₁
    · rfl

/-- Charges within the budget add up and do not panic. -/
theorem consumeAll_of_le {g : GasMeter} {cs : List (ℕ × String)}
    (h : g.consumed + total cs ≤ g.budget) :
    g.consumeAll cs = ({ g with consumed := g.consumed + total cs }, none) := by
  induction cs generalizing g with
  | nil => rfl
  | cons c cs ih =>
    obtain ⟨amount, descriptor⟩ := c
    rw [total_cons] at h
    have hfirst : g.consumed + amount ≤ g.budget := by omega
    simp only [consumeAll, ConsumeGas_of_le descriptor hfirst]
    rw [ih (by simpa [Nat.add_assoc] using h)]
    simp [Nat.add_assoc]

/-- Charges that do not panic add exactly their gas. -/
theorem consumeAll_eq_none {g g' : GasMeter} {cs : List (ℕ × String)}
    (h : g.consumeAll cs = (g', none)) :
    g' = { g with consumed := g.consumed + total cs } := by
  induction cs generalizing g with
  | nil => exact (Prod.mk.inj h).1.symm
  | cons c cs ih =>
    obtain ⟨amount, descriptor⟩ := c
    simp only [consumeAll] at h
    rcases hc : g.ConsumeGas amount descriptor with ⟨g₁, _ | p⟩
    · rw [hc] at h
      rw [ih h, ConsumeGas_eq_none hc, total_cons, Nat.add_assoc]
    · rw [hc] at h
      cases h

theorem le_budget_of_consumeAll_eq_none {g g' : GasMeter} {cs : List (ℕ × String)}
    (hb : g.consumed ≤ g.budget) (h : g.consumeAll cs = (g', none)) :
    g.consumed + total cs ≤ g.budget := by
  induction cs generalizing g with
  | nil => simpa using hb
  | cons c cs ih =>
    obtain ⟨amount, descriptor⟩ := c
    simp only [consumeAll] at h
    rcases hc : g.ConsumeGas amount descriptor with ⟨g₁, _ | p⟩
    · rw [hc] at h
      have hfirst := le_budget_of_ConsumeGas_eq_none hb hc
      rw [ConsumeGas_eq_none hc] at h
      have hrest := ih (by simpa using hfirst) h
      simp only [budget_consumed] at hrest
      rw [total_cons]
      omega
    · rw [hc] at h
      cases h

/-- Charges that panic ran past the budget, and the panic names one of them. -/
theorem consumeAll_eq_some {g g' : GasMeter} {cs : List (ℕ × String)} {p : Panic}
    (hb : g.consumed ≤ g.budget) (h : g.consumeAll cs = (g', some p)) :
    g.budget < g.consumed + total cs ∧
      ∃ d ∈ cs.map Prod.snd, p = .ErrorOutOfGas d ∨ p = .ErrorGasOverflow d := by
  have hover : g.budget < g.consumed + total cs := by
    refine Nat.lt_of_not_le fun hle => ?_
    rw [consumeAll_of_le hle] at h
    cases h
  refine ⟨hover, ?_⟩
  clear hover
  induction cs generalizing g with
  | nil => cases h
  | cons c cs ih =>
    obtain ⟨amount, descriptor⟩ := c
    simp only [consumeAll] at h
    rcases hc : g.ConsumeGas amount descriptor with ⟨g₁, _ | q⟩
    · rw [hc] at h
      have hfirst := le_budget_of_ConsumeGas_eq_none hb hc
      rw [ConsumeGas_eq_none hc] at h
      obtain ⟨d, hd, hp⟩ := ih (by simpa using hfirst) h
      exact ⟨d, List.mem_cons_of_mem _ hd, hp⟩
    · rw [hc] at h
      cases h
      exact ⟨descriptor, List.mem_cons_self, ConsumeGas_eq_some hc⟩

end GasMeter
end BaseApp

namespace GasKV

open CacheKV (Op Reply specRun)

/-! ### Costs -/

/-- `types.GasConfig`: the gas of each operation on a store. -/
structure GasConfig where
  HasCost : ℕ
  DeleteCost : ℕ
  ReadCostFlat : ℕ
  ReadCostPerByte : ℕ
  WriteCostFlat : ℕ
  WriteCostPerByte : ℕ
  IterNextCostFlat : ℕ
  deriving DecidableEq, Repr

/-- `KVGasConfig`, the costs of the stores a context hands out. -/
def KVGasConfig : GasConfig where
  HasCost := 1000
  DeleteCost := 1000
  ReadCostFlat := 1000
  ReadCostPerByte := 3
  WriteCostFlat := 2000
  WriteCostPerByte := 30
  IterNextCostFlat := 30

/-- `TransientGasConfig`. -/
def TransientGasConfig : GasConfig := KVGasConfig

def GasIterNextCostFlatDesc : String := "IterNextFlat"
def GasValuePerByteDesc : String := "ValuePerByte"
def GasWritePerByteDesc : String := "WritePerByte"
def GasReadPerByteDesc : String := "ReadPerByte"
def GasWriteCostFlatDesc : String := "WriteFlat"
def GasReadCostFlatDesc : String := "ReadFlat"
def GasHasDesc : String := "Has"
def GasDeleteDesc : String := "Delete"

/-- `cost * types.Gas(len(value))`, a product of `uint64`s, which wraps. -/
def mulGas (cost len : ℕ) : ℕ := cost * len % 2 ^ 64

/-- `len(value)` of a value read from a store: zero for `nil`. -/
def valueLen : Option Bytes → ℕ
  | none => 0
  | some value => value.length

/-! ### The store and its iterator -/

/-- `gaskv.Store`: the meter it charges, its costs and the contents of its
parent.  The meter and the parent are shared with the caller. -/
structure Store where
  gasMeter : GasMeter
  gasConfig : GasConfig
  parent : KVStore

/-- `NewStore`. -/
def NewStore (parent : KVStore) (gasMeter : GasMeter) (gasConfig : GasConfig) : Store :=
  ⟨gasMeter, gasConfig, parent⟩

namespace Store

/-- `gasMeter.ConsumeGas` on the store's meter: a panic stops the caller with
the meter as the charge left it. -/
def consumeGas (amount : ℕ) (descriptor : String) : EStateM Panic Store Unit := fun gs =>
  match gs.gasMeter.ConsumeGas amount descriptor with
  | (g, none) => .ok () { gs with gasMeter := g }
  | (g, some p) => .error p { gs with gasMeter := g }

/-- `Get`. -/
def Get (key : Bytes) : EStateM Panic Store (Option Bytes) := do
  let gs ← get
  consumeGas gs.gasConfig.ReadCostFlat GasReadCostFlatDesc
  let value := gs.parent.get key
  consumeGas (mulGas gs.gasConfig.ReadCostPerByte (valueLen value)) GasReadPerByteDesc
  return value

/-- `Set`.  `types.AssertValidValue` panics on a `nil` value, which a value of
the model never is. -/
def Set (key value : Bytes) : EStateM Panic Store Unit := do
  let gs ← get
  consumeGas gs.gasConfig.WriteCostFlat GasWriteCostFlatDesc
  consumeGas (mulGas gs.gasConfig.WriteCostPerByte value.length) GasWritePerByteDesc
  modify fun gs => { gs with parent := gs.parent.set key value }

/-- `Has`. -/
def Has (key : Bytes) : EStateM Panic Store Bool := do
  let gs ← get
  consumeGas gs.gasConfig.HasCost GasHasDesc
  return (gs.parent.get key).isSome

/-- `Delete`: charged although it frees space. -/
def Delete (key : Bytes) : EStateM Panic Store Unit := do
  let gs ← get
  consumeGas gs.gasConfig.DeleteCost GasDeleteDesc
  modify fun gs => { gs with parent := gs.parent.delete key }

end Store

/-- `gasIterator`: its costs and the entries of the parent iterator from its
current position on.  It charges the meter of the store that made it. -/
structure gasIterator where
  gasConfig : GasConfig
  parent : List (Bytes × Bytes)

namespace gasIterator

/-- `Valid`. -/
def Valid (gi : gasIterator) : Bool := !gi.parent.isEmpty

/-- `Value`: the current value, `nil` past the end. -/
def Value (gi : gasIterator) : Option Bytes := gi.parent.head?.map Prod.snd

/-- `consumeSeekGas`: the current value by the byte, and the flat cost. -/
def consumeSeekGas (gi : gasIterator) : EStateM Panic Store Unit := do
  let value := gi.Value
  Store.consumeGas (mulGas gi.gasConfig.ReadCostPerByte (valueLen value)) GasValuePerByteDesc
  Store.consumeGas gi.gasConfig.IterNextCostFlat GasIterNextCostFlatDesc

/-- `Next`.  The parent's `Next` panics on an iterator that is not valid. -/
def Next (gi : gasIterator) : EStateM Panic Store gasIterator := do
  if gi.Valid then gi.consumeSeekGas
  match gi.parent with
  | [] => throw .other
  | _ :: rest => return { gi with parent := rest }

end gasIterator

namespace Store

/-- `iterator`: the parent's iterator, charged for its first entry if it has one. -/
def iterator (start endKey : Option Bytes) (ascending : Bool) :
    EStateM Panic Store gasIterator := do
  let gs ← get
  let parent :=
    if ascending then gs.parent.Iterator start endKey else gs.parent.ReverseIterator start endKey
  let gi : gasIterator := ⟨gs.gasConfig, parent⟩
  if gi.Valid then gi.consumeSeekGas
  return gi

/-- `Iterator`. -/
def Iterator (start endKey : Option Bytes) : EStateM Panic Store gasIterator :=
  iterator start endKey true

/-- `ReverseIterator`. -/
def ReverseIterator (start endKey : Option Bytes) : EStateM Panic Store gasIterator :=
  iterator start endKey false

end Store

/-! ### Runs of operations -/

/-- A caller's loop `for ; iter.Valid(); iter.Next()` that reads the key and
the value of each entry, for at most `fuel` rounds. -/
def gasIterator.loop : ℕ → gasIterator → EStateM Panic Store (List (Bytes × Bytes))
  | 0, _ => pure []
  | fuel + 1, gi =>
    -- `iter.Valid()`, then `iter.Key()` and `iter.Value()`, which charge nothing
    match gi.parent with
    | [] => pure []
    | kv :: _ => do
      let gi ← gi.Next
      let kvs ← loop fuel gi
      return kv :: kvs

/-- The loop run to the iterator's end, one round per entry. -/
def gasIterator.drain (gi : gasIterator) : EStateM Panic Store (List (Bytes × Bytes)) :=
  gi.loop gi.parent.length

/-- One operation of a client through the store; an iterator is read to its end. -/
def apply : Op Bytes Bytes → EStateM Panic Store (Reply Bytes Bytes)
  | .get key => do return .value (← Store.Get key)
  | .has key => do return .present (← Store.Has key)
  | .set key value => do
    Store.Set key value
    return .done
  | .delete key => do
    Store.Delete key
    return .done
  | .iterator start endKey => do
    let gi ← Store.Iterator start endKey
    let kvs ← gi.drain
    return .entries (kvs.map fun e => (e.1, some e.2))
  | .reverseIterator start endKey => do
    let gi ← Store.ReverseIterator start endKey
    let kvs ← gi.drain
    return .entries (kvs.map fun e => (e.1, some e.2))

/-- A sequence of operations through the store, stopped by the first panic. -/
def run : List (Op Bytes Bytes) → EStateM Panic Store (List (Reply Bytes Bytes))
  | [] => pure []
  | op :: ops => do
    let reply ← apply op
    let replies ← run ops
    return reply :: replies

/-! ### The charges of an operation -/

/-- The charges of moving past an entry: its value by the byte, and the flat cost. -/
def seekCharges (cfg : GasConfig) (kv : Bytes × Bytes) : List (ℕ × String) :=
  [(mulGas cfg.ReadCostPerByte kv.2.length, GasValuePerByteDesc),
    (cfg.IterNextCostFlat, GasIterNextCostFlatDesc)]

/-- The charges of reading `kvs` through an iterator: the first entry when the
iterator is made, then every entry as the loop moves past it. -/
def iteratorCharges (cfg : GasConfig) (kvs : List (Bytes × Bytes)) : List (ℕ × String) :=
  (kvs.head?.map (seekCharges cfg)).getD [] ++ kvs.flatMap (seekCharges cfg)

theorem total_flatMap_seekCharges (cfg : GasConfig) (kvs : List (Bytes × Bytes)) :
    GasMeter.total (kvs.flatMap (seekCharges cfg)) =
      kvs.length * cfg.IterNextCostFlat + (kvs.map fun e => mulGas cfg.ReadCostPerByte e.2.length).sum := by
  induction kvs with
  | nil => simp
  | cons kv kvs ih =>
    simp only [List.flatMap_cons, GasMeter.total_append, ih, seekCharges, GasMeter.total_cons,
      GasMeter.total_nil, List.length_cons, List.map_cons, List.sum_cons]
    ring

/-- The charges of an operation on a store whose parent holds `P`, in order. -/
def charges (cfg : GasConfig) (P : KVStore) : Op Bytes Bytes → List (ℕ × String)
  | .get key =>
    [(cfg.ReadCostFlat, GasReadCostFlatDesc),
      (mulGas cfg.ReadCostPerByte (valueLen (P.get key)), GasReadPerByteDesc)]
  | .has _ => [(cfg.HasCost, GasHasDesc)]
  | .set _ value =>
    [(cfg.WriteCostFlat, GasWriteCostFlatDesc),
      (mulGas cfg.WriteCostPerByte value.length, GasWritePerByteDesc)]
  | .delete _ => [(cfg.DeleteCost, GasDeleteDesc)]
  | .iterator start endKey => iteratorCharges cfg (P.Iterator start endKey)
  | .reverseIterator start endKey => iteratorCharges cfg (P.ReverseIterator start endKey)

/-- The gas of a run of operations from the parent contents `P`, each charged
on the contents the operations before it left. -/
def cost (cfg : GasConfig) : KVStore → List (Op Bytes Bytes) → ℕ
  | _, [] => 0
  | P, op :: ops => GasMeter.total (charges cfg P op) + cost cfg (op.spec P).2 ops

/-! ### Calls decided by their charges -/

/-- The outcome of a call that makes the charges `cs` and then, unless one
panicked, returns `r` and leaves the parent `P`. -/
def Charged {α : Type} (gs : Store) (cs : List (ℕ × String)) (r : α) (P : KVStore) :
    EStateM.Result Panic Store α :=
  match gs.gasMeter.consumeAll cs with
  | (g, none) => .ok r { gs with gasMeter := g, parent := P }
  | (g, some p) => .error p { gs with gasMeter := g }

namespace Charged

variable {α β : Type}

theorem pure_run (r : α) (gs : Store) :
    (pure r : EStateM Panic Store α).run gs = Charged gs [] r gs.parent := rfl

theorem consumeGas_run (amount : ℕ) (descriptor : String) (gs : Store) :
    (Store.consumeGas amount descriptor).run gs = Charged gs [(amount, descriptor)] () gs.parent := by
  unfold Store.consumeGas Charged
  simp only [EStateM.run, GasMeter.consumeAll]
  rcases gs.gasMeter.ConsumeGas amount descriptor with ⟨g, _ | p⟩ <;> rfl

theorem modify_run (f : KVStore → KVStore) (gs : Store) :
    (modify fun gs : Store => { gs with parent := f gs.parent } : EStateM Panic Store PUnit).run gs =
      Charged gs [] () (f gs.parent) := rfl

/-- A call that does not write, followed by one whose charges and effect do not
depend on the meter, is decided by the two lists of charges in turn. -/
theorem bind {x : EStateM Panic Store α} {f : α → EStateM Panic Store β} {gs : Store}
    {cs cs' : List (ℕ × String)} {r : α} {r' : β} {P' : KVStore}
    (hx : x.run gs = Charged gs cs r gs.parent)
    (hf : ∀ g : GasMeter, (f r).run { gs with gasMeter := g } =
      Charged { gs with gasMeter := g } cs' r' P') :
    (x >>= f).run gs = Charged gs (cs ++ cs') r' P' := by
  rw [EStateM.run_bind, hx]
  unfold Charged at hf ⊢
  rw [GasMeter.consumeAll_append]
  rcases gs.gasMeter.consumeAll cs with ⟨g, _ | p⟩
  · exact hf g
  · rfl

/-- A call followed by a pure function of its result. -/
theorem map {x : EStateM Panic Store α} {f : α → β} {gs : Store}
    {cs : List (ℕ × String)} {r : α} {P : KVStore}
    (hx : x.run gs = Charged gs cs r P) :
    (x >>= fun a => pure (f a)).run gs = Charged gs cs (f r) P := by
  rw [EStateM.run_bind, hx]
  unfold Charged
  rcases gs.gasMeter.consumeAll cs with ⟨g, _ | p⟩ <;> rfl

/-- A call decided by its charges that did not panic consumed exactly their gas. -/
theorem eq_ok {gs gs' : Store} {cs : List (ℕ × String)} {r r' : α} {P : KVStore}
    (h : Charged gs cs r P = .ok r' gs') :
    r' = r ∧ gs' = { gs with
      gasMeter := { gs.gasMeter with consumed := gs.gasMeter.consumed + GasMeter.total cs }
      parent := P } := by
  unfold Charged at h
  rcases hc : gs.gasMeter.consumeAll cs with ⟨g, _ | p⟩
  · rw [hc] at h
    cases h
    rw [GasMeter.consumeAll_eq_none hc]
    exact ⟨rfl, rfl⟩
  · rw [hc] at h
    cases h

end Charged

/-! ### Every call is its charges, then the call on a map -/

namespace Store

theorem Get_run (key : Bytes) (gs : Store) :
    (Get key).run gs = Charged gs (charges gs.gasConfig gs.parent (.get key)) (gs.parent.get key)
      gs.parent :=
  Charged.bind (Charged.consumeGas_run _ _ gs) fun _ =>
    Charged.bind (Charged.consumeGas_run _ _ _) fun _ => Charged.pure_run _ _

theorem Has_run (key : Bytes) (gs : Store) :
    (Has key).run gs = Charged gs (charges gs.gasConfig gs.parent (.has key))
      (gs.parent.get key).isSome gs.parent :=
  Charged.bind (Charged.consumeGas_run _ _ gs) fun _ => Charged.pure_run _ _

theorem Set_run (key value : Bytes) (gs : Store) :
    (Set key value).run gs = Charged gs (charges gs.gasConfig gs.parent (.set key value)) ()
      (gs.parent.set key value) :=
  Charged.bind (Charged.consumeGas_run _ _ gs) fun _ =>
    Charged.bind (Charged.consumeGas_run _ _ _) fun _ =>
      Charged.modify_run (fun P => P.set key value) _

theorem Delete_run (key : Bytes) (gs : Store) :
    (Delete key).run gs = Charged gs (charges gs.gasConfig gs.parent (.delete key)) ()
      (gs.parent.delete key) :=
  Charged.bind (Charged.consumeGas_run _ _ gs) fun _ => Charged.modify_run (fun P => P.delete key) _

end Store

namespace gasIterator

theorem consumeSeekGas_run (cfg : GasConfig) (kv : Bytes × Bytes) (rest : List (Bytes × Bytes))
    (gs : Store) :
    (consumeSeekGas ⟨cfg, kv :: rest⟩).run gs = Charged gs (seekCharges cfg kv) () gs.parent :=
  Charged.bind (Charged.consumeGas_run _ _ gs) fun _ => Charged.consumeGas_run _ _ _

theorem Next_run (cfg : GasConfig) (kv : Bytes × Bytes) (rest : List (Bytes × Bytes))
    (gs : Store) :
    (Next ⟨cfg, kv :: rest⟩).run gs = Charged gs (seekCharges cfg kv) ⟨cfg, rest⟩ gs.parent := by
  have h := Charged.bind (f := fun _ => (pure ⟨cfg, rest⟩ : EStateM Panic Store gasIterator))
    (consumeSeekGas_run cfg kv rest gs) fun _ => Charged.pure_run _ _
  rwa [List.append_nil] at h

/-- **A loop with a round for each entry reads them all**, charging each as it
moves past it. -/
theorem loop_run : ∀ (fuel : ℕ) (gi : gasIterator) (gs : Store), gi.parent.length ≤ fuel →
    (gi.loop fuel).run gs =
      Charged gs (gi.parent.flatMap (seekCharges gi.gasConfig)) gi.parent gs.parent
  | 0, ⟨cfg, []⟩, gs, _ => rfl
  | fuel + 1, ⟨cfg, []⟩, gs, _ => rfl
  | fuel + 1, ⟨cfg, kv :: rest⟩, gs, hlen => by
    have hrest : rest.length ≤ fuel := by simpa using hlen
    rw [List.flatMap_cons]
    exact Charged.bind (Next_run cfg kv rest gs) fun g =>
      Charged.map (loop_run fuel ⟨cfg, rest⟩ _ hrest)

theorem drain_run (gi : gasIterator) (gs : Store) :
    gi.drain.run gs = Charged gs (gi.parent.flatMap (seekCharges gi.gasConfig)) gi.parent gs.parent :=
  loop_run _ gi gs le_rfl

end gasIterator

namespace Store

theorem iterator_run (start endKey : Option Bytes) (ascending : Bool) (gs : Store) :
    (iterator start endKey ascending).run gs =
      let kvs :=
        if ascending then gs.parent.Iterator start endKey else gs.parent.ReverseIterator start endKey
      Charged gs ((kvs.head?.map (seekCharges gs.gasConfig)).getD []) ⟨gs.gasConfig, kvs⟩
        gs.parent := by
  show ((do
      if (gasIterator.mk gs.gasConfig _).Valid then (gasIterator.mk gs.gasConfig _).consumeSeekGas
      pure _) : EStateM Panic Store gasIterator).run gs = _
  generalize (if ascending then gs.parent.Iterator start endKey
    else gs.parent.ReverseIterator start endKey) = kvs
  cases kvs with
  | nil => rfl
  | cons kv rest =>
    have h := Charged.bind (f := fun _ => (pure ⟨gs.gasConfig, kv :: rest⟩ :
        EStateM Panic Store gasIterator))
      (gasIterator.consumeSeekGas_run gs.gasConfig kv rest gs) fun _ => Charged.pure_run _ _
    rw [List.append_nil] at h
    exact h

end Store

/-- **Every operation is its charges, then the same operation on a map.** -/
theorem apply_run (op : Op Bytes Bytes) (gs : Store) :
    (apply op).run gs =
      Charged gs (charges gs.gasConfig gs.parent op) (op.spec gs.parent).1 (op.spec gs.parent).2 := by
  cases op with
  | get key => exact Charged.map (Store.Get_run key gs)
  | has key => exact Charged.map (Store.Has_run key gs)
  | set key value => exact Charged.map (Store.Set_run key value gs)
  | delete key => exact Charged.map (Store.Delete_run key gs)
  | iterator start endKey =>
    exact Charged.bind (Store.iterator_run start endKey true gs) fun _ =>
      Charged.map (gasIterator.drain_run _ _)
  | reverseIterator start endKey =>
    exact Charged.bind (Store.iterator_run start endKey false gs) fun _ =>
      Charged.map (gasIterator.drain_run _ _)

/-! ### Runs through the store -/

/-- One operation of a run: its charges, and then the rest of the run on what
the operation left, unless a charge panicked. -/
theorem run_cons_run (op : Op Bytes Bytes) (ops : List (Op Bytes Bytes)) (gs : Store) :
    (run (op :: ops)).run gs =
      match gs.gasMeter.consumeAll (charges gs.gasConfig gs.parent op) with
      | (g, none) =>
        match (run ops).run { gs with gasMeter := g, parent := (op.spec gs.parent).2 } with
        | .ok replies gs' => .ok ((op.spec gs.parent).1 :: replies) gs'
        | .error e gs' => .error e gs'
      | (g, some p) => .error p { gs with gasMeter := g } := by
  rw [run, EStateM.run_bind, apply_run]
  unfold Charged
  rcases gs.gasMeter.consumeAll (charges gs.gasConfig gs.parent op) with ⟨g, _ | p⟩
  · dsimp only
    rw [EStateM.run_bind]
    rcases (run ops).run { gs with gasMeter := g, parent := (op.spec gs.parent).2 } with
      ⟨replies, gs'⟩ | ⟨e, gs'⟩ <;> rfl
  · rfl

@[simp] theorem specRun_cons_fst (P : KVStore) (op : Op Bytes Bytes) (ops : List (Op Bytes Bytes)) :
    (specRun P (op :: ops)).1 = (op.spec P).1 :: (specRun (op.spec P).2 ops).1 := rfl

@[simp] theorem specRun_cons_snd (P : KVStore) (op : Op Bytes Bytes) (ops : List (Op Bytes Bytes)) :
    (specRun P (op :: ops)).2 = (specRun (op.spec P).2 ops).2 := rfl

/-- **A run that does not panic is the run on a map, and consumes exactly its
gas.**  It replies as the map does, leaves the map's contents in the parent,
and adds the run's cost to the meter. -/
theorem gasKV_run_ok {ops : List (Op Bytes Bytes)} {gs gs' : Store}
    {replies : List (Reply Bytes Bytes)} (h : (run ops).run gs = .ok replies gs') :
    replies = (specRun gs.parent ops).1 ∧
      gs' = { gs with
        gasMeter := { gs.gasMeter with
          consumed := gs.gasMeter.consumed + cost gs.gasConfig gs.parent ops }
        parent := (specRun gs.parent ops).2 } := by
  induction ops generalizing gs replies with
  | nil =>
    cases h
    exact ⟨rfl, rfl⟩
  | cons op ops ih =>
    rw [run_cons_run] at h
    rcases hc : gs.gasMeter.consumeAll (charges gs.gasConfig gs.parent op) with ⟨g₁, _ | p⟩
    · rw [hc] at h
      dsimp only at h
      rcases hr : (run ops).run { gs with gasMeter := g₁, parent := (op.spec gs.parent).2 } with
        ⟨replies', gs''⟩ | ⟨e, gs''⟩
      · rw [hr] at h
        cases h
        obtain ⟨rfl, rfl⟩ := ih hr
        rw [GasMeter.consumeAll_eq_none hc]
        refine ⟨rfl, ?_⟩
        simp only [cost, specRun_cons_snd, Nat.add_assoc]
      · rw [hr] at h
        cases h
    · rw [hc] at h
      cases h

/-- A store over the parent `P` that charges the costs of `KVGasConfig` to a
fresh meter with the given limit, as a context's store does. -/
def sampleStore (P : KVStore) (limit : ℕ) : Store := NewStore P (GasMeter.NewGasMeter limit) KVGasConfig

/-- A write of a two-byte value and a read of it back. -/
def sampleOps : List (Op Bytes Bytes) := [.set [1] [7, 8], .get [1]]

theorem gasKV_run_ok_set_get :
    [.done, .value (some [7, 8])] = (specRun SortedKV.empty sampleOps).1 ∧
      { sampleStore SortedKV.empty 10000 with
          gasMeter := ⟨some 10000, 3066⟩, parent := SortedKV.empty.set [1] [7, 8] } =
        { sampleStore SortedKV.empty 10000 with
          gasMeter := { (sampleStore SortedKV.empty 10000).gasMeter with
            consumed := 0 + cost KVGasConfig SortedKV.empty sampleOps }
          parent := (specRun SortedKV.empty sampleOps).2 } :=
  @gasKV_run_ok sampleOps (sampleStore SortedKV.empty 10000)
    { sampleStore SortedKV.empty 10000 with
      gasMeter := ⟨some 10000, 3066⟩, parent := SortedKV.empty.set [1] [7, 8] }
    [.done, .value (some [7, 8])] rfl

/-- A run whose gas fits in the budget does not panic. -/
theorem run_of_le {ops : List (Op Bytes Bytes)} {gs : Store}
    (h : gs.gasMeter.consumed + cost gs.gasConfig gs.parent ops ≤ gs.gasMeter.budget) :
    (run ops).run gs = .ok (specRun gs.parent ops).1 { gs with
        gasMeter := { gs.gasMeter with
          consumed := gs.gasMeter.consumed + cost gs.gasConfig gs.parent ops }
        parent := (specRun gs.parent ops).2 } := by
  induction ops generalizing gs with
  | nil => rfl
  | cons op ops ih =>
    rw [cost, ← Nat.add_assoc] at h
    have hfirst : gs.gasMeter.consumed + GasMeter.total (charges gs.gasConfig gs.parent op) ≤
        gs.gasMeter.budget := by omega
    rw [run_cons_run, GasMeter.consumeAll_of_le hfirst]
    dsimp only
    rw [ih (by simpa using h)]
    simp only [cost, specRun_cons_fst, specRun_cons_snd, Nat.add_assoc]

/-- On a meter within its budget, a run that does not panic fits in it. -/
theorem le_of_run_ok {ops : List (Op Bytes Bytes)} {gs gs' : Store}
    {replies : List (Reply Bytes Bytes)} (hb : gs.gasMeter.consumed ≤ gs.gasMeter.budget)
    (h : (run ops).run gs = .ok replies gs') :
    gs.gasMeter.consumed + cost gs.gasConfig gs.parent ops ≤ gs.gasMeter.budget := by
  induction ops generalizing gs gs' replies with
  | nil => simpa [cost] using hb
  | cons op ops ih =>
    rw [run_cons_run] at h
    rcases hc : gs.gasMeter.consumeAll (charges gs.gasConfig gs.parent op) with ⟨g₁, _ | p⟩
    · rw [hc] at h
      dsimp only at h
      have hfirst := GasMeter.le_budget_of_consumeAll_eq_none hb hc
      rcases hr : (run ops).run { gs with gasMeter := g₁, parent := (op.spec gs.parent).2 } with
        ⟨replies', gs''⟩ | ⟨e, gs''⟩
      · obtain rfl := GasMeter.consumeAll_eq_none hc
        have hrest := ih (h := hr) hfirst
        simp only [GasMeter.budget_consumed] at hrest
        rw [cost]
        omega
      · rw [hr] at h
        cases h
    · rw [hc] at h
      cases h

/-- **A run does not panic exactly when its gas fits in what the meter has
left.** -/
theorem gasKV_run_ok_iff {ops : List (Op Bytes Bytes)} {gs : Store}
    (hb : gs.gasMeter.consumed ≤ gs.gasMeter.budget) :
    (∃ replies gs', (run ops).run gs = .ok replies gs') ↔
      gs.gasMeter.consumed + cost gs.gasConfig gs.parent ops ≤ gs.gasMeter.budget := by
  constructor
  · rintro ⟨replies, gs', h⟩
    exact le_of_run_ok hb h
  · intro h
    exact ⟨_, _, run_of_le h⟩

theorem gasKV_run_ok_iff_set_get :
    (∃ replies gs', (run sampleOps).run (sampleStore SortedKV.empty 3000) = .ok replies gs') ↔
      0 + cost KVGasConfig SortedKV.empty sampleOps ≤ (sampleStore SortedKV.empty 3000).gasMeter.budget :=
  @gasKV_run_ok_iff sampleOps (sampleStore SortedKV.empty 3000) (by decide)

/-- **A run that panics stops at the first operation that runs past the
budget.**  The operations before it fit in the budget and reached the parent;
nothing of that operation did; and the panic is a gas panic that names one of
its charges. -/
theorem gasKV_run_panics {ops : List (Op Bytes Bytes)} {gs gs' : Store} {e : Panic}
    (hb : gs.gasMeter.consumed ≤ gs.gasMeter.budget) (h : (run ops).run gs = .error e gs') :
    ∃ k, ∃ hk : k < ops.length,
      gs'.parent = (specRun gs.parent (ops.take k)).2 ∧
      gs.gasMeter.consumed + cost gs.gasConfig gs.parent (ops.take k) ≤ gs.gasMeter.budget ∧
      gs.gasMeter.budget < gs.gasMeter.consumed + cost gs.gasConfig gs.parent (ops.take (k + 1)) ∧
      ∃ d ∈ (charges gs.gasConfig (specRun gs.parent (ops.take k)).2 ops[k]).map Prod.snd,
        e = .ErrorOutOfGas d ∨ e = .ErrorGasOverflow d := by
  induction ops generalizing gs with
  | nil => cases h
  | cons op ops ih =>
    rw [run_cons_run] at h
    rcases hc : gs.gasMeter.consumeAll (charges gs.gasConfig gs.parent op) with ⟨g₁, _ | p⟩
    · -- the operation passed: the panic is in the rest of the run
      rw [hc] at h
      dsimp only at h
      have hfirst := GasMeter.le_budget_of_consumeAll_eq_none hb hc
      rcases hr : (run ops).run { gs with gasMeter := g₁, parent := (op.spec gs.parent).2 } with
        ⟨replies, gs''⟩ | ⟨e', gs''⟩
      · rw [hr] at h
        cases h
      · rw [hr] at h
        cases h
        obtain rfl := GasMeter.consumeAll_eq_none hc
        obtain ⟨k, hk, hparent, hle, hlt, hd⟩ := ih (h := hr) hfirst
        refine ⟨k + 1, by simpa using hk, hparent, ?_, ?_, hd⟩
        · rw [List.take_succ_cons, cost]
          simp only [GasMeter.budget_consumed] at hle
          omega
        · rw [List.take_succ_cons, cost]
          simp only [GasMeter.budget_consumed] at hlt
          omega
    · -- the operation's own charges ran past the budget
      rw [hc] at h
      cases h
      obtain ⟨hover, hd⟩ := GasMeter.consumeAll_eq_some hb hc
      refine ⟨0, by simp, rfl, by simpa [cost] using hb, ?_, hd⟩
      simpa [cost] using hover

/-- With 2500 gas the write passes and the read runs out at its flat charge. -/
theorem gasKV_run_panics_set_get :
    ∃ k, ∃ hk : k < sampleOps.length,
      SortedKV.empty.set [1] [7, 8] = (specRun SortedKV.empty (sampleOps.take k)).2 ∧
      0 + cost KVGasConfig SortedKV.empty (sampleOps.take k) ≤ (sampleStore SortedKV.empty 2500).gasMeter.budget ∧
      (sampleStore SortedKV.empty 2500).gasMeter.budget <
        0 + cost KVGasConfig SortedKV.empty (sampleOps.take (k + 1)) ∧
      ∃ d ∈ (charges KVGasConfig (specRun SortedKV.empty (sampleOps.take k)).2 sampleOps[k]).map Prod.snd,
        Panic.ErrorOutOfGas GasReadCostFlatDesc = .ErrorOutOfGas d ∨
          Panic.ErrorOutOfGas GasReadCostFlatDesc = .ErrorGasOverflow d :=
  @gasKV_run_panics sampleOps (sampleStore SortedKV.empty 2500)
    { sampleStore SortedKV.empty 2500 with
      gasMeter := ⟨some 2500, 3060⟩, parent := SortedKV.empty.set [1] [7, 8] }
    (.ErrorOutOfGas GasReadCostFlatDesc) (by decide) rfl

/-- **Reading a range charges its first value twice.**  An iterator over the
entries `kv :: kvs`, read to its end without a panic, consumes the flat cost
once for each entry and once more, and the value of its first entry twice. -/
theorem iterator_gas {gs gs' : Store} {start endKey : Option Bytes} {reply : Reply Bytes Bytes}
    {kv : Bytes × Bytes} {kvs : List (Bytes × Bytes)}
    (hkvs : gs.parent.Iterator start endKey = kv :: kvs)
    (h : (apply (.iterator start endKey)).run gs = .ok reply gs') :
    gs'.gasMeter.consumed = gs.gasMeter.consumed +
      (kvs.length + 2) * gs.gasConfig.IterNextCostFlat +
      mulGas gs.gasConfig.ReadCostPerByte kv.2.length +
      ((kv :: kvs).map fun e => mulGas gs.gasConfig.ReadCostPerByte e.2.length).sum := by
  rw [apply_run] at h
  obtain ⟨-, rfl⟩ := Charged.eq_ok h
  simp only [charges, hkvs, iteratorCharges, List.head?_cons, Option.map_some, Option.getD_some,
    GasMeter.total_append, total_flatMap_seekCharges, seekCharges, GasMeter.total_cons,
    GasMeter.total_nil, List.length_cons]
  ring

/-- Two entries cost three flat charges and the first value twice. -/
theorem iterator_gas_two :
    ({ sampleStore ((SortedKV.empty.set [1] [7, 8]).set [2] [9]) 1000 with
        gasMeter := ⟨some 1000, 105⟩ } : Store).gasMeter.consumed =
      0 + ([([2], [9])] : List (Bytes × Bytes)).length.succ.succ * KVGasConfig.IterNextCostFlat +
        mulGas KVGasConfig.ReadCostPerByte 2 +
        ([([1], [7, 8]), ([2], [9])].map fun e : Bytes × Bytes =>
          mulGas KVGasConfig.ReadCostPerByte e.2.length).sum :=
  @iterator_gas (sampleStore ((SortedKV.empty.set [1] [7, 8]).set [2] [9]) 1000)
    { sampleStore ((SortedKV.empty.set [1] [7, 8]).set [2] [9]) 1000 with
      gasMeter := ⟨some 1000, 105⟩ }
    none none (.entries [([1], some [7, 8]), ([2], some [9])]) ([1], [7, 8]) [([2], [9])] rfl rfl

end GasKV

end ColorSdk
