import ColorSdk.Store.Types
import ColorSdk.Lib.ZeroPad
import ColorSdk.Lib.LoggedRun
import ColorSdk.Lib.ExceptSpec
import Mathlib

/-!
# The list mapper

`list.List` keeps a list indexed by `uint64` in a store.  The length, encoded
by the codec, sits under the key `0x00`, and the element at index `i` under
`0x01` followed by the twenty decimal digits of `i`, zeros in front.  `Push`
writes at the index the length names and then counts one more, modulo `2⁶⁴`;
`Set` and `Delete` write at any index and leave the length alone; `Iterate`
scans the keys under `0x01` in order, decodes each value, reads the index back
from the last twenty bytes of the key and hands both to a callback, until it
returns true.

What the list is for is a sparse array with a push counter, `SparseList`.  The
store represents one (`Rep`) when its length decodes to the counter, every
element key holds the encoding of the array's entry, and no other key under
`0x01` is set.  Every call keeps the representation and answers as the sparse
array does; since twenty digits hold every `uint64` and keys of one width
compare byte by byte, the scan under `0x01` meets the elements in the order of
their indices and reads each index back exactly, so `Iterate` never panics on
a store the list wrote.

The codec is any codec that reads back what it writes and reads nothing from no
bytes.

## Main definitions

* `StoreList.LengthKey`, `StoreList.ElemKey` — the keys.
* `StoreList.Len`, `Get`, `Set`, `Delete`, `Push`, `Iterate` — the calls.
* `SparseList` — the sparse array with a push counter the list implements.
* `StoreList.Rep` — the store represents a sparse array.
* `StoreList.run`, `SparseList.run` — runs of calls on the two levels.

## Main results

* `StoreList.ElemKey_format` — element keys sort as their indices and read back.
* `StoreList.list_refines` — **every run of calls on a represented store
  answers as the sparse array does, never panics, and keeps the
  representation.**
* `StoreList.iterate_in_index_order` — `Iterate` meets the elements in
  ascending index order, each as `Get` returns it, and all of them unless the
  callback stops it.
* `StoreList.Len_counts_pushes` — the length is the count of pushes, modulo
  `2⁶⁴`.

## References

* src/store/list/list.go
-/

namespace ColorSdk

/-! ### The codec -/

/-- The length-prefixed binary encoding of `codec.Codec` at one type: it reads
back what it writes, and it reads nothing from no bytes. -/
class BinaryCodec (V : Type) where
  MarshalBinaryLengthPrefixed : V → Bytes
  UnmarshalBinaryLengthPrefixed : Bytes → Option V
  unmarshal_marshal : ∀ v, UnmarshalBinaryLengthPrefixed (MarshalBinaryLengthPrefixed v) = some v
  unmarshal_nil : UnmarshalBinaryLengthPrefixed [] = none

open BinaryCodec (MarshalBinaryLengthPrefixed UnmarshalBinaryLengthPrefixed)

attribute [simp] BinaryCodec.unmarshal_marshal BinaryCodec.unmarshal_nil

/-- A codec for `uint64` that writes a length byte and eight big-endian bytes.
It stands for the application's codec in the examples of this file; every
result holds for any codec. -/
instance fixedWidthCodec : BinaryCodec UInt64 where
  MarshalBinaryLengthPrefixed n := 8 :: BigEndian.encode 256 8 n.toNat
  UnmarshalBinaryLengthPrefixed
    | b :: bz => if b = 8 ∧ bz.length = 8 then some (UInt64.ofNat (BigEndian.decode bz)) else none
    | [] => none
  unmarshal_marshal n := by
    have hdec : BigEndian.decode (BigEndian.encode 256 8 n.toNat) = n.toNat := by
      rw [BigEndian.decode_encode, Nat.mod_eq_of_lt (by simpa using n.toNat_lt)]
    simp [hdec]
  unmarshal_nil := rfl

/-! ### The sparse array the list implements -/

/-- The calls a loop makes when it stops after the first call that returns
true. -/
def callsUntil {α : Type} (p : α → Bool) : List α → List α
  | [] => []
  | a :: l => if p a then [a] else a :: callsUntil p l

theorem callsUntil_sublist {α : Type} (p : α → Bool) : ∀ l : List α, List.Sublist (callsUntil p l) l
  | [] => List.Sublist.slnil
  | a :: l => by
    rw [callsUntil]
    split_ifs
    · exact List.singleton_sublist.2 List.mem_cons_self
    · exact (callsUntil_sublist p l).cons_cons a

/-- A loop that was never told to stop went through the whole list. -/
theorem callsUntil_eq_self {α : Type} (p : α → Bool) :
    ∀ {l : List α}, (∀ a ∈ callsUntil p l, p a = false) → callsUntil p l = l
  | [], _ => rfl
  | a :: l, h => by
    have ha : p a = false := h a (by unfold callsUntil; split_ifs <;> simp)
    rw [callsUntil, if_neg (by simp [ha]), callsUntil_eq_self p fun b hb => h b ?_]
    rw [callsUntil, if_neg (by simp [ha])]
    exact List.mem_cons_of_mem _ hb

/-- Every call but the last was told to go on. -/
theorem callsUntil_dropLast {α : Type} (p : α → Bool) :
    ∀ (l : List α), ∀ a ∈ (callsUntil p l).dropLast, p a = false
  | [], _, h => by simp [callsUntil] at h
  | b :: l, a, h => by
    by_cases hb : p b
    · simp [callsUntil, hb] at h
    · rw [callsUntil, if_neg hb] at h
      cases hl : callsUntil p l with
      | nil => simp [hl] at h
      | cons c cs =>
        rw [hl, List.dropLast_cons_cons, List.mem_cons] at h
        rcases h with rfl | h
        · simpa using hb
        · exact callsUntil_dropLast p l a (by rw [hl]; exact h)

/-- What a list is for: a sparse array over `uint64` indices, and the count of
pushes, modulo `2⁶⁴`, that names the next index to push at. -/
structure SparseList (V : Type) where
  len : UInt64
  elems : SortedKV (Fin UInt64.size) V

namespace SparseList

variable {V : Type}

def empty : SparseList V := ⟨0, .empty⟩

def get (A : SparseList V) (i : UInt64) : Option V := A.elems.get i.toFin

def set (A : SparseList V) (i : UInt64) (v : V) : SparseList V := ⟨A.len, A.elems.set i.toFin v⟩

def delete (A : SparseList V) (i : UInt64) : SparseList V := ⟨A.len, A.elems.delete i.toFin⟩

/-- Write at the index the counter names and count one more. -/
def push (A : SparseList V) (v : V) : SparseList V := ⟨A.len + 1, A.elems.set A.len.toFin v⟩

/-- The elements with their indices, in ascending index order. -/
def entries (A : SparseList V) : List (UInt64 × V) :=
  A.elems.entries.map fun e => (UInt64.ofFin e.1, e.2)

/-- The elements a loop over the array meets, until `fn` tells it to stop. -/
def iterate (A : SparseList V) (fn : UInt64 → V → Bool) : List (UInt64 × V) :=
  callsUntil (fun e => fn e.1 e.2) A.entries

@[simp] theorem get_set (A : SparseList V) (i j : UInt64) (v : V) :
    (A.set i v).get j = if j = i then some v else A.get j := by
  simp [get, set, UInt64.toFin_inj]

@[simp] theorem get_delete (A : SparseList V) (i j : UInt64) :
    (A.delete i).get j = if j = i then none else A.get j := by
  simp [get, delete, UInt64.toFin_inj]

theorem mem_entries {A : SparseList V} {i : UInt64} {x : V} : (i, x) ∈ A.entries ↔ A.get i = some x := by
  rw [entries, get, SortedKV.get_eq_some_iff, List.mem_map]
  constructor
  · rintro ⟨e, he, hie⟩
    obtain ⟨rfl, rfl⟩ := Prod.ext_iff.1 hie
    simpa using he
  · intro h
    exact ⟨(i.toFin, x), h, by simp⟩

theorem entries_sorted (A : SparseList V) : A.entries.Pairwise fun a b => a.1 < b.1 :=
  A.elems.sorted.map _ fun a b hab => by
    rw [UInt64.lt_iff_toFin_lt, UInt64.toFin_ofFin, UInt64.toFin_ofFin]
    exact hab

theorem iterate_sorted (A : SparseList V) (fn : UInt64 → V → Bool) :
    (A.iterate fn).Pairwise fun a b => a.1 < b.1 :=
  A.entries_sorted.sublist (callsUntil_sublist _ _)

theorem get_of_mem_iterate {A : SparseList V} {fn : UInt64 → V → Bool} {c : UInt64 × V}
    (hc : c ∈ A.iterate fn) : A.get c.1 = some c.2 :=
  mem_entries.1 ((callsUntil_sublist _ _).subset hc)

/-- A loop the callback never stopped met every element. -/
theorem mem_iterate_of_get {A : SparseList V} {fn : UInt64 → V → Bool}
    (hfn : ∀ c ∈ A.iterate fn, fn c.1 c.2 = false) {i : UInt64} {x : V} (h : A.get i = some x) :
    (i, x) ∈ A.iterate fn := by
  rw [iterate, callsUntil_eq_self _ hfn]
  exact mem_entries.2 h

end SparseList

/-! ### The list over a store -/

namespace StoreList

/-- The ways a call of the list panics. -/
inductive ListPanic where
  /-- `MustUnmarshalBinaryLengthPrefixed` on bytes that encode no value. -/
  | unmarshal
  /-- `k[len(k)-20:]` on a key shorter than twenty bytes. -/
  | sliceBounds
  /-- `panic(err)` on the error `strconv.ParseUint` returned. -/
  | parseUint (err : GoText.NumError)
  deriving DecidableEq, Repr

/-- `MustUnmarshalBinaryLengthPrefixed`: the value the bytes encode, or a panic. -/
def MustUnmarshalBinaryLengthPrefixed {V : Type} [BinaryCodec V] (bz : Bytes) : Except ListPanic V :=
  match UnmarshalBinaryLengthPrefixed bz with
  | some v => .ok v
  | none => .error .unmarshal

@[simp] theorem MustUnmarshalBinaryLengthPrefixed_marshal {V : Type} [BinaryCodec V] (v : V) :
    MustUnmarshalBinaryLengthPrefixed (MarshalBinaryLengthPrefixed v) = .ok v := by
  simp [MustUnmarshalBinaryLengthPrefixed]

/-- `LengthKey`: the key of the length. -/
def LengthKey : Bytes := [0x00]

/-- `ElemKey`: `0x01`, then `fmt.Sprintf("%020d", index)`. -/
def ElemKey (index : UInt64) : Bytes :=
  [0x01] ++ GoText.stringBytes (GoText.sprintfZeroPad 20 index.toNat)

/-- `strconv.ParseUint(string(k[len(k)-20:]), 10, 64)` in the loop of `Iterate`:
the index written in the last twenty bytes of a key.  The slice panics on a key
shorter than twenty bytes, and the loop panics with the error of the parse. -/
def keyIndex (k : Bytes) : Except ListPanic UInt64 :=
  if k.length < 20 then .error .sliceBounds
  else
    match GoText.parseUint (GoText.bytesString (k.drop (k.length - 20))) with
    | .ok index => .ok (UInt64.ofNat index)
    | .error err => .error (.parseUint err)

theorem toNat_lt_ten_pow (i : UInt64) : i.toNat < 10 ^ 20 :=
  lt_trans i.toNat_lt (by norm_num)

theorem length_ElemKey (i : UInt64) : (ElemKey i).length = 21 := by
  rw [ElemKey, List.length_append, GoText.stringBytes, List.length_map,
    GoText.length_sprintfZeroPad (by norm_num) (toNat_lt_ten_pow i)]
  rfl

theorem prefix_ElemKey (i : UInt64) : [0x01] <+: ElemKey i := List.prefix_append _ _

theorem not_prefix_LengthKey : ¬ ([0x01] : Bytes) <+: LengthKey := by
  simp [LengthKey]

theorem ElemKey_ne_LengthKey (i : UInt64) : ElemKey i ≠ LengthKey := fun h =>
  not_prefix_LengthKey (h ▸ prefix_ElemKey i)

/-- The last twenty bytes of an element key read back as its index. -/
theorem keyIndex_ElemKey (i : UInt64) : keyIndex (ElemKey i) = .ok i := by
  have hdigits : ∀ c ∈ GoText.sprintfZeroPad 20 i.toNat, c.isDigit = true :=
    fun _ hc => GoText.isDigit_of_mem_sprintfZeroPad hc
  -- the slice drops exactly the prefix byte
  have hdrop : (ElemKey i).drop ((ElemKey i).length - 20) =
      GoText.stringBytes (GoText.sprintfZeroPad 20 i.toNat) := by
    rw [length_ElemKey]
    rfl
  rw [keyIndex, if_neg (by rw [length_ElemKey]; omega), hdrop, GoText.bytesString_stringBytes hdigits,
    GoText.parseUint_sprintfZeroPad 20 i.toNat_lt]
  exact congrArg Except.ok UInt64.ofNat_toNat

theorem ElemKey_inj {i j : UInt64} (h : ElemKey i = ElemKey j) : i = j := by
  have hij := congrArg keyIndex h
  rw [keyIndex_ElemKey, keyIndex_ElemKey] at hij
  exact Except.ok.inj hij

theorem ElemKey_lt_iff {i j : UInt64} : ElemKey i < ElemKey j ↔ i < j := by
  rw [ElemKey, ElemKey, List.singleton_append, List.singleton_append, List.cons_lt_cons_iff,
    GoText.sprintfZeroPad_lt_iff (by norm_num) (toNat_lt_ten_pow i) (toNat_lt_ten_pow j),
    UInt64.lt_iff_toNat_lt]
  simp

/-- A sorted list of exactly the entries under a prefix is the prefix scan. -/
theorem eq_KVStorePrefixIterator_of_mem_iff {kvs : KVStore} {pfx : Bytes} {l : List (Bytes × Bytes)}
    (hl : l.Pairwise KeyLt) (h : ∀ k v, (k, v) ∈ l ↔ kvs.get k = some v ∧ pfx <+: k) :
    l = KVStorePrefixIterator kvs pfx :=
  SortedKV.eq_range_of_mem_iff hl fun k v => by rw [h, inRange_prefixEndBytes]

/-- **The element keys sort as their indices and read back as them**: the twenty
digits hold every `uint64`, and printings of one width compare byte by byte as
the numbers. -/
theorem ElemKey_format (i j : UInt64) :
    (ElemKey i < ElemKey j ↔ i < j) ∧ keyIndex (ElemKey i) = .ok i ∧ ElemKey i ≠ LengthKey :=
  ⟨ElemKey_lt_iff, keyIndex_ElemKey i, ElemKey_ne_LengthKey i⟩

variable {V : Type} [BinaryCodec V] [BinaryCodec UInt64]

/-- `Len`: the decoded length, zero when none is stored. -/
def Len (store : KVStore) : Except ListPanic UInt64 :=
  match store.get LengthKey with
  | none => .ok 0
  | some bz => MustUnmarshalBinaryLengthPrefixed bz

/-- `Get`: the element at an index; decoding the missing value of an index
that holds none fails. -/
def Get (store : KVStore) (index : UInt64) : Option V :=
  UnmarshalBinaryLengthPrefixed ((store.get (ElemKey index)).getD [])

/-- `Set`: write the element at an index, whatever the length. -/
def Set (store : KVStore) (index : UInt64) (value : V) : KVStore :=
  store.set (ElemKey index) (MarshalBinaryLengthPrefixed value)

/-- `Delete`: remove the element at an index. -/
def Delete (store : KVStore) (index : UInt64) : KVStore :=
  store.delete (ElemKey index)

/-- `Push`: write at the index the length names, then store the length plus
one, which wraps at `2⁶⁴`. -/
def Push (store : KVStore) (value : V) : Except ListPanic KVStore := do
  let length ← Len store
  let store := Set store length value
  pure (store.set LengthKey (MarshalBinaryLengthPrefixed (length + 1)))

/-- The loop of `Iterate` over the entries under `0x01`: each value is decoded
and its index read from the key before the callback is called on them; the
loop stops after the first call that returns true.  The result is the calls
made. -/
def iterateLoop (fn : UInt64 → V → Bool) : List (Bytes × Bytes) → Except ListPanic (List (UInt64 × V))
  | [] => .ok []
  | (k, v) :: rest => do
    let x ← MustUnmarshalBinaryLengthPrefixed v
    let index ← keyIndex k
    if fn index x then pure [(index, x)]
    else (List.cons (index, x)) <$> iterateLoop fn rest

/-- `Iterate`: the loop over the prefix scan of `0x01`. -/
def Iterate (store : KVStore) (fn : UInt64 → V → Bool) : Except ListPanic (List (UInt64 × V)) :=
  iterateLoop fn (KVStorePrefixIterator store [0x01])

/-! ### The representation -/

/-- The store represents the sparse array `A`: its length decodes to the
counter, every element key holds the encoding of the array's entry at its
index, and every key under `0x01` that is set is an element key. -/
structure Rep (store : KVStore) (A : SparseList V) : Prop where
  len : Len store = .ok A.len
  elem : ∀ i, store.get (ElemKey i) = (A.get i).map MarshalBinaryLengthPrefixed
  only_elems : ∀ k v, store.get k = some v → [0x01] <+: k → ∃ i, k = ElemKey i

omit [BinaryCodec UInt64] in
theorem Get_eq {store : KVStore} {A : SparseList V}
    (helem : ∀ i, store.get (ElemKey i) = (A.get i).map MarshalBinaryLengthPrefixed) (i : UInt64) :
    Get store i = A.get i := by
  rw [Get, helem]
  cases A.get i <;> simp

theorem Len_of_get_eq {store store' : KVStore} (h : store'.get LengthKey = store.get LengthKey) :
    Len store' = Len store := by
  rw [Len, Len, h]

/-- A store without the list's keys represents the empty array. -/
theorem Rep.fresh {store : KVStore} (h0 : store.get LengthKey = none)
    (h1 : ∀ k v, store.get k = some v → ¬ [0x01] <+: k) : Rep store (SparseList.empty : SparseList V) where
  len := by rw [Len, h0]; rfl
  elem i := by
    cases h : store.get (ElemKey i) with
    | none => rfl
    | some v => exact absurd (prefix_ElemKey i) (h1 _ v h)
  only_elems k v hk hp := absurd hp (h1 k v hk)

theorem Rep.empty : Rep SortedKV.empty (SparseList.empty : SparseList V) :=
  Rep.fresh rfl fun _ _ h => by simp at h

namespace Rep

variable {store : KVStore} {A : SparseList V}

theorem Get (h : Rep store A) (i : UInt64) : StoreList.Get store i = A.get i := Get_eq h.elem i

theorem Set (h : Rep store A) (i : UInt64) (v : V) : Rep (StoreList.Set store i v) (A.set i v) where
  len := by
    have hlen : (StoreList.Set store i v).get LengthKey = store.get LengthKey := by
      rw [StoreList.Set, SortedKV.get_set, if_neg (ElemKey_ne_LengthKey i).symm]
    exact (Len_of_get_eq hlen).trans h.len
  elem j := by
    rw [StoreList.Set, SortedKV.get_set, SparseList.get_set, h.elem]
    by_cases hji : j = i
    · simp [hji]
    · have hne : ElemKey j ≠ ElemKey i := fun h => hji (ElemKey_inj h)
      simp [hji, hne]
  only_elems k w hk hp := by
    rw [StoreList.Set, SortedKV.get_set] at hk
    split_ifs at hk with hki
    · exact ⟨i, hki⟩
    · exact h.only_elems k w hk hp

theorem Delete (h : Rep store A) (i : UInt64) : Rep (StoreList.Delete store i) (A.delete i) where
  len := by
    have hlen : (StoreList.Delete store i).get LengthKey = store.get LengthKey := by
      rw [StoreList.Delete, SortedKV.get_delete, if_neg (ElemKey_ne_LengthKey i).symm]
    exact (Len_of_get_eq hlen).trans h.len
  elem j := by
    rw [StoreList.Delete, SortedKV.get_delete, SparseList.get_delete, h.elem]
    by_cases hji : j = i
    · simp [hji]
    · have hne : ElemKey j ≠ ElemKey i := fun h => hji (ElemKey_inj h)
      simp [hji, hne]
  only_elems k w hk hp := by
    rw [StoreList.Delete, SortedKV.get_delete] at hk
    split_ifs at hk
    exact h.only_elems k w hk hp

/-- Storing a length changes only the counter. -/
theorem setLength (h : Rep store A) (n : UInt64) :
    Rep (store.set LengthKey (MarshalBinaryLengthPrefixed n)) { A with len := n } where
  len := by simp [Len]
  elem j := by
    rw [SortedKV.get_set, if_neg (ElemKey_ne_LengthKey j)]
    exact h.elem j
  only_elems k w hk hp := by
    rw [SortedKV.get_set] at hk
    split_ifs at hk with hk'
    · exact absurd (hk' ▸ hp) not_prefix_LengthKey
    · exact h.only_elems k w hk hp

theorem Push (h : Rep store A) (v : V) :
    StoreList.Push store v =
        .ok ((StoreList.Set store A.len v).set LengthKey (MarshalBinaryLengthPrefixed (A.len + 1))) ∧
      Rep ((StoreList.Set store A.len v).set LengthKey (MarshalBinaryLengthPrefixed (A.len + 1)))
        (A.push v) := by
  refine ⟨by rw [StoreList.Push, h.len]; rfl, ?_⟩
  exact (h.Set A.len v).setLength (A.len + 1)

/-- The prefix scan of `0x01` lists the element keys in index order, with the
encodings of the elements. -/
theorem prefixScan (h : Rep store A) :
    KVStorePrefixIterator store [0x01] =
      A.entries.map fun e => (ElemKey e.1, MarshalBinaryLengthPrefixed e.2) := by
  symm
  refine eq_KVStorePrefixIterator_of_mem_iff ?_ fun k w => ?_
  · -- element keys increase with the indices
    exact A.entries_sorted.map _ fun a b hab => keyLt_iff.2 (ElemKey_lt_iff.2 hab)
  · rw [List.mem_map]
    constructor
    · rintro ⟨⟨i, y⟩, hiy, hkw⟩
      obtain ⟨rfl, rfl⟩ := Prod.ext_iff.1 hkw
      refine ⟨?_, prefix_ElemKey i⟩
      rw [h.elem, SparseList.mem_entries.1 hiy]
      rfl
    · rintro ⟨hk, hp⟩
      obtain ⟨i, rfl⟩ := h.only_elems k w hk hp
      rw [h.elem] at hk
      obtain ⟨y, hy, rfl⟩ := Option.map_eq_some_iff.1 hk
      exact ⟨(i, y), SparseList.mem_entries.2 hy, rfl⟩

omit [BinaryCodec UInt64] in
theorem iterateLoop_entries (fn : UInt64 → V → Bool) :
    ∀ l : List (UInt64 × V),
      iterateLoop fn (l.map fun e => (ElemKey e.1, MarshalBinaryLengthPrefixed e.2)) =
        .ok (callsUntil (fun e => fn e.1 e.2) l)
  | [] => rfl
  | (i, x) :: l => by
    rw [List.map_cons, iterateLoop, MustUnmarshalBinaryLengthPrefixed_marshal, Except.ok_bind,
      keyIndex_ElemKey, Except.ok_bind, callsUntil]
    split_ifs
    · rfl
    · rw [iterateLoop_entries fn l]
      rfl

theorem Iterate (h : Rep store A) (fn : UInt64 → V → Bool) :
    StoreList.Iterate store fn = .ok (A.iterate fn) := by
  rw [StoreList.Iterate, h.prefixScan, iterateLoop_entries]
  rfl

end Rep

/-! ### Runs of calls -/

/-- A call of the list, with the callback of `Iterate` reading the element the
pointer it is given holds. -/
inductive Op (V : Type) where
  | Len
  | Get (index : UInt64)
  | Set (index : UInt64) (value : V)
  | Delete (index : UInt64)
  | Push (value : V)
  | Iterate (fn : UInt64 → V → Bool)

/-- The answer of a call that reads. -/
inductive Reply (V : Type) where
  | len (n : UInt64)
  | get (value : Option V)
  | calls (l : List (UInt64 × V))
  deriving DecidableEq

def Op.isPush : Op V → Bool
  | .Push _ => true
  | _ => false

/-- One call on the store: the store after it, and the answer of a call that
reads. -/
def apply (store : KVStore) : Op V → Except ListPanic (KVStore × Option (Reply V))
  | .Len => (Len store).map fun n => (store, some (.len n))
  | .Get index => .ok (store, some (.get (Get store index)))
  | .Set index value => .ok (Set store index value, none)
  | .Delete index => .ok (Delete store index, none)
  | .Push value => (Push store value).map fun store' => (store', none)
  | .Iterate fn => (Iterate store fn).map fun calls => (store, some (.calls calls))

/-- The calls one after the other, until one panics. -/
def run : KVStore → List (Op V) → Except ListPanic (KVStore × List (Reply V)) :=
  LoggedRun.runE apply

end StoreList

namespace SparseList

variable {V : Type}

/-- One call on the sparse array, and the answer of a call that reads. -/
def apply (A : SparseList V) : StoreList.Op V → SparseList V × Option (StoreList.Reply V)
  | .Len => (A, some (.len A.len))
  | .Get i => (A, some (.get (A.get i)))
  | .Set i v => (A.set i v, none)
  | .Delete i => (A.delete i, none)
  | .Push v => (A.push v, none)
  | .Iterate fn => (A, some (.calls (A.iterate fn)))

def run : SparseList V → List (StoreList.Op V) → SparseList V × List (StoreList.Reply V) :=
  LoggedRun.run apply

/-- The counter after a run is the count of its pushes, modulo `2⁶⁴`. -/
theorem len_run (A : SparseList V) (ops : List (StoreList.Op V)) :
    (A.run ops).1.len = A.len + UInt64.ofNat (ops.countP StoreList.Op.isPush) := by
  induction ops generalizing A with
  | nil => simp [run]
  | cons o ops ih =>
    rw [run, LoggedRun.run_cons, ← run, ih]
    cases o <;> simp [apply, push, set, delete, StoreList.Op.isPush, List.countP_cons, UInt64.ofNat_add,
      add_assoc, add_comm]

end SparseList

namespace StoreList

section Refinement

variable {V : Type} [BinaryCodec V] [BinaryCodec UInt64]

/-- One call keeps the representation and answers as the sparse array does. -/
theorem Rep.apply {store : KVStore} {A : SparseList V} (h : Rep store A) (o : Op V) :
    ∃ store', StoreList.apply store o = .ok (store', (A.apply o).2) ∧ Rep store' (A.apply o).1 := by
  cases o with
  | Len => exact ⟨store, by rw [StoreList.apply, h.len]; rfl, h⟩
  | Get i => exact ⟨store, by rw [StoreList.apply, h.Get]; rfl, h⟩
  | Set i v => exact ⟨_, rfl, h.Set i v⟩
  | Delete i => exact ⟨_, rfl, h.Delete i⟩
  | Push v =>
    obtain ⟨hpush, hrep⟩ := h.Push v
    exact ⟨_, by rw [StoreList.apply, hpush]; rfl, hrep⟩
  | Iterate fn => exact ⟨store, by rw [StoreList.apply, h.Iterate]; rfl, h⟩

/-- A run of calls on a represented store answers as the sparse array does,
never panics, and keeps the representation: the per-call lemma carried along
the run by the simulation rule. -/
theorem Rep.run {store : KVStore} {A : SparseList V} (h : Rep store A) (ops : List (Op V)) :
    ∃ store', run store ops = .ok (store', (A.run ops).2) ∧ Rep store' (A.run ops).1 :=
  LoggedRun.runE_of_simulation StoreList.apply SparseList.apply Rep (H := fun _ => True)
    (fun _ _ o hR _ => hR.apply o) h fun _ _ => trivial

/-- What a represented store's `Iterate` does: it never panics, the indices it
hands to the callback strictly increase, each comes with the element `Get`
returns at it, every call but the last was told to go on, and a loop no call
stopped met every element. -/
theorem Rep.iterate_spec {store : KVStore} {A : SparseList V} (h : Rep store A)
    (fn : UInt64 → V → Bool) :
    ∃ calls, StoreList.Iterate store fn = .ok calls ∧
      calls.Pairwise (fun a b => a.1 < b.1) ∧
      (∀ c ∈ calls, StoreList.Get store c.1 = some c.2) ∧
      (∀ c ∈ calls.dropLast, fn c.1 c.2 = false) ∧
      ((∀ c ∈ calls, fn c.1 c.2 = false) → ∀ i x, StoreList.Get store i = some x → (i, x) ∈ calls) := by
  refine ⟨A.iterate fn, h.Iterate fn, A.iterate_sorted fn, fun c hc => ?_, callsUntil_dropLast _ _,
    fun hfn i x hx => ?_⟩
  · rw [h.Get]
    exact SparseList.get_of_mem_iterate hc
  · rw [h.Get] at hx
    exact SparseList.mem_iterate_of_get hfn hx

/-- **The list refines the sparse array.**  Every run of calls on the empty
store succeeds without a panic, answers each call that reads as the empty
sparse array does under the same calls, and leaves a store that represents the
array those calls build. -/
theorem list_refines (ops : List (Op V)) :
    ∃ store, run SortedKV.empty ops = .ok (store, (SparseList.run .empty ops).2) ∧
      Rep store (SparseList.run .empty ops).1 :=
  Rep.empty.run ops

end Refinement

example :
    (run SortedKV.empty [Op.Push (7 : UInt64), .Push 9, .Delete 0, .Iterate fun _ _ => false, .Len]).map
      Prod.snd = .ok [.calls [(1, 9)], .len 2] := by
  decide +kernel

section Runs

variable {V : Type} [BinaryCodec V] [BinaryCodec UInt64]

/-- **`Iterate` meets the elements in index order, each as `Get` reads it.**
In every store a run of calls from the empty store leaves, the scan under
`0x01` never panics, the indices handed to the callback strictly increase, each
comes with the element `Get` returns at it, as the comment of `Iterate`
promises, the loop stops right after the first call that returns true, and a
loop no call stopped met every element. -/
theorem iterate_in_index_order (ops : List (Op V)) (fn : UInt64 → V → Bool) :
    ∃ store replies calls, run SortedKV.empty ops = .ok (store, replies) ∧
      Iterate store fn = .ok calls ∧
      calls.Pairwise (fun a b => a.1 < b.1) ∧
      (∀ c ∈ calls, Get store c.1 = some c.2) ∧
      (∀ c ∈ calls.dropLast, fn c.1 c.2 = false) ∧
      ((∀ c ∈ calls, fn c.1 c.2 = false) → ∀ i x, Get store i = some x → (i, x) ∈ calls) := by
  obtain ⟨store, hrun, hrep⟩ := Rep.empty.run ops
  obtain ⟨calls, hcalls⟩ := hrep.iterate_spec fn
  exact ⟨store, _, calls, hrun, hcalls⟩

/-- **The length counts the pushes, modulo `2⁶⁴`.**  After any run of calls
from the empty store, `Len` reads the number of `Push` calls of the run,
wrapped at `2⁶⁴`: no other call moves it, and the push after `2⁶⁴ - 1`
pushes brings it back to zero, whatever the comment of `Len` says. -/
theorem Len_counts_pushes (ops : List (Op V)) :
    ∃ store replies, run SortedKV.empty ops = .ok (store, replies) ∧
      Len store = .ok (UInt64.ofNat (ops.countP Op.isPush)) := by
  obtain ⟨store, hrun, hrep⟩ := Rep.empty.run ops
  refine ⟨store, _, hrun, ?_⟩
  rw [hrep.len, SparseList.len_run]
  simp [SparseList.empty]

end Runs

end StoreList

end ColorSdk
