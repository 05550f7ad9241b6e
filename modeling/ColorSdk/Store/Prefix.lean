import ColorSdk.Store.Types
import Mathlib.Data.List.TakeWhile

/-!
# The prefix store

`prefix.Store` gives access to the keys of a parent store that start with a
fixed prefix, with the prefix stripped.  Point operations prepend the prefix.
Iteration asks the parent for `[p ++ start, p ++ end)`, or for
`[p ++ start, PrefixEndBytes p)` when `end` is `nil`, and wraps the parent
iterator in a `prefixIterator`, which stops at the first key without the prefix
and strips the prefix from the keys it yields.

The abstract model of a prefix store is the view `SortedKV.under` of the
parent's contents.  The store refines it: reads are reads of the view, writes
are writes of the view, and an iterator yields exactly the view's range, for
every prefix, those of `0xFF` bytes included.

## Main definitions

* `prefixIterator`, `newPrefixIterator`, `prefixIterator.cursor`.
* `Store` with `Get`, `Has`, `Set`, `Delete`, `Iterator`, `ReverseIterator`.

## Main results

* `prefixIterator.drain_newPrefixIterator` — a prefix iterator yields the
  parent's entries up to the first key without the prefix, stripped.
* `Store.drain_Iterator`, `Store.drain_ReverseIterator` — **an iterator yields
  the range of the view**, ascending, resp. descending.
* `Store.under_Set`, `Store.under_Delete` — writes act on the view.

## References

* src/store/prefix/store.go
-/

namespace ColorSdk

/-- Strip the prefix from a key; a key without it is a panic ("should not happen"). -/
def stripPrefix (key pfx : Bytes) : Option Bytes :=
  if key.length < pfx.length ∨ key.take pfx.length ≠ pfx then none
  else some (key.drop pfx.length)

theorem stripPrefix_of_isPrefix {key pfx : Bytes} (h : pfx <+: key) :
    stripPrefix key pfx = some (key.drop pfx.length) := by
  obtain ⟨t, rfl⟩ := h
  simp [stripPrefix]

/-- The iterator a prefix store hands out, over a parent iterator.  The parent
iterator is the list of entries it still has to yield. -/
structure prefixIterator where
  /-- The prefix of the store. -/
  pfx : Bytes
  /-- The bounds the iterator was asked for, as reported by `Domain`. -/
  start : Option Bytes
  endKey : Option Bytes
  /-- The parent iterator. -/
  iter : List (Bytes × Bytes)
  /-- Whether the parent has not yet left the prefix. -/
  valid : Bool

namespace prefixIterator

/-- The parent is valid and its key has the prefix. -/
def headHasPrefix (pfx : Bytes) : List (Bytes × Bytes) → Bool
  | [] => false
  | e :: _ => pfx.isPrefixOf e.1

/-- Implements Iterator. -/
def Valid (it : prefixIterator) : Bool := it.valid && !it.iter.isEmpty

/-- Implements Iterator; on an invalid iterator it panics. -/
def Next (it : prefixIterator) : Option prefixIterator :=
  if !it.valid then none
  else some { it with iter := it.iter.tail, valid := headHasPrefix it.pfx it.iter.tail }

/-- Implements Iterator: the parent's key with the prefix stripped. -/
def Key (it : prefixIterator) : Option Bytes :=
  if !it.valid then none else it.iter.head?.bind fun e => stripPrefix e.1 it.pfx

/-- Implements Iterator. -/
def Value (it : prefixIterator) : Option Bytes :=
  if !it.valid then none else it.iter.head?.map Prod.snd

/-- The iterator interface of a prefix iterator. -/
def cursor : Cursor prefixIterator Bytes Bytes where
  valid it := (Valid it, it)
  key it := (Key it).map (·, it)
  value it := (Value it).map (·, it)
  next := Next
  size it := it.iter.length

end prefixIterator

/-- Wrap a parent iterator. -/
def newPrefixIterator (pfx : Bytes) (start endKey : Option Bytes)
    (parent : List (Bytes × Bytes)) : prefixIterator :=
  ⟨pfx, start, endKey, parent, prefixIterator.headHasPrefix pfx parent⟩

namespace prefixIterator

/-- What a prefix iterator over the parent entries `l` yields: the entries up
to the first key without the prefix, with the prefix stripped. -/
def yields (pfx : Bytes) (l : List (Bytes × Bytes)) : List (Bytes × Bytes) :=
  (l.takeWhile fun e => pfx.isPrefixOf e.1).map (SortedKV.dropKey pfx)

/-- The run relation: the flag tracks the parent's head, and what is still to
come is what the parent's remaining entries yield. -/
def Tracks (it : prefixIterator) (l : List (Bytes × Bytes)) : Prop :=
  it.valid = headHasPrefix it.pfx it.iter ∧ l = yields it.pfx it.iter

theorem isRun_tracks : Cursor.IsRun (c := cursor) Tracks where
  done it h := by
    obtain ⟨hv, hl⟩ := h
    simp only [cursor, Valid, hv]
    -- nothing is yielded: the parent is exhausted or its head lacks the prefix
    cases hit : it.iter with
    | nil => simp [headHasPrefix]
    | cons e es =>
      rw [hit] at hl
      by_cases he : it.pfx.isPrefixOf e.1 = true
      · simp [yields, he] at hl
      · simp [headHasPrefix, he]
  step it k v l h := by
    obtain ⟨hv, hl⟩ := h
    cases hit : it.iter with
    | nil => simp [hit, yields] at hl
    | cons e es =>
      rw [hit] at hl hv
      by_cases he : it.pfx.isPrefixOf e.1 = true
      · simp only [yields, List.takeWhile_cons, he, if_true, List.map_cons,
          List.cons.injEq] at hl
        obtain ⟨hkv, hrest⟩ := hl
        simp only [SortedKV.dropKey, Prod.mk.injEq] at hkv
        obtain ⟨rfl, rfl⟩ := hkv
        have hvalid : it.valid = true := by rw [hv, headHasPrefix, he]
        refine ⟨it, it, it, { it with iter := it.iter.tail, valid := headHasPrefix it.pfx it.iter.tail },
          by simp [cursor, Valid, hvalid, hit], ?_, ?_, by simp [cursor, Next, hvalid], ?_⟩
        · simp [cursor, Key, hvalid, hit,
            stripPrefix_of_isPrefix (List.isPrefixOf_iff_prefix.1 he)]
        · simp [cursor, Value, hvalid, hit]
        · exact ⟨by simp [hit], by simpa [hit, yields] using hrest⟩
      · simp [yields, he] at hl

theorem length_yields_le (pfx : Bytes) (l : List (Bytes × Bytes)) :
    (yields pfx l).length ≤ l.length := by
  rw [yields, List.length_map]
  exact List.Sublist.length_le (List.takeWhile_sublist _)

/-- **A prefix iterator yields the parent's entries up to the first key without
the prefix, stripped.**  In particular `Key` never hits the panic of
`stripPrefix`. -/
theorem drain_newPrefixIterator (pfx : Bytes) (start endKey : Option Bytes)
    (parent : List (Bytes × Bytes)) :
    cursor.drain (newPrefixIterator pfx start endKey parent) = some (yields pfx parent) :=
  Cursor.drain_eq_of_run isRun_tracks ⟨rfl, rfl⟩ (length_yields_le pfx parent)

/-- Over parent entries that all carry the prefix, nothing is cut off. -/
theorem yields_of_forall_isPrefix {pfx : Bytes} {l : List (Bytes × Bytes)}
    (h : ∀ e ∈ l, pfx <+: e.1) : yields pfx l = l.map (SortedKV.dropKey pfx) := by
  rw [yields, List.takeWhile_eq_self_iff.2 fun e he => List.isPrefixOf_iff_prefix.2 (h e he)]

end prefixIterator

/-- A parent store seen under a prefix. -/
structure Store where
  /-- The parent store. -/
  parent : KVStore
  /-- The prefix. -/
  pfx : Bytes

namespace Store

/-- The parent key of a key: the prefix prepended (cloneAppend). -/
def key (s : Store) (k : Bytes) : Bytes := s.pfx ++ k

/-- Implements KVStore. -/
def Get (s : Store) (k : Bytes) : Option Bytes := s.parent.get (s.key k)

/-- Implements KVStore. -/
def Has (s : Store) (k : Bytes) : Bool := (s.parent.get (s.key k)).isSome

/-- Implements KVStore. -/
def Set (s : Store) (k v : Bytes) : Store := { s with parent := s.parent.set (s.key k) v }

/-- Implements KVStore. -/
def Delete (s : Store) (k : Bytes) : Store := { s with parent := s.parent.delete (s.key k) }

/-- The bounds the parent is asked for: `[p ++ start, p ++ end)`, or
`[p ++ start, PrefixEndBytes p)` for an open end. -/
def parentDomain (s : Store) (start endKey : Option Bytes) : Option Bytes × Option Bytes :=
  (some (s.pfx ++ start.getD []),
    match endKey with
    | none => PrefixEndBytes s.pfx
    | some e => some (s.pfx ++ e))

/-- Implements KVStore. -/
def Iterator (s : Store) (start endKey : Option Bytes) : prefixIterator :=
  let (newstart, newend) := s.parentDomain start endKey
  newPrefixIterator s.pfx start endKey (s.parent.Iterator newstart newend)

/-- Implements KVStore. -/
def ReverseIterator (s : Store) (start endKey : Option Bytes) : prefixIterator :=
  let (newstart, newend) := s.parentDomain start endKey
  newPrefixIterator s.pfx start endKey (s.parent.ReverseIterator newstart newend)

/-! ### The parent domain -/

/-- Every key of the parent domain carries the prefix, whatever the bounds, so
the parent iterator never leaves the prefix. -/
theorem isPrefix_of_inRange_parentDomain (s : Store) (start endKey : Option Bytes) {x : Bytes}
    (hx : inRange (s.parentDomain start endKey).1 (s.parentDomain start endKey).2 x = true) :
    s.pfx <+: x := by
  rw [inRange_iff] at hx
  have hlo : s.pfx ++ start.getD [] ≤ x := hx.1 _ rfl
  cases endKey with
  | none =>
    -- `p ≤ p ++ start ≤ x` and `x` is below `PrefixEndBytes p`
    refine (inRange_prefixEndBytes s.pfx x).1 (inRange_iff.2 ⟨?_, hx.2⟩)
    rintro l ⟨⟩
    exact le_trans (List.le_of_isPrefix (List.prefix_append _ _)) hlo
  | some e => exact List.isPrefix_of_append_le_of_lt_append hlo (hx.2 _ rfl)

/-- Inside the prefix, the parent domain is the requested domain. -/
theorem inRange_parentDomain_append (s : Store) (start endKey : Option Bytes) (k : Bytes) :
    inRange (s.parentDomain start endKey).1 (s.parentDomain start endKey).2 (s.pfx ++ k) =
      inRange start endKey k := by
  have hlo : (s.pfx ++ start.getD [] ≤ s.pfx ++ k) ↔ ∀ l, start = some l → l ≤ k := by
    rw [List.append_le_append_left_iff]
    cases start with
    | none => simpa using not_lt.1 (List.not_lt_nil k)
    | some l => simp
  have hhi : (∀ h, (s.parentDomain start endKey).2 = some h → s.pfx ++ k < h) ↔
      ∀ h, endKey = some h → k < h := by
    cases endKey with
    | none =>
      have hin := (inRange_prefixEndBytes s.pfx (s.pfx ++ k)).2 (List.prefix_append _ _)
      simpa [parentDomain] using (inRange_iff.1 hin).2
    | some e => simp [parentDomain, List.append_lt_append_left_iff]
  rw [Bool.eq_iff_iff, inRange_iff, inRange_iff, ← hlo, ← hhi]
  simp [parentDomain]

/-- The parent's range, stripped, is the view's range. -/
theorem map_dropKey_range (s : Store) (start endKey : Option Bytes) :
    (s.parent.range (s.parentDomain start endKey).1 (s.parentDomain start endKey).2).map
      (SortedKV.dropKey s.pfx) = (s.parent.under s.pfx).range start endKey := by
  have hp : ∀ e ∈ s.parent.range (s.parentDomain start endKey).1
      (s.parentDomain start endKey).2, s.pfx <+: e.1 := fun e he =>
    s.isPrefix_of_inRange_parentDomain start endKey (List.mem_filter.1 he).2
  refine SortedKV.eq_range_of_mem_iff
    (SortedKV.pairwise_map_dropKey hp (SortedKV.range_sorted _ _ _)) fun k v => ?_
  rw [SortedKV.mem_map_dropKey hp, SortedKV.mem_range, SortedKV.get_under,
    inRange_parentDomain_append]

/-! ### Refinement of the view -/

@[simp] theorem Get_eq (s : Store) (k : Bytes) : s.Get k = (s.parent.under s.pfx).get k := by
  rw [SortedKV.get_under]; rfl

theorem under_Set (s : Store) (k v : Bytes) :
    (s.Set k v).parent.under s.pfx = (s.parent.under s.pfx).set k v := by
  refine SortedKV.ext_get fun k' => ?_
  simp [Set, key]

theorem under_Delete (s : Store) (k : Bytes) :
    (s.Delete k).parent.under s.pfx = (s.parent.under s.pfx).delete k := by
  refine SortedKV.ext_get fun k' => ?_
  simp [Delete, key]

/-- **An iterator yields the range of the view, ascending.** -/
theorem drain_Iterator (s : Store) (start endKey : Option Bytes) :
    prefixIterator.cursor.drain (s.Iterator start endKey) =
      some ((s.parent.under s.pfx).range start endKey) := by
  have hp : ∀ e ∈ s.parent.range (s.parentDomain start endKey).1
      (s.parentDomain start endKey).2, s.pfx <+: e.1 := fun e he =>
    s.isPrefix_of_inRange_parentDomain start endKey (List.mem_filter.1 he).2
  rw [Iterator, prefixIterator.drain_newPrefixIterator, KVStore.Iterator,
    prefixIterator.yields_of_forall_isPrefix hp, map_dropKey_range]

/-- **A reverse iterator yields the range of the view, descending.** -/
theorem drain_ReverseIterator (s : Store) (start endKey : Option Bytes) :
    prefixIterator.cursor.drain (s.ReverseIterator start endKey) =
      some ((s.parent.under s.pfx).range start endKey).reverse := by
  have hp : ∀ e ∈ (s.parent.range (s.parentDomain start endKey).1
      (s.parentDomain start endKey).2).reverse, s.pfx <+: e.1 := fun e he =>
    s.isPrefix_of_inRange_parentDomain start endKey (List.mem_filter.1 (List.mem_reverse.1 he)).2
  rw [ReverseIterator, prefixIterator.drain_newPrefixIterator, KVStore.ReverseIterator,
    prefixIterator.yields_of_forall_isPrefix hp, List.map_reverse, map_dropKey_range]

/-- The view's range, read back in the parent: the pairs `(k, v)` with
`(p ++ k, v)` in the parent and `k` in `[start, end)`. -/
theorem mem_range_under (s : Store) {start endKey : Option Bytes} {k v : Bytes} :
    (k, v) ∈ (s.parent.under s.pfx).range start endKey ↔
      s.parent.get (s.pfx ++ k) = some v ∧ inRange start endKey k = true := by
  rw [SortedKV.mem_range, SortedKV.get_under]

end Store

/-- **The prefix store is the restricted view of its parent.**  Reads go to
`p ++ k`, writes change exactly the parent key `p ++ k`, and an iterator,
ascending or descending, yields exactly the pairs `(k, v)` with `(p ++ k, v)`
in the parent and `k` in `[start, end)`, each once, in strict key order. -/
theorem prefixStore_restricted_view (P : KVStore) (p : Bytes) :
    (∀ k, (Store.mk P p).Get k = P.get (p ++ k)) ∧
    (∀ k v k', ((Store.mk P p).Set k v).parent.get k' =
      if k' = p ++ k then some v else P.get k') ∧
    (∀ k k', ((Store.mk P p).Delete k).parent.get k' =
      if k' = p ++ k then none else P.get k') ∧
    (∀ start endKey, ∃ out,
      prefixIterator.cursor.drain ((Store.mk P p).Iterator start endKey) = some out ∧
      out.Pairwise KeyLt ∧
      ∀ k v, (k, v) ∈ out ↔ P.get (p ++ k) = some v ∧ inRange start endKey k = true) ∧
    (∀ start endKey, ∃ out,
      prefixIterator.cursor.drain ((Store.mk P p).ReverseIterator start endKey) = some out ∧
      out.Pairwise (fun a b => KeyLt b a) ∧
      ∀ k v, (k, v) ∈ out ↔ P.get (p ++ k) = some v ∧ inRange start endKey k = true) := by
  refine ⟨fun k => rfl, fun k v k' => by simp [Store.Set, Store.key],
    fun k k' => by simp [Store.Delete, Store.key], fun start endKey => ?_, fun start endKey => ?_⟩
  · -- ascending: the view's range
    refine ⟨_, Store.drain_Iterator _ start endKey, SortedKV.range_sorted _ _ _,
      fun k v => Store.mem_range_under _⟩
  · -- descending: the view's range reversed
    refine ⟨_, Store.drain_ReverseIterator _ start endKey,
      List.pairwise_reverse.2 (SortedKV.range_sorted _ _ _), fun k v => ?_⟩
    rw [List.mem_reverse]
    exact Store.mem_range_under _

end ColorSdk
