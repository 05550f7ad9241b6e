import ColorSdk.Lib.Cursor
import ColorSdk.Lib.Overlay
import Mathlib.Data.Finset.Sort

/-!
# The cache-wrapped store

`cachekv.Store` wraps an in-memory write-back cache around a parent store.
Reads that miss the cache are fetched from the parent and remembered as clean
entries; writes and deletions are remembered as dirty entries (a deletion as a
`nil` value) and reach the parent only on `Write`, in key order.

Iteration is where the state is subtle.  Dirty keys wait in `unsortedCache`
until an iterator needs them: `dirtyItems` moves the dirty keys of the
iterated domain, with their current values, into `sortedCache`, a sorted list
merged in place.  The iterator then merges the parent's iterator with a
`memIterator` over the part of `sortedCache` in the domain; a cache item with
the same key shadows the parent, and a `nil` item hides it.

This file is the model, one definition per Go function, over keys of any
linear order (Go compares `[]byte` keys with `bytes.Compare`) and values of
any type, Go's `nil` being `none`.  `dbm.IsKeyInDomain` comes from the
database library and is a parameter here.

## Main definitions

* `cValue`, `Store`, `NewStore`, `Store.Get`, `Store.Set`, `Store.Has`,
  `Store.Delete`, `Store.Write`.
* `Store.dirtyItems` and its merge loop `mergeDirty`.
* `memIterator`, `newMemIterator`.
* `cacheMergeIterator` with `skipCacheDeletes`, `skipUntilExistsOrInvalid`,
  `Valid`, `Next`, `Key`, `Value`, and its `cursor`.
* `Store.iterator`, `Store.Iterator`, `Store.ReverseIterator`.

## References

* src/store/cachekv/store.go, src/store/cachekv/memiterator.go,
  src/store/cachekv/mergeiterator.go
-/

namespace ColorSdk
namespace CacheKV

variable {K V : Type}

/-! ### Cached values and the store -/

/-- A cached value.  If value is nil but deleted is false, it means the parent
doesn't have the key. -/
structure cValue (V : Type) where
  value : Option V
  deleted : Bool
  dirty : Bool

/-- Store wraps an in-memory cache around an underlying store. -/
structure Store (K V : Type) [LinearOrder K] where
  /-- The cache, a map from keys to cached values. -/
  cache : SortedKV K (cValue V)
  /-- Dirty keys not yet moved to `sortedCache`. -/
  unsortedCache : Finset K
  /-- Always ascending sorted. -/
  sortedCache : List (K × Option V)
  /-- The contents of the parent store. -/
  parent : SortedKV K V

section Store

variable [LinearOrder K]

/-- A store with an empty cache over `parent`. -/
def NewStore (parent : SortedKV K V) : Store K V := ⟨SortedKV.empty, ∅, [], parent⟩

namespace Store

/-- Only entrypoint to mutate store.cache. -/
def setCacheValue (store : Store K V) (key : K) (value : Option V) (deleted dirty : Bool) :
    Store K V where
  cache := store.cache.set key ⟨value, deleted, dirty⟩
  unsortedCache := if dirty then insert key store.unsortedCache else store.unsortedCache
  sortedCache := store.sortedCache
  parent := store.parent

/-- Implements KVStore: a miss is fetched from the parent and cached clean. -/
def Get (store : Store K V) (key : K) : Option V × Store K V :=
  match store.cache.get key with
  | none =>
    let value := store.parent.get key
    (value, store.setCacheValue key value false false)
  | some cacheValue => (cacheValue.value, store)

/-- Implements KVStore. -/
def Set (store : Store K V) (key : K) (value : V) : Store K V :=
  store.setCacheValue key (some value) false true

/-- Implements KVStore. -/
def Has (store : Store K V) (key : K) : Bool × Store K V :=
  let (value, store) := store.Get key
  (value.isSome, store)

/-- Implements KVStore. -/
def Delete (store : Store K V) (key : K) : Store K V :=
  store.setCacheValue key none true true

/-- The dirty keys of the cache, in ascending order: Go collects them from the
map and sorts them, the cache's entries are already sorted. -/
def dirtyKeys (cache : SortedKV K (cValue V)) : List K :=
  (cache.entries.filter fun e => e.2.dirty).map Prod.fst

/-- One key of `Write`: a deletion deletes, a `nil` value is skipped (it
already doesn't exist in parent), a value is set. -/
def writeKey (cache : SortedKV K (cValue V)) (parent : SortedKV K V) (key : K) :
    SortedKV K V :=
  match cache.get key with
  | some cacheValue =>
    if cacheValue.deleted then parent.delete key
    else
      match cacheValue.value with
      | none => parent
      | some value => parent.set key value
  | none => parent

/-- Implements CacheKVStore: flush the dirty keys in order, then clear the
cache. -/
def Write (store : Store K V) : Store K V :=
  NewStore ((dirtyKeys store.cache).foldl (writeKey store.cache) store.parent)

/-- The merge loop of `dirtyItems`: walk `sortedCache` and the sorted new
items together, inserting a smaller item before the current element,
replacing an element with the same key, and appending what is left. -/
def mergeDirty : List (K × Option V) → List (K × Option V) → List (K × Option V)
  | [], sorted => sorted
  | unsorted, [] => unsorted
  | uitem :: unsorted, sitem :: sorted =>
    match compare uitem.1 sitem.1 with
    | .lt => uitem :: mergeDirty unsorted (sitem :: sorted)
    | .gt => sitem :: mergeDirty (uitem :: unsorted) sorted
    | .eq => uitem :: mergeDirty unsorted sorted
termination_by u s => u.length + s.length

/-- The value of a key in the cache.  The keys of `unsortedCache` always have
an entry, so Go's nil dereference for a missing one never happens. -/
def cachedValue (cache : SortedKV K (cValue V)) (key : K) : Option V :=
  (cache.get key).bind cValue.value

variable (IsKeyInDomain : K → Option K → Option K → Bool)

/-- Move the dirty keys of `[start, end)` with their current values from
`unsortedCache` into `sortedCache`. -/
def dirtyItems (store : Store K V) (start endKey : Option K) : Store K V :=
  let inDomain := store.unsortedCache.filter fun key => IsKeyInDomain key start endKey
  let unsorted := inDomain.sort.map fun key => (key, cachedValue store.cache key)
  { store with
    unsortedCache := store.unsortedCache.filter fun key => !IsKeyInDomain key start endKey
    sortedCache := mergeDirty unsorted store.sortedCache }

end Store

end Store

/-! ### The memory iterator -/

/-- Iterates over the items of the cache; a `nil` value means the key was
deleted. -/
structure memIterator (K V : Type) where
  start : Option K
  endKey : Option K
  items : List (K × Option V)
  ascending : Bool

section MemIterator

variable (IsKeyInDomain : K → Option K → Option K → Bool)

/-- The loop of `newMemIterator`: keep the items in the domain, and stop at the
first item outside it once the domain has been entered. -/
def itemsInDomain (start endKey : Option K) : Bool → List (K × Option V) → List (K × Option V)
  | _, [] => []
  | entered, item :: rest =>
    if !IsKeyInDomain item.1 start endKey then
      if entered then [] else itemsInDomain start endKey false rest
    else item :: itemsInDomain start endKey true rest

/-- A memory iterator over the items of `[start, end)`. -/
def newMemIterator (start endKey : Option K) (items : List (K × Option V)) (ascending : Bool) :
    memIterator K V :=
  ⟨start, endKey, itemsInDomain IsKeyInDomain start endKey false items, ascending⟩

end MemIterator

namespace memIterator

/-- Implements Iterator. -/
def Valid (mi : memIterator K V) : Bool := 0 < mi.items.length

theorem items_ne_nil {mi : memIterator K V} (h : mi.Valid = true) : mi.items ≠ [] :=
  List.ne_nil_of_length_pos (of_decide_eq_true h)

/-- The current item of a valid iterator: the first item ascending, the last
descending. -/
def current (mi : memIterator K V) (h : mi.Valid = true) : K × Option V :=
  if mi.ascending then mi.items.head (items_ne_nil h) else mi.items.getLast (items_ne_nil h)

/-- Drop the current item. -/
def next (mi : memIterator K V) : memIterator K V :=
  if mi.ascending then { mi with items := mi.items.tail } else { mi with items := mi.items.dropLast }

/-- Implements Iterator; panics when invalid. -/
def Next (mi : memIterator K V) : Option (memIterator K V) :=
  if mi.Valid then some mi.next else none

/-- Implements Iterator; panics when invalid. -/
def Key (mi : memIterator K V) : Option K :=
  if h : mi.Valid then some (mi.current h).1 else none

/-- Implements Iterator; panics when invalid. -/
def Value (mi : memIterator K V) : Option (Option V) :=
  if h : mi.Valid then some (mi.current h).2 else none

theorem length_next_lt {mi : memIterator K V} (h : mi.Valid = true) :
    mi.next.items.length < mi.items.length := by
  have hpos : 0 < mi.items.length := of_decide_eq_true h
  unfold next
  split <;> simp <;> omega

end memIterator

/-! ### The merge iterator -/

/-- Merges a parent iterator and a cache iterator.  The parent iterator is the
list of entries it still has to yield, in the order of iteration. -/
structure cacheMergeIterator (K V : Type) where
  parent : List (K × V)
  cache : memIterator K V
  ascending : Bool

/-- A merge iterator over a parent and a cache iterator. -/
def newCacheMergeIterator (parent : List (K × V)) (cache : memIterator K V) (ascending : Bool) :
    cacheMergeIterator K V :=
  ⟨parent, cache, ascending⟩

/-- Like `bytes.Compare` but opposite if not ascending. -/
def compareDir [LinearOrder K] (ascending : Bool) (a b : K) : Ordering :=
  if ascending then compare a b else (compare a b).swap

section Skip

variable (cmp : K → K → Ordering)

/-- Skip all delete-items from the cache with key below `untilKey` (no limit for
`nil`).  After this, the current cache item is not a delete-item, or
`untilKey ≤ key`, or the cache is invalid. -/
def skipCacheDeletes (untilKey : Option K) (cache : memIterator K V) : memIterator K V :=
  if h : cache.Valid then
    if (cache.current h).2.isNone && untilKey.all fun u => decide (cmp (cache.current h).1 u = .lt)
    then skipCacheDeletes untilKey cache.next
    else cache
  else cache
termination_by cache.items.length
decreasing_by exact memIterator.length_next_lt h

theorem length_skipCacheDeletes_le (untilKey : Option K) (cache : memIterator K V) :
    (skipCacheDeletes cmp untilKey cache).items.length ≤ cache.items.length := by
  induction cache using skipCacheDeletes.induct cmp untilKey with
  | case1 cache h hskip ih =>
    rw [skipCacheDeletes, dif_pos h, if_pos hskip]
    exact le_trans ih (le_of_lt (memIterator.length_next_lt h))
  | case2 cache h hskip => rw [skipCacheDeletes, dif_pos h, if_neg hskip]
  | case3 cache h => rw [skipCacheDeletes, dif_neg h]

/-- A delete-item below the limit is always skipped. -/
theorem length_skipCacheDeletes_lt {cache : memIterator K V} {u : K} (h : cache.Valid = true)
    (hnil : (cache.current h).2.isNone = true) (hlt : cmp (cache.current h).1 u = .lt) :
    (skipCacheDeletes cmp (some u) cache).items.length < cache.items.length := by
  rw [skipCacheDeletes, dif_pos h, if_pos (by simp [hnil, hlt])]
  exact lt_of_le_of_lt (length_skipCacheDeletes_le cmp _ _) (memIterator.length_next_lt h)

-- `hc` and `hv` are read by the termination proof only, which the linter does not see
set_option linter.unusedVariables false in
/-- Fast forward the cache (or parent and cache, past deleted items) until the
current item exists, or until the iterator becomes invalid.  Returns whether
the iterator is valid, with the new parent and cache. -/
def skipUntilExistsOrInvalid [Std.OrientedCmp cmp] (parent : List (K × V))
    (cache : memIterator K V) : Bool × List (K × V) × memIterator K V :=
  match parent with
  | [] =>
    -- If parent is invalid, fast-forward cache.
    let cache := skipCacheDeletes cmp none cache
    (cache.Valid, [], cache)
  | (keyP, valueP) :: rest =>
    if h : cache.Valid then
      match hc : cmp keyP (cache.current h).1 with
      | .lt => (true, (keyP, valueP) :: rest, cache)
      | .eq =>
        -- Skip over if cache item is a delete.
        if (cache.current h).2.isNone then skipUntilExistsOrInvalid rest cache.next
        else (true, (keyP, valueP) :: rest, cache)
      | .gt =>
        if hv : (cache.current h).2.isNone then
          skipUntilExistsOrInvalid ((keyP, valueP) :: rest) (skipCacheDeletes cmp (some keyP) cache)
        else (true, (keyP, valueP) :: rest, cache)
    else (true, (keyP, valueP) :: rest, cache)
termination_by cache.items.length
decreasing_by
  · exact memIterator.length_next_lt h
  · exact length_skipCacheDeletes_lt cmp h hv (Std.OrientedCmp.lt_of_gt hc)

end Skip

namespace cacheMergeIterator

variable [LinearOrder K]

/-- Like `bytes.Compare` but opposite if not ascending. -/
def compare (iter : cacheMergeIterator K V) : K → K → Ordering := compareDir iter.ascending

instance (asc : Bool) : Std.OrientedCmp (compareDir (K := K) asc) where
  eq_swap {a b} := by
    cases asc
    · show (Ord.compare a b).swap = ((Ord.compare b a).swap).swap
      rw [Ordering.swap_swap]
      exact Std.OrientedOrd.eq_swap.symm
    · exact Std.OrientedOrd.eq_swap

instance (iter : cacheMergeIterator K V) : Std.OrientedCmp iter.compare :=
  inferInstanceAs (Std.OrientedCmp (compareDir iter.ascending))

/-- Implements Iterator: skip until the current item exists; this moves the
iterator. -/
def Valid (iter : cacheMergeIterator K V) : Bool × cacheMergeIterator K V :=
  let (valid, parent, cache) := skipUntilExistsOrInvalid iter.compare iter.parent iter.cache
  (valid, { iter with parent := parent, cache := cache })

/-- Implements Iterator. -/
def Next (iter : cacheMergeIterator K V) : Option (cacheMergeIterator K V) :=
  let iter := iter.Valid.2
  -- assertValid
  let (valid, iter) := iter.Valid
  if !valid then none
  else
    match iter.parent with
    | [] =>
      -- If parent is invalid, get the next cache item.
      iter.cache.Next.map fun cache => { iter with cache := cache }
    | (keyP, _) :: rest =>
      if h : iter.cache.Valid then
        match iter.compare keyP (iter.cache.current h).1 with
        | .lt => some { iter with parent := rest }
        | .eq => iter.cache.Next.map fun cache => { iter with parent := rest, cache := cache }
        | .gt => iter.cache.Next.map fun cache => { iter with cache := cache }
      else
        -- If cache is invalid, get the next parent item.
        some { iter with parent := rest }

/-- Implements Iterator. -/
def Key (iter : cacheMergeIterator K V) : Option (K × cacheMergeIterator K V) :=
  let iter := iter.Valid.2
  let (valid, iter) := iter.Valid
  if !valid then none
  else
    match iter.parent with
    | [] => iter.cache.Key.map (·, iter)
    | (keyP, _) :: _ =>
      if h : iter.cache.Valid then
        match iter.compare keyP (iter.cache.current h).1 with
        | .lt => some (keyP, iter)
        | .eq => some (keyP, iter)
        | .gt => some ((iter.cache.current h).1, iter)
      else some (keyP, iter)

/-- Implements Iterator. -/
def Value (iter : cacheMergeIterator K V) : Option (Option V × cacheMergeIterator K V) :=
  let iter := iter.Valid.2
  let (valid, iter) := iter.Valid
  if !valid then none
  else
    match iter.parent with
    | [] => iter.cache.Value.map (·, iter)
    | (keyP, valueP) :: _ =>
      if h : iter.cache.Valid then
        match iter.compare keyP (iter.cache.current h).1 with
        | .lt => some (some valueP, iter)
        | .eq => some ((iter.cache.current h).2, iter)
        | .gt => some ((iter.cache.current h).2, iter)
      else some (some valueP, iter)

/-- The iterator interface of a merge iterator; its values may be `nil`. -/
def cursor : Cursor (cacheMergeIterator K V) K (Option V) where
  valid := Valid
  key := Key
  value := Value
  next := Next
  size iter := iter.parent.length + iter.cache.items.length

end cacheMergeIterator

/-! ### Iterators of the store -/

namespace Store

variable [LinearOrder K] (IsKeyInDomain : K → Option K → Option K → Bool)

/-- An iterator over `[start, end)`: the parent's iterator merged with a memory
iterator over the dirty items of the domain. -/
def iterator (store : Store K V) (start endKey : Option K) (ascending : Bool) :
    cacheMergeIterator K V × Store K V :=
  let parent := if ascending then store.parent.range start endKey
    else (store.parent.range start endKey).reverse
  let store := store.dirtyItems IsKeyInDomain start endKey
  let cache := newMemIterator IsKeyInDomain start endKey store.sortedCache ascending
  (newCacheMergeIterator parent cache ascending, store)

/-- Implements KVStore. -/
def Iterator (store : Store K V) (start endKey : Option K) : cacheMergeIterator K V × Store K V :=
  store.iterator IsKeyInDomain start endKey true

/-- Implements KVStore. -/
def ReverseIterator (store : Store K V) (start endKey : Option K) :
    cacheMergeIterator K V × Store K V :=
  store.iterator IsKeyInDomain start endKey false

end Store

end CacheKV

end ColorSdk
