import ColorSdk.Store.CacheKVMerge

/-!
# The cache-wrapped store refines a map

A client sees a `cachekv.Store` over parent contents `P` as one map `M`: `P`
overridden by the writes and deletions made so far.  Reads return `M`'s values,
iterators list `M`'s entries of their range in order, and `Write` leaves `M` in
the parent with an empty cache.

The store keeps `M` spread over four structures: the cache map, the dirty keys
waiting in `unsortedCache`, the sorted dirty items of `sortedCache`, and the
parent.  `Store.Consistent s M` is the invariant that relates them to `M`.
Every operation keeps it (`Consistent.apply`), and from it each operation's
reply is the map's (`Consistent.drain_iterator` for the iterators, through
`cacheMergeIterator.drain_cursor`), and `Write` flushes exactly `M`
(`Consistent.Write_eq`).

`dbm.IsKeyInDomain` is a parameter of the model; the results assume what the
database library documents of it, that it tests `start ≤ key < end`.

## Main definitions

* `Store.Consistent s M` — the store `s` stands for the map `M`.
* `Op`, `Reply`, `Store.apply`, `Store.run` — a client's operations, each
  iterator fully consumed.
* `Op.spec`, `specRun` — the same operations on a map.

## Main results

* `Store.mergeDirty_eq_overlay` — the merge loop of `dirtyItems` is an overlay.
* `itemsInDomain_eq_filter` — the loop of `newMemIterator` filters a sorted list.
* `Store.Consistent.apply` — each operation keeps the invariant and replies as
  the map does.
* `Store.Consistent.Write_eq` — `Write` flushes the map into the parent.
* `cacheKV_refines_map` — **the store refines the map**.

## References

* src/store/cachekv/store.go, src/store/cachekv/memiterator.go
-/

namespace ColorSdk
namespace CacheKV

variable {K V : Type} [LinearOrder K]

/-! ### The merge loop of `dirtyItems` -/

namespace Store

/-- The merge loop of `dirtyItems` overlays the new items on `sortedCache`: an
item shadows the element with its key. -/
theorem mergeDirty_eq_overlay (u s : List (K × Option V)) :
    mergeDirty u s = overlay compare s (u.map fun x => (x.1, some x.2)) := by
  induction u, s using mergeDirty.induct with
  | case1 s => simp [mergeDirty]
  | case2 u hu =>
    obtain ⟨x, u, rfl⟩ := List.exists_cons_of_ne_nil hu
    rw [mergeDirty, overlay_nil_map_some]
    exact hu
  | case3 uitem u sitem s hlt ih =>
    have hgt : compare sitem.1 uitem.1 = .gt := Std.OrientedCmp.gt_of_lt hlt
    rw [mergeDirty, hlt, ih, List.map_cons, overlay, hgt]
    rfl
  | case4 uitem u sitem s hgt ih =>
    have hlt : compare sitem.1 uitem.1 = .lt := Std.OrientedCmp.lt_of_gt hgt
    rw [mergeDirty, hgt, ih, List.map_cons, overlay, hlt]
  | case5 uitem u sitem s heq ih =>
    have heq' : compare sitem.1 uitem.1 = .eq :=
      compare_eq_iff_eq.2 (compare_eq_iff_eq.1 heq).symm
    rw [mergeDirty, heq, ih, List.map_cons, overlay, heq']
    rfl

section Merge

variable {u s : List (K × Option V)}

theorem sortedBy_map_some {l : List (K × Option V)} (hl : l.Pairwise KeyLt) :
    SortedBy compare (l.map fun x => (x.1, some x.2)) :=
  sortedBy_compare_iff.2 (List.pairwise_map.2 hl)

theorem sorted_mergeDirty (hu : u.Pairwise KeyLt) (hs : s.Pairwise KeyLt) :
    (mergeDirty u s).Pairwise KeyLt := by
  rw [mergeDirty_eq_overlay, ← sortedBy_compare_iff]
  exact sortedBy_overlay (sortedBy_compare_iff.2 hs) (sortedBy_map_some hu)

/-- An item of the merge is a new item, or an old one whose key has no new item. -/
theorem mem_mergeDirty (hu : u.Pairwise KeyLt) (hs : s.Pairwise KeyLt) {k : K} {w : Option V} :
    (k, w) ∈ mergeDirty u s ↔ (k, w) ∈ u ∨ ((∀ w', (k, w') ∉ u) ∧ (k, w) ∈ s) := by
  rw [mergeDirty_eq_overlay, mem_overlay (sortedBy_compare_iff.2 hs) (sortedBy_map_some hu)]
  have hnew : ∀ w', (k, w') ∈ u.map (fun x => (x.1, some x.2)) ↔ ∃ w, w' = some w ∧ (k, w) ∈ u := by
    intro w'
    simp only [List.mem_map, Prod.mk.injEq, Prod.exists]
    constructor
    · rintro ⟨a, b, hab, rfl, rfl⟩
      exact ⟨b, rfl, hab⟩
    · rintro ⟨b, rfl, hb⟩
      exact ⟨k, b, hb, rfl, rfl⟩
  simp only [hnew, Option.some.injEq, exists_eq_left']
  constructor
  · rintro (h | ⟨hno, hs⟩)
    · exact .inl h
    · exact .inr ⟨fun w' hw' => hno (some w') ⟨w', rfl, hw'⟩, hs⟩
  · rintro (h | ⟨hno, hs⟩)
    · exact .inl h
    · exact .inr ⟨fun _ ⟨w', _, hw'⟩ => hno w' hw', hs⟩

end Merge

end Store

/-! ### The loop of `newMemIterator` -/

section Domain

variable {IsKeyInDomain : K → Option K → Option K → Bool}

/-- In a list sorted by key, the loop of `newMemIterator` keeps exactly the
items of the domain.  Once the loop has entered the domain, every item still to
come meets its lower bound, so the first item outside lies above it, and so does
everything after. -/
theorem itemsInDomain_eq_filter
    (hdom : ∀ k start endKey, IsKeyInDomain k start endKey = inRange start endKey k)
    {start endKey : Option K} :
    ∀ (entered : Bool) (l : List (K × Option V)), l.Pairwise KeyLt →
      (entered = true → ∀ x ∈ l, ∀ a, start = some a → a ≤ x.1) →
      itemsInDomain IsKeyInDomain start endKey entered l =
        l.filter fun x => inRange start endKey x.1
  | _, [], _, _ => rfl
  | entered, item :: rest, hl, hent => by
    have hrest : rest.Pairwise KeyLt := hl.of_cons
    have hhead : ∀ y ∈ rest, item.1 < y.1 := fun y hy => List.rel_of_pairwise_cons hl hy
    rw [itemsInDomain, hdom]
    cases hin : inRange start endKey item.1 with
    | true =>
      -- kept; its lower bound holds for everything after it
      have hlo : ∀ a, start = some a → a ≤ item.1 := (inRange_iff.1 hin).1
      have ih : itemsInDomain IsKeyInDomain start endKey true rest =
          rest.filter fun x => inRange start endKey x.1 :=
        itemsInDomain_eq_filter hdom true rest hrest
          fun _ y hy a ha => le_of_lt (lt_of_le_of_lt (hlo a ha) (hhead y hy))
      simp [hin, ih]
    | false =>
      cases entered with
      | false =>
        have ih : itemsInDomain IsKeyInDomain start endKey false rest =
            rest.filter fun x => inRange start endKey x.1 :=
          itemsInDomain_eq_filter hdom false rest hrest (by simp)
        simp [hin, ih]
      | true =>
        -- the loop breaks: the domain lies behind
        have hlo : ∀ a, start = some a → a ≤ item.1 := hent rfl item List.mem_cons_self
        have hnil : rest.filter (fun x => inRange start endKey x.1) = [] :=
          List.filter_eq_nil_iff.2 fun y hy => by
            simp [inRange_eq_false_of_lt hin hlo (hhead y hy)]
        simp [hin, hnil]

end Domain

/-! ### The invariant -/

namespace Store

section Fields

variable (s : Store K V) (key k : K) (value : Option V) (deleted dirty : Bool)

@[simp] theorem cache_setCacheValue :
    (s.setCacheValue key value deleted dirty).cache = s.cache.set key ⟨value, deleted, dirty⟩ :=
  rfl

@[simp] theorem unsortedCache_setCacheValue :
    (s.setCacheValue key value deleted dirty).unsortedCache =
      if dirty then insert key s.unsortedCache else s.unsortedCache :=
  rfl

@[simp] theorem sortedCache_setCacheValue :
    (s.setCacheValue key value deleted dirty).sortedCache = s.sortedCache :=
  rfl

@[simp] theorem parent_setCacheValue : (s.setCacheValue key value deleted dirty).parent = s.parent :=
  rfl

theorem get_setCacheValue_self :
    (s.setCacheValue key value deleted dirty).cache.get key = some ⟨value, deleted, dirty⟩ := by
  simp

end Fields

theorem get_setCacheValue_of_ne {s : Store K V} {key k : K} {value : Option V}
    {deleted dirty : Bool} (hk : k ≠ key) :
    (s.setCacheValue key value deleted dirty).cache.get k = s.cache.get k := by
  simp [hk]

/-- The dirty keys are those with a dirty cached value. -/
theorem mem_dirtyKeys {cache : SortedKV K (cValue V)} {key : K} :
    key ∈ dirtyKeys cache ↔ ∃ cv, cache.get key = some cv ∧ cv.dirty = true := by
  simp [dirtyKeys, SortedKV.get_eq_some_iff]

/-- **The invariant of a store standing for the map `M`.**  A key's value in
`M` is its dirty cached value if it has one, and the parent's otherwise; a
deletion is a `nil` value; and every dirty key either waits in
`unsortedCache` or has an item in `sortedCache`, which then holds its current
value. -/
structure Consistent (s : Store K V) (M : SortedKV K V) : Prop where
  cached : ∀ k cv, s.cache.get k = some cv → M.get k = cv.value
  uncached : ∀ k, s.cache.get k = none → M.get k = s.parent.get k
  clean : ∀ k cv, s.cache.get k = some cv → cv.dirty = false → cv.value = s.parent.get k
  deleted : ∀ k cv, s.cache.get k = some cv → cv.dirty = true →
    (cv.deleted = true ↔ cv.value = none)
  unsorted_dirty : ∀ k ∈ s.unsortedCache, ∃ cv, s.cache.get k = some cv ∧ cv.dirty = true
  sorted : s.sortedCache.Pairwise KeyLt
  sorted_current : ∀ k w, (k, w) ∈ s.sortedCache → k ∉ s.unsortedCache →
    ∃ cv, s.cache.get k = some cv ∧ cv.dirty = true ∧ cv.value = w
  dirty_tracked : ∀ k cv, s.cache.get k = some cv → cv.dirty = true →
    k ∈ s.unsortedCache ∨ ∃ w, (k, w) ∈ s.sortedCache

variable {s : Store K V} {M : SortedKV K V}

theorem consistent_NewStore (P : SortedKV K V) : Consistent (NewStore P) P where
  cached _ _ h := nomatch h
  uncached _ _ := rfl
  clean _ _ h := nomatch h
  deleted _ _ h := nomatch h
  unsorted_dirty _ h := absurd h (Finset.notMem_empty _)
  sorted := List.Pairwise.nil
  sorted_current _ _ h := absurd h List.not_mem_nil
  dirty_tracked _ _ h := nomatch h

namespace Consistent

/-- A key with no dirty cached value reads the parent. -/
theorem get_of_not_dirty (h : Consistent s M) {k : K}
    (hk : ∀ cv, s.cache.get k = some cv → cv.dirty = false) : M.get k = s.parent.get k := by
  cases hc : s.cache.get k with
  | none => exact h.uncached k hc
  | some cv => rw [h.cached k cv hc, h.clean k cv hc (hk cv hc)]

/-- Outside `unsortedCache`, `sortedCache` holds exactly the current dirty
values. -/
theorem mem_sortedCache_iff (h : Consistent s M) {k : K} (hk : k ∉ s.unsortedCache)
    {w : Option V} :
    (k, w) ∈ s.sortedCache ↔ ∃ cv, s.cache.get k = some cv ∧ cv.dirty = true ∧ cv.value = w := by
  refine ⟨fun hw => h.sorted_current k w hw hk, ?_⟩
  rintro ⟨cv, hcv, hd, rfl⟩
  obtain hu | ⟨w', hw'⟩ := h.dirty_tracked k cv hcv hd
  · exact absurd hu hk
  · -- the item there is the current value
    obtain ⟨cv', hcv', -, rfl⟩ := h.sorted_current k w' hw' hk
    rw [hcv] at hcv'
    cases hcv'
    exact hw'

/-! #### Point operations -/

/-- A dirty write of `value` at `key` makes the store stand for the map that
reads `value` there. -/
theorem setCacheValue_dirty (h : Consistent s M) {key : K} {value : Option V} {deleted : Bool}
    (hdel : deleted = true ↔ value = none) {M' : SortedKV K V}
    (hM : ∀ k, M'.get k = if k = key then value else M.get k) :
    Consistent (s.setCacheValue key value deleted true) M' where
  cached k cv hk := by
    rw [hM]
    by_cases hkey : k = key
    · subst hkey
      rw [get_setCacheValue_self] at hk
      cases hk
      simp
    · rw [get_setCacheValue_of_ne hkey] at hk
      rw [if_neg hkey]
      exact h.cached k cv hk
  uncached k hk := by
    by_cases hkey : k = key
    · subst hkey
      simp at hk
    · rw [get_setCacheValue_of_ne hkey] at hk
      rw [hM, if_neg hkey]
      exact h.uncached k hk
  clean k cv hk hd := by
    by_cases hkey : k = key
    · subst hkey
      rw [get_setCacheValue_self] at hk
      cases hk
      cases hd
    · rw [get_setCacheValue_of_ne hkey] at hk
      exact h.clean k cv hk hd
  deleted k cv hk hd := by
    by_cases hkey : k = key
    · subst hkey
      rw [get_setCacheValue_self] at hk
      cases hk
      exact hdel
    · rw [get_setCacheValue_of_ne hkey] at hk
      exact h.deleted k cv hk hd
  unsorted_dirty k hk := by
    by_cases hkey : k = key
    · subst hkey
      exact ⟨_, get_setCacheValue_self _ _ _ _ _, rfl⟩
    · rw [get_setCacheValue_of_ne hkey]
      simp only [unsortedCache_setCacheValue, if_true, Finset.mem_insert, hkey, false_or] at hk
      exact h.unsorted_dirty k hk
  sorted := h.sorted
  sorted_current k w hk hku := by
    have hkey : k ≠ key := fun e => hku (by simp [e])
    rw [get_setCacheValue_of_ne hkey]
    simp only [unsortedCache_setCacheValue, if_true, Finset.mem_insert, hkey, false_or] at hku
    exact h.sorted_current k w hk hku
  dirty_tracked k cv hk hd := by
    by_cases hkey : k = key
    · subst hkey
      simp
    · rw [get_setCacheValue_of_ne hkey] at hk
      simp only [unsortedCache_setCacheValue, if_true, Finset.mem_insert, hkey, false_or,
        sortedCache_setCacheValue]
      exact h.dirty_tracked k cv hk hd

/-- Remembering the parent's value of an uncached key as clean changes nothing
the store stands for. -/
theorem setCacheValue_clean (h : Consistent s M) {key : K} (hkey : s.cache.get key = none) :
    Consistent (s.setCacheValue key (s.parent.get key) false false) M where
  cached k cv hk := by
    by_cases hk' : k = key
    · subst hk'
      rw [get_setCacheValue_self] at hk
      cases hk
      exact h.uncached k hkey
    · rw [get_setCacheValue_of_ne hk'] at hk
      exact h.cached k cv hk
  uncached k hk := by
    by_cases hk' : k = key
    · subst hk'
      simp at hk
    · rw [get_setCacheValue_of_ne hk'] at hk
      exact h.uncached k hk
  clean k cv hk hd := by
    by_cases hk' : k = key
    · subst hk'
      rw [get_setCacheValue_self] at hk
      cases hk
      rfl
    · rw [get_setCacheValue_of_ne hk'] at hk
      exact h.clean k cv hk hd
  deleted k cv hk hd := by
    by_cases hk' : k = key
    · subst hk'
      rw [get_setCacheValue_self] at hk
      cases hk
      cases hd
    · rw [get_setCacheValue_of_ne hk'] at hk
      exact h.deleted k cv hk hd
  unsorted_dirty k hk := by
    -- a waiting key is cached, so it is not the key just fetched
    obtain ⟨cv, hcv, hd⟩ := h.unsorted_dirty k hk
    have hk' : k ≠ key := by
      rintro rfl
      rw [hkey] at hcv
      cases hcv
    exact ⟨cv, by rw [get_setCacheValue_of_ne hk', hcv], hd⟩
  sorted := h.sorted
  sorted_current k w hk hku := by
    obtain ⟨cv, hcv, hd, hw⟩ := h.sorted_current k w hk hku
    have hk' : k ≠ key := by
      rintro rfl
      rw [hkey] at hcv
      cases hcv
    exact ⟨cv, by rw [get_setCacheValue_of_ne hk', hcv], hd, hw⟩
  dirty_tracked k cv hk hd := by
    by_cases hk' : k = key
    · subst hk'
      rw [get_setCacheValue_self] at hk
      cases hk
      cases hd
    · rw [get_setCacheValue_of_ne hk'] at hk
      exact h.dirty_tracked k cv hk hd

/-- `Get` reads the map and keeps the invariant. -/
theorem Get (h : Consistent s M) (key : K) :
    (s.Get key).1 = M.get key ∧ Consistent (s.Get key).2 M := by
  unfold Store.Get
  cases hc : s.cache.get key with
  | none => exact ⟨(h.uncached key hc).symm, h.setCacheValue_clean hc⟩
  | some cv => exact ⟨(h.cached key cv hc).symm, h⟩

theorem Set (h : Consistent s M) (key : K) (value : V) :
    Consistent (s.Set key value) (M.set key value) :=
  h.setCacheValue_dirty (by simp) fun k => by simp

theorem Delete (h : Consistent s M) (key : K) : Consistent (s.Delete key) (M.delete key) :=
  h.setCacheValue_dirty (by simp) fun k => by simp

/-! #### Iteration -/

section DirtyItems

variable (IsKeyInDomain : K → Option K → Option K → Bool) (start endKey : Option K)

/-- The new items of `dirtyItems`: the waiting keys of the domain with their
cached values, in key order. -/
theorem mem_dirtyItems_new {k : K} {w : Option V} :
    (k, w) ∈ (s.unsortedCache.filter fun key => IsKeyInDomain key start endKey).sort.map
        (fun key => (key, cachedValue s.cache key)) ↔
      k ∈ s.unsortedCache ∧ IsKeyInDomain k start endKey = true ∧ w = cachedValue s.cache k := by
  simp only [List.mem_map, Finset.mem_sort, Finset.mem_filter, Prod.mk.injEq]
  constructor
  · rintro ⟨k', ⟨hu, hd⟩, rfl, rfl⟩
    exact ⟨hu, hd, rfl⟩
  · rintro ⟨hu, hd, rfl⟩
    exact ⟨k, ⟨hu, hd⟩, rfl, rfl⟩

theorem sorted_dirtyItems_new :
    ((s.unsortedCache.filter fun key => IsKeyInDomain key start endKey).sort.map
        (fun key => (key, cachedValue s.cache key))).Pairwise KeyLt :=
  List.pairwise_map.2 (List.sortedLT_iff_pairwise.1 (Finset.sortedLT_sort _))

/-- Moving the dirty items of a domain into `sortedCache` keeps the invariant. -/
theorem dirtyItems (h : Consistent s M) :
    Consistent (s.dirtyItems IsKeyInDomain start endKey) M where
  cached := h.cached
  uncached := h.uncached
  clean := h.clean
  deleted := h.deleted
  unsorted_dirty k hk := h.unsorted_dirty k (Finset.mem_filter.1 hk).1
  sorted := sorted_mergeDirty (sorted_dirtyItems_new IsKeyInDomain start endKey) h.sorted
  sorted_current k w hk hku := by
    rw [Store.dirtyItems, mem_mergeDirty (sorted_dirtyItems_new IsKeyInDomain start endKey)
      h.sorted] at hk
    rcases hk with hnew | ⟨hno, hold⟩
    · -- a new item: the waiting key's cached value
      obtain ⟨hu, -, rfl⟩ := (mem_dirtyItems_new IsKeyInDomain start endKey).1 hnew
      obtain ⟨cv, hcv, hd⟩ := h.unsorted_dirty k hu
      exact ⟨cv, hcv, hd, by simp [cachedValue, hcv]⟩
    · -- an old item whose key did not wait in the domain
      have hku' : k ∉ s.unsortedCache := by
        intro hu
        by_cases hd : IsKeyInDomain k start endKey = true
        · exact hno _ ((mem_dirtyItems_new IsKeyInDomain start endKey).2 ⟨hu, hd, rfl⟩)
        · exact hku (Finset.mem_filter.2 ⟨hu, by simpa using hd⟩)
      exact h.sorted_current k w hold hku'
  dirty_tracked k cv hk hd := by
    have hmem := fun w => mem_mergeDirty (k := k) (w := w)
      (sorted_dirtyItems_new (s := s) IsKeyInDomain start endKey) h.sorted
    simp only [Store.dirtyItems, Finset.mem_filter]
    by_cases hdom : IsKeyInDomain k start endKey = true
    · -- a dirty key of the domain has an item among the new ones or the old ones
      right
      by_cases hnew : ∃ w, (k, w) ∈ (s.unsortedCache.filter fun key =>
          IsKeyInDomain key start endKey).sort.map (fun key => (key, cachedValue s.cache key))
      · obtain ⟨w, hw⟩ := hnew
        exact ⟨w, (hmem w).2 (.inl hw)⟩
      · simp only [not_exists] at hnew
        obtain hu | ⟨w, hw⟩ := h.dirty_tracked k cv hk hd
        · exact absurd ((mem_dirtyItems_new IsKeyInDomain start endKey).2 ⟨hu, hdom, rfl⟩)
            (hnew _)
        · exact ⟨w, (hmem w).2 (.inr ⟨hnew, hw⟩)⟩
    · obtain hu | ⟨w, hw⟩ := h.dirty_tracked k cv hk hd
      · exact .inl ⟨hu, by simpa using hdom⟩
      · right
        by_cases hnew : ∃ w', (k, w') ∈ (s.unsortedCache.filter fun key =>
            IsKeyInDomain key start endKey).sort.map (fun key => (key, cachedValue s.cache key))
        · obtain ⟨w', hw'⟩ := hnew
          exact ⟨w', (hmem w').2 (.inl hw')⟩
        · simp only [not_exists] at hnew
          exact ⟨w, (hmem w).2 (.inr ⟨hnew, hw⟩)⟩

end DirtyItems

/-- Read through a consistent store, an overlay of the parent's range and the
dirty items of the range lists the map's range. -/
theorem mem_overlay_iff (h : Consistent s M) {cmp : K → K → Ordering} [Std.TransCmp cmp]
    [Std.LawfulEqCmp cmp] {p : List (K × V)} {c : List (K × Option V)} {start endKey : Option K}
    (hp : SortedBy cmp p) (hc : SortedBy cmp c)
    (hpm : ∀ k v, (k, v) ∈ p ↔ s.parent.get k = some v ∧ inRange start endKey k = true)
    (hcm : ∀ k w, (k, w) ∈ c ↔ inRange start endKey k = true ∧
      ∃ cv, s.cache.get k = some cv ∧ cv.dirty = true ∧ cv.value = w)
    (k : K) (v : V) :
    (k, v) ∈ overlay cmp p c ↔ M.get k = some v ∧ inRange start endKey k = true := by
  rw [mem_overlay hp hc]
  simp only [hcm, hpm]
  by_cases hd : ∃ cv, s.cache.get k = some cv ∧ cv.dirty = true
  · -- a dirty key shows its cached value, inside the range
    obtain ⟨cv, hcv, hdirty⟩ := hd
    rw [h.cached k cv hcv]
    have hshadow : ∀ w, (inRange start endKey k = true ∧
        ∃ cv', s.cache.get k = some cv' ∧ cv'.dirty = true ∧ cv'.value = w) ↔
        inRange start endKey k = true ∧ cv.value = w := by
      intro w
      simp [hcv, hdirty]
    simp only [hshadow]
    constructor
    · rintro (⟨hr, hv⟩ | ⟨hno, -, hr⟩)
      · exact ⟨hv, hr⟩
      · exact absurd ⟨hr, rfl⟩ (hno cv.value)
    · rintro ⟨hv, hr⟩
      exact .inl ⟨hr, hv⟩
  · -- a clean key shows the parent's entry
    simp only [not_exists, not_and] at hd
    have hclean : ∀ cv, s.cache.get k = some cv → cv.dirty = false := fun cv hcv => by
      simpa using hd cv hcv
    rw [h.get_of_not_dirty hclean]
    have hno : ∀ w, ¬ (inRange start endKey k = true ∧
        ∃ cv, s.cache.get k = some cv ∧ cv.dirty = true ∧ cv.value = w) :=
      fun w ⟨_, cv, hcv, hdirty, _⟩ => absurd hdirty (by simp [hclean cv hcv])
    simp only [hno, false_or, not_false_eq_true, implies_true, true_and]

variable {IsKeyInDomain : K → Option K → Option K → Bool}

/-- **An iterator of a consistent store yields the map's entries of its range**,
in ascending or descending key order, and never a `nil` value. -/
theorem drain_iterator
    (hdom : ∀ k start endKey, IsKeyInDomain k start endKey = inRange start endKey k)
    (h : Consistent s M) (start endKey : Option K) (ascending : Bool) :
    cacheMergeIterator.cursor.drain (s.iterator IsKeyInDomain start endKey ascending).1 =
      some ((if ascending then M.range start endKey else (M.range start endKey).reverse).map
        fun e => (e.1, some e.2)) := by
  have h' := h.dirtyItems IsKeyInDomain start endKey
  -- the memory iterator holds the dirty items of the range, in key order
  have hitems : itemsInDomain IsKeyInDomain start endKey false
      (s.dirtyItems IsKeyInDomain start endKey).sortedCache =
      (s.dirtyItems IsKeyInDomain start endKey).sortedCache.filter
        fun x => inRange start endKey x.1 :=
    itemsInDomain_eq_filter hdom false _ h'.sorted (by simp)
  have hsorted : ((s.dirtyItems IsKeyInDomain start endKey).sortedCache.filter
      fun x => inRange start endKey x.1).Pairwise KeyLt := h'.sorted.filter _
  have hcm : ∀ k w, (k, w) ∈ (s.dirtyItems IsKeyInDomain start endKey).sortedCache.filter
      (fun x => inRange start endKey x.1) ↔ inRange start endKey k = true ∧
        ∃ cv, s.cache.get k = some cv ∧ cv.dirty = true ∧ cv.value = w := by
    intro k w
    rw [List.mem_filter, and_comm]
    refine and_congr_right fun hr => h'.mem_sortedCache_iff ?_
    -- the keys of the range no longer wait
    simp [Store.dirtyItems, hdom, hr]
  have hpm : ∀ k v, (k, v) ∈ s.parent.range start endKey ↔
      s.parent.get k = some v ∧ inRange start endKey k = true := fun _ _ => SortedKV.mem_range
  cases ascending with
  | true =>
    have hp : SortedBy compare (s.parent.range start endKey) :=
      sortedBy_compare_iff.2 (s.parent.range_sorted start endKey)
    have hc := sortedBy_compare_iff.2 hsorted
    have hov := SortedKV.eq_range_of_mem_iff (sortedBy_compare_iff.1 (sortedBy_overlay hp hc))
      (h.mem_overlay_iff hp hc hpm hcm)
    have hd := cacheMergeIterator.drain_cursor (newCacheMergeIterator
      (s.parent.range start endKey) ⟨start, endKey, _, true⟩ true) hp hc
    simp only [Store.iterator, newMemIterator, hitems, if_true]
    rw [hd]
    exact congrArg (some ∘ List.map _) hov
  | false =>
    have hp : SortedBy (compareDir false) (s.parent.range start endKey).reverse :=
      sortedBy_compareDir_false_iff.2 (by simpa using s.parent.range_sorted start endKey)
    have hc : SortedBy (compareDir false) (((s.dirtyItems IsKeyInDomain start endKey).sortedCache.filter
        fun x => inRange start endKey x.1).reverse) :=
      sortedBy_compareDir_false_iff.2 (by simpa using hsorted)
    have hov := SortedKV.eq_range_of_mem_iff
      (sortedBy_compareDir_false_iff.1 (sortedBy_overlay hp hc)) fun k v => by
        rw [List.mem_reverse]
        exact h.mem_overlay_iff hp hc (fun k v => by rw [List.mem_reverse, hpm])
          (fun k w => by rw [List.mem_reverse, hcm]) k v
    have hd := cacheMergeIterator.drain_cursor (newCacheMergeIterator
      (s.parent.range start endKey).reverse ⟨start, endKey, _, false⟩ false) hp hc
    show cacheMergeIterator.cursor.drain (newCacheMergeIterator (s.parent.range start endKey).reverse
      (newMemIterator IsKeyInDomain start endKey
        (s.dirtyItems IsKeyInDomain start endKey).sortedCache false) false) = _
    rw [newMemIterator, hitems, hd, ← hov, List.reverse_reverse]
    rfl

/-! #### Write -/

/-- One key of `Write` puts the key's dirty value into the parent. -/
theorem get_writeKey (h : Consistent s M) {key : K} {cv : cValue V}
    (hkey : s.cache.get key = some cv) (hd : cv.dirty = true) (m : SortedKV K V) (k : K) :
    (writeKey s.cache m key).get k = if k = key then cv.value else m.get k := by
  have hdel := h.deleted key cv hkey hd
  unfold writeKey
  rw [hkey]
  by_cases hdeleted : cv.deleted = true
  · simp [hdeleted, hdel.1 hdeleted]
  · -- a dirty value that is not a deletion is a value
    obtain ⟨v, hv⟩ := Option.ne_none_iff_exists'.1 fun hnone => hdeleted (hdel.2 hnone)
    simp [hdeleted, hv]

/-- **`Write` flushes the map into the parent** and empties the cache. -/
theorem Write_eq (h : Consistent s M) : s.Write = NewStore M := by
  unfold Store.Write
  congr 1
  refine SortedKV.ext_get fun k => ?_
  rw [SortedKV.get_foldl (writeKey s.cache) (cachedValue s.cache) _ (fun key hkey m k => ?_)]
  · split_ifs with hk
    · obtain ⟨cv, hcv, hd⟩ := mem_dirtyKeys.1 hk
      rw [h.cached k cv hcv]
      simp [cachedValue, hcv]
    · -- an untouched key keeps the parent's value, which is the map's
      refine (h.get_of_not_dirty fun cv hcv => ?_).symm
      simpa using fun hd => hk (mem_dirtyKeys.2 ⟨cv, hcv, hd⟩)
  · obtain ⟨cv, hcv, hd⟩ := mem_dirtyKeys.1 hkey
    rw [h.get_writeKey hcv hd]
    simp [cachedValue, hcv]

end Consistent

end Store

/-! ### Runs of operations -/

/-- An operation of a client on a store; an iterator is consumed to its end. -/
inductive Op (K V : Type)
  | get (key : K)
  | has (key : K)
  | set (key : K) (value : V)
  | delete (key : K)
  | iterator (start endKey : Option K)
  | reverseIterator (start endKey : Option K)

/-- The reply to an operation. -/
inductive Reply (K V : Type)
  | value (value : Option V)
  | present (b : Bool)
  | done
  | entries (entries : List (K × Option V))
  deriving DecidableEq

namespace Store

variable (IsKeyInDomain : K → Option K → Option K → Bool)

/-- One operation on the store; `none` if an iterator misbehaves. -/
def apply (store : Store K V) : Op K V → Option (Reply K V × Store K V)
  | .get key =>
    let (value, store) := store.Get key
    some (.value value, store)
  | .has key =>
    let (b, store) := store.Has key
    some (.present b, store)
  | .set key value => some (.done, store.Set key value)
  | .delete key => some (.done, store.Delete key)
  | .iterator start endKey =>
    let (iter, store) := store.Iterator IsKeyInDomain start endKey
    (cacheMergeIterator.cursor.drain iter).map fun l => (.entries l, store)
  | .reverseIterator start endKey =>
    let (iter, store) := store.ReverseIterator IsKeyInDomain start endKey
    (cacheMergeIterator.cursor.drain iter).map fun l => (.entries l, store)

/-- A sequence of operations on the store. -/
def run : Store K V → List (Op K V) → Option (List (Reply K V) × Store K V)
  | store, [] => some ([], store)
  | store, op :: ops => do
    let (reply, store) ← store.apply IsKeyInDomain op
    let (replies, store) ← run store ops
    pure (reply :: replies, store)

end Store

/-- The same operation on a map. -/
def Op.spec (M : SortedKV K V) : Op K V → Reply K V × SortedKV K V
  | .get key => (.value (M.get key), M)
  | .has key => (.present (M.get key).isSome, M)
  | .set key value => (.done, M.set key value)
  | .delete key => (.done, M.delete key)
  | .iterator start endKey => (.entries ((M.range start endKey).map fun e => (e.1, some e.2)), M)
  | .reverseIterator start endKey =>
    (.entries ((M.range start endKey).reverse.map fun e => (e.1, some e.2)), M)

/-- A sequence of operations on a map. -/
def specRun : SortedKV K V → List (Op K V) → List (Reply K V) × SortedKV K V
  | M, [] => ([], M)
  | M, op :: ops =>
    let (reply, M) := op.spec M
    let (replies, M) := specRun M ops
    (reply :: replies, M)

namespace Store.Consistent

variable {IsKeyInDomain : K → Option K → Option K → Bool}
  {s : Store K V} {M : SortedKV K V}

/-- **Each operation replies as the map does and keeps the invariant.** -/
theorem apply (hdom : ∀ k start endKey, IsKeyInDomain k start endKey = inRange start endKey k)
    (h : Consistent s M) (op : Op K V) :
    ∃ s', s.apply IsKeyInDomain op = some ((op.spec M).1, s') ∧ Consistent s' (op.spec M).2 := by
  cases op with
  | get key =>
    obtain ⟨hv, hs⟩ := h.Get key
    exact ⟨_, by simp [Store.apply, Op.spec, ← hv], hs⟩
  | has key =>
    obtain ⟨hv, hs⟩ := h.Get key
    exact ⟨_, by simp [Store.apply, Store.Has, Op.spec, ← hv], hs⟩
  | set key value => exact ⟨_, rfl, h.Set key value⟩
  | delete key => exact ⟨_, rfl, h.Delete key⟩
  | iterator start endKey =>
    refine ⟨_, ?_, h.dirtyItems IsKeyInDomain start endKey⟩
    have hd := h.drain_iterator hdom start endKey true
    simp only [if_true] at hd
    simp [Store.apply, Store.Iterator, hd, Op.spec]
    rfl
  | reverseIterator start endKey =>
    refine ⟨_, ?_, h.dirtyItems IsKeyInDomain start endKey⟩
    have hd := h.drain_iterator hdom start endKey false
    simp [Store.apply, Store.ReverseIterator, hd, Op.spec]
    rfl

/-- A run of operations replies as the map does and keeps the invariant. -/
theorem run (hdom : ∀ k start endKey, IsKeyInDomain k start endKey = inRange start endKey k) :
    ∀ (ops : List (Op K V)) (s : Store K V) (M : SortedKV K V), Consistent s M →
      ∃ s', s.run IsKeyInDomain ops = some ((specRun M ops).1, s') ∧
        Consistent s' (specRun M ops).2
  | [], s, M, h => ⟨s, rfl, h⟩
  | op :: ops, s, M, h => by
    obtain ⟨s₁, hs₁, h₁⟩ := h.apply hdom op
    obtain ⟨s₂, hs₂, h₂⟩ := run hdom ops s₁ _ h₁
    exact ⟨s₂, by simp [Store.run, hs₁, hs₂, specRun], h₂⟩

end Store.Consistent

/-- **The cache-wrapped store refines a map.**  On a store over the parent
contents `P`, every run of gets, presence tests, sets, deletions and fully
consumed iterators replies exactly as the map `P` under the same operations:
a read returns the map's value, an iterator lists the map's entries of its
range, strictly ascending or descending and never a `nil` value.  `Write` then
leaves the final map in the parent with an empty cache. -/
theorem cacheKV_refines_map (IsKeyInDomain : K → Option K → Option K → Bool)
    (hdom : ∀ k start endKey, IsKeyInDomain k start endKey = inRange start endKey k)
    (P : SortedKV K V) (ops : List (Op K V)) :
    ∃ store, (NewStore P).run IsKeyInDomain ops = some ((specRun P ops).1, store) ∧
      store.Write = NewStore (specRun P ops).2 := by
  obtain ⟨store, hrun, hc⟩ := Store.Consistent.run hdom ops (NewStore P) P (Store.consistent_NewStore P)
  exact ⟨store, hrun, hc.Write_eq⟩

/-- The refinement with the database library's key test, on a run that writes,
deletes, iterates and reads. -/
theorem cacheKV_refines_map_inRange :
    (∀ (k : ℕ) start endKey, inRange start endKey k = inRange start endKey k) ∧
    ∃ store, (NewStore (SortedKV.empty : SortedKV ℕ ℕ)).run (fun k start endKey => inRange start endKey k)
        [.set 1 2, .set 3 4, .delete 1, .iterator none none, .get 3] =
        some ((specRun SortedKV.empty [.set 1 2, .set 3 4, .delete 1, .iterator none none, .get 3]).1,
          store) ∧
      store.Write =
        NewStore (specRun SortedKV.empty [.set 1 2, .set 3 4, .delete 1, .iterator none none, .get 3]).2 :=
  ⟨fun _ _ _ => rfl, cacheKV_refines_map _ (fun _ _ _ => rfl) _ _⟩

end CacheKV

end ColorSdk
