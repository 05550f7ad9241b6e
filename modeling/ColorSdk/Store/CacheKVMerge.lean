import ColorSdk.Store.CacheKV

/-!
# The merge iterator yields the overlay

A `cacheMergeIterator` walks the parent's entries and the cache's items at
once, in the direction of iteration.  Read in that direction, the cache's items
are its `view`, and the iterator yields exactly `overlay` of the parent's
entries and the view: a cache item shadows the parent's entry with its key, a
`nil` item hides it, and no `nil` value is ever yielded.

The proof follows the loop structure of the Go code.  `skipUntilExistsOrInvalid`
drops only what the overlay does not show, and stops in a `Settled` state, one
where the merge's current entry exists.  In a settled state `Key`, `Value` and
`Next` read and remove the head of the overlay.  The drain rule of
`ColorSdk.Lib.Cursor` then gives the whole output.

Both directions are one proof: the iterator compares with `compareDir`, which
is `compare` ascending and its opposite descending, and both are lawful
comparisons.

## Main results

* `skipCacheDeletes_view` — skipping deletes drops the leading deletion markers.
* `skipped_skipUntilExistsOrInvalid` — the skip loop keeps the overlay and
  settles.
* `cacheMergeIterator.drain_cursor` — **a merge iterator yields the overlay**.

## References

* src/store/cachekv/mergeiterator.go, src/store/cachekv/memiterator.go
-/

namespace ColorSdk
namespace CacheKV

variable {K V : Type}

/-! ### The direction of iteration -/

section CompareDir

variable [LinearOrder K]

@[simp] theorem compareDir_true : compareDir (K := K) true = compare := rfl

@[simp] theorem compareDir_false : compareDir (K := K) false = fun a b => compare b a := by
  funext a b
  exact Std.OrientedOrd.eq_swap.symm

/-- Sorted for the descending comparison is sorted by key, read backwards. -/
theorem sortedBy_compareDir_false_iff {W : Type} {l : List (K × W)} :
    SortedBy (compareDir false) l ↔ l.reverse.Pairwise KeyLt := by
  rw [compareDir_false]
  exact sortedBy_opposite_iff

instance (asc : Bool) : Std.TransCmp (compareDir (K := K) asc) := by
  cases asc
  · rw [compareDir_false]; infer_instance
  · rw [compareDir_true]; infer_instance

instance (asc : Bool) : Std.LawfulEqCmp (compareDir (K := K) asc) := by
  cases asc
  · rw [compareDir_false]; infer_instance
  · rw [compareDir_true]; infer_instance

end CompareDir

/-! ### The memory iterator read in its direction -/

namespace memIterator

/-- The items in the order the iterator yields them. -/
def view (mi : memIterator K V) : List (K × Option V) :=
  if mi.ascending then mi.items else mi.items.reverse

theorem length_view (mi : memIterator K V) : mi.view.length = mi.items.length := by
  unfold view
  split <;> simp

theorem Valid_iff (mi : memIterator K V) : mi.Valid = true ↔ mi.view ≠ [] := by
  rw [← List.length_pos_iff, length_view]
  exact decide_eq_true_iff

theorem view_eq_nil_of_not_Valid {mi : memIterator K V} (h : ¬ mi.Valid = true) : mi.view = [] := by
  rw [Valid_iff, not_not] at h
  exact h

/-- The current item is the head of the view. -/
theorem view_eq_current_cons {mi : memIterator K V} (h : mi.Valid = true) :
    mi.view = mi.current h :: mi.next.view := by
  unfold view current next
  cases ha : mi.ascending
  · simp only [Bool.false_eq_true, if_false]
    rw [List.getLast_eq_head_reverse, ← List.tail_reverse]
    exact (List.cons_head_tail _).symm
  · simp

@[simp] theorem ascending_next (mi : memIterator K V) : mi.next.ascending = mi.ascending := by
  unfold next
  split <;> rfl

theorem Next_of_Valid {mi : memIterator K V} (h : mi.Valid = true) : mi.Next = some mi.next := by
  simp [Next, h]

theorem Key_of_Valid {mi : memIterator K V} (h : mi.Valid = true) :
    mi.Key = some (mi.current h).1 := by
  simp [Key, h]

theorem Value_of_Valid {mi : memIterator K V} (h : mi.Valid = true) :
    mi.Value = some (mi.current h).2 := by
  simp [Value, h]

/-- Reading a view that starts with `x`. -/
theorem exists_current_of_view_eq_cons {mi : memIterator K V} {x : K × Option V}
    {xs : List (K × Option V)} (hv : mi.view = x :: xs) :
    ∃ h : mi.Valid = true, mi.current h = x ∧ mi.next.view = xs := by
  have h : mi.Valid = true := (Valid_iff mi).2 (by simp [hv])
  have hc := view_eq_current_cons h
  rw [hv, List.cons.injEq] at hc
  exact ⟨h, hc.1.symm, hc.2.symm⟩

end memIterator

/-! ### Skipping deletes -/

section Skip

variable (cmp : K → K → Ordering)

/-- The items `skipCacheDeletes` skips: deletion markers below the limit. -/
def deletedBelow (untilKey : Option K) (x : K × Option V) : Bool :=
  x.2.isNone && untilKey.all fun u => decide (cmp x.1 u = .lt)

theorem ascending_skipCacheDeletes (untilKey : Option K) (cache : memIterator K V) :
    (skipCacheDeletes cmp untilKey cache).ascending = cache.ascending := by
  induction cache using skipCacheDeletes.induct cmp untilKey with
  | case1 cache h hskip ih =>
    rw [skipCacheDeletes, dif_pos h, if_pos hskip, ih, memIterator.ascending_next]
  | case2 cache h hskip => rw [skipCacheDeletes, dif_pos h, if_neg hskip]
  | case3 cache h => rw [skipCacheDeletes, dif_neg h]

/-- **Skipping deletes drops the leading deletion markers below the limit.** -/
theorem skipCacheDeletes_view (untilKey : Option K) (cache : memIterator K V) :
    (skipCacheDeletes cmp untilKey cache).view = cache.view.dropWhile (deletedBelow cmp untilKey) := by
  induction cache using skipCacheDeletes.induct cmp untilKey with
  | case1 cache h hskip ih =>
    have hd : deletedBelow cmp untilKey (cache.current h) = true := hskip
    rw [skipCacheDeletes, dif_pos h, if_pos hskip, ih, memIterator.view_eq_current_cons h,
      List.dropWhile_cons_of_pos hd]
  | case2 cache h hskip =>
    have hd : ¬ deletedBelow cmp untilKey (cache.current h) = true := hskip
    rw [skipCacheDeletes, dif_pos h, if_neg hskip, memIterator.view_eq_current_cons h,
      List.dropWhile_cons_of_neg hd]
  | case3 cache h =>
    rw [skipCacheDeletes, dif_neg h, memIterator.view_eq_nil_of_not_Valid h, List.dropWhile_nil]

/-- Nothing is skipped when the current item is not a deletion marker below the
limit. -/
theorem skipCacheDeletes_of_not {untilKey : Option K} {cache : memIterator K V}
    (h : ∀ x xs, cache.view = x :: xs → deletedBelow cmp untilKey x = false) :
    skipCacheDeletes cmp untilKey cache = cache := by
  rw [skipCacheDeletes]
  split
  · next hv =>
    have hd := h _ _ (memIterator.view_eq_current_cons hv)
    rw [if_neg (by simpa [deletedBelow] using hd)]
  · rfl

end Skip

/-! ### The skip loop settles and keeps the overlay -/

section Settled

variable (cmp : K → K → Ordering)

/-- A state where the merge's current entry exists: both sides are exhausted,
or the parent's entry lies below the cache's item, or the cache's item is not a
deletion marker. -/
def Settled : List (K × V) → List (K × Option V) → Prop
  | [], [] => True
  | [], (_, w) :: _ => w.isSome
  | _ :: _, [] => True
  | (kp, _) :: _, (kc, w) :: _ => cmp kp kc = .lt ∨ w.isSome

/-- What `skipUntilExistsOrInvalid` guarantees of its result `r` from the
parent `p` and the cache `c`. -/
structure Skipped (p : List (K × V)) (c : memIterator K V)
    (r : Bool × List (K × V) × memIterator K V) : Prop where
  ascending : r.2.2.ascending = c.ascending
  sorted_parent : SortedBy cmp r.2.1
  sorted_cache : SortedBy cmp r.2.2.view
  settled : Settled cmp r.2.1 r.2.2.view
  overlay_eq : overlay cmp r.2.1 r.2.2.view = overlay cmp p c.view
  valid_iff : r.1 = true ↔ overlay cmp p c.view ≠ []

private theorem not_of_dropWhile_eq_cons {α : Type} {P : α → Bool} {l : List α} {x : α}
    {xs : List α} (h : l.dropWhile P = x :: xs) : P x = false := by
  have hx := List.head_dropWhile_not P (l := l) (by simp [h])
  simpa [h] using hx

variable {cmp}

/-- A settled state shows something unless both sides are exhausted. -/
theorem overlay_ne_nil_iff_of_settled [Std.OrientedCmp cmp] {p : List (K × V)}
    {c : List (K × Option V)} (hs : Settled cmp p c) :
    overlay cmp p c ≠ [] ↔ ¬ (p = [] ∧ c = []) := by
  match p, c, hs with
  | [], [], _ => simp
  | [], (kc, w) :: cs, hs =>
    obtain ⟨v, rfl⟩ := Option.isSome_iff_exists.1 hs
    simp [overlay, written]
  | e :: ps, [], _ => simp
  | (kp, vp) :: ps, (kc, w) :: cs, hs =>
    simp only [reduceCtorEq, false_and, not_false_eq_true, iff_true]
    rw [overlay]
    rcases hs with hlt | hw
    · simp [hlt]
    · obtain ⟨v, rfl⟩ := Option.isSome_iff_exists.1 hw
      split <;> simp [written]

/-- One round of the skip loop with both sides valid. -/
theorem skipUntilExistsOrInvalid_cons [Std.OrientedCmp cmp] {keyP : K} {valueP : V}
    {rest : List (K × V)} {cache : memIterator K V} (h : cache.Valid = true) :
    skipUntilExistsOrInvalid cmp ((keyP, valueP) :: rest) cache =
      match cmp keyP (cache.current h).1 with
      | .lt => (true, (keyP, valueP) :: rest, cache)
      | .eq => if (cache.current h).2.isNone then skipUntilExistsOrInvalid cmp rest cache.next
        else (true, (keyP, valueP) :: rest, cache)
      | .gt => if (cache.current h).2.isNone then
          skipUntilExistsOrInvalid cmp ((keyP, valueP) :: rest) (skipCacheDeletes cmp (some keyP) cache)
        else (true, (keyP, valueP) :: rest, cache) := by
  rw [skipUntilExistsOrInvalid, dif_pos h]
  split <;> simp_all

/-- The skip loop stopping at once in a settled state. -/
theorem skipped_of_settled [Std.OrientedCmp cmp] {p : List (K × V)} {c : memIterator K V} (hp : SortedBy cmp p)
    (hc : SortedBy cmp c.view) (hs : Settled cmp p c.view) (hne : p ≠ []) :
    Skipped cmp p c (true, p, c) :=
  ⟨rfl, hp, hc, hs, rfl, by simp [overlay_ne_nil_iff_of_settled hs, hne]⟩

/-- In a settled state the skip loop moves nothing. -/
theorem skipUntilExistsOrInvalid_of_settled [Std.OrientedCmp cmp] {p : List (K × V)}
    {c : memIterator K V} (hs : Settled cmp p c.view) :
    (skipUntilExistsOrInvalid cmp p c).2 = (p, c) := by
  match p, hs with
  | [], hs =>
    rw [skipUntilExistsOrInvalid]
    -- the current cache item, if any, is not a deletion marker
    have hskip : skipCacheDeletes cmp none c = c := by
      refine skipCacheDeletes_of_not cmp fun x xs hv => ?_
      rw [hv] at hs
      simpa [deletedBelow, Settled] using hs
    rw [hskip]
  | (kp, vp) :: ps, hs =>
    by_cases h : c.Valid = true
    · rw [skipUntilExistsOrInvalid_cons h]
      rw [memIterator.view_eq_current_cons h] at hs
      rcases hcur : c.current h with ⟨kc, w⟩
      rw [hcur] at hs
      simp only [Settled] at hs
      cases hcmp : cmp kp kc with
      | lt => rfl
      | eq =>
        have hw : w.isSome = true := hs.resolve_left (by simp [hcmp])
        simp [Option.isSome_iff_ne_none.1 hw]
      | gt =>
        have hw : w.isSome = true := hs.resolve_left (by simp [hcmp])
        simp [Option.isSome_iff_ne_none.1 hw]
    · rw [skipUntilExistsOrInvalid, dif_neg h]

variable [Std.TransCmp cmp]

/-- **The skip loop keeps the overlay and settles.** -/
theorem skipped_skipUntilExistsOrInvalid (p : List (K × V)) (c : memIterator K V)
    (hp : SortedBy cmp p) (hc : SortedBy cmp c.view) :
    Skipped cmp p c (skipUntilExistsOrInvalid cmp p c) := by
  induction p, c using skipUntilExistsOrInvalid.induct cmp with
  | case1 cache =>
    -- parent exhausted: all leading deletion markers of the cache are dropped
    rw [skipUntilExistsOrInvalid]
    have hview := skipCacheDeletes_view cmp none cache
    have hsorted : SortedBy cmp (skipCacheDeletes cmp none cache).view := by
      rw [hview]; exact hc.sublist (List.dropWhile_sublist _)
    have hsettled : Settled cmp [] (skipCacheDeletes cmp none cache).view := by
      cases hv : (skipCacheDeletes cmp none cache).view with
      | nil => trivial
      | cons x xs =>
        have hx := not_of_dropWhile_eq_cons (hview ▸ hv)
        simpa [deletedBelow, Settled] using hx
    have hov : overlay cmp [] (skipCacheDeletes cmp none cache).view = overlay cmp [] cache.view := by
      rw [hview]
      exact overlay_dropWhile _ (fun x hx => ⟨by simpa [deletedBelow] using hx, by simp⟩) _
    refine ⟨ascending_skipCacheDeletes cmp none cache, List.Pairwise.nil, hsorted, hsettled,
      hov, ?_⟩
    rw [← hov, overlay_ne_nil_iff_of_settled hsettled, memIterator.Valid_iff]
    simp
  | case2 cache keyP valueP rest h hlt =>
    rw [skipUntilExistsOrInvalid_cons h, hlt]
    refine skipped_of_settled hp hc ?_ (List.cons_ne_nil _ _)
    rw [memIterator.view_eq_current_cons h]
    exact .inl hlt
  | case3 cache keyP valueP rest h heq hnone ih =>
    -- a deletion marker at the parent's key: both sides step past it
    rw [memIterator.view_eq_current_cons h] at hc
    have ih' := ih hp.of_cons hc.of_cons
    have hov : overlay cmp rest cache.next.view =
        overlay cmp ((keyP, valueP) :: rest) cache.view := by
      rw [memIterator.view_eq_current_cons h]
      rcases hcur : cache.current h with ⟨kc, w⟩
      rw [hcur] at heq hnone
      simp only [Option.isNone_iff_eq_none] at hnone
      subst hnone
      simp [overlay, heq, written]
    rw [skipUntilExistsOrInvalid_cons h, heq]
    simp only [hnone, if_true]
    exact ⟨ih'.ascending.trans (memIterator.ascending_next cache), ih'.sorted_parent,
      ih'.sorted_cache, ih'.settled, ih'.overlay_eq.trans hov, ih'.valid_iff.trans (by rw [hov])⟩
  | case4 cache keyP valueP rest h heq hnone =>
    rw [skipUntilExistsOrInvalid_cons h, heq]
    simp only [hnone]
    refine skipped_of_settled hp hc ?_ (List.cons_ne_nil _ _)
    rw [memIterator.view_eq_current_cons h]
    rcases hcur : cache.current h with ⟨kc, w⟩
    rw [hcur] at hnone
    exact .inr (Option.isSome_iff_ne_none.2 (by simpa using hnone))
  | case5 cache keyP valueP rest h hgt hnone ih =>
    -- deletion markers below the parent's key are dropped first
    have hview := skipCacheDeletes_view cmp (some keyP) cache
    have ih' := ih hp (by rw [hview]; exact hc.sublist (List.dropWhile_sublist _))
    have hov : overlay cmp ((keyP, valueP) :: rest) (skipCacheDeletes cmp (some keyP) cache).view =
        overlay cmp ((keyP, valueP) :: rest) cache.view := by
      rw [hview]
      refine overlay_dropWhile _ (fun x hx => ?_) _
      simp only [deletedBelow, Bool.and_eq_true, Option.isNone_iff_eq_none, Option.all_some,
        decide_eq_true_eq] at hx
      exact ⟨hx.1, forall_lt_of_lt_head hp hx.2⟩
    rw [skipUntilExistsOrInvalid_cons h, hgt]
    simp only [hnone, if_true]
    exact ⟨ih'.ascending.trans (ascending_skipCacheDeletes cmp _ cache), ih'.sorted_parent,
      ih'.sorted_cache, ih'.settled, ih'.overlay_eq.trans hov, ih'.valid_iff.trans (by rw [hov])⟩
  | case6 cache keyP valueP rest h hgt hnone =>
    rw [skipUntilExistsOrInvalid_cons h, hgt]
    simp only [hnone]
    refine skipped_of_settled hp hc ?_ (List.cons_ne_nil _ _)
    rw [memIterator.view_eq_current_cons h]
    rcases hcur : cache.current h with ⟨kc, w⟩
    rw [hcur] at hnone
    exact .inr (Option.isSome_iff_ne_none.2 (by simpa using hnone))
  | case7 cache keyP valueP rest h =>
    rw [skipUntilExistsOrInvalid, dif_neg h]
    refine skipped_of_settled hp hc ?_ (List.cons_ne_nil _ _)
    rw [memIterator.view_eq_nil_of_not_Valid h]
    trivial

end Settled


/-! ### Reading a settled merge iterator -/

namespace cacheMergeIterator

variable [LinearOrder K]

instance (iter : cacheMergeIterator K V) : Std.TransCmp iter.compare :=
  inferInstanceAs (Std.TransCmp (compareDir iter.ascending))

instance (iter : cacheMergeIterator K V) : Std.LawfulEqCmp iter.compare :=
  inferInstanceAs (Std.LawfulEqCmp (compareDir iter.ascending))

theorem Valid_eq (iter : cacheMergeIterator K V) :
    iter.Valid = ((skipUntilExistsOrInvalid iter.compare iter.parent iter.cache).1,
      { iter with parent := (skipUntilExistsOrInvalid iter.compare iter.parent iter.cache).2.1,
                  cache := (skipUntilExistsOrInvalid iter.compare iter.parent iter.cache).2.2 }) :=
  rfl

/-- A settled iterator with something to show is valid and does not move. -/
theorem Valid_of_settled {iter : cacheMergeIterator K V}
    (hp : SortedBy iter.compare iter.parent) (hc : SortedBy iter.compare iter.cache.view)
    (hs : Settled iter.compare iter.parent iter.cache.view)
    (hne : overlay iter.compare iter.parent iter.cache.view ≠ []) :
    iter.Valid = (true, iter) := by
  have hsk := skipped_skipUntilExistsOrInvalid iter.parent iter.cache hp hc
  have hst := skipUntilExistsOrInvalid_of_settled hs
  rw [Valid_eq, hsk.valid_iff.2 hne, hst]

/-- **A settled iterator reads the head of the overlay**: `Key` and `Value`
return it, and `Next` moves to a state whose overlay is the rest. -/
theorem read_of_settled {iter : cacheMergeIterator K V}
    (hp : SortedBy iter.compare iter.parent) (hc : SortedBy iter.compare iter.cache.view)
    (hs : Settled iter.compare iter.parent iter.cache.view) {k : K} {v : V}
    {rest : List (K × V)} (hov : overlay iter.compare iter.parent iter.cache.view = (k, v) :: rest) :
    iter.Key = some (k, iter) ∧ iter.Value = some (some v, iter) ∧
      ∃ iter', iter.Next = some iter' ∧ iter'.ascending = iter.ascending ∧
        SortedBy iter.compare iter'.parent ∧ SortedBy iter.compare iter'.cache.view ∧
        overlay iter.compare iter'.parent iter'.cache.view = rest := by
  have hV := Valid_of_settled hp hc hs (by simp [hov])
  simp only [Key, Value, Next, hV, Bool.not_true, Bool.false_eq_true, if_false]
  rcases hpar : iter.parent with _ | ⟨⟨kp, vp⟩, ps⟩ <;>
    rcases hview : iter.cache.view with _ | ⟨⟨kc, w⟩, cs⟩ <;>
    rw [hpar, hview] at hov hs
  · -- both sides exhausted: nothing to show
    simp at hov
  · -- only the cache is left, and its item is a value
    obtain ⟨w, rfl⟩ := Option.isSome_iff_exists.1 hs
    obtain ⟨h, hcur, hnext⟩ := memIterator.exists_current_of_view_eq_cons hview
    simp only [overlay, written, Option.map_some, Option.toList_some, List.singleton_append,
      List.cons.injEq, Prod.mk.injEq] at hov
    obtain ⟨⟨rfl, rfl⟩, rfl⟩ := hov
    rw [hview] at hc
    refine ⟨by simp [memIterator.Key_of_Valid h, hcur], by simp [memIterator.Value_of_Valid h, hcur],
      { iter with cache := iter.cache.next }, by simp [memIterator.Next_of_Valid h, hpar], rfl,
      by simp [hpar, SortedBy], by simpa [hnext] using hc.of_cons, by simp [hpar, hnext]⟩
  · -- only the parent is left
    have h : ¬ iter.cache.Valid = true := by rw [memIterator.Valid_iff, hview]; simp
    simp only [overlay_nil_right, List.cons.injEq, Prod.mk.injEq] at hov
    obtain ⟨⟨rfl, rfl⟩, rfl⟩ := hov
    rw [hpar] at hp
    exact ⟨by simp [h], by simp [h], { iter with parent := ps }, by simp [h], rfl, hp.of_cons, hc,
      by simp [hview]⟩
  · -- both sides valid: the comparison decides
    obtain ⟨h, hcur, hnext⟩ := memIterator.exists_current_of_view_eq_cons hview
    rw [hpar] at hp
    rw [hview] at hc
    simp only [h, ↓reduceDIte, hcur]
    rw [overlay] at hov
    cases hcmp : iter.compare kp kc with
    | lt =>
      -- the parent's entry comes first
      rw [hcmp] at hov
      simp only [List.cons.injEq, Prod.mk.injEq] at hov
      obtain ⟨⟨rfl, rfl⟩, rfl⟩ := hov
      refine ⟨rfl, rfl, { iter with parent := ps }, rfl, rfl, hp.of_cons, ?_, ?_⟩
      · simpa [hview] using hc
      · simp [hview]
    | eq =>
      -- the cache's item shadows the parent's entry with the same key
      have hw : w.isSome = true := hs.resolve_left (by simp [hcmp])
      obtain ⟨w, rfl⟩ := Option.isSome_iff_exists.1 hw
      obtain rfl := Std.LawfulEqCmp.eq_of_compare hcmp
      rw [hcmp] at hov
      simp only [written, Option.map_some, Option.toList_some, List.singleton_append,
        List.cons.injEq, Prod.mk.injEq] at hov
      obtain ⟨⟨rfl, rfl⟩, rfl⟩ := hov
      refine ⟨rfl, rfl, { iter with parent := ps, cache := iter.cache.next },
        by simp [memIterator.Next_of_Valid h], rfl, hp.of_cons, by simpa [hnext] using hc.of_cons,
        by simp [hnext]⟩
    | gt =>
      -- the cache's item comes first
      have hw : w.isSome = true := hs.resolve_left (by simp [hcmp])
      obtain ⟨w, rfl⟩ := Option.isSome_iff_exists.1 hw
      rw [hcmp] at hov
      simp only [written, Option.map_some, Option.toList_some, List.singleton_append,
        List.cons.injEq, Prod.mk.injEq] at hov
      obtain ⟨⟨rfl, rfl⟩, rfl⟩ := hov
      refine ⟨rfl, rfl, { iter with cache := iter.cache.next },
        by simp [memIterator.Next_of_Valid h, hpar], rfl, by simpa [hpar] using hp,
        by simpa [hnext] using hc.of_cons, by simp [hpar, hnext]⟩

/-! ### The drain -/

/-- The run relation of a merge iterator: the direction is fixed, both sides are
sorted for it, and what is still to come is the overlay, with no `nil` value. -/
def Tracks (asc : Bool) (iter : cacheMergeIterator K V) (l : List (K × Option V)) : Prop :=
  iter.ascending = asc ∧ SortedBy (compareDir asc) iter.parent ∧
    SortedBy (compareDir asc) iter.cache.view ∧
    l = (overlay (compareDir asc) iter.parent iter.cache.view).map fun e => (e.1, some e.2)

theorem isRun_tracks (asc : Bool) : Cursor.IsRun (c := cursor) (Tracks (K := K) (V := V) asc) where
  done iter h := by
    obtain ⟨rfl, hp, hc, hl⟩ := h
    have hsk : Skipped iter.compare iter.parent iter.cache
        (skipUntilExistsOrInvalid iter.compare iter.parent iter.cache) :=
      skipped_skipUntilExistsOrInvalid iter.parent iter.cache hp hc
    have hnil : overlay iter.compare iter.parent iter.cache.view = [] :=
      List.map_eq_nil_iff.1 hl.symm
    show (Valid iter).1 = false
    rw [Valid_eq]
    simpa [hnil] using hsk.valid_iff
  step iter k v l h := by
    obtain ⟨rfl, hp, hc, hl⟩ := h
    obtain ⟨⟨k', v'⟩, rest, hov, hkv, rfl⟩ := List.map_eq_cons_iff.1 hl.symm
    simp only [Prod.mk.injEq] at hkv
    obtain ⟨rfl, rfl⟩ := hkv
    -- one round of skipping settles the iterator without changing the overlay
    have hsk : Skipped iter.compare iter.parent iter.cache
        (skipUntilExistsOrInvalid iter.compare iter.parent iter.cache) :=
      skipped_skipUntilExistsOrInvalid iter.parent iter.cache hp hc
    have hov₀ : overlay iter.compare iter.parent iter.cache.view = (k', v') :: rest := hov
    have hV := Valid_eq iter
    rw [hsk.valid_iff.2 (by simp [hov₀])] at hV
    obtain ⟨hK, hVal, iter', hN, hasc, hp', hc', hov'⟩ :=
      (@read_of_settled K V _ { iter with
        parent := (skipUntilExistsOrInvalid iter.compare iter.parent iter.cache).2.1,
        cache := (skipUntilExistsOrInvalid iter.compare iter.parent iter.cache).2.2 })
        hsk.sorted_parent hsk.sorted_cache hsk.settled (hsk.overlay_eq.trans hov₀)
    exact ⟨_, _, _, iter', hV, hK, hVal, hN, hasc, hp', hc', (congrArg (List.map _) hov').symm⟩

/-- **A merge iterator yields the overlay** of the parent's entries and the
cache's items, in the direction of iteration, and never a `nil` value. -/
theorem drain_cursor (iter : cacheMergeIterator K V) (hp : SortedBy iter.compare iter.parent)
    (hc : SortedBy iter.compare iter.cache.view) :
    cursor.drain iter =
      some ((overlay iter.compare iter.parent iter.cache.view).map fun e => (e.1, some e.2)) := by
  refine Cursor.drain_eq_of_run (isRun_tracks iter.ascending) ⟨rfl, hp, hc, rfl⟩ ?_
  have hlen : (overlay iter.compare iter.parent iter.cache.view).length ≤
      iter.parent.length + iter.cache.view.length := length_overlay_le _ _
  rw [memIterator.length_view] at hlen
  simpa [cursor] using hlen

end cacheMergeIterator

end CacheKV

end ColorSdk
