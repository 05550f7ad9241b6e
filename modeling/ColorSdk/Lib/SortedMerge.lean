import Mathlib

/-!
# Sorted lists of amounts

A list of entries, each with a key and an amount, held in strictly increasing
key order, stands for the finite function from keys to amounts that sums the
amounts of each key.  Three operations of such lists are modelled here, in the
form of the loops that implement them:

* the two-pointer merge `mergeAdd`, which walks two sorted lists side by side,
  adds the entries of equal keys and drops every entry that is zero;
* the halving search `search`, which looks a key up in a sorted list by
  comparing it with the middle entry;
* folds that merge one entry at a time into a growing result.

The abstract view of a list is `total`, the sum of the amounts at a key.  It
is additive over every merge, sorted or not, so that the merge is correct as
soon as it keeps the order; the halving search returns the total on sorted
lists only.

## Main definitions

* `KeySorted`, `removeZero`, `mergeAdd`, `total`, `search`.

## Main results

* `total_mergeAdd` — a merge adds the totals at every key.
* `sorted_mergeAdd`, `ne_zero_of_mem_mergeAdd` — a merge of sorted lists is
  sorted, and has no zero entry.
* `total_of_mem`, `exists_total_iff` — on a sorted list the total at an
  entry's key is its amount.
* `total_map`, `total_map_hom` — a map that keeps the keys and sends zero to
  zero acts on the totals of a sorted list; an additive one on those of any list.
* `eq_of_total_eq` — a sorted list without zero entries is determined by its
  totals.
* `search_eq_total` — the halving search of a sorted list is the total.
* `total_foldl_mergeAdd` — merging in one entry at a time adds their totals.
-/

namespace SortedMerge

variable {K E V : Type*} [LinearOrder K]

section Defs

variable (key : E → K) (isZero : E → Bool) (add : E → E → E)

/-- Keys strictly increase along the list. -/
def KeySorted (l : List E) : Prop := l.Pairwise fun x y => key x < key y

/-- Drop the zero entries, keeping the order of the others. -/
def removeZero (l : List E) : List E := l.filter fun e => !isZero e

/-- The two-pointer merge of two lists sorted by key: the smaller head goes
first, the heads of equal keys are added, and a zero entry is dropped; once
one list is spent, the other's non-zero entries follow. -/
def mergeAdd : List E → List E → List E
  | [], b => removeZero isZero b
  | x :: a, [] => removeZero isZero (x :: a)
  | x :: a, y :: b =>
    match compare (key x) (key y) with
    | .lt => (if isZero x then [] else [x]) ++ mergeAdd a (y :: b)
    | .eq => (if isZero (add x y) then [] else [add x y]) ++ mergeAdd a b
    | .gt => (if isZero y then [] else [y]) ++ mergeAdd (x :: a) b
termination_by a b => a.length + b.length

variable (amount : E → V)

/-- The amount at a key: the sum of the amounts of the entries with that key. -/
def total [AddCommMonoid V] (l : List E) (k : K) : V :=
  ((l.filter fun e => key e = k).map amount).sum

/-- The halving search: compare the key with the middle entry, and search the
half before or after it. -/
def search [Zero V] (l : List E) (k : K) : V :=
  match l with
  | [] => 0
  | [x] => if key x = k then amount x else 0
  | x :: y :: rest =>
    have hmid : (x :: y :: rest).length / 2 < (x :: y :: rest).length := by simp; omega
    let mid := (x :: y :: rest)[(x :: y :: rest).length / 2]
    if k < key mid then search ((x :: y :: rest).take ((x :: y :: rest).length / 2)) k
    else if k = key mid then amount mid
    else search ((x :: y :: rest).drop ((x :: y :: rest).length / 2 + 1)) k
termination_by l.length
decreasing_by
  all_goals simp only [List.length_take, List.length_drop, List.length_cons]
  all_goals omega

end Defs

/-! ### Totals -/

section Total

variable (key : E → K) (amount : E → V) [AddCommMonoid V]

@[simp] theorem total_nil (k : K) : total key amount [] k = 0 := rfl

@[simp] theorem total_cons (x : E) (l : List E) (k : K) :
    total key amount (x :: l) k = (if key x = k then amount x else 0) + total key amount l k := by
  unfold total
  by_cases hx : key x = k <;> simp [hx]

theorem total_append (l₁ l₂ : List E) (k : K) :
    total key amount (l₁ ++ l₂) k = total key amount l₁ k + total key amount l₂ k := by
  induction l₁ with
  | nil => simp
  | cons x l ih => simp [ih, add_assoc]

/-- No entry at the key, nothing there. -/
theorem total_eq_zero {l : List E} {k : K} (h : ∀ e ∈ l, key e ≠ k) : total key amount l k = 0 := by
  induction l with
  | nil => rfl
  | cons x l ih =>
    rw [total_cons, if_neg (h x List.mem_cons_self), ih fun e he => h e (List.mem_cons_of_mem _ he),
      add_zero]

/-- On a sorted list the total at an entry's key is its amount. -/
theorem total_of_mem {l : List E} (hs : KeySorted key l) {e : E} (he : e ∈ l) :
    total key amount l (key e) = amount e := by
  induction l with
  | nil => cases he
  | cons x l ih =>
    have hx : ∀ y ∈ l, key x < key y := (List.pairwise_cons.1 hs).1
    rw [total_cons]
    rcases List.mem_cons.1 he with rfl | he
    · rw [if_pos rfl, total_eq_zero key amount fun y hy => (hx y hy).ne', add_zero]
    · rw [if_neg (hx e he).ne, ih (List.pairwise_cons.1 hs).2 he, zero_add]

/-- On a sorted list the total at a key is the amount of its entry, or zero. -/
theorem total_eq_zero_or {l : List E} (hs : KeySorted key l) (k : K) :
    (∀ e ∈ l, key e ≠ k) ∧ total key amount l k = 0 ∨
      ∃ e ∈ l, key e = k ∧ total key amount l k = amount e := by
  by_cases h : ∃ e ∈ l, key e = k
  · obtain ⟨e, he, rfl⟩ := h
    exact .inr ⟨e, he, rfl, total_of_mem key amount hs he⟩
  · simp only [not_exists, not_and] at h
    exact .inl ⟨h, total_eq_zero key amount h⟩

/-- An entry has a property of amounts that zero lacks exactly when some key's
total has it. -/
theorem exists_total_iff {l : List E} (hs : KeySorted key l) (P : V → Prop) (hP : ¬ P 0) :
    (∃ e ∈ l, P (amount e)) ↔ ∃ k, P (total key amount l k) := by
  constructor
  · rintro ⟨e, he, hPe⟩
    exact ⟨key e, by rwa [total_of_mem key amount hs he]⟩
  · rintro ⟨k, hk⟩
    rcases total_eq_zero_or key amount hs k with ⟨-, h0⟩ | ⟨e, he, -, he'⟩
    · rw [h0] at hk
      exact absurd hk hP
    · exact ⟨e, he, he' ▸ hk⟩

/-- A map that keeps the keys keeps a list sorted. -/
theorem sorted_map {E' : Type*} (key' : E' → K) {l : List E} (hs : KeySorted key l) {f : E → E'}
    (hkey : ∀ x, key' (f x) = key x) : KeySorted key' (l.map f) := by
  unfold KeySorted at hs ⊢
  rw [List.pairwise_map]
  simpa only [hkey] using hs

/-- A map that keeps the keys, and acts on the amounts by a function of the key
and the amount that sends zero to zero, acts so on the totals of a sorted list. -/
theorem total_map {E' V' : Type*} [AddCommMonoid V'] (key' : E' → K) (amount' : E' → V')
    {l : List E} (hs : KeySorted key l) {f : E → E'} (hkey : ∀ x, key' (f x) = key x)
    (g : K → V → V') (hg : ∀ x, amount' (f x) = g (key x) (amount x)) (hg0 : ∀ k, g k 0 = 0)
    (k : K) : total key' amount' (l.map f) k = g k (total key amount l k) := by
  have hs' : KeySorted key' (l.map f) := sorted_map key key' hs hkey
  rcases total_eq_zero_or key amount hs k with ⟨hnone, h0⟩ | ⟨e, he, rfl, he'⟩
  · rw [h0, hg0, total_eq_zero key' amount']
    intro e he
    obtain ⟨x, hx, rfl⟩ := List.mem_map.1 he
    rw [hkey]
    exact hnone x hx
  · have hfe : f e ∈ l.map f := List.mem_map_of_mem he
    rw [he', ← hkey e, total_of_mem key' amount' hs' hfe, hg, hkey]

/-- A map that keeps the keys, and acts on the amounts by an additive map, acts
so on the totals of any list. -/
theorem total_map_hom {E' V' : Type*} [AddCommMonoid V'] (key' : E' → K) (amount' : E' → V')
    {f : E → E'} (hkey : ∀ x, key' (f x) = key x) (g : V →+ V')
    (hg : ∀ x, amount' (f x) = g (amount x)) (l : List E) (k : K) :
    total key' amount' (l.map f) k = g (total key amount l k) := by
  induction l with
  | nil => simp
  | cons x l ih =>
    rw [List.map_cons, total_cons, total_cons, ih, hkey, hg, map_add]
    split <;> simp

/-- A key with a total other than zero is the key of an entry. -/
theorem exists_key_of_total_ne_zero {l : List E} {k : K} (h : total key amount l k ≠ 0) :
    ∃ e ∈ l, key e = k := by
  by_contra hnone
  simp only [not_exists, not_and] at hnone
  exact h (total_eq_zero key amount hnone)

/-- Below the head of a sorted list there is nothing. -/
theorem total_cons_eq_zero_of_lt {x : E} {l : List E} (hs : KeySorted key (x :: l)) {k : K}
    (hk : k < key x) : total key amount (x :: l) k = 0 := by
  refine total_eq_zero key amount fun e he => ?_
  rcases List.mem_cons.1 he with rfl | he
  · exact hk.ne'
  · exact (hk.trans ((List.pairwise_cons.1 hs).1 e he)).ne'

end Total

/-! ### Extensionality -/

section Ext

variable (key : E → K) (amount : E → V) [AddCancelCommMonoid V]

/-- **A sorted list is determined by its totals**: two sorted lists without zero
amounts, whose entries are determined by key and amount, are equal when their
totals are equal at every key.  The heads have the smallest key with a total
other than zero, so they have one key, and then one amount. -/
theorem eq_of_total_eq (hext : ∀ x y, key x = key y → amount x = amount y → x = y) :
    ∀ {a b : List E}, KeySorted key a → KeySorted key b → (∀ e ∈ a, amount e ≠ 0) →
      (∀ e ∈ b, amount e ≠ 0) → (∀ k, total key amount a k = total key amount b k) → a = b
  | [], [], _, _, _, _, _ => rfl
  | [], y :: b, _, hb, _, hzb, h => by
    have hy := (h (key y)).trans (total_of_mem key amount hb List.mem_cons_self)
    exact absurd hy.symm (hzb y List.mem_cons_self)
  | x :: a, [], ha, _, hza, _, h => by
    have hx := (total_of_mem key amount ha List.mem_cons_self).symm.trans (h (key x))
    exact absurd hx (hza x List.mem_cons_self)
  | x :: a, y :: b, ha, hb, hza, hzb, h => by
    have hxa := total_of_mem key amount ha (List.mem_cons_self (a := x) (l := a))
    have hyb := total_of_mem key amount hb (List.mem_cons_self (a := y) (l := b))
    -- the heads have one key: the smaller one would have nothing in the other list
    have hkey : key x = key y := by
      rcases lt_trichotomy (key x) (key y) with hlt | heq | hgt
      · have h0 := (h (key x)).trans (total_cons_eq_zero_of_lt key amount hb hlt)
        exact absurd (hxa.symm.trans h0) (hza x List.mem_cons_self)
      · exact heq
      · have h0 := (h (key y)).symm.trans (total_cons_eq_zero_of_lt key amount ha hgt)
        exact absurd (hyb.symm.trans h0) (hzb y List.mem_cons_self)
    have hamount : amount x = amount y := by
      rw [← hxa, h, hkey, hyb]
    obtain rfl := hext x y hkey hamount
    -- what is left after the heads has the same totals
    have htail : ∀ k, total key amount a k = total key amount b k := fun k => by
      have hk := h k
      rw [total_cons, total_cons] at hk
      exact add_left_cancel hk
    rw [eq_of_total_eq hext (List.pairwise_cons.1 ha).2 (List.pairwise_cons.1 hb).2
      (fun e he => hza e (List.mem_cons_of_mem x he)) (fun e he => hzb e (List.mem_cons_of_mem x he))
      htail]

end Ext

/-! ### Dropping zeros -/

section RemoveZero

variable (key : E → K) (isZero : E → Bool) (amount : E → V) [AddCommMonoid V]

theorem sorted_removeZero {l : List E} (hs : KeySorted key l) :
    KeySorted key (removeZero isZero l) :=
  hs.sublist List.filter_sublist

theorem ne_zero_of_mem_removeZero {l : List E} {e : E} (he : e ∈ removeZero isZero l) :
    isZero e = false := by
  simpa [removeZero] using (List.mem_filter.1 he).2

/-- Dropping zero entries keeps every total. -/
theorem total_removeZero (hzero : ∀ e, isZero e = true → amount e = 0) (l : List E) (k : K) :
    total key amount (removeZero isZero l) k = total key amount l k := by
  induction l with
  | nil => rfl
  | cons x l ih =>
    by_cases hx : isZero x = true
    · simp [removeZero, hx] at ih ⊢
      rw [ih, hzero x hx]
      simp
    · simp only [Bool.not_eq_true] at hx
      simp [removeZero, hx] at ih ⊢
      rw [ih]

end RemoveZero

/-! ### The merge -/

section Merge

variable (key : E → K) (isZero : E → Bool) (add : E → E → E) (amount : E → V)

/-- The three heads of a merge step: an entry, or nothing when it is zero. -/
theorem mem_ite_nil {x e : E} (h : e ∈ if isZero x then [] else [x]) : e = x ∧ isZero x = false := by
  by_cases hx : isZero x = true
  · simp [hx] at h
  · simp only [Bool.not_eq_true] at hx
    simp only [hx, Bool.false_eq_true, if_false, List.mem_singleton] at h
    exact ⟨h, hx⟩

/-- Every entry of a merge is non-zero. -/
theorem ne_zero_of_mem_mergeAdd {a b : List E} {e : E} (he : e ∈ mergeAdd key isZero add a b) :
    isZero e = false := by
  induction a, b using mergeAdd.induct key with
  | case1 b => exact ne_zero_of_mem_removeZero isZero (by rwa [mergeAdd] at he)
  | case2 x a => exact ne_zero_of_mem_removeZero isZero (by rwa [mergeAdd] at he)
  | case3 x a y b hc ih | case4 x a y b hc ih | case5 x a y b hc ih =>
    rw [mergeAdd, hc] at he
    rcases List.mem_append.1 he with he | he
    · exact (mem_ite_nil isZero he).1 ▸ (mem_ite_nil isZero he).2
    · exact ih he

/-- A property of entries that sums keep holds of every entry of a merge of
lists where it holds. -/
theorem forall_mem_mergeAdd (P : E → Prop) (hadd : ∀ x y, P x → P y → P (add x y)) {a b : List E}
    (ha : ∀ x ∈ a, P x) (hb : ∀ y ∈ b, P y) : ∀ e ∈ mergeAdd key isZero add a b, P e := by
  induction a, b using mergeAdd.induct key with
  | case1 b =>
    rw [mergeAdd]
    exact fun e he => hb e (List.mem_filter.1 he).1
  | case2 x a =>
    rw [mergeAdd]
    exact fun e he => ha e (List.mem_filter.1 he).1
  | case3 x a y b hc ih =>
    -- the first head goes first
    rw [mergeAdd, hc]
    intro e he
    rcases List.mem_append.1 he with he | he
    · rw [(mem_ite_nil isZero he).1]
      exact ha x List.mem_cons_self
    · exact ih (fun x hx => ha x (List.mem_cons_of_mem _ hx)) hb e he
  | case4 x a y b hc ih =>
    -- equal keys: the heads are added
    rw [mergeAdd, hc]
    intro e he
    rcases List.mem_append.1 he with he | he
    · rw [(mem_ite_nil isZero he).1]
      exact hadd x y (ha x List.mem_cons_self) (hb y List.mem_cons_self)
    · exact ih (fun x hx => ha x (List.mem_cons_of_mem _ hx))
        (fun y hy => hb y (List.mem_cons_of_mem _ hy)) e he
  | case5 x a y b hc ih =>
    -- the second head goes first
    rw [mergeAdd, hc]
    intro e he
    rcases List.mem_append.1 he with he | he
    · rw [(mem_ite_nil isZero he).1]
      exact hb y List.mem_cons_self
    · exact ih ha (fun y hy => hb y (List.mem_cons_of_mem _ hy)) e he

variable (hkey : ∀ x y, key (add x y) = key x)
include hkey

/-- Every key of a merge is a key of one of the lists merged. -/
theorem key_mem_mergeAdd {a b : List E} {e : E} (he : e ∈ mergeAdd key isZero add a b) :
    (∃ x ∈ a, key x = key e) ∨ (∃ y ∈ b, key y = key e) :=
  forall_mem_mergeAdd key isZero add (fun e => (∃ x ∈ a, key x = key e) ∨ (∃ y ∈ b, key y = key e))
    (fun x y hx _ => by rw [hkey]; exact hx) (fun x hx => .inl ⟨x, hx, rfl⟩)
    (fun y hy => .inr ⟨y, hy, rfl⟩) e he

omit hkey in
/-- An entry below every key of a sorted list, put before it unless zero,
keeps it sorted. -/
theorem sorted_ite_append {x : E} {l : List E} (hl : KeySorted key l)
    (hx : ∀ e ∈ l, key x < key e) : KeySorted key ((if isZero x then [] else [x]) ++ l) := by
  split
  · exact hl
  · exact List.pairwise_cons.2 ⟨hx, hl⟩

/-- A merge of sorted lists is sorted. -/
theorem sorted_mergeAdd {a b : List E} (ha : KeySorted key a) (hb : KeySorted key b) :
    KeySorted key (mergeAdd key isZero add a b) := by
  induction a, b using mergeAdd.induct key with
  | case1 b =>
    rw [mergeAdd]
    exact sorted_removeZero key isZero hb
  | case2 x a =>
    rw [mergeAdd]
    exact sorted_removeZero key isZero ha
  | case3 x a y b hc ih =>
    -- the head x is below a, and below y and all of b
    have hxy : key x < key y := compare_lt_iff_lt.1 hc
    rw [mergeAdd, hc]
    refine sorted_ite_append key isZero (ih (List.pairwise_cons.1 ha).2 hb) fun e he => ?_
    rcases key_mem_mergeAdd key isZero add hkey he with ⟨z, hz, hze⟩ | ⟨z, hz, hze⟩
    · exact hze ▸ (List.pairwise_cons.1 ha).1 z hz
    · rcases List.mem_cons.1 hz with rfl | hz
      · exact hze ▸ hxy
      · exact hze ▸ hxy.trans ((List.pairwise_cons.1 hb).1 z hz)
  | case4 x a y b hc ih =>
    -- the sum of the heads has their common key, below the rest of both
    have hxy : key x = key y := compare_eq_iff_eq.1 hc
    rw [mergeAdd, hc]
    refine sorted_ite_append key isZero (ih (List.pairwise_cons.1 ha).2 (List.pairwise_cons.1 hb).2)
      fun e he => ?_
    rw [hkey]
    rcases key_mem_mergeAdd key isZero add hkey he with ⟨z, hz, hze⟩ | ⟨z, hz, hze⟩
    · exact hze ▸ (List.pairwise_cons.1 ha).1 z hz
    · exact hze ▸ hxy ▸ (List.pairwise_cons.1 hb).1 z hz
  | case5 x a y b hc ih =>
    -- the head y is below b, and below x and all of a
    have hyx : key y < key x := compare_gt_iff_gt.1 hc
    rw [mergeAdd, hc]
    refine sorted_ite_append key isZero (ih ha (List.pairwise_cons.1 hb).2) fun e he => ?_
    rcases key_mem_mergeAdd key isZero add hkey he with ⟨z, hz, hze⟩ | ⟨z, hz, hze⟩
    · rcases List.mem_cons.1 hz with rfl | hz
      · exact hze ▸ hyx
      · exact hze ▸ hyx.trans ((List.pairwise_cons.1 ha).1 z hz)
    · exact hze ▸ (List.pairwise_cons.1 hb).1 z hz

omit hkey in
/-- A head that is dropped when zero holds what the head holds. -/
theorem total_ite [AddCommMonoid V] (hzero : ∀ e, isZero e = true → amount e = 0) (x : E) (k : K) :
    total key amount (if isZero x then [] else [x]) k = total key amount [x] k := by
  split
  · rename_i hx
    simp [hzero x hx]
  · rfl

/-- **A merge adds the totals**, at every key, whatever the order of the lists. -/
theorem total_mergeAdd [AddCommMonoid V] (hadd : ∀ x y, amount (add x y) = amount x + amount y)
    (hzero : ∀ e, isZero e = true → amount e = 0) (a b : List E) (k : K) :
    total key amount (mergeAdd key isZero add a b) k = total key amount a k + total key amount b k := by
  induction a, b using mergeAdd.induct key with
  | case1 b => rw [mergeAdd, total_removeZero key isZero amount hzero, total_nil, zero_add]
  | case2 x a => rw [mergeAdd, total_removeZero key isZero amount hzero, total_nil, add_zero]
  | case3 x a y b hc ih =>
    rw [mergeAdd, hc, total_append, total_ite key isZero amount hzero, ih, total_cons key amount x a]
    simp [add_assoc]
  | case4 x a y b hc ih =>
    -- the sum of the heads holds both, at their common key
    have hxy : key x = key y := compare_eq_iff_eq.1 hc
    rw [mergeAdd, hc, total_append, total_ite key isZero amount hzero, ih,
      total_cons key amount x a, total_cons key amount y b]
    simp only [total_cons, total_nil, add_zero, hkey, hadd, hxy]
    split_ifs <;> simp [add_assoc, add_left_comm]
  | case5 x a y b hc ih =>
    rw [mergeAdd, hc, total_append, total_ite key isZero amount hzero, ih, total_cons key amount y b]
    simp [add_left_comm]

end Merge

/-! ### Merging one entry at a time -/

section Fold

variable (key : E → K) (isZero : E → Bool) (add : E → E → E) (amount : E → V)
  {α : Type*} (f : α → E) (step : List E → α → List E)
  (hstep : ∀ res x, step res x = if !isZero (f x) then mergeAdd key isZero add res [f x] else res)
include hstep

/-- Merging in the image of each element, one at a time, adds their totals. -/
theorem total_foldl_mergeAdd [AddCommMonoid V] (hadd : ∀ x y, amount (add x y) = amount x + amount y)
    (hzero : ∀ e, isZero e = true → amount e = 0) (hkey : ∀ x y, key (add x y) = key x)
    (l : List α) (acc : List E) (k : K) :
    total key amount (l.foldl step acc) k = total key amount acc k + total key amount (l.map f) k := by
  induction l generalizing acc with
  | nil => simp
  | cons x l ih =>
    rw [List.foldl_cons, ih, List.map_cons, total_cons, hstep]
    -- an image other than zero is merged in, a zero one adds nothing
    split
    · rw [total_mergeAdd key isZero add amount hkey hadd hzero, total_cons, total_nil, add_zero,
        add_assoc]
    · rename_i hx
      have hx' : isZero (f x) = true := by simpa using hx
      simp [hzero _ hx']

/-- Merging in one entry at a time keeps a result sorted. -/
theorem sorted_foldl_mergeAdd (hkey : ∀ x y, key (add x y) = key x) (l : List α) {acc : List E}
    (hacc : KeySorted key acc) : KeySorted key (l.foldl step acc) := by
  induction l generalizing acc with
  | nil => exact hacc
  | cons x l ih =>
    rw [List.foldl_cons]
    refine ih ?_
    rw [hstep]
    split
    · exact sorted_mergeAdd key isZero add hkey hacc (List.pairwise_singleton _ _)
    · exact hacc

/-- Merging in one entry at a time keeps a result free of zero entries. -/
theorem ne_zero_of_mem_foldl_mergeAdd (l : List α) {acc : List E}
    (hacc : ∀ e ∈ acc, isZero e = false) : ∀ e ∈ l.foldl step acc, isZero e = false := by
  induction l generalizing acc with
  | nil => exact hacc
  | cons x l ih =>
    rw [List.foldl_cons]
    refine ih ?_
    rw [hstep]
    split
    · exact fun e he => ne_zero_of_mem_mergeAdd key isZero add he
    · exact hacc

end Fold

/-! ### The halving search -/

section Search

variable (key : E → K) (amount : E → V) [AddCommMonoid V]

/-- A list's total is that of the entries before an index, at it, and after it. -/
theorem total_split {l : List E} {m : ℕ} (hm : m < l.length) (k : K) :
    total key amount l k = total key amount (l.take m) k +
      ((if key l[m] = k then amount l[m] else 0) + total key amount (l.drop (m + 1)) k) := by
  conv_lhs => rw [← List.take_append_drop m l, List.drop_eq_getElem_cons hm]
  rw [total_append, total_cons]

/-- In a sorted list the entries before an index are below it, and those after
above. -/
theorem sorted_take_drop {l : List E} (hs : KeySorted key l) {m : ℕ} (hm : m < l.length) :
    (∀ e ∈ l.take m, key e < key l[m]) ∧ ∀ e ∈ l.drop (m + 1), key l[m] < key e := by
  have hsplit : l = l.take m ++ l[m] :: l.drop (m + 1) := by
    rw [← List.drop_eq_getElem_cons hm, List.take_append_drop]
  unfold KeySorted at hs
  rw [hsplit, List.pairwise_append, List.pairwise_cons] at hs
  exact ⟨fun e he => hs.2.2 e he _ List.mem_cons_self, hs.2.1.1⟩

/-- **The halving search of a sorted list finds the total**: the keys before
the middle entry are below it, and those after it above. -/
theorem search_eq_total {l : List E} (hs : KeySorted key l) (k : K) :
    search key amount l k = total key amount l k := by
  induction l using search.induct key k with
  | case1 => simp [search]
  | case2 x hx => simp [search, hx]
  | case3 x hx => simp [search, hx]
  | case4 x y rest hmid mid hlt ih =>
    -- the key is below the middle: all of it is in the first half
    obtain ⟨-, hafter⟩ := sorted_take_drop key hs hmid
    rw [search, if_pos hlt, ih (hs.sublist (List.take_sublist _ _)), total_split key amount hmid,
      if_neg (ne_of_gt hlt), total_eq_zero key amount fun e he => (hlt.trans (hafter e he)).ne',
      zero_add, add_zero]
  | case5 x y rest hmid mid hnlt heq =>
    obtain ⟨hbefore, hafter⟩ := sorted_take_drop key hs hmid
    rw [search, if_neg hnlt, if_pos heq, total_split key amount hmid, if_pos heq.symm,
      total_eq_zero key amount fun e he => heq ▸ (hbefore e he).ne,
      total_eq_zero key amount fun e he => heq ▸ (hafter e he).ne', zero_add, add_zero]
  | case6 x y rest hmid mid hnlt hne ih =>
    -- the key is above the middle: all of it is in the second half
    obtain ⟨hbefore, -⟩ := sorted_take_drop key hs hmid
    have hgt : key (x :: y :: rest)[(x :: y :: rest).length / 2] < k :=
      lt_of_le_of_ne (not_lt.1 hnlt) (Ne.symm hne)
    rw [search, if_neg hnlt, if_neg hne, ih (hs.sublist (List.drop_sublist _ _)),
      total_split key amount hmid, if_neg hgt.ne,
      total_eq_zero key amount fun e he => ((hbefore e he).trans hgt).ne, zero_add, zero_add]

end Search


end SortedMerge
