import Mathlib.Data.List.Sort
import Mathlib.Data.List.Induction
import Mathlib.Order.Basic
import Mathlib.Algebra.BigOperators.Group.List.Basic
import ColorSdk.Lib.Lex

/-!
# Ordered key-value contents

The contents of an ordered key-value store, as the list of its entries with
strictly increasing keys.  Every ordered store is observed through point
lookups and range scans, and a range scan of such contents is a filter of the
list: this is the whole contract a store offers to the layers above it.

Bounds of a range are optional, `none` standing for an unbounded side, so that
`[lo, hi)` covers the conventions of every iterator built on top.

## Main definitions

* `inRange lo hi k` — `k` lies in the half-open range `[lo, hi)`.
* `KeyLt` — the order of entries by their keys.
* `SortedKV K V` — entry lists sorted strictly by key.
* `SortedKV.get`, `SortedKV.set`, `SortedKV.delete` — point access.
* `SortedKV.range` — the entries whose keys lie in a range, in ascending order.
* `SortedKV.under` — the contents under a key prefix, with the prefix stripped.
* `SortedKV.sumBy` — the sum of a function over the stored values.
* `SortedKV.Stored` — the entries still to come of a scan are still stored.

## Main results

* `List.lookup_eq_some_iff_mem` — in a strictly sorted list, lookup finds
  exactly the members.
* `List.find?_reverse_of_nodup_map` — with distinct keys, the first item of a
  key is the last.
* `SortedKV.ext_get` — contents are determined by their lookups.
* `SortedKV.get_foldl_set` — writing items one after another leaves at each key
  the last item written there.
* `SortedKV.eq_range_of_mem_iff` — a strictly sorted list listing exactly the
  entries in a range is the range scan.
* `SortedKV.filter_delete`, `SortedKV.filter_eq_of_get` — how writes change a
  filtered scan.
* `SortedKV.sumBy_set`, `SortedKV.sumBy_eq_add_delete` — how a write changes a sum.
* `SortedKV.Stored.tail` — a loop round that keeps the other values' entries
  keeps the rest of its scan stored.
* `SortedKV.get_under` — the view under `p` reads `k` at `p ++ k`.
-/

section Range

variable {K : Type*} [LinearOrder K]

/-- `k` lies in `[lo, hi)`; a missing bound does not restrict that side. -/
def inRange (lo hi : Option K) (k : K) : Bool :=
  (match lo with
    | none => true
    | some l => decide (l ≤ k)) &&
  (match hi with
    | none => true
    | some h => decide (k < h))

@[simp] theorem inRange_none_none (k : K) : inRange none none k = true := rfl

theorem inRange_iff {lo hi : Option K} {k : K} :
    inRange lo hi k = true ↔ (∀ l, lo = some l → l ≤ k) ∧ (∀ h, hi = some h → k < h) := by
  cases lo <;> cases hi <;> simp [inRange]

/-- Above a key that meets the lower bound of a range but lies outside it, every
key lies outside: the scan has passed the range. -/
theorem inRange_eq_false_of_lt {lo hi : Option K} {k k' : K} (hk : inRange lo hi k = false)
    (hlo : ∀ l, lo = some l → l ≤ k) (hkk' : k < k') : inRange lo hi k' = false := by
  rw [← Bool.not_eq_true, inRange_iff] at hk ⊢
  rintro ⟨-, hhi⟩
  exact hk ⟨hlo, fun h hh => lt_trans hkk' (hhi h hh)⟩

end Range

/-- Entries ordered by their keys alone. -/
def KeyLt {K V : Type*} [LT K] (a b : K × V) : Prop := a.1 < b.1

@[simp] theorem keyLt_iff {K V : Type*} [LT K] {a b : K × V} : KeyLt a b ↔ a.1 < b.1 := Iff.rfl

instance {K V : Type*} [Preorder K] : Std.Irrefl (KeyLt (K := K) (V := V)) :=
  ⟨fun a h => lt_irrefl a.1 h⟩

instance {K V : Type*} [Preorder K] : Std.Antisymm (KeyLt (K := K) (V := V)) :=
  ⟨fun _ _ h₁ h₂ => absurd (lt_trans h₁ h₂) (lt_irrefl _)⟩

namespace List

variable {K V : Type*} [LinearOrder K]

/-- Insert an entry into a list sorted by key, replacing an entry with the same
key. -/
def insertKey (k : K) (v : V) : List (K × V) → List (K × V)
  | [] => [(k, v)]
  | e :: es => if k < e.1 then (k, v) :: e :: es
    else if k = e.1 then (k, v) :: es
    else e :: insertKey k v es

theorem mem_insertKey {k : K} {v : V} {x : K × V} :
    ∀ {l : List (K × V)}, x ∈ insertKey k v l → x = (k, v) ∨ x ∈ l
  | [] => by simp [insertKey]
  | e :: es => by
    unfold insertKey
    split_ifs with hlt heq
    · simp only [mem_cons]; tauto
    · simp only [mem_cons]; tauto
    · simp only [mem_cons]
      rintro (rfl | hx)
      · exact .inr (.inl rfl)
      · rcases mem_insertKey hx with h | h
        · exact .inl h
        · exact .inr (.inr h)

theorem pairwise_insertKey (k : K) (v : V) :
    ∀ {l : List (K × V)}, l.Pairwise KeyLt → (insertKey k v l).Pairwise KeyLt
  | [] => fun _ => pairwise_singleton _ _
  | e :: es => by
    intro h
    rw [pairwise_cons] at h
    unfold insertKey
    split_ifs with hlt heq
    · refine pairwise_cons.2 ⟨?_, pairwise_cons.2 h⟩
      intro x hx
      rcases mem_cons.1 hx with rfl | hx
      · exact hlt
      · exact lt_trans hlt (h.1 x hx)
    · refine pairwise_cons.2 ⟨fun x hx => ?_, h.2⟩
      simpa [heq] using h.1 x hx
    · refine pairwise_cons.2 ⟨fun x hx => ?_, pairwise_insertKey k v h.2⟩
      rcases mem_insertKey hx with rfl | hx
      · exact lt_of_le_of_ne (not_lt.1 hlt) (Ne.symm heq)
      · exact h.1 x hx

/-- Lookup in a cons, with the key comparison as a decidable `if`. -/
theorem lookup_cons_ite (e : K × V) (es : List (K × V)) (k : K) :
    (e :: es).lookup k = if k = e.1 then some e.2 else es.lookup k := by
  obtain ⟨k', b⟩ := e
  by_cases h : k = k'
  · simp [h]
  · simp [lookup_cons, beq_eq_false_iff_ne.2 h, h]

theorem lookup_insertKey (k k' : K) (v : V) :
    ∀ l : List (K × V), (insertKey k v l).lookup k' = if k' = k then some v else l.lookup k'
  | [] => by by_cases h : k' = k <;> simp [insertKey, h]
  | e :: es => by
    have ih := lookup_insertKey k k' v es
    by_cases hlt : k < e.1
    · rw [insertKey, if_pos hlt, lookup_cons_ite]
    · by_cases heq : k = e.1
      · rw [insertKey, if_neg hlt, if_pos heq, lookup_cons_ite, lookup_cons_ite, ← heq]
        by_cases hk : k' = k <;> simp [hk]
      · rw [insertKey, if_neg hlt, if_neg heq, lookup_cons_ite, lookup_cons_ite, ih]
        by_cases hk : k' = k
        · subst hk; simp [heq]
        · simp [hk]

theorem lookup_filter_ne (k k' : K) :
    ∀ l : List (K × V),
      (l.filter fun e => e.1 ≠ k).lookup k' = if k' = k then none else l.lookup k'
  | [] => by simp
  | e :: es => by
    have ih := lookup_filter_ne k k' es
    by_cases he : e.1 = k
    · rw [filter_cons_of_neg (by simpa using he), ih, lookup_cons_ite]
      by_cases hk : k' = k
      · simp [hk]
      · simp [hk, he]
    · rw [filter_cons_of_pos (by simpa using he), lookup_cons_ite, lookup_cons_ite, ih]
      by_cases hk : k' = k
      · subst hk; simp [Ne.symm he]
      · simp [hk]

/-- In a list sorted strictly by key, lookup finds exactly the members. -/
theorem lookup_eq_some_iff_mem {k : K} {v : V} :
    ∀ {l : List (K × V)}, l.Pairwise KeyLt → (l.lookup k = some v ↔ (k, v) ∈ l)
  | [] => fun _ => by simp
  | e :: es => by
    intro h
    rw [pairwise_cons] at h
    rw [lookup_cons_ite, mem_cons]
    by_cases hk : k = e.1
    · -- the head carries the key, so no later entry can
      have hnot : (k, v) ∉ es := fun hw => by
        have hlt := h.1 _ hw
        rw [keyLt_iff, ← hk] at hlt
        exact lt_irrefl _ hlt
      rw [if_pos hk, Option.some.injEq]
      constructor
      · intro hv
        exact .inl (Prod.ext hk hv.symm)
      · rintro (he | he)
        · exact (congrArg Prod.snd he).symm
        · exact absurd he hnot
    · rw [if_neg hk, lookup_eq_some_iff_mem h.2]
      constructor
      · exact .inr
      · rintro (he | he)
        · exact absurd (congrArg Prod.fst he) hk
        · exact he

/-- Inserting into a sorted list gives the new entry and the entries of the
other keys. -/
theorem insertKey_perm (k : K) (v : V) :
    ∀ {l : List (K × V)}, l.Pairwise KeyLt →
      (insertKey k v l).Perm ((k, v) :: l.filter fun e => e.1 ≠ k)
  | [] => fun _ => by simp [insertKey]
  | e :: es => by
    intro h
    rw [pairwise_cons] at h
    -- the keys after `e` lie above it
    have hes : ∀ x ∈ es, e.1 < x.1 := h.1
    unfold insertKey
    split_ifs with hlt heq
    · rw [filter_eq_self.2]
      intro x hx
      rcases mem_cons.1 hx with rfl | hx
      · simpa using ne_of_gt hlt
      · simpa using ne_of_gt (lt_trans hlt (hes x hx))
    · subst heq
      rw [filter_cons_of_neg (by simp),
        filter_eq_self.2 fun x hx => by simpa using ne_of_gt (hes x hx)]
    · rw [filter_cons_of_pos (by simpa using Ne.symm heq)]
      exact ((insertKey_perm k v h.2).cons e).trans (Perm.swap _ _ _)

theorem lookup_eq_none_of_lt {k : K} :
    ∀ {l : List (K × V)}, (∀ x ∈ l, k < x.1) → l.lookup k = none
  | [] => fun _ => rfl
  | e :: es => by
    intro h
    rw [lookup_cons_ite, if_neg (ne_of_lt (h e mem_cons_self)),
      lookup_eq_none_of_lt fun x hx => h x (mem_cons_of_mem _ hx)]

/-- When no two items share a key, the first item of a key is also the last. -/
theorem find?_reverse_of_nodup_map {α β : Type*} [DecidableEq β] {f : α → β} {l : List α}
    (hl : (l.map f).Nodup) (k : β) :
    l.reverse.find? (fun x => f x = k) = l.find? (fun x => f x = k) := by
  -- at most one item carries the key
  have hone : (l.filter fun x => f x = k).length ≤ 1 := by
    have hnodup : ((l.filter fun x => f x = k).map f).Nodup := hl.sublist (filter_sublist.map f)
    have hrep : (l.filter fun x => f x = k).map f =
        replicate (l.filter fun x => f x = k).length k := by
      rw [eq_replicate_iff]
      refine ⟨length_map _, fun b hb => ?_⟩
      obtain ⟨x, hx, rfl⟩ := mem_map.1 hb
      simpa using (mem_filter.1 hx).2
    rwa [hrep, nodup_replicate] at hnodup
  rw [← head?_filter, ← head?_filter, filter_reverse]
  generalize l.filter (fun x => f x = k) = m at hone ⊢
  match m, hone with
  | [], _ => rfl
  | [_], _ => rfl
  | _ :: _ :: _, h => simp at h

/-- When no two items share a key, the search for an item's key finds it. -/
theorem find?_eq_some_of_nodup_map {α β : Type*} [DecidableEq β] {f : α → β} {l : List α}
    (hl : (l.map f).Nodup) {x : α} (hx : x ∈ l) : l.find? (fun y => f y = f x) = some x := by
  obtain ⟨y, hy⟩ : ∃ y, l.find? (fun y => f y = f x) = some y :=
    Option.isSome_iff_exists.1 (find?_isSome.2 ⟨x, hx, by simp⟩)
  have hyx : f y = f x := by simpa using find?_some hy
  rw [hy, inj_on_of_nodup_map hl (mem_of_find?_eq_some hy) hx hyx]

end List

/-- The contents of an ordered key-value store: its entries, with strictly
increasing keys. -/
structure SortedKV (K V : Type*) [LinearOrder K] where
  /-- The entries in ascending key order. -/
  entries : List (K × V)
  /-- Keys strictly increase along the list. -/
  sorted : entries.Pairwise KeyLt

namespace SortedKV

variable {K V : Type*} [LinearOrder K]

/-- The empty contents. -/
def empty : SortedKV K V := ⟨[], List.Pairwise.nil⟩

/-- The value stored at a key. -/
def get (m : SortedKV K V) (k : K) : Option V := m.entries.lookup k

/-- Store a value at a key, replacing the previous one. -/
def set (m : SortedKV K V) (k : K) (v : V) : SortedKV K V :=
  ⟨List.insertKey k v m.entries, List.pairwise_insertKey k v m.sorted⟩

/-- Remove a key. -/
def delete (m : SortedKV K V) (k : K) : SortedKV K V :=
  ⟨m.entries.filter fun e => e.1 ≠ k, m.sorted.filter _⟩

/-- The entries whose keys lie in `[lo, hi)`, in ascending key order. -/
def range (m : SortedKV K V) (lo hi : Option K) : List (K × V) :=
  m.entries.filter fun e => inRange lo hi e.1

@[simp] theorem get_empty (k : K) : (empty : SortedKV K V).get k = none := rfl

@[simp] theorem get_set (m : SortedKV K V) (k k' : K) (v : V) :
    (m.set k v).get k' = if k' = k then some v else m.get k' :=
  List.lookup_insertKey k k' v m.entries

@[simp] theorem get_delete (m : SortedKV K V) (k k' : K) :
    (m.delete k).get k' = if k' = k then none else m.get k' :=
  List.lookup_filter_ne k k' m.entries

theorem get_eq_some_iff {m : SortedKV K V} {k : K} {v : V} :
    m.get k = some v ↔ (k, v) ∈ m.entries :=
  List.lookup_eq_some_iff_mem m.sorted

/-- Each key is stored once. -/
theorem nodup_keys (m : SortedKV K V) : (m.entries.map Prod.fst).Nodup :=
  List.pairwise_map.2 (m.sorted.imp ne_of_lt)

theorem get_eq_none_of_not_mem {m : SortedKV K V} {k : K} (hk : k ∉ m.entries.map Prod.fst) :
    m.get k = none := by
  cases h : m.get k with
  | none => rfl
  | some v => exact absurd (List.mem_map_of_mem (get_eq_some_iff.1 h)) hk

/-- Contents are determined by their lookups. -/
theorem ext_get {m m' : SortedKV K V} (h : ∀ k, m.get k = m'.get k) : m = m' := by
  obtain ⟨l, hl⟩ := m
  obtain ⟨l', hl'⟩ := m'
  have hmem : ∀ x : K × V, x ∈ l ↔ x ∈ l' := by
    intro x
    rw [← List.lookup_eq_some_iff_mem hl, ← List.lookup_eq_some_iff_mem hl']
    exact Eq.congr_left (h x.1)
  have hll : l = l' := hl.eq_of_mem_iff hl' hmem
  subst hll
  rfl

/-- Writing items one after another, each at its own key, leaves at every key
the value of the last item written there. -/
theorem get_foldl_set {α : Type*} (key : α → K) (val : α → V) (m : SortedKV K V) (k : K) :
    ∀ l : List α, (l.foldl (fun m x => m.set (key x) (val x)) m).get k =
      ((l.reverse.find? fun x => key x = k).map val).or (m.get k) := by
  intro l
  induction l using List.reverseRecOn with
  | nil => simp
  | append_singleton l x ih =>
    rw [List.foldl_append, List.foldl_cons, List.foldl_nil, get_set, List.reverse_append,
      List.reverse_singleton, List.singleton_append, List.find?_cons]
    by_cases hk : key x = k
    · simp [hk]
    · simp [hk, Ne.symm hk, ih]

/-- Folding updates that each put a value `g key` at their own key, whatever
the contents, reads `g k` at an updated key and the start elsewhere. -/
theorem get_foldl (f : SortedKV K V → K → SortedKV K V) (g : K → Option V) :
    ∀ keys : List K, (∀ key ∈ keys, ∀ m k, (f m key).get k = if k = key then g key else m.get k) →
      ∀ m k, (keys.foldl f m).get k = if k ∈ keys then g k else m.get k
  | [], _, m, k => by simp
  | key :: keys, hf, m, k => by
    rw [List.foldl_cons, get_foldl f g keys (fun key' h => hf key' (List.mem_cons_of_mem _ h)),
      hf key List.mem_cons_self]
    by_cases hk : k ∈ keys
    · simp [hk]
    · by_cases hkey : k = key
      · subst hkey
        simp
      · simp [hk, hkey]

theorem range_sorted (m : SortedKV K V) (lo hi : Option K) : (m.range lo hi).Pairwise KeyLt :=
  m.sorted.filter _

theorem mem_range {m : SortedKV K V} {lo hi : Option K} {k : K} {v : V} :
    (k, v) ∈ m.range lo hi ↔ m.get k = some v ∧ inRange lo hi k = true := by
  simp [range, get_eq_some_iff]

/-- A strictly sorted list listing exactly the entries of `m` in `[lo, hi)` is
the range scan of `m`. -/
theorem eq_range_of_mem_iff {m : SortedKV K V} {lo hi : Option K} {l : List (K × V)}
    (hl : l.Pairwise KeyLt)
    (h : ∀ k v, (k, v) ∈ l ↔ m.get k = some v ∧ inRange lo hi k = true) :
    l = m.range lo hi :=
  hl.eq_of_mem_iff (m.range_sorted lo hi) fun x => by rw [h x.1 x.2, mem_range]

/-- Deleting a key drops its entry from every filtered scan. -/
theorem filter_delete (m : SortedKV K V) (k : K) (p : K × V → Bool) :
    (m.delete k).entries.filter p = (m.entries.filter p).filter fun e => e.1 ≠ k := by
  simp only [delete, List.filter_filter]
  congr 1
  funext e
  exact Bool.and_comm _ _

/-- Two stores that agree at every key a scan keeps give the same scan. -/
theorem filter_eq_of_get {m m' : SortedKV K V} {p : K → Bool}
    (h : ∀ k, p k = true → m'.get k = m.get k) :
    m'.entries.filter (fun e => p e.1) = m.entries.filter fun e => p e.1 := by
  refine (m'.sorted.filter _).eq_of_mem_iff (m.sorted.filter _) fun x => ?_
  rw [List.mem_filter, List.mem_filter, ← get_eq_some_iff, ← get_eq_some_iff]
  constructor
  · rintro ⟨hx, hp⟩
    exact ⟨(h x.1 hp) ▸ hx, hp⟩
  · rintro ⟨hx, hp⟩
    exact ⟨(h x.1 hp).symm ▸ hx, hp⟩

/-- Storing the value a key already holds changes nothing. -/
theorem set_of_get_eq_some {m : SortedKV K V} {k : K} {v : V} (h : m.get k = some v) :
    m.set k v = m :=
  ext_get fun k' => by
    rw [get_set]
    split_ifs with hk
    · rw [hk, h]
    · rfl

/-- Deleting a missing key changes nothing. -/
theorem delete_of_get_eq_none {m : SortedKV K V} {k : K} (h : m.get k = none) : m.delete k = m :=
  ext_get fun k' => by
    rw [get_delete]
    split_ifs with hk
    · rw [hk, h]
    · rfl

/-! ### Sums over the values -/

section Sum

variable {M : Type*} [AddCommMonoid M]

/-- The sum of `f` over the stored values. -/
def sumBy (f : V → M) (m : SortedKV K V) : M := (m.entries.map fun e => f e.2).sum

@[simp] theorem sumBy_empty (f : V → M) : (empty : SortedKV K V).sumBy f = 0 := rfl

/-- Storing at a key counts the new value in place of the old one. -/
theorem sumBy_set (f : V → M) (m : SortedKV K V) (k : K) (v : V) :
    (m.set k v).sumBy f = f v + (m.delete k).sumBy f := by
  simp only [sumBy, set, delete]
  rw [((List.insertKey_perm k v m.sorted).map _).sum_eq, List.map_cons, List.sum_cons]

/-- A stored value is counted once, besides the others. -/
theorem sumBy_eq_add_delete (f : V → M) {m : SortedKV K V} {k : K} {v : V}
    (h : m.get k = some v) : m.sumBy f = f v + (m.delete k).sumBy f :=
  calc m.sumBy f = (m.set k v).sumBy f := by rw [set_of_get_eq_some h]
    _ = f v + (m.delete k).sumBy f := sumBy_set f m k v

end Sum

/-! ### Snapshots

A loop over a scan visits entries read before it started, while its rounds
write the store.  The entries still to come are still stored as long as each
round keeps the entries of every other value, when a value is held at one key
only. -/

/-- The entries of `l`, in increasing key order, are all still stored in `m`. -/
structure Stored (m : SortedKV K V) (l : List (K × V)) : Prop where
  mem : ∀ e ∈ l, m.get e.1 = some e.2
  sorted : l.Pairwise KeyLt

/-- A scan is stored when it is taken. -/
theorem stored_filter (m : SortedKV K V) (p : K × V → Bool) : Stored m (m.entries.filter p) where
  mem _ he := get_eq_some_iff.2 (List.mem_filter.1 he).1
  sorted := m.sorted.filter p

namespace Stored

variable {m m' : SortedKV K V} {e : K × V} {l : List (K × V)}

/-- If only `e`'s key holds `e`'s value, the entries after `e` hold other
values. -/
theorem value_ne (h : Stored m (e :: l)) (hinj : ∀ k, m.get k = some e.2 → k = e.1) :
    ∀ e' ∈ l, e'.2 ≠ e.2 := by
  intro e' he' hv
  have hkey : e'.1 = e.1 := hinj e'.1 (hv ▸ h.mem e' (List.mem_cons_of_mem _ he'))
  have hlt : e.1 < e'.1 := List.rel_of_pairwise_cons h.sorted he'
  exact absurd hkey (ne_of_gt hlt)

/-- A round at `e` that keeps every entry of another value keeps the rest of
the scan stored. -/
theorem tail (h : Stored m (e :: l)) (hinj : ∀ k, m.get k = some e.2 → k = e.1)
    (hsame : ∀ k v, m.get k = some v → v ≠ e.2 → m'.get k = some v) : Stored m' l where
  mem e' he' := hsame e'.1 e'.2 (h.mem e' (List.mem_cons_of_mem _ he')) (h.value_ne hinj e' he')
  sorted := h.sorted.of_cons

/-- A round that deletes its own entry keeps the rest of the scan stored. -/
theorem delete (h : Stored m (e :: l)) : Stored (m.delete e.1) l where
  mem e' he' := by
    have hlt : e.1 < e'.1 := List.rel_of_pairwise_cons h.sorted he'
    rw [get_delete, if_neg (ne_of_gt hlt)]
    exact h.mem e' (List.mem_cons_of_mem _ he')
  sorted := h.sorted.of_cons

end Stored

/-! ### Views under a prefix

When keys are strings, the entries whose keys share a prefix `p` form a store
of their own, keyed by what follows `p`. -/

section Under

variable {α V : Type*}

/-- Strip `p` from the key of an entry. -/
def dropKey (p : List α) (e : List α × V) : List α × V := (e.1.drop p.length, e.2)

theorem mem_map_dropKey {p : List α} {l : List (List α × V)} (hp : ∀ e ∈ l, p <+: e.1)
    {k : List α} {v : V} : (k, v) ∈ l.map (dropKey p) ↔ (p ++ k, v) ∈ l := by
  constructor
  · intro h
    obtain ⟨⟨x, w⟩, hx, he⟩ := List.mem_map.1 h
    obtain ⟨t, rfl⟩ := hp _ hx
    simp only [dropKey, List.drop_left, Prod.mk.injEq] at he
    rwa [← he.1, ← he.2]
  · intro h
    exact List.mem_map.2 ⟨_, h, by simp [dropKey]⟩

variable [LinearOrder α]

/-- Stripping a common prefix keeps keys strictly increasing. -/
theorem pairwise_map_dropKey {p : List α} {l : List (List α × V)} (hp : ∀ e ∈ l, p <+: e.1)
    (hl : l.Pairwise KeyLt) : (l.map (dropKey p)).Pairwise KeyLt := by
  refine List.pairwise_map.2 (hl.imp_of_mem fun {a b} ha hb hab => ?_)
  obtain ⟨s, hs⟩ := hp a ha
  obtain ⟨t, ht⟩ := hp b hb
  rw [keyLt_iff, ← hs, ← ht, List.append_lt_append_left_iff] at hab
  simpa [dropKey, ← hs, ← ht] using hab

/-- The contents under the prefix `p`, keyed by what follows `p`. -/
def under (m : SortedKV (List α) V) (p : List α) : SortedKV (List α) V :=
  ⟨(m.entries.filter fun e => decide (p <+: e.1)).map (dropKey p),
    pairwise_map_dropKey (fun e he => by simpa using (List.mem_filter.1 he).2)
      (m.sorted.filter _)⟩

/-- **The view under `p` reads `k` at `p ++ k`.** -/
@[simp] theorem get_under (m : SortedKV (List α) V) (p k : List α) :
    (m.under p).get k = m.get (p ++ k) := by
  refine Option.eq_of_eq_some fun v => ?_
  rw [get_eq_some_iff, get_eq_some_iff, under,
    mem_map_dropKey fun e he => by simpa using (List.mem_filter.1 he).2, List.mem_filter]
  simp

end Under

end SortedKV
