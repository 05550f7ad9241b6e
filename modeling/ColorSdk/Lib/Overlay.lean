import ColorSdk.Lib.SortedKV

/-!
# Overlays of sorted entry lists

A write-back cache is read through an overlay: its pending writes, sorted by
key, lie over the sorted entries of the store below.  A write shadows the entry
with its key, and a write of `none` (a deletion marker) hides it.  `overlay`
merges the two lists in one pass, the way a merging iterator walks them.

The order is a comparison function `cmp`, lawful in the sense of `Std.TransCmp`
and `Std.LawfulEqCmp`, so that one development serves both directions of
iteration: ascending is `compare`, descending its opposite.

## Main definitions

* `SortedBy cmp l` — the keys of `l` strictly increase for `cmp`.
* `written k w` — what a single write shows: the entry `(k, v)` for `w = some v`,
  nothing for a deletion marker.
* `overlay cmp p c` — the entries of `p` overlaid with the writes `c`.

## Main results

* `mem_overlay` — the overlay shows a write where there is one, and the entry
  below otherwise.
* `sortedBy_overlay` — the overlay is sorted strictly by key.
-/

section Overlay

variable {K V : Type}

/-- What a single write shows. -/
def written (k : K) (w : Option V) : List (K × V) := (w.map (k, ·)).toList

@[simp] theorem mem_written {k k' : K} {w : Option V} {v : V} :
    (k', v) ∈ written k w ↔ k' = k ∧ w = some v := by
  cases w <;> simp [written, eq_comm]

variable (cmp : K → K → Ordering)

/-- The keys of `l` strictly increase for `cmp`. -/
def SortedBy {W : Type} (l : List (K × W)) : Prop := l.Pairwise fun a b => cmp a.1 b.1 = .lt

/-- Overlay the writes `c` on the entries `p`, both sorted by key: a write
shadows the entry with its key, a deletion marker hides it. -/
def overlay : List (K × V) → List (K × Option V) → List (K × V)
  | p, [] => p
  | [], (kc, w) :: cs => written kc w ++ overlay [] cs
  | (kp, vp) :: ps, (kc, w) :: cs =>
    match cmp kp kc with
    | .lt => (kp, vp) :: overlay ps ((kc, w) :: cs)
    | .eq => written kc w ++ overlay ps cs
    | .gt => written kc w ++ overlay ((kp, vp) :: ps) cs
termination_by p c => p.length + c.length

variable {cmp}

theorem SortedBy.of_cons {W : Type} {x : K × W} {l : List (K × W)}
    (h : SortedBy cmp (x :: l)) : SortedBy cmp l :=
  List.Pairwise.of_cons h

theorem SortedBy.head_lt {W : Type} {x : K × W} {l : List (K × W)}
    (h : SortedBy cmp (x :: l)) : ∀ y ∈ l, cmp x.1 y.1 = .lt :=
  (List.pairwise_cons.1 h).1

theorem sortedBy_written (k : K) (w : Option V) : SortedBy cmp (written k w) := by
  cases w <;> simp [written, SortedBy]

/-- Under a key that lies below every key of a list, the list holds no entry. -/
theorem not_mem_of_forall_lt [Std.ReflCmp cmp] {W : Type} {l : List (K × W)} {k : K}
    (h : ∀ x ∈ l, cmp k x.1 = .lt) (w : W) : (k, w) ∉ l := fun hw => by
  have hlt : cmp k k = .lt := h _ hw
  have heq : cmp k k = .eq := Std.ReflCmp.compare_self
  rw [heq] at hlt
  exact nomatch hlt

theorem forall_lt_of_lt_head [Std.TransCmp cmp] {W : Type} {k kc : K} {w : W}
    {cs : List (K × W)} (hc : SortedBy cmp ((kc, w) :: cs)) (hk : cmp k kc = .lt) :
    ∀ x ∈ (kc, w) :: cs, cmp k x.1 = .lt := by
  intro x hx
  rcases List.mem_cons.1 hx with rfl | hx
  · exact hk
  · exact Std.TransCmp.lt_trans hk (hc.head_lt x hx)

@[simp] theorem overlay_nil_right (p : List (K × V)) : overlay cmp p [] = p := by
  rw [overlay]

/-- Over nothing, writes that all carry a value show exactly themselves. -/
@[simp] theorem overlay_nil_map_some (l : List (K × V)) :
    overlay cmp [] (l.map fun e => (e.1, some e.2)) = l := by
  induction l with
  | nil => simp
  | cons e l ih =>
    rw [List.map_cons, overlay, ih]
    rfl

/-- A deletion marker below everything in `p` shows nothing and hides nothing. -/
theorem overlay_cons_none_of_lt [Std.OrientedCmp cmp] {p : List (K × V)} {k : K}
    {cs : List (K × Option V)} (hk : ∀ x ∈ p, cmp k x.1 = .lt) :
    overlay cmp p ((k, none) :: cs) = overlay cmp p cs := by
  cases p with
  | nil => simp [overlay, written]
  | cons e ps =>
    obtain ⟨kp, vp⟩ := e
    have hgt : cmp kp k = .gt := Std.OrientedCmp.gt_of_lt (hk _ List.mem_cons_self)
    simp [overlay, hgt, written]

/-- Dropping leading deletion markers below everything in `p` changes nothing. -/
theorem overlay_dropWhile [Std.OrientedCmp cmp] {p : List (K × V)}
    (P : K × Option V → Bool) (hP : ∀ x, P x = true → x.2 = none ∧ ∀ y ∈ p, cmp x.1 y.1 = .lt) :
    ∀ c : List (K × Option V), overlay cmp p (c.dropWhile P) = overlay cmp p c
  | [] => rfl
  | x :: cs => by
    by_cases hx : P x = true
    · obtain ⟨hnone, hlt⟩ := hP x hx
      obtain ⟨k, w⟩ := x
      simp only at hnone hlt
      subst hnone
      rw [List.dropWhile_cons_of_pos hx, overlay_cons_none_of_lt hlt, overlay_dropWhile P hP cs]
    · rw [List.dropWhile_cons_of_neg hx]

theorem length_overlay_le (p : List (K × V)) (c : List (K × Option V)) :
    (overlay cmp p c).length ≤ p.length + c.length := by
  induction p, c using overlay.induct cmp with
  | case1 p => simp
  | case2 kc w cs ih =>
    rw [overlay, List.length_append]
    cases w <;> simp [written] at ih ⊢ <;> omega
  | case3 kp vp ps kc w cs hlt ih =>
    rw [overlay, hlt]
    simp only [List.length_cons] at ih ⊢
    omega
  | case4 kp vp ps kc w cs heq ih =>
    rw [overlay, heq, List.length_append]
    cases w <;> simp [written] at ih ⊢ <;> omega
  | case5 kp vp ps kc w cs hgt ih =>
    rw [overlay, hgt, List.length_append]
    cases w <;> simp [written] at ih ⊢ <;> omega


/-- A single write followed by an overlay of what lies above it stays sorted. -/
theorem sortedBy_written_append {k : K} {w : Option V} {l : List (K × V)}
    (hl : SortedBy cmp l) (hk : ∀ x ∈ l, cmp k x.1 = .lt) : SortedBy cmp (written k w ++ l) := by
  refine List.pairwise_append.2 ⟨sortedBy_written k w, hl, fun a ha b hb => ?_⟩
  rw [(mem_written.1 (ha : (a.1, a.2) ∈ _)).1]
  exact hk b hb

variable [Std.TransCmp cmp] [Std.LawfulEqCmp cmp]

/-- **The overlay shows a write where there is one, and the entry below
otherwise.** -/
theorem mem_overlay {p : List (K × V)} {c : List (K × Option V)} (hp : SortedBy cmp p)
    (hc : SortedBy cmp c) {k : K} {v : V} :
    (k, v) ∈ overlay cmp p c ↔ (k, some v) ∈ c ∨ ((∀ w, (k, w) ∉ c) ∧ (k, v) ∈ p) := by
  induction p, c using overlay.induct cmp with
  | case1 p => simp
  | case2 kc w cs ih =>
    rw [overlay, List.mem_append, mem_written, ih hp hc.of_cons]
    simp [eq_comm]
  | case3 kp vp ps kc w cs hlt ih =>
    rw [overlay, hlt, List.mem_cons, ih hp.of_cons hc]
    -- the head of `p` lies below every write, so nothing shadows it
    have hkp := not_mem_of_forall_lt (forall_lt_of_lt_head hc hlt)
    by_cases hx : (k, v) = (kp, vp)
    · obtain ⟨rfl, rfl⟩ := Prod.mk.inj hx
      simp [hkp]
    · simp [hx]
  | case4 kp vp ps kc w cs heq ih =>
    rw [overlay, heq, List.mem_append, mem_written, ih hp.of_cons hc.of_cons]
    obtain rfl := Std.LawfulEqCmp.eq_of_compare heq
    by_cases hk : k = kp
    · -- the write at the head's key: neither tail holds that key
      subst hk
      have hcs := not_mem_of_forall_lt hc.head_lt
      have hps := not_mem_of_forall_lt hp.head_lt
      simp [hcs, hps, eq_comm]
    · simp [hk]
  | case5 kp vp ps kc w cs hgt ih =>
    rw [overlay, hgt, List.mem_append, mem_written, ih hp hc.of_cons]
    by_cases hk : k = kc
    · -- the write lies below every entry of `p`
      subst hk
      have hcs := not_mem_of_forall_lt hc.head_lt
      have hps := not_mem_of_forall_lt (forall_lt_of_lt_head hp (Std.OrientedCmp.lt_of_gt hgt))
      simp [hcs, hps, eq_comm]
    · simp [hk]

/-- Keys above a bound in both lists stay above it in the overlay. -/
theorem lt_of_mem_overlay {p : List (K × V)} {c : List (K × Option V)} (hp : SortedBy cmp p)
    (hc : SortedBy cmp c) {b : K} (hbp : ∀ x ∈ p, cmp b x.1 = .lt)
    (hbc : ∀ x ∈ c, cmp b x.1 = .lt) {x : K × V} (hx : x ∈ overlay cmp p c) :
    cmp b x.1 = .lt := by
  rcases (mem_overlay hp hc).1 (hx : (x.1, x.2) ∈ _) with h | ⟨-, h⟩
  · exact hbc _ h
  · exact hbp _ h

/-- **The overlay is sorted strictly by key.** -/
theorem sortedBy_overlay {p : List (K × V)} {c : List (K × Option V)} (hp : SortedBy cmp p)
    (hc : SortedBy cmp c) : SortedBy cmp (overlay cmp p c) := by
  induction p, c using overlay.induct cmp with
  | case1 p => simpa using hp
  | case2 kc w cs ih =>
    rw [overlay]
    exact sortedBy_written_append (ih hp hc.of_cons)
      fun x hx => lt_of_mem_overlay hp hc.of_cons (by simp) hc.head_lt hx
  | case3 kp vp ps kc w cs hlt ih =>
    rw [overlay, hlt]
    refine List.pairwise_cons.2 ⟨fun b hb => ?_, ih hp.of_cons hc⟩
    exact lt_of_mem_overlay hp.of_cons hc hp.head_lt (forall_lt_of_lt_head hc hlt) hb
  | case4 kp vp ps kc w cs heq ih =>
    rw [overlay, heq]
    obtain rfl := Std.LawfulEqCmp.eq_of_compare heq
    exact sortedBy_written_append (ih hp.of_cons hc.of_cons)
      fun x hx => lt_of_mem_overlay hp.of_cons hc.of_cons hp.head_lt hc.head_lt hx
  | case5 kp vp ps kc w cs hgt ih =>
    rw [overlay, hgt]
    exact sortedBy_written_append (ih hp hc.of_cons) fun x hx =>
      lt_of_mem_overlay hp hc.of_cons (forall_lt_of_lt_head hp (Std.OrientedCmp.lt_of_gt hgt))
        hc.head_lt hx

end Overlay

section Compare

variable {K W : Type} [LinearOrder K]

/-- Sorted for `compare` is sorted by key. -/
theorem sortedBy_compare_iff {l : List (K × W)} : SortedBy compare l ↔ l.Pairwise KeyLt := by
  have hr : (fun a b : K × W => compare a.1 b.1 = .lt) = KeyLt := by
    funext a b
    simp [KeyLt, compare_lt_iff_lt]
  rw [SortedBy, hr]

/-- Sorted for the opposite of `compare` is sorted by key, read backwards. -/
theorem sortedBy_opposite_iff {l : List (K × W)} :
    SortedBy (fun a b => compare b a) l ↔ l.reverse.Pairwise KeyLt := by
  have hr : (fun a b : K × W => compare b.1 a.1 = .lt) = fun a b => KeyLt b a := by
    funext a b
    simp [KeyLt, compare_lt_iff_lt]
  rw [SortedBy, hr, List.pairwise_reverse]

end Compare
