import Mathlib

/-!
# Loops that remove what they visit

Go code that drops the elements of a slice in place walks the slice by index and
steps back after each removal:

    for i := 0; i < len(xs); i++ {
      x := xs[i]
      if p(x) {
        xs = append(xs[:i], xs[i+1:]...)
        i--
        ... act on x ...
      }
    }

so that the element moved into position `i` is visited next.  `removeMatching`
is this loop over a list in a monad, the action on each removed element being
`f`.  The loop keeps exactly the elements failing `p`, in their order, and acts
on the removed ones in their order: it is a filter and a fold over the
complementary filter.  A loop that instead accumulates the kept elements in a
fold is the same computation (`foldlM_partition`).

## Main definitions

* `IndexLoop.removeMatching` — the index loop with removal in place.

## Main results

* `IndexLoop.removeMatching_eq` — from any position, the loop keeps the prefix
  before it and the elements after it that fail `p`, and acts on the others.
* `IndexLoop.removeMatching_zero` — the whole loop is a filter and a fold.
* `IndexLoop.foldlM_partition` — a fold that keeps what fails `p` and acts on the
  rest computes the same filter and fold.
-/

namespace IndexLoop

variable {m : Type → Type} [Monad m] {α σ : Type}

/-- The loop `for i := i₀; i < len(l); i++`, which removes from `l` every element
satisfying `p`, running `f` on it, and visits the same position again after a
removal. -/
def removeMatching (p : α → Bool) (f : σ → α → m σ) (l : List α) (i : ℕ) (s : σ) :
    m (List α × σ) :=
  if h : i < l.length then
    let x := l[i]
    if p x then do
      -- `i--` and then `i++`: the element after `x` is now at position `i`
      let s ← f s x
      removeMatching p f (l.eraseIdx i) i s
    else removeMatching p f l (i + 1) s
  else pure (l, s)
termination_by l.length - i
decreasing_by
  · rw [List.length_eraseIdx_of_lt h]
    omega
  · omega

variable [LawfulMonad m] (p : α → Bool) (f : σ → α → m σ)

/-- **The loop from position `i`**: the elements before `i` stay, and of those
from `i` on the loop keeps the ones failing `p` and acts on the others, each in
its order. -/
theorem removeMatching_eq (l : List α) (i : ℕ) (s : σ) :
    removeMatching p f l i s = (do
      let s ← ((l.drop i).filter p).foldlM f s
      pure (l.take i ++ (l.drop i).filter (fun x => !p x), s)) := by
  fun_induction removeMatching p f l i s with
  | case1 l i s h x hx ih =>
    -- `x` is removed: the elements after it move up one position
    have hdrop : l.drop i = x :: l.drop (i + 1) := List.drop_eq_getElem_cons h
    have htake : (l.eraseIdx i).take i = l.take i := by
      rw [List.eraseIdx_eq_take_drop_succ, List.take_append_of_le_length (by simp; omega),
        List.take_take, min_self]
    have hrest : (l.eraseIdx i).drop i = l.drop (i + 1) := by
      rw [List.eraseIdx_eq_take_drop_succ, List.drop_append_of_le_length (by simp; omega),
        List.drop_of_length_le (by simp), List.nil_append]
    simp only [ih, htake, hrest, hdrop, List.filter_cons, hx, if_true, Bool.not_true,
      Bool.false_eq_true, if_false, List.foldlM_cons, bind_assoc]
  | case2 l i s h x hx ih =>
    -- `x` is kept: it joins the prefix
    have hdrop : l.drop i = x :: l.drop (i + 1) := List.drop_eq_getElem_cons h
    have htake : l.take (i + 1) = l.take i ++ [x] := (List.take_concat_get' l i h).symm
    simp only [ih, htake, hdrop, List.filter_cons, hx, Bool.false_eq_true, if_false,
      Bool.not_false, if_true, List.append_assoc, List.singleton_append]
  | case3 l i s h =>
    -- past the end nothing is left to visit
    have hle : l.length ≤ i := not_lt.1 h
    simp [List.drop_of_length_le hle, List.take_of_length_le hle]

/-- **The whole loop is a filter and a fold.** -/
theorem removeMatching_zero (l : List α) (s : σ) :
    removeMatching p f l 0 s = (do
      let s ← (l.filter p).foldlM f s
      pure (l.filter (fun x => !p x), s)) := by
  simp [removeMatching_eq]

/-- A fold whose step keeps the elements failing `p` after those already kept,
and acts on the others, is the same filter and fold. -/
theorem foldlM_partition {g : List α × σ → α → m (List α × σ)}
    (hg : ∀ kept s x, g (kept, s) x =
      if p x then (kept, ·) <$> f s x else pure (kept ++ [x], s))
    (l : List α) (kept : List α) (s : σ) :
    l.foldlM g (kept, s) = (do
      let s ← (l.filter p).foldlM f s
      pure (kept ++ l.filter (fun x => !p x), s)) := by
  induction l generalizing kept s with
  | nil => simp
  | cons x l ih =>
    rw [List.foldlM_cons, hg]
    by_cases hx : p x = true
    · -- `x` is acted on, and the accumulated list stays
      rw [if_pos hx, List.filter_cons_of_pos hx, List.filter_cons_of_neg (by simpa using hx),
        List.foldlM_cons, map_eq_pure_bind, bind_assoc]
      simp only [pure_bind, ih, bind_assoc]
    · -- `x` is kept, after those kept before it
      rw [if_neg hx, List.filter_cons_of_neg hx, List.filter_cons_of_pos (by simpa using hx),
        pure_bind, ih, List.append_assoc, List.singleton_append]

end IndexLoop
