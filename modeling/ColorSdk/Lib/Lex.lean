import Mathlib.Data.List.Lex
import Mathlib.Order.BoundedOrder.Basic
import Mathlib.Order.Cover

/-!
# Lexicographic order and prefixes

Keys of ordered stores are strings compared lexicographically.  A namespace of
keys is the set of strings sharing a prefix, and ranges over a namespace are
built by prefixing the bounds.  This file collects how the lexicographic order
interacts with prefixes: a common prefix can be cancelled, anything squeezed
between two extensions of a prefix extends it, and over an alphabet with a top
letter a string above a run of top letters starts with that run.

All statements are about `<`; a bound `a ≤ b` is handled as `¬ b < a`, which
avoids the two `≤` instances on lists.

## Main results

* `List.append_lt_append_left_iff` — a common prefix can be cancelled.
* `List.isPrefix_of_append_le_of_lt_append` — a string between `p ++ s` and
  `p ++ e` extends `p`.
* `List.isPrefix_replicate_top_of_le` — a string above `⊤ⁿ` starts with `⊤ⁿ`.
* `List.isPrefix_iff_of_covBy` — the extensions of `q ++ b :: ⊤ᵐ` are the
  strings in `[q ++ b :: ⊤ᵐ, q ++ [b'])`, for `b'` the successor of `b`.
* `List.lt_append_bot_iff` — the strings below `y ++ [⊥]` are those not above `y`.
-/

namespace List

variable {α : Type*} [LinearOrder α]

/-- A common prefix can be cancelled from a strict comparison. -/
theorem append_lt_append_left_iff (p : List α) {a b : List α} : p ++ a < p ++ b ↔ a < b := by
  induction p with
  | nil => rfl
  | cons c p ih => rw [cons_append, cons_append, cons_lt_cons_self, ih]

/-- A common prefix can be cancelled from a comparison. -/
theorem append_le_append_left_iff (p : List α) {a b : List α} : p ++ a ≤ p ++ b ↔ a ≤ b := by
  rw [← not_lt, ← not_lt, append_lt_append_left_iff]

/-- A string is not below its prefixes. -/
theorem le_of_isPrefix {p x : List α} (h : p <+: x) : p ≤ x := by
  obtain ⟨t, rfl⟩ := h
  have ht : p ++ [] ≤ p ++ t := (append_le_append_left_iff p).2 (not_lt.1 (not_lt_nil t))
  rwa [append_nil] at ht

/-- Anything squeezed between two extensions of `p` extends `p`. -/
theorem isPrefix_of_append_le_of_lt_append :
    ∀ {p s e x : List α}, p ++ s ≤ x → x < p ++ e → p <+: x
  | [], _, _, _, _, _ => nil_prefix
  | _ :: _, _, _, [], hlo, _ => absurd (nil_lt_cons _ _) (not_lt.2 hlo)
  | c :: p, s, e, d :: x', hlo, hhi => by
    rw [← not_lt, cons_append, cons_lt_cons_iff, not_or, not_and] at hlo
    rw [cons_append, cons_lt_cons_iff] at hhi
    -- the first letters agree, then the tails are squeezed in the same way
    rcases hhi with hdc | ⟨rfl, hhi⟩
    · rcases lt_trichotomy c d with h | rfl | h
      · exact absurd (lt_trans h hdc) (lt_irrefl _)
      · exact absurd hdc (lt_irrefl _)
      · exact absurd h hlo.1
    · exact (prefix_cons_inj d).2 (isPrefix_of_append_le_of_lt_append (not_lt.1 (hlo.2 rfl)) hhi)

/-- Over an alphabet with a top letter, a string above a run of `n` top
letters starts with that run. -/
theorem isPrefix_replicate_top_of_le [OrderTop α] :
    ∀ {n : ℕ} {z : List α}, replicate n ⊤ ≤ z → replicate n ⊤ <+: z
  | 0, _, _ => nil_prefix
  | _ + 1, [], h => absurd (nil_lt_cons _ _) (not_lt.2 h)
  | n + 1, d :: z', h => by
    rw [← not_lt, replicate_succ, cons_lt_cons_iff, not_or, not_and] at h
    -- a letter not below the top is the top
    have hd : d = ⊤ := top_le_iff.1 (not_lt.1 h.1)
    subst hd
    rw [replicate_succ]
    exact (prefix_cons_inj _).2 (isPrefix_replicate_top_of_le (not_lt.1 (h.2 rfl)))

/-- **Prefix ranges.**  For `b'` the successor of `b`, the strings extending
`q ++ b :: ⊤ᵐ` are exactly those in `[q ++ b :: ⊤ᵐ, q ++ [b'])`. -/
theorem isPrefix_iff_of_covBy [OrderTop α] {q : List α} {b b' : α} (hb : b ⋖ b') (m : ℕ)
    (x : List α) :
    q ++ b :: replicate m ⊤ <+: x ↔ q ++ b :: replicate m ⊤ ≤ x ∧ x < q ++ [b'] := by
  constructor
  · intro h
    refine ⟨le_of_isPrefix h, ?_⟩
    obtain ⟨t, rfl⟩ := h
    rw [append_assoc, append_lt_append_left_iff, cons_append, cons_lt_cons_iff]
    exact .inl hb.lt
  · rintro ⟨hlo, hhi⟩
    obtain ⟨x', rfl⟩ := isPrefix_of_append_le_of_lt_append hlo hhi
    rw [append_le_append_left_iff] at hlo
    rw [append_lt_append_left_iff] at hhi
    refine (prefix_append_right_inj q).2 ?_
    cases x' with
    | nil => exact absurd (nil_lt_cons _ _) (not_lt.2 hlo)
    | cons c x'' =>
      rw [← not_lt, cons_lt_cons_iff, not_or, not_and] at hlo
      rw [cons_lt_cons_iff] at hhi
      -- the letter after `q` is at most `b`, being below its successor, and at least `b`
      have hcb : c ≤ b := by
        rcases hhi with h | ⟨-, h⟩
        · exact hb.le_of_lt h
        · exact absurd h (not_lt_nil _)
      have hbc : c = b := le_antisymm hcb (not_lt.1 hlo.1)
      subst hbc
      exact (prefix_cons_inj c).2 (isPrefix_replicate_top_of_le (not_lt.1 (hlo.2 rfl)))

/-- Over an alphabet with a bottom letter, the strings below `y ++ [⊥]` are those
not above `y`: nothing fits between `y` and `y ++ [⊥]`. -/
theorem lt_append_bot_iff [OrderBot α] : ∀ {x y : List α}, x < y ++ [⊥] ↔ ¬ y < x
  | [], y => by
    -- the empty string is below every non-empty one, and above none
    simp only [not_lt_nil, not_false_eq_true, iff_true]
    cases y <;> exact nil_lt_cons _ _
  | _ :: _, [] => by
    -- nothing starts below the bottom letter
    rw [nil_append, cons_lt_cons_iff]
    simp [nil_lt_cons, not_lt_nil]
  | c :: x, d :: y => by
    rw [cons_append, cons_lt_cons_iff, cons_lt_cons_iff, lt_append_bot_iff, not_or, not_and]
    -- compare the first letters; on a tie the tails decide
    rcases lt_trichotomy c d with h | rfl | h
    · simp [h, not_lt.2 h.le, h.ne']
    · simp
    · simp [h, not_lt.2 h.le, h.ne']

end List
