import Mathlib.Data.List.Basic

/-!
# Cursors and their drains

Ordered stores hand out iterators: a cursor that is valid or not, exposes a
key and a value while valid, and moves on with `next`.  Asking an iterator may
move it (a merging iterator skips entries that are hidden when it is asked
whether it is valid), so every call returns the cursor's new state.  Calling
`key`, `value` or `next` on an invalid cursor is a programming error (the Go
code panics); here those calls return `none`.

A consumer drains a cursor: it asks whether the cursor is valid, reads the key
and the value, and advances, until the cursor becomes invalid.  `Cursor.drain`
does so with fuel given by a size bound, and returns `none` if the cursor
misbehaves (a forbidden call, or more pairs than the size promises).  The drain
rule `Cursor.drain_eq_of_run` says how to compute a drain: exhibit a relation
between cursor states and the list still to come that each step respects.

## Main definitions

* `Cursor σ K V` — the operations of an iterator with states `σ`.
* `Cursor.drain` — the pairs a consumer reads from a cursor.
* `listCursor` — the cursor that walks a list.

## Main results

* `Cursor.drain_eq_of_run` — the drain rule.
* `listCursor_drain` — walking a list yields the list.
-/

/-- The operations of an iterator with states `σ` over pairs `K × V`.  Each
call returns the new state; a call the interface forbids returns `none`.
`size` bounds the number of pairs still to come; it is the fuel of a drain. -/
structure Cursor (σ K V : Type) where
  /-- Whether the cursor points at a pair. -/
  valid : σ → Bool × σ
  /-- The current key. -/
  key : σ → Option (K × σ)
  /-- The current value. -/
  value : σ → Option (V × σ)
  /-- Advance to the next pair. -/
  next : σ → Option σ
  /-- A bound on the number of pairs still to come. -/
  size : σ → ℕ

namespace Cursor

variable {σ K V : Type} (c : Cursor σ K V)

/-- Drain a cursor with `n` steps of fuel: ask whether it is valid, read the
key and the value, and advance. -/
def drainN : ℕ → σ → Option (List (K × V))
  | 0, _ => none
  | n + 1, s =>
    match c.valid s with
    | (false, _) => some []
    | (true, s₁) => do
      let (k, s₂) ← c.key s₁
      let (v, s₃) ← c.value s₂
      let s₄ ← c.next s₃
      let rest ← drainN n s₄
      pure ((k, v) :: rest)

/-- The pairs a consumer reads from a cursor until it becomes invalid. -/
def drain (s : σ) : Option (List (K × V)) := c.drainN (c.size s + 1) s

theorem drainN_of_not_valid {s s₁ : σ} (h : c.valid s = (false, s₁)) (n : ℕ) :
    c.drainN (n + 1) s = some [] := by
  simp [drainN, h]

theorem drainN_of_valid {s s₁ s₂ s₃ s₄ : σ} {k : K} {v : V} (h : c.valid s = (true, s₁))
    (hk : c.key s₁ = some (k, s₂)) (hv : c.value s₂ = some (v, s₃)) (hn : c.next s₃ = some s₄)
    (n : ℕ) : c.drainN (n + 1) s = (c.drainN n s₄).map ((k, v) :: ·) := by
  simp only [drainN, h, hk, hv, hn, Option.bind_eq_bind, Option.bind_some]
  cases c.drainN n s₄ <;> rfl

section Run

variable {c} (R : σ → List (K × V) → Prop)

/-- A relation between cursor states and the pairs still to come, respected by
each step: at the end the cursor is invalid, and before a pair it is valid,
shows that pair and advances to a state related to the rest. -/
structure IsRun : Prop where
  done : ∀ s, R s [] → (c.valid s).1 = false
  step : ∀ s k v l, R s ((k, v) :: l) → ∃ s₁ s₂ s₃ s₄, c.valid s = (true, s₁) ∧
    c.key s₁ = some (k, s₂) ∧ c.value s₂ = some (v, s₃) ∧ c.next s₃ = some s₄ ∧ R s₄ l

variable {R}

theorem drainN_eq_of_run (hR : IsRun (c := c) R) :
    ∀ (l : List (K × V)) (s : σ) (n : ℕ), R s l → l.length < n → c.drainN n s = some l
  | [], s, n + 1, hs, _ => c.drainN_of_not_valid (Prod.ext (hR.done s hs) rfl) n
  | (k, v) :: l, s, n + 1, hs, hn => by
    obtain ⟨s₁, s₂, s₃, s₄, hval, hk, hv, hnext, hs₄⟩ := hR.step s k v l hs
    rw [c.drainN_of_valid hval hk hv hnext n,
      drainN_eq_of_run hR l s₄ n hs₄ (Nat.lt_of_succ_lt_succ hn)]
    rfl

/-- **The drain rule.**  A cursor related to `l` by a run relation, whose size
bounds `l`, drains to exactly `l`. -/
theorem drain_eq_of_run (hR : IsRun (c := c) R) {s : σ} {l : List (K × V)} (hs : R s l)
    (hsize : l.length ≤ c.size s) : c.drain s = some l :=
  drainN_eq_of_run hR l s _ hs (Nat.lt_succ_of_le hsize)

end Run

end Cursor

/-- The cursor that walks a list; its states are the suffixes still to come. -/
def listCursor (K V : Type) : Cursor (List (K × V)) K V where
  valid l := (!l.isEmpty, l)
  key l := l.head?.map fun e => (e.1, l)
  value l := l.head?.map fun e => (e.2, l)
  next l := if l.isEmpty then none else some l.tail
  size l := l.length

theorem listCursor_isRun (K V : Type) : Cursor.IsRun (c := listCursor K V) (· = ·) where
  done _ h := by simp [listCursor, h]
  step _ _ _ _ h := by subst h; simp [listCursor]

/-- Walking a list yields the list. -/
theorem listCursor_drain {K V : Type} (l : List (K × V)) : (listCursor K V).drain l = some l :=
  Cursor.drain_eq_of_run (listCursor_isRun K V) rfl (Nat.le_refl _)
