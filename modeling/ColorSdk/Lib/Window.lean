import Mathlib.Logic.Function.Basic
import Mathlib.Data.List.Induction
import Mathlib.Data.List.GetD
import Mathlib.Data.Nat.ModEq

/-!
# A sliding window kept in a circular array

A stream of results `b₀, b₁, …` is kept in an array of `W` slots, the `j`-th
result in slot `j % W`, each write overwriting the result `W` places before it.
After `n` results the array holds exactly the last `min n W` of them, and the
number of set slots is the number of `true`s among them.

* `record`, `ring` — the array after writing a list of results in order.
* `ring_snoc` — one more result is one more `Function.update`.
* `ring_mod_of_mem_window` — a slot written in the last `W` results holds that
  result; `ring_of_length_le` — a slot not yet reached holds `false`.
* `countP_update` — the count of set slots after one write.
* `countP_ring` — the set slots are the `true`s of the last `W` results.
-/

namespace Window

/-- Write the results `h` in order into the array `f`, the first at offset `n`,
each result at its offset modulo `W`. -/
def record (W : ℕ) : ℕ → (ℕ → Bool) → List Bool → ℕ → Bool
  | _, f, [] => f
  | n, f, b :: h => record W (n + 1) (Function.update f (n % W) b) h

/-- The circular array holding the results `h`, written into an empty array. -/
def ring (W : ℕ) (h : List Bool) : ℕ → Bool := record W 0 (fun _ => false) h

theorem record_append (W : ℕ) (b : Bool) :
    ∀ (h : List Bool) (n : ℕ) (f : ℕ → Bool),
      record W n f (h ++ [b]) = Function.update (record W n f h) ((n + h.length) % W) b
  | [], n, f => by simp [record]
  | c :: h, n, f => by
    simp only [List.cons_append, record, record_append W b h, List.length_cons]
    congr 2
    omega

/-- One more result is one more write, at the next offset. -/
@[simp] theorem ring_snoc (W : ℕ) (h : List Bool) (b : Bool) :
    ring W (h ++ [b]) = Function.update (ring W h) (h.length % W) b := by
  simp only [ring, record_append, Nat.zero_add]

@[simp] theorem ring_nil (W : ℕ) : ring W [] = fun _ => false := rfl

/-- Two offsets less than `W` apart fall in different slots. -/
theorem mod_ne_of_lt_of_sub_lt {W j n : ℕ} (hjn : j < n) (hW : n - j < W) : j % W ≠ n % W := by
  intro hmod
  have hdvd : W ∣ n - j := (Nat.modEq_iff_dvd' hjn.le).1 hmod
  have hpos : 0 < n - j := Nat.sub_pos_of_lt hjn
  exact absurd (Nat.le_of_dvd hpos hdvd) (by omega)

/-- **A slot written among the last `W` results holds that result**: no later
write reached it. -/
theorem ring_mod_of_mem_window (W : ℕ) (h : List Bool) :
    ∀ j, h.length - W ≤ j → j < h.length → ring W h (j % W) = h.getD j false := by
  induction h using List.reverseRecOn with
  | nil => intro j _ hj; exact absurd hj (Nat.not_lt_zero j)
  | append_singleton h b ih =>
    intro j hlo hhi
    rw [List.length_append, List.length_singleton] at hlo hhi
    rw [ring_snoc]
    rcases Nat.lt_succ_iff_lt_or_eq.1 hhi with hlt | rfl
    · -- an older result: the newest write went to another slot
      have hne : j % W ≠ h.length % W := mod_ne_of_lt_of_sub_lt hlt (by omega)
      rw [Function.update_of_ne hne, ih j (by omega) hlt, List.getD_append _ _ _ _ hlt]
    · simp

/-- A slot the results have not reached yet holds `false`. -/
theorem ring_of_length_le (W : ℕ) (h : List Bool) : ∀ i, h.length ≤ i → ring W h i = false := by
  induction h using List.reverseRecOn with
  | nil => intro i _; rfl
  | append_singleton h b ih =>
    intro i hi
    rw [List.length_append, List.length_singleton] at hi
    have hne : i ≠ h.length % W := fun heq => absurd (heq ▸ Nat.mod_le h.length W) (by omega)
    rw [ring_snoc, Function.update_of_ne hne, ih i (by omega)]

/-- The slot the next result goes to holds the result `W` places back, or
nothing in the first round. -/
theorem ring_next_slot {W : ℕ} (hW : 0 < W) (h : List Bool) :
    ring W h (h.length % W) = if W ≤ h.length then h.getD (h.length - W) false else false := by
  split_ifs with hle
  · have hmod : (h.length - W) % W = h.length % W := by
      conv_rhs => rw [← Nat.sub_add_cancel hle]
      exact (Nat.add_mod_right _ _).symm
    rw [← hmod]
    exact ring_mod_of_mem_window W h _ le_rfl (by omega)
  · rw [Nat.mod_eq_of_lt (by omega)]
    exact ring_of_length_le W h _ le_rfl

/-- **One write changes the count of set slots by the slot's old and new
value**, over any list of distinct slots that holds it. -/
theorem countP_update (f : ℕ → Bool) (k : ℕ) (b : Bool) :
    ∀ l : List ℕ, l.Nodup → k ∈ l →
      l.countP (Function.update f k b) + (f k).toNat = l.countP f + b.toNat
  | [], _, hk => absurd hk List.not_mem_nil
  | a :: l, hnd, hk => by
    rw [List.nodup_cons] at hnd
    by_cases hak : a = k
    · subst hak
      -- the rest of the list does not hold the written slot
      have hrest : l.countP (Function.update f a b) = l.countP f :=
        List.countP_congr fun x hx => by rw [Function.update_of_ne (ne_of_mem_of_not_mem hx hnd.1)]
      simp only [List.countP_cons, Function.update_self, hrest]
      cases b <;> cases f a <;> simp
    · have hk' : k ∈ l := (List.mem_cons.1 hk).resolve_left (Ne.symm hak)
      have ih := countP_update f k b l hnd.2 hk'
      simp only [List.countP_cons, Function.update_of_ne hak]
      omega

/-- **The set slots are the `true`s among the last `W` results.** -/
theorem countP_ring {W : ℕ} (hW : 0 < W) (h : List Bool) :
    (List.range W).countP (ring W h) = (h.drop (h.length - W)).count true := by
  induction h using List.reverseRecOn with
  | nil => simp
  | append_singleton h b ih =>
    have hstep := countP_update (ring W h) (h.length % W) b (List.range W) List.nodup_range
      (List.mem_range.2 (Nat.mod_lt _ hW))
    rw [ring_snoc]
    rw [ring_next_slot hW, ih] at hstep
    rw [List.length_append, List.length_singleton]
    split_ifs at hstep with hle
    · -- a full window: the oldest result leaves it
      have hsplit : h.drop (h.length - W) = h.getD (h.length - W) false :: h.drop (h.length + 1 - W) := by
        rw [List.drop_eq_getElem_cons (by omega), List.getD_eq_getElem _ _ (by omega : h.length - W < h.length)]
        congr 2
        omega
      rw [List.drop_append_of_le_length (by omega), List.count_append, List.count_singleton]
      rw [hsplit, List.count_cons] at hstep
      generalize h.getD (h.length - W) false = x at hstep
      cases b <;> cases x <;> simp at hstep ⊢ <;> omega
    · rw [Nat.sub_eq_zero_of_le (by omega), List.drop_zero, List.count_append,
        List.count_singleton]
      rw [Nat.sub_eq_zero_of_le (by omega), List.drop_zero] at hstep
      cases b <;> simp at hstep ⊢ <;> omega

end Window
