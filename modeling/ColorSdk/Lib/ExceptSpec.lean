import Mathlib.Logic.Basic

/-!
# Pre- and postconditions for computations that may fail

Keeper code either returns a result or stops: with an error a transaction
reports, or with a panic that halts the chain.  A computation of type
`Except ε σ` satisfies `Sat E Q` when its failures satisfy `E` and its results
satisfy `Q`.  The rules below compose such facts along `bind` and along a
loop over a list, the shape of every iterator loop of a keeper: the loop rule
carries an invariant of the state and of the part of the list still to come.

## Main definitions

* `Except.Sat E Q x` — every failure of `x` satisfies `E`, every result `Q`.

## Main results

* `Except.sat_bind` — the rule of sequencing.
* `Except.sat_foldlM` — the rule of loops.
* `Except.sat_foldlM_of_step`, `Except.sat_foldlM_of_mem` — the rule of loops for an
  invariant of the state alone, kept by every round or by the rounds on the
  elements of the list.
* `Except.mem_log_of_foldlM` — the rule of loops that log: each entry of the
  log was appended by a round, at an element, on the results of the rounds before.
* `Except.Sat.and` — two facts about one computation.
* `Except.foldlM_append_singleton_eq_ok` — a loop that succeeds ran its last
  round on a result of the rounds before it, the step of an induction over runs.
* `Except.bind_eq_ok`, `Except.mapError_eq_ok`, `Except.pure_eq_ok`,
  `Except.map_eq_ok` — a result of a sequence is a result of its parts, to take a
  successful call apart bind by bind; `Except.bind_eq_error` takes a failure apart,
  and `Except.error_bind_ne_ok` closes the branches of a call that start with one;
  `Except.ok_bind` continues after a part that succeeds.
* `Except.foldlM_keywise` — a loop whose rounds each act at the key of their
  element only is, over distinct keys, each round at its key.
* `Except.sat_foldlM_charge`, `List.foldl_charge` — a loop that takes a
  non-negative charge from an amount in each round ends with no more than it
  started with.
* `Except.foldlM_eq_ok`, `Except.mapM_eq_ok` — a loop or a map whose every call
  succeeds as a pure function would is that pure loop or map.
* `Except.mem_of_mapM_eq_ok` — each result of a map that succeeds comes from a
  call on an element; `Except.step_ok_of_foldlM_eq_ok` — each element of a loop
  that succeeds had a round that succeeded.
* `List.foldl_invariant`, `List.foldl_invariant_of_mem` — the rule of loops for a
  loop that cannot fail, with an invariant kept by every round or by the rounds
  on the elements of the list.
* `List.foldl_pair` — a loop over two independent accumulators is two loops.
* `EStateM.bind_eq_ok`, `EStateM.pure_eq_ok`, `EStateM.throw_ne_ok` — the same
  taking apart for a computation on a state that may fail.
-/

namespace Except

variable {ε σ α β : Type} {E E' : ε → Prop} {P Q Q' : σ → Prop}

/-- Every failure of the computation satisfies `E`, every result `Q`. -/
def Sat (E : ε → Prop) (Q : σ → Prop) : Except ε σ → Prop
  | .error e => E e
  | .ok s => Q s

@[simp] theorem sat_ok {s : σ} : (Except.ok s : Except ε σ).Sat E Q ↔ Q s := Iff.rfl

@[simp] theorem sat_error {e : ε} : (Except.error e : Except ε σ).Sat E Q ↔ E e := Iff.rfl

theorem sat_pure {s : σ} (h : Q s) : (pure s : Except ε σ).Sat E Q := h

theorem Sat.mono {x : Except ε σ} (h : x.Sat E Q) (hE : ∀ e, E e → E' e)
    (hQ : ∀ s, Q s → Q' s) : x.Sat E' Q' := by
  cases x with
  | error e => exact hE e h
  | ok s => exact hQ s h

theorem Sat.of_ok {x : Except ε σ} {s : σ} (h : x.Sat E Q) (hx : x = .ok s) : Q s := by
  subst hx
  exact h

theorem Sat.of_error {x : Except ε σ} {e : ε} (h : x.Sat E Q) (hx : x = .error e) : E e := by
  subst hx
  exact h

/-- Two facts about one computation hold together. -/
theorem Sat.and {x : Except ε σ} (h : x.Sat E Q) (h' : x.Sat E' Q') :
    x.Sat (fun e => E e ∧ E' e) fun s => Q s ∧ Q' s := by
  cases x with
  | error e => exact ⟨h, h'⟩
  | ok s => exact ⟨h, h'⟩

/-- What every result satisfies, every failure allowed. -/
theorem sat_of_eq_ok {x : Except ε σ} (h : ∀ s, x = .ok s → Q s) : x.Sat (fun _ => True) Q := by
  cases x with
  | error e => trivial
  | ok s => exact h s rfl

/-- What every failure satisfies, every result allowed. -/
theorem sat_of_eq_error {x : Except ε σ} (h : ∀ e, x = .error e → E e) : x.Sat E fun _ => True := by
  cases x with
  | error e => exact h e rfl
  | ok s => trivial

/-- **The rule of sequencing.** -/
theorem sat_bind {P : α → Prop} {Q : β → Prop} {x : Except ε α} {f : α → Except ε β}
    (hx : x.Sat E P) (hf : ∀ a, P a → (f a).Sat E Q) : (x >>= f).Sat E Q := by
  cases x with
  | error e => exact hx
  | ok a => exact hf a hx

/-- **The rule of loops.**  An invariant of the state and of the elements still
to come, kept by each round, holds when the loop ends. -/
theorem sat_foldlM {f : σ → α → Except ε σ} (I : σ → List α → Prop)
    (hstep : ∀ s a l, I s (a :: l) → (f s a).Sat E (I · l)) :
    ∀ (l : List α) (s : σ), I s l → (l.foldlM f s).Sat E (I · [])
  | [], _, h => h
  | a :: l, s, h => by
    rw [List.foldlM_cons]
    exact sat_bind (hstep s a l h) fun s' h' => sat_foldlM I hstep l s' h'

/-- A loop whose every round keeps an invariant of the state keeps it. -/
theorem sat_foldlM_of_step {f : σ → α → Except ε σ} (hstep : ∀ s a, Q s → (f s a).Sat E Q) :
    ∀ (l : List α) (s : σ), Q s → (l.foldlM f s).Sat E Q :=
  sat_foldlM (fun s _ => Q s) fun s a _ h => hstep s a h

/-- A loop over elements that all satisfy `p`, whose every round on such an
element keeps an invariant of the state, keeps it. -/
theorem sat_foldlM_of_mem {f : σ → α → Except ε σ} {p : α → Prop}
    (hstep : ∀ s a, p a → Q s → (f s a).Sat E Q) :
    ∀ (l : List α), (∀ a ∈ l, p a) → ∀ (s : σ), Q s → (l.foldlM f s).Sat E Q := by
  intro l hl s hs
  refine (sat_foldlM (fun s l => (∀ a ∈ l, p a) ∧ Q s) ?_ l s ⟨hl, hs⟩).mono (fun _ h => h)
    fun _ h => h.2
  intro s a l ⟨hl, hs⟩
  exact (hstep s a (hl a List.mem_cons_self) hs).mono (fun _ h => h)
    fun s' h => ⟨fun b hb => hl b (List.mem_cons_of_mem a hb), h⟩

/-- A sequence succeeds exactly when each part succeeds in turn. -/
theorem bind_eq_ok {x : Except ε α} {f : α → Except ε β} {b : β} :
    x >>= f = .ok b ↔ ∃ a, x = .ok a ∧ f a = .ok b := by
  cases x <;> simp [bind, Except.bind]

/-- A sequence fails when its first part fails, or when the rest fails on the
first part's result. -/
theorem bind_eq_error {x : Except ε α} {f : α → Except ε β} {e : ε} :
    x >>= f = .error e ↔ x = .error e ∨ ∃ a, x = .ok a ∧ f a = .error e := by
  cases x <;> simp [bind, Except.bind]

/-- A sequence whose first part succeeds continues with its result. -/
theorem ok_bind {a : α} {f : α → Except ε β} : Except.ok a >>= f = f a := rfl

/-- A sequence whose first part fails does not succeed. -/
theorem error_bind_ne_ok {e : ε} {f : α → Except ε β} {b : β} : Except.error e >>= f ≠ .ok b :=
  fun h => nomatch h

@[simp] theorem mapError_ok {ε' : Type} {f : ε → ε'} {a : α} :
    (Except.ok a : Except ε α).mapError f = .ok a := rfl

@[simp] theorem mapError_error {ε' : Type} {f : ε → ε'} {e : ε} :
    (Except.error e : Except ε α).mapError f = .error (f e) := rfl

/-- Renaming the failures changes no result. -/
theorem mapError_eq_ok {ε' : Type} {x : Except ε α} {f : ε → ε'} {a : α} :
    x.mapError f = .ok a ↔ x = .ok a := by
  cases x <;> simp

theorem pure_eq_ok {a b : α} : (pure a : Except ε α) = .ok b ↔ a = b := by
  simp [pure, Except.pure]

theorem map_eq_ok {x : Except ε α} {f : α → β} {b : β} :
    x.map f = .ok b ↔ ∃ a, x = .ok a ∧ f a = b := by
  cases x <;> simp [Except.map]

theorem map_eq_error {x : Except ε α} {f : α → β} {e : ε} : x.map f = .error e ↔ x = .error e := by
  cases x <;> simp [Except.map]

theorem map_map {γ : Type} (x : Except ε α) (f : α → β) (g : β → γ) : (x.map f).map g = x.map (g ∘ f) := by
  cases x <;> rfl

/-- A loop that succeeds ran its last round on a result of the rounds before it. -/
theorem foldlM_append_singleton_eq_ok {f : σ → α → Except ε σ} {l : List α} {a : α} {s s' : σ} :
    (l ++ [a]).foldlM f s = .ok s' ↔ ∃ s₁, l.foldlM f s = .ok s₁ ∧ f s₁ a = .ok s' := by
  rw [List.foldlM_append]
  cases l.foldlM f s with
  | error e => simp [bind, Except.bind]
  | ok s₁ =>
    cases h : f s₁ a <;> simp [bind, Except.bind, pure, Except.pure, h]

/-- Every element of a loop that succeeds had a round that succeeded. -/
theorem step_ok_of_foldlM_eq_ok {f : σ → α → Except ε σ} :
    ∀ {l : List α} {s s' : σ}, l.foldlM f s = .ok s' → ∀ a ∈ l, ∃ s₁ s₂, f s₁ a = .ok s₂
  | [], _, _, _, a, ha => absurd ha List.not_mem_nil
  | b :: l, s, s', h, a, ha => by
    rw [List.foldlM_cons, bind_eq_ok] at h
    obtain ⟨s₁, hs₁, hl⟩ := h
    rcases List.mem_cons.1 ha with rfl | ha
    · exact ⟨s, s₁, hs₁⟩
    · exact step_ok_of_foldlM_eq_ok hl a ha

/-- A loop whose every round succeeds with the result of a pure round is the
pure loop. -/
theorem foldlM_eq_ok {f : σ → α → Except ε σ} {g : σ → α → σ} {p : α → Prop}
    (hf : ∀ s a, p a → f s a = .ok (g s a)) :
    ∀ (l : List α), (∀ a ∈ l, p a) → ∀ s, l.foldlM f s = .ok (l.foldl g s)
  | [], _, _ => rfl
  | a :: l, hl, s => by
    rw [List.foldlM_cons, hf s a (hl a List.mem_cons_self)]
    exact foldlM_eq_ok hf l (fun b hb => hl b (List.mem_cons_of_mem a hb)) (g s a)

/-- A map whose every call succeeds with the value of a pure function is the
pure map. -/
theorem mapM_eq_ok {f : α → Except ε β} {g : α → β} {p : α → Prop}
    (hf : ∀ a, p a → f a = .ok (g a)) :
    ∀ (l : List α), (∀ a ∈ l, p a) → l.mapM f = .ok (l.map g)
  | [], _ => rfl
  | a :: l, hl => by
    rw [List.mapM_cons, hf a (hl a List.mem_cons_self),
      mapM_eq_ok hf l fun b hb => hl b (List.mem_cons_of_mem a hb)]
    rfl

/-- Each result of a map that succeeds is the result of a call on an element. -/
theorem mem_of_mapM_eq_ok {f : α → Except ε β} :
    ∀ {l : List α} {bs : List β}, l.mapM f = .ok bs → ∀ b ∈ bs, ∃ a ∈ l, f a = .ok b
  | [], bs, h, b, hb => by
    cases h
    exact absurd hb List.not_mem_nil
  | a :: l, bs, h, b, hb => by
    rw [List.mapM_cons, bind_eq_ok] at h
    obtain ⟨b₀, hb₀, h⟩ := h
    obtain ⟨rest, hrest, h⟩ := bind_eq_ok.1 h
    cases pure_eq_ok.1 h
    rcases List.mem_cons.1 hb with rfl | hb
    · exact ⟨a, List.mem_cons_self, hb₀⟩
    · obtain ⟨a', ha', hfa'⟩ := mem_of_mapM_eq_ok hrest b hb
      exact ⟨a', List.mem_cons_of_mem a ha', hfa'⟩

/-- **The rule of logging loops.**  In a loop whose rounds each append at most
one entry to a log, every entry of the final log was in the first one, or was
appended by a round at some element, run on what the rounds before it
returned. -/
theorem mem_log_of_foldlM {β : Type} {f : σ → α → Except ε σ} {log : σ → List β}
    {R : σ → α → β → Prop}
    (hf : ∀ s a s', f s a = .ok s' → log s' = log s ∨ ∃ b, log s' = log s ++ [b] ∧ R s a b) :
    ∀ (l : List α) (s s' : σ), l.foldlM f s = .ok s' → ∀ b ∈ log s',
      b ∈ log s ∨ ∃ pre a post s₁, l = pre ++ a :: post ∧ pre.foldlM f s = .ok s₁ ∧ R s₁ a b
  | [], s, s', h, b, hb => by
    cases h
    exact .inl hb
  | a :: l, s, s', h, b, hb => by
    rw [List.foldlM_cons, bind_eq_ok] at h
    obtain ⟨s₁, hs₁, hl⟩ := h
    rcases mem_log_of_foldlM hf l s₁ s' hl b hb with hb₁ | ⟨pre, a', post, s₂, rfl, hpre, hR⟩
    · -- the entry was in the log after the first round
      rcases hf s a s₁ hs₁ with hlog | ⟨b', hlog, hR⟩
      · exact .inl (hlog ▸ hb₁)
      · rw [hlog, List.mem_append, List.mem_singleton] at hb₁
        rcases hb₁ with hb₁ | rfl
        · exact .inl hb₁
        · exact .inr ⟨[], a, l, s, rfl, rfl, hR⟩
    · -- a later round appended it
      refine .inr ⟨a :: pre, a', post, s₂, rfl, ?_, hR⟩
      rw [List.foldlM_cons, hs₁]
      exact hpre

/-- **The rule of keywise loops.**  In a loop whose rounds each act at the key
of their element only, over elements of distinct keys, the loop acts at each
key as the round of its element does, and leaves the other keys alone.  `P` is
an invariant of the state; `Q` is what a round needs to find at its key, which
the rounds before it keep, since they write at other keys. -/
theorem foldlM_keywise {κ V : Type} {f : σ → α → Except ε σ} (key : α → κ) (view : σ → κ → V)
    {Q : α → V → Prop} {R : α → V → V → Prop}
    (hf : ∀ s a s', P s → Q a (view s (key a)) → f s a = .ok s' →
      P s' ∧ R a (view s (key a)) (view s' (key a)) ∧ ∀ k, key a ≠ k → view s' k = view s k) :
    ∀ {l : List α} {s s' : σ}, l.Pairwise (fun a b => key a ≠ key b) → P s →
      (∀ a ∈ l, Q a (view s (key a))) → l.foldlM f s = .ok s' →
      P s' ∧ (∀ a ∈ l, R a (view s (key a)) (view s' (key a))) ∧
        ∀ k, (∀ a ∈ l, key a ≠ k) → view s' k = view s k
  | [], _, _, _, hs, _, h => by
    cases h
    exact ⟨hs, fun _ ha => absurd ha List.not_mem_nil, fun _ _ => rfl⟩
  | a :: l, s, s', hl, hs, hQ, h => by
    rw [List.foldlM_cons, bind_eq_ok] at h
    obtain ⟨s₁, hs₁, h⟩ := h
    obtain ⟨hQa, hQl⟩ := List.forall_mem_cons.1 hQ
    obtain ⟨hP₁, hR, hframe⟩ := hf s a s₁ hs hQa hs₁
    have hne : ∀ b ∈ l, key a ≠ key b := fun b hb => List.rel_of_pairwise_cons hl hb
    -- the rounds still to come find the keys of their elements as they were
    have hQ₁ : ∀ b ∈ l, Q b (view s₁ (key b)) := fun b hb => by
      rw [hframe _ (hne b hb)]
      exact hQl b hb
    obtain ⟨hP', hRl, hframe'⟩ := foldlM_keywise key view hf hl.of_cons hP₁ hQ₁ h
    refine ⟨hP', List.forall_mem_cons.2 ⟨?_, fun b hb => ?_⟩, fun k hk => ?_⟩
    · rw [hframe' (key a) fun b hb => (hne b hb).symm]
      exact hR
    · rw [← hframe _ (hne b hb)]
      exact hRl b hb
    · obtain ⟨hk, hk'⟩ := List.forall_mem_cons.1 hk
      rw [hframe' k hk', hframe k hk]

/-- **The rule of charging loops.**  A loop that takes from an amount what each
round charges ends with no more than it started with, when every charge is
non-negative and every round keeps an invariant of the state. -/
theorem sat_foldlM_charge {g : σ → α → Except ε (Int × σ)} {p : α → Prop}
    (hstep : ∀ s a, p a → Q s → (g s a).Sat E fun r => 0 ≤ r.1 ∧ Q r.2) :
    ∀ (l : List α), (∀ a ∈ l, p a) → ∀ (amount : Int) (s : σ), Q s →
      (l.foldlM (fun (acc : Int × σ) a => do let x ← g acc.2 a; pure (acc.1 - x.1, x.2))
        (amount, s)).Sat E fun r : Int × σ => r.1 ≤ amount ∧ Q r.2
  | [], _, _, _, hs => ⟨Int.le_refl _, hs⟩
  | a :: l, hl, amount, s, hs => by
    simp only [List.foldlM_cons, bind_assoc, pure_bind]
    refine sat_bind (hstep s a (hl a List.mem_cons_self) hs) fun x hx => ?_
    -- the rest of the loop charges from what this round left
    exact (sat_foldlM_charge hstep l (fun b hb => hl b (List.mem_cons_of_mem a hb))
      (amount - x.1) x.2 hx.2).mono (fun _ h => h) fun r hr => ⟨by omega, hr.2⟩

end Except

namespace List

variable {σ α : Type} {Q : σ → Prop}

/-- A loop that cannot fail, whose every round keeps an invariant of the state,
keeps it. -/
theorem foldl_invariant {f : σ → α → σ} (hstep : ∀ s a, Q s → Q (f s a)) :
    ∀ (l : List α) (s : σ), Q s → Q (l.foldl f s)
  | [], _, h => h
  | a :: l, s, h => foldl_invariant hstep l (f s a) (hstep s a h)

/-- A loop that cannot fail, whose every round on an element of the list keeps
an invariant of the state, keeps it. -/
theorem foldl_invariant_of_mem {f : σ → α → σ} {p : α → Prop}
    (hstep : ∀ s a, p a → Q s → Q (f s a)) :
    ∀ (l : List α), (∀ a ∈ l, p a) → ∀ (s : σ), Q s → Q (l.foldl f s)
  | [], _, _, h => h
  | a :: l, hl, s, h =>
    foldl_invariant_of_mem hstep l (fun b hb => hl b (List.mem_cons_of_mem a hb)) (f s a)
      (hstep s a (hl a List.mem_cons_self) h)

/-- A loop over a pair of accumulators, each updated from its own, is the pair
of the two loops. -/
theorem foldl_pair {β : Type} (f : σ → α → σ) (g : β → α → β) :
    ∀ (l : List α) (s : σ) (t : β),
      l.foldl (fun acc a => (f acc.1 a, g acc.2 a)) (s, t) = (l.foldl f s, l.foldl g t)
  | [], _, _ => rfl
  | a :: l, s, t => foldl_pair f g l (f s a) (g t a)

/-- The rule of charging loops for a loop that cannot fail. -/
theorem foldl_charge {g : σ → α → Int × σ} {p : α → Prop}
    (hstep : ∀ s a, p a → Q s → 0 ≤ (g s a).1 ∧ Q (g s a).2) :
    ∀ (l : List α), (∀ a ∈ l, p a) → ∀ (amount : Int) (s : σ), Q s →
      (l.foldl (fun acc a => (acc.1 - (g acc.2 a).1, (g acc.2 a).2)) (amount, s)).1 ≤ amount ∧
        Q (l.foldl (fun acc a => (acc.1 - (g acc.2 a).1, (g acc.2 a).2)) (amount, s)).2
  | [], _, _, _, hs => ⟨Int.le_refl _, hs⟩
  | a :: l, hl, amount, s, hs => by
    obtain ⟨hcharge, hs'⟩ := hstep s a (hl a List.mem_cons_self) hs
    obtain ⟨hle, hQ⟩ := foldl_charge hstep l (fun b hb => hl b (List.mem_cons_of_mem a hb))
      (amount - (g s a).1) (g s a).2 hs'
    exact ⟨by rw [List.foldl_cons]; dsimp only; omega, hQ⟩

end List

/-! ### Computations on a state that may fail

A computation of `EStateM ε σ α` runs on a state and returns a value or a
failure, each with the state it left.  The rules take a successful run apart
bind by bind, as `Except.bind_eq_ok` does without the state. -/

namespace EStateM

variable {ε σ α β : Type}

/-- A sequence succeeds exactly when its first part does, and the rest on the
state the first part left. -/
theorem bind_eq_ok {x : EStateM ε σ α} {f : α → EStateM ε σ β} {s s' : σ} {b : β} :
    (x >>= f) s = .ok b s' ↔ ∃ a s₁, x s = .ok a s₁ ∧ f a s₁ = .ok b s' := by
  show EStateM.bind x f s = _ ↔ _
  unfold EStateM.bind
  cases x s <;> simp [and_assoc]

@[simp] theorem pure_eq_ok {a b : α} {s s' : σ} :
    (pure a : EStateM ε σ α) s = .ok b s' ↔ a = b ∧ s = s' := by
  simp [pure, EStateM.pure]

/-- A failure does not succeed. -/
@[simp] theorem throw_ne_ok {e : ε} {b : α} {s s' : σ} : (throw e : EStateM ε σ α) s ≠ .ok b s' :=
  fun h => nomatch h

end EStateM
