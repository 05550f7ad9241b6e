import ColorSdk.Lib.ExceptSpec
import Mathlib.Data.List.Range

/-!
# Runs that log

A component that takes commands one after the other, and logs at most one
entry at each, runs as `LoggedRun.run step`: the state after the commands, and
the log in order.  The rules below say what a whole run keeps from what one
step keeps: an invariant of the state, a fact about the entries of the log that
later steps do not undo, and the law of a counter that the log reports.  When
each step either logs the counter's value and moves it on by one, or logs
nothing and leaves it, the values logged over a run are the counter's values
from its first to its last, each once and in order: no value is skipped and
none is issued twice.

## Main definitions

* `LoggedRun.run` — a run of a step that may log.
* `LoggedRun.runE` — a run of a step that may also fail, stopped by the first
  failure.

## Main results

* `LoggedRun.run_invariant` — the invariant rule.
* `LoggedRun.run_invariant_of_budget` — the invariant rule for an invariant that
  each step may spend one of a budget of.
* `LoggedRun.mem_run_log` — the rule of log entries.
* `LoggedRun.counter_le_run` — a counter no step moves back.
* `LoggedRun.filterMap_run_log` — **the counter law.**
* `LoggedRun.counter_run_le_length` — a counter each step moves up by at most
  one; `LoggedRun.counter_run_le` under the counter law.
* `LoggedRun.runE_of_simulation` — **the simulation rule**: a run that may fail,
  whose every step from related states does what a step of a run that cannot
  fail does, succeeds on every run with that run's log.
* `LoggedRun.runE_filter` — **erasing silent commands**: commands that change
  nothing a view sees and report nothing can be dropped from a run without
  changing what the view sees or what is reported.
* `LoggedRun.filterMap_runE_log` — the counter law of a run that may fail.
* `LoggedRun.runE_ok_of_invariant` — the progress rule: commands that succeed
  from every state of an invariant and keep it make a run that succeeds.
-/

namespace LoggedRun

variable {σ α β : Type} (step : σ → α → σ × Option β)

/-- The state after the commands, and the entries logged, in order. -/
def run : σ → List α → σ × List β
  | s, [] => (s, [])
  | s, a :: l => ((run (step s a).1 l).1, (step s a).2.toList ++ (run (step s a).1 l).2)

@[simp] theorem run_nil (s : σ) : run step s [] = (s, []) := rfl

@[simp] theorem run_cons (s : σ) (a : α) (l : List α) :
    run step s (a :: l) =
      ((run step (step s a).1 l).1, (step s a).2.toList ++ (run step (step s a).1 l).2) :=
  rfl

theorem filterMap_toList {γ : Type} (o : Option β) (f : β → Option γ) :
    o.toList.filterMap f = (o.bind f).toList := by
  cases o with
  | none => rfl
  | some b => cases hb : f b <;> simp [hb]

variable {P : σ → Prop} {H : α → Prop}

/-- A state invariant that every step by a command allowed by `H` keeps holds
after every run of such commands. -/
theorem run_invariant (hstep : ∀ s a, P s → H a → P (step s a).1) {s : σ} {l : List α}
    (hs : P s) (has : ∀ a ∈ l, H a) : P (run step s l).1 := by
  induction l generalizing s with
  | nil => exact hs
  | cons a l ih =>
    exact ih (hstep s a hs (has a List.mem_cons_self)) fun a' ha' =>
      has a' (List.mem_cons_of_mem _ ha')

/-- An invariant with a budget, of which each step spends at most one, holds
after every run no longer than the budget, with what is left of it. -/
theorem run_invariant_of_budget {Q : ℕ → σ → Prop} (hstep : ∀ b s a, Q (b + 1) s → H a → Q b (step s a).1)
    {s : σ} {l : List α} {b : ℕ} (hs : Q (b + l.length) s) (has : ∀ a ∈ l, H a) : Q b (run step s l).1 := by
  induction l generalizing s with
  | nil => exact hs
  | cons a l ih =>
    have hs' : Q (b + l.length + 1) s := by simpa [Nat.add_assoc] using hs
    exact ih (hstep _ s a hs' (has a List.mem_cons_self)) fun a' ha' => has a' (List.mem_cons_of_mem _ ha')

/-- An entry holds of the state its step led to, and later steps keep it: then
every entry of a run holds of the state the run ends in. -/
theorem mem_run_log (Q : β → σ → Prop) (hP : ∀ s a, P s → H a → P (step s a).1)
    (hlog : ∀ s a b, P s → H a → (step s a).2 = some b → Q b (step s a).1)
    (hkeep : ∀ s a b, P s → H a → Q b s → Q b (step s a).1) {s : σ} {l : List α}
    (hs : P s) (has : ∀ a ∈ l, H a) : ∀ b ∈ (run step s l).2, Q b (run step s l).1 := by
  induction l generalizing s with
  | nil => simp
  | cons a l ih =>
    have ha := has a List.mem_cons_self
    have has' : ∀ a' ∈ l, H a' := fun a' ha' => has a' (List.mem_cons_of_mem _ ha')
    intro b hb
    rw [run_cons, List.mem_append] at hb
    rcases hb with hb | hb
    · -- the entry of the first step, carried through the rest of the run
      have hfirst : (step s a).2 = some b := Option.mem_toList.1 hb
      exact (run_invariant step (P := fun s => P s ∧ Q b s)
        (fun s a hs ha => ⟨hP s a hs.1 ha, hkeep s a b hs.1 ha hs.2⟩)
        ⟨hP s a hs ha, hlog s a b hs ha hfirst⟩ has').2
    · exact ih (hP s a hs ha) has' b hb

/-- A counter that no step moves back ends a run no lower than it started. -/
theorem counter_le_run (n : σ → ℕ) (hP : ∀ s a, P s → H a → P (step s a).1)
    (hle : ∀ s a, P s → H a → n s ≤ n (step s a).1) {s : σ} {l : List α} (hs : P s)
    (has : ∀ a ∈ l, H a) : n s ≤ n (run step s l).1 :=
  (run_invariant step (P := fun s' => P s' ∧ n s ≤ n s')
    (fun s' a hs' ha => ⟨hP s' a hs'.1 ha, hs'.2.trans (hle s' a hs'.1 ha)⟩) ⟨hs, le_rfl⟩ has).2

/-- A report of the counter's value in front of the range of the later ones. -/
theorem range'_cons_of_le {m m' : ℕ} (h : m + 1 ≤ m') :
    m :: List.range' (m + 1) (m' - (m + 1)) = List.range' m (m' - m) := by
  obtain ⟨k, rfl⟩ := Nat.exists_eq_add_of_le h
  rw [show m + 1 + k - (m + 1) = k by omega, show m + 1 + k - m = k + 1 by omega, List.range'_succ]

/-- **The counter law.**  When every step either logs an entry that reports the
counter's value and moves the counter on by one, or logs nothing that reports
and leaves the counter, the values reported over a run are the counter's
values from where it started to before where it ended, in order. -/
theorem filterMap_run_log (n : σ → ℕ) (out : β → Option ℕ)
    (hP : ∀ s a, P s → H a → P (step s a).1)
    (hstep : ∀ s a, P s → H a →
      ((step s a).2.bind out = some (n s) ∧ n (step s a).1 = n s + 1) ∨
        ((step s a).2.bind out = none ∧ n (step s a).1 = n s))
    {s : σ} {l : List α} (hs : P s) (has : ∀ a ∈ l, H a) :
    (run step s l).2.filterMap out = List.range' (n s) (n (run step s l).1 - n s) := by
  have hle : ∀ s a, P s → H a → n s ≤ n (step s a).1 := fun s a hs ha => by
    rcases hstep s a hs ha with ⟨-, h⟩ | ⟨-, h⟩ <;> omega
  induction l generalizing s with
  | nil => simp
  | cons a l ih =>
    have ha := has a List.mem_cons_self
    have has' : ∀ a' ∈ l, H a' := fun a' ha' => has a' (List.mem_cons_of_mem _ ha')
    have hrest := counter_le_run step n hP hle (hP s a hs ha) has'
    rw [run_cons, List.filterMap_append, filterMap_toList, ih (hP s a hs ha) has']
    rcases hstep s a hs ha with ⟨hout, hn⟩ | ⟨hout, hn⟩
    · -- the step reports the counter's value: the range starts one earlier
      rw [hout, hn]
      exact range'_cons_of_le (hn ▸ hrest)
    · rw [hout, hn]
      rfl

/-- A counter that no step moves up by more than one ends a run at most the
run's length above where it started. -/
theorem counter_run_le_length (n : σ → ℕ) (hP : ∀ s a, P s → H a → P (step s a).1)
    (hstep : ∀ s a, P s → H a → n (step s a).1 ≤ n s + 1) {s : σ} {l : List α} (hs : P s)
    (has : ∀ a ∈ l, H a) : n (run step s l).1 ≤ n s + l.length := by
  induction l generalizing s with
  | nil => simp
  | cons a l ih =>
    have ha := has a List.mem_cons_self
    have hrest := ih (hP s a hs ha) fun a' ha' => has a' (List.mem_cons_of_mem _ ha')
    have hfirst := hstep s a hs ha
    simp only [run_cons, List.length_cons]
    omega

/-- Under the counter law the counter moves at most once per command. -/
theorem counter_run_le (n : σ → ℕ) (out : β → Option ℕ)
    (hP : ∀ s a, P s → H a → P (step s a).1)
    (hstep : ∀ s a, P s → H a →
      ((step s a).2.bind out = some (n s) ∧ n (step s a).1 = n s + 1) ∨
        ((step s a).2.bind out = none ∧ n (step s a).1 = n s))
    {s : σ} {l : List α} (hs : P s) (has : ∀ a ∈ l, H a) :
    n (run step s l).1 ≤ n s + l.length :=
  counter_run_le_length step n hP (fun s a hs ha => by
    rcases hstep s a hs ha with ⟨-, h⟩ | ⟨-, h⟩ <;> omega) hs has

/-! ### Runs that may fail -/

section Fallible

variable {ε τ : Type} (stepE : σ → α → Except ε (σ × Option β))

/-- A run of a step that may fail: the state after the commands and the
entries logged, or the first failure. -/
def runE : σ → List α → Except ε (σ × List β)
  | s, [] => .ok (s, [])
  | s, a :: l => do
    let r ← stepE s a
    let r' ← runE r.1 l
    pure (r'.1, r.2.toList ++ r'.2)

@[simp] theorem runE_nil (s : σ) : runE stepE s [] = .ok (s, []) := rfl

theorem runE_cons_of_eq_ok {s s' : σ} {a : α} {o : Option β} (l : List α)
    (h : stepE s a = .ok (s', o)) :
    runE stepE s (a :: l) = (runE stepE s' l).map fun r => (r.1, o.toList ++ r.2) := by
  rw [runE, h]
  show (runE stepE s' l >>= fun r' => pure (r'.1, o.toList ++ r'.2)) = _
  cases runE stepE s' l <;> rfl

theorem runE_cons_of_eq_error {s : σ} {a : α} {e : ε} (l : List α) (h : stepE s a = .error e) :
    runE stepE s (a :: l) = .error e := by
  rw [runE, h]
  rfl

/-- **Erasing silent commands.**  Let the commands `p` drops succeed, keep the
view of the state and log nothing that `out` reports; and let every command `p`
keeps do the same from states of the same view: fail with the same failure, or
move to states of the same view and log the same report.  Then a run and the run
of the commands `p` keeps alone, from states of the same view, fail alike or
end in states of the same view with the same reports. -/
theorem runE_filter {γ : Type} (view : σ → τ) (out : β → Option γ) (p : α → Bool)
    (hsilent : ∀ s a, p a = false → ∃ s' o, stepE s a = .ok (s', o) ∧ view s' = view s ∧ o.bind out = none)
    (hvisible : ∀ s t a, p a = true → view s = view t →
      (stepE s a).map (fun r => (view r.1, r.2.bind out)) = (stepE t a).map (fun r => (view r.1, r.2.bind out))) :
    ∀ (l : List α) {s t : σ}, view s = view t →
      (runE stepE s l).map (fun r => (view r.1, r.2.filterMap out)) =
        (runE stepE t (l.filter p)).map (fun r => (view r.1, r.2.filterMap out))
  | [], s, t, hst => by simp [Except.map, hst]
  | a :: l, s, t, hst => by
    cases hp : p a with
    | false =>
      -- a silent command: the run goes on from a state of the same view
      obtain ⟨s', o, hstep, hview, hout⟩ := hsilent s a hp
      rw [runE_cons_of_eq_ok stepE l hstep, List.filter_cons_of_neg (by simp [hp]), ← runE_filter view out p
        hsilent hvisible l (hview.trans hst), Except.map_map]
      congr 1
      funext r
      simp [List.filterMap_append, LoggedRun.filterMap_toList, hout]
    | true =>
      rw [List.filter_cons_of_pos hp]
      have hsame := hvisible s t a hp hst
      rcases hs : stepE s a with e | ⟨s', o⟩ <;> rcases ht : stepE t a with e' | ⟨t', o'⟩ <;>
        rw [hs, ht] at hsame <;> simp only [Except.map, Except.error.injEq, reduceCtorEq] at hsame
      · rw [runE_cons_of_eq_error stepE l hs, runE_cons_of_eq_error stepE _ ht, hsame]
      · -- both steps succeed with the same view and report
        simp only [Except.ok.injEq, Prod.mk.injEq] at hsame
        have ih := runE_filter view out p hsilent hvisible l hsame.1
        -- the step's report goes in front of the rest of the run's
        have hcomp : ∀ (pre : Option β) (x : Except ε (σ × List β)),
            (x.map fun r => (r.1, pre.toList ++ r.2)).map (fun r => (view r.1, r.2.filterMap out)) =
              (x.map fun r => (view r.1, r.2.filterMap out)).map fun q => (q.1, (pre.bind out).toList ++ q.2) := by
          intro pre x
          rw [Except.map_map, Except.map_map]
          congr 1
          funext r
          simp [List.filterMap_append, LoggedRun.filterMap_toList]
        rw [runE_cons_of_eq_ok stepE l hs, runE_cons_of_eq_ok stepE _ ht]
        rw [hcomp o, hcomp o', ih, hsame.2]

/-- A run that succeeds took its first step and then ran the rest. -/
theorem runE_cons_eq_ok {s s' : σ} {a : α} {l : List α} {log : List β}
    (h : runE stepE s (a :: l) = .ok (s', log)) :
    ∃ s₁ o log', stepE s a = .ok (s₁, o) ∧ runE stepE s₁ l = .ok (s', log') ∧ log = o.toList ++ log' := by
  rcases hs : stepE s a with e | ⟨s₁, o⟩
  · rw [runE_cons_of_eq_error stepE l hs] at h
    cases h
  rw [runE_cons_of_eq_ok stepE l hs] at h
  rcases hrun : runE stepE s₁ l with e | ⟨s₂, log'⟩
  · rw [hrun] at h
    cases h
  rw [hrun] at h
  simp only [Except.map, Except.ok.injEq, Prod.mk.injEq] at h
  obtain ⟨rfl, rfl⟩ := h
  exact ⟨s₁, o, log', rfl, hrun, rfl⟩

/-- A run that succeeds logs at most one entry per command. -/
theorem length_runE_log_le : ∀ (l : List α) {s s' : σ} {log : List β},
    runE stepE s l = .ok (s', log) → log.length ≤ l.length
  | [], s, s', log, h => by
    simp only [runE_nil, Except.ok.injEq, Prod.mk.injEq] at h
    obtain ⟨rfl, rfl⟩ := h
    exact le_rfl
  | a :: l, s, s', log, h => by
    obtain ⟨s₁, o, log', -, hrun, rfl⟩ := runE_cons_eq_ok stepE h
    have hrest := length_runE_log_le l hrun
    cases o <;> simp <;> omega

/-- **The counter law of a run that may fail.**  When every step that succeeds
either logs an entry that reports the counter's value and moves the counter on
by one, or logs nothing that reports and leaves the counter, the values reported
by a run that succeeds are the counter's values from where it started to before
where it ended, in order. -/
theorem filterMap_runE_log (n : σ → ℕ) (out : β → Option ℕ)
    (hstep : ∀ s a s' o, stepE s a = .ok (s', o) →
      (o.bind out = some (n s) ∧ n s' = n s + 1) ∨ (o.bind out = none ∧ n s' = n s)) :
    ∀ (l : List α) {s s' : σ} {log : List β}, runE stepE s l = .ok (s', log) →
      n s ≤ n s' ∧ log.filterMap out = List.range' (n s) (n s' - n s)
  | [], s, s', log, h => by
    simp only [runE_nil, Except.ok.injEq, Prod.mk.injEq] at h
    obtain ⟨rfl, rfl⟩ := h
    simp
  | a :: l, s, s', log, h => by
    rcases hs : stepE s a with e | ⟨s₁, o⟩
    · rw [runE_cons_of_eq_error stepE l hs] at h
      cases h
    rw [runE_cons_of_eq_ok stepE l hs] at h
    rcases hrun : runE stepE s₁ l with e | ⟨s₂, log₂⟩
    · rw [hrun] at h
      cases h
    rw [hrun] at h
    simp only [Except.map, Except.ok.injEq, Prod.mk.injEq] at h
    obtain ⟨rfl, rfl⟩ := h
    obtain ⟨hle, hlog⟩ := filterMap_runE_log n out hstep l hrun
    rw [List.filterMap_append, LoggedRun.filterMap_toList, hlog]
    rcases hstep s a s₁ o hs with ⟨hout, hn⟩ | ⟨hout, hn⟩
    · -- the step reports the counter's value: the range starts one earlier
      refine ⟨by omega, ?_⟩
      rw [hout, hn]
      exact range'_cons_of_le (hn ▸ hle)
    · refine ⟨by omega, ?_⟩
      rw [hout, hn]
      rfl

/-- **The simulation rule.**  When, from states related by `R`, every step by a
command allowed by `H` succeeds with the entry the abstract step logs and a
state related to the abstract one, a run of such commands succeeds with the
abstract run's log and ends related to where the abstract run ends. -/
theorem runE_of_simulation (stepA : τ → α → τ × Option β) (R : σ → τ → Prop)
    (hsim : ∀ s t a, R s t → H a → ∃ s', stepE s a = .ok (s', (stepA t a).2) ∧ R s' (stepA t a).1)
    {s : σ} {t : τ} {l : List α} (hR : R s t) (has : ∀ a ∈ l, H a) :
    ∃ s', runE stepE s l = .ok (s', (run stepA t l).2) ∧ R s' (run stepA t l).1 := by
  induction l generalizing s t with
  | nil => exact ⟨s, rfl, hR⟩
  | cons a l ih =>
    obtain ⟨s₁, hstep, hR₁⟩ := hsim s t a hR (has a List.mem_cons_self)
    obtain ⟨s₂, hrun, hR₂⟩ := ih hR₁ fun a' ha' => has a' (List.mem_cons_of_mem _ ha')
    refine ⟨s₂, ?_, hR₂⟩
    rw [runE_cons_of_eq_ok stepE l hstep, hrun, run_cons]
    rfl

/-- **The progress rule.**  When every command allowed by `H` succeeds from a
state of the invariant `P` and keeps it, a run of such commands succeeds and
ends in a state of the invariant. -/
theorem runE_ok_of_invariant (hstep : ∀ s a, P s → H a → ∃ r, stepE s a = .ok r ∧ P r.1)
    {s : σ} {l : List α} (hs : P s) (has : ∀ a ∈ l, H a) : ∃ r, runE stepE s l = .ok r ∧ P r.1 := by
  induction l generalizing s with
  | nil => exact ⟨(s, []), rfl, hs⟩
  | cons a l ih =>
    obtain ⟨⟨s₁, o⟩, hstep₁, hs₁⟩ := hstep s a hs (has a List.mem_cons_self)
    obtain ⟨r, hrun, hr⟩ := ih hs₁ fun a' ha' => has a' (List.mem_cons_of_mem _ ha')
    refine ⟨(r.1, o.toList ++ r.2), ?_, hr⟩
    rw [runE_cons_of_eq_ok stepE l hstep₁, hrun]
    rfl

/-- A run of two lists of commands goes on from where the run of the first
ended, with its log in front. -/
theorem runE_append_of_eq_ok (l₂ : List α) :
    ∀ {l₁ : List α} {s s₁ : σ} {log₁ : List β}, runE stepE s l₁ = .ok (s₁, log₁) →
      runE stepE s (l₁ ++ l₂) = (runE stepE s₁ l₂).map fun r => (r.1, log₁ ++ r.2)
  | [], s, s₁, log₁, h => by
    simp only [runE_nil, Except.ok.injEq, Prod.mk.injEq] at h
    obtain ⟨rfl, rfl⟩ := h
    rw [List.nil_append]
    cases runE stepE s l₂ <;> rfl
  | a :: l₁, s, s₁, log₁, h => by
    rcases hs : stepE s a with e | ⟨s', o⟩
    · rw [runE_cons_of_eq_error stepE l₁ hs] at h
      cases h
    rw [runE_cons_of_eq_ok stepE l₁ hs] at h
    rcases hrun : runE stepE s' l₁ with e | ⟨s'', log'⟩
    · rw [hrun] at h
      cases h
    rw [hrun] at h
    simp only [Except.map, Except.ok.injEq, Prod.mk.injEq] at h
    obtain ⟨rfl, rfl⟩ := h
    rw [List.cons_append, runE_cons_of_eq_ok stepE _ hs, runE_append_of_eq_ok l₂ hrun, Except.map_map]
    congr 1
    funext r
    simp

end Fallible

end LoggedRun
