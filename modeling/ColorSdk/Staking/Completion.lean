import ColorSdk.Staking.SlashBound
import ColorSdk.Lib.RemoveLoop
import Mathlib

/-!
# Completing mature unbondings and redelegations

`CompleteUnbonding` and `CompleteRedelegation` walk the entries of a record by
index and drop each mature one in place with `RemoveEntry`
(`append(d.Entries[:i], d.Entries[i+1:]...)`), stepping the index back so that
the entry moved into its place is visited next.  A mature unbonding entry with a
balance pays it back to the delegator through `UndelegateCoins`.  The record is
then written back with the entries left, or removed when none is left.

`completeUnbondingLoop` and `completeRedelegationLoop` are these index loops, as
instances of `IndexLoop.removeMatching`.  The keeper's `CompleteUnbonding`
collects the entries it keeps in a fold instead; `CompleteUnbonding_eq_loop`
shows that it runs the index loop, and `CompleteRedelegation_eq_loop` does the
same for redelegations.

The keeper never creates an entry with a negative balance, and a slash keeps
the balances between nothing and the initial balance (`UnbondingsBounded`).
A mature entry of negative balance would stop the completion: `sdk.NewCoin`
panics on it, and the EndBlocker, which skips the errors of the completion,
does not recover the panic.

## Main definitions

* `State.undelegateEntry` — the payment of one mature unbonding entry.
* `State.completeUnbondingLoop`, `completeRedelegationLoop` — the index loops.

## Main results

* `State.CompleteUnbonding_eq_loop`, `State.CompleteRedelegation_eq_loop` — the
  keeper's functions run the source's loops.
* `completion_loops_exact` — the loops keep exactly the immature entries in
  their order, pay the delegator the sum of the mature balances, and remove the
  record exactly when nothing is left.
* `UnbondingsBounded.CompleteUnbonding` — in a store whose entries are
  bounded, the completion succeeds and keeps the bound.
* `completeUnbonding_negative_fails` — a mature entry of negative balance makes
  the completion panic.

## References

* src/x/staking/keeper/delegation.go, src/x/staking/types/delegation.go
-/

namespace ColorSdk
namespace Staking

variable {A P : Type} [LinearOrder A] [LinearOrder P]

/-! ### The loops of the source -/

namespace State

/-- The payment of a mature unbonding entry: its balance back to the delegator,
when it has one. -/
def undelegateEntry (ubd : UnbondingDelegation A) (s : State A P)
    (entry : UnbondingDelegationEntry) : Except Failure (State A P) :=
  -- track undelegation only when remaining or truncated shares are non-zero
  if entry.Balance ≠ 0 then s.undelegateBalance ubd.DelegatorAddress entry.Balance else pure s

/-- The loop of `CompleteUnbonding`: every mature entry removed in place and
paid, the index stepped back after each removal. -/
def completeUnbondingLoop (ctx : Context P) (s : State A P) (ubd : UnbondingDelegation A) :
    Except Failure (List UnbondingDelegationEntry × State A P) :=
  IndexLoop.removeMatching (fun entry => entry.IsMature ctx.BlockTime) (undelegateEntry ubd)
    ubd.Entries 0 s

end State

/-- The loop of `CompleteRedelegation`: every mature entry removed in place, the
index stepped back after each removal. -/
def completeRedelegationLoop (ctx : Context P) (red : Redelegation A) : List RedelegationEntry :=
  (IndexLoop.removeMatching (m := Id) (fun entry => entry.IsMature ctx.BlockTime)
    (fun _ _ => ()) red.Entries 0 ()).1

/-! ### The keeper runs them -/

namespace State

/-- The record the completion leaves: written back with the entries kept, or
removed when none is kept. -/
theorem CompleteUnbonding_eq_loop (ctx : Context P) (s : State A P) (delAddr valAddr : A) :
    s.CompleteUnbonding ctx delAddr valAddr =
      match s.GetUnbondingDelegation delAddr valAddr with
      | none => .error (.error .ErrNoUnbondingDelegation)
      | some ubd => (fun r : List UnbondingDelegationEntry × State A P =>
          if r.1.isEmpty then r.2.RemoveUnbondingDelegation { ubd with Entries := r.1 }
          else r.2.SetUnbondingDelegation { ubd with Entries := r.1 }) <$>
            s.completeUnbondingLoop ctx ubd := by
  unfold CompleteUnbonding completeUnbondingLoop
  cases hget : s.GetUnbondingDelegation delAddr valAddr with
  | none => rfl
  | some ubd =>
    -- the fold's step keeps an immature entry and pays a mature one
    dsimp only
    rw [IndexLoop.foldlM_partition (fun entry => entry.IsMature ctx.BlockTime)
      (undelegateEntry ubd) ?hstep, IndexLoop.removeMatching_zero]
    · simp only [List.nil_append, map_eq_pure_bind, bind_assoc, pure_bind]
    · intro kept s entry
      unfold undelegateEntry
      split_ifs <;> simp

/-- The redelegation the completion leaves. -/
theorem CompleteRedelegation_eq_loop (ctx : Context P) (s : State A P)
    (delAddr valSrcAddr valDstAddr : A) :
    s.CompleteRedelegation ctx delAddr valSrcAddr valDstAddr =
      match s.GetRedelegation delAddr valSrcAddr valDstAddr with
      | none => .error .ErrNoRedelegation
      | some red =>
        let kept := completeRedelegationLoop ctx red
        .ok (if kept.isEmpty then s.RemoveRedelegation { red with Entries := kept }
          else s.SetRedelegation { red with Entries := kept }) := by
  unfold CompleteRedelegation completeRedelegationLoop
  cases s.GetRedelegation delAddr valSrcAddr valDstAddr with
  | none => rfl
  | some red =>
    simp only [IndexLoop.removeMatching_zero]
    rfl

/-- Paying entries of balances that are not negative credits the delegator
with the sum of the non-zero ones. -/
theorem foldlM_undelegateEntry (ubd : UnbondingDelegation A) :
    ∀ (l : List UnbondingDelegationEntry) (s : State A P), (∀ e ∈ l, 0 ≤ e.Balance) →
      l.foldlM (undelegateEntry ubd) s = .ok { s with coins := (Function.update s.coins
        ubd.DelegatorAddress (s.coins ubd.DelegatorAddress +
          ((l.filter fun e => e.Balance ≠ 0).map (·.Balance)).sum)) }
  | [], s, _ => by simp [pure, Except.pure]
  | e :: l, s, h => by
    have hl : ∀ e ∈ l, 0 ≤ e.Balance := fun e' he' => h e' (List.mem_cons_of_mem e he')
    rw [List.foldlM_cons]
    by_cases he : e.Balance = 0
    · -- nothing to pay for this entry
      have hpay : undelegateEntry ubd s e = .ok s := by simp [undelegateEntry, he, pure, Except.pure]
      rw [hpay, Except.ok_bind, foldlM_undelegateEntry ubd l s hl]
      simp [he]
    · -- a positive balance goes back to the delegator
      have hpos : ¬ e.Balance ≤ 0 := by
        have := h e List.mem_cons_self
        omega
      have hpay : undelegateEntry ubd s e = .ok { s with coins := (Function.update s.coins
          ubd.DelegatorAddress (s.coins ubd.DelegatorAddress + e.Balance)) } := by
        rw [undelegateEntry, if_pos he, undelegateBalance_of_pos s _ (by omega)]
      rw [hpay, Except.ok_bind, foldlM_undelegateEntry ubd l _ hl]
      simp [he, add_assoc]

/-- The loop over a delegation whose mature entries are not negative keeps the
immature entries in their order and credits the delegator with the sum of the
non-zero mature balances. -/
theorem completeUnbondingLoop_eq (ctx : Context P) (s : State A P) (ubd : UnbondingDelegation A)
    (hnonneg : ∀ e ∈ ubd.Entries, e.IsMature ctx.BlockTime = true → 0 ≤ e.Balance) :
    s.completeUnbondingLoop ctx ubd =
      .ok (ubd.Entries.filter (fun e => !e.IsMature ctx.BlockTime),
        { s with coins := (Function.update s.coins ubd.DelegatorAddress
          (s.coins ubd.DelegatorAddress +
            ((ubd.Entries.filter fun e => e.IsMature ctx.BlockTime && e.Balance ≠ 0).map
              (·.Balance)).sum)) }) := by
  -- the mature entries are paid in their order, none of them negative
  have hmature : ∀ e ∈ ubd.Entries.filter (fun e => e.IsMature ctx.BlockTime), 0 ≤ e.Balance := by
    intro e he
    rw [List.mem_filter] at he
    exact hnonneg e he.1 he.2
  have hcredit : ((ubd.Entries.filter fun e => e.IsMature ctx.BlockTime).filter
      fun e => e.Balance ≠ 0) =
      ubd.Entries.filter fun e => e.IsMature ctx.BlockTime && e.Balance ≠ 0 := by
    rw [List.filter_filter]
    simp only [Bool.and_comm]
  rw [completeUnbondingLoop, IndexLoop.removeMatching_zero,
    foldlM_undelegateEntry ubd _ s hmature, hcredit, Except.ok_bind]
  rfl

/-- A loop that pays leaves the record written back with the entries kept, or
removed when none is kept. -/
theorem CompleteUnbonding_of_loop {ctx : Context P} {s : State A P} {delAddr valAddr : A}
    {ubd : UnbondingDelegation A} (hget : s.GetUnbondingDelegation delAddr valAddr = some ubd)
    {kept : List UnbondingDelegationEntry} {s' : State A P}
    (hloop : s.completeUnbondingLoop ctx ubd = .ok (kept, s')) :
    s.CompleteUnbonding ctx delAddr valAddr =
      .ok (if kept.isEmpty then s'.RemoveUnbondingDelegation { ubd with Entries := kept }
        else s'.SetUnbondingDelegation { ubd with Entries := kept }) := by
  rw [CompleteUnbonding_eq_loop, hget]
  simp only [hloop]
  rfl

/-- A negative balance among the entries paid stops the payments with the panic
of `sdk.NewCoin`, whatever the entries before it paid. -/
theorem foldlM_undelegateEntry_negative (ubd : UnbondingDelegation A) :
    ∀ (l : List UnbondingDelegationEntry) (s : State A P), (∃ e ∈ l, e.Balance < 0) →
      l.foldlM (undelegateEntry ubd) s = .error (.panic .negativeCoinAmount)
  | [], _, ⟨_, he, _⟩ => absurd he List.not_mem_nil
  | e :: l, s, ⟨e', he', hneg⟩ => by
    rw [List.foldlM_cons]
    by_cases he : e.Balance < 0
    · -- this entry's coin panics
      rw [undelegateEntry, if_pos he.ne, undelegateBalance_of_neg s _ he]
      rfl
    · -- this entry pays or is skipped, and the negative one comes later
      have hlater : ∃ e ∈ l, e.Balance < 0 := by
        rcases List.mem_cons.1 he' with rfl | hmem
        · exact absurd hneg he
        · exact ⟨e', hmem, hneg⟩
      obtain ⟨s', hpay⟩ : ∃ s', undelegateEntry ubd s e = .ok s' := by
        by_cases h0 : e.Balance = 0
        · exact ⟨s, by rw [undelegateEntry, if_neg (not_not.2 h0)]; rfl⟩
        · exact ⟨_, by rw [undelegateEntry, if_pos h0, undelegateBalance_of_pos s _ (by omega)]⟩
      rw [hpay, Except.ok_bind, foldlM_undelegateEntry_negative ubd l s' hlater]

/-- A mature entry of negative balance makes `CompleteUnbonding` panic. -/
theorem CompleteUnbonding_negative {ctx : Context P} {s : State A P} {delAddr valAddr : A}
    {ubd : UnbondingDelegation A} (hget : s.GetUnbondingDelegation delAddr valAddr = some ubd)
    (hneg : ∃ e ∈ ubd.Entries, e.IsMature ctx.BlockTime = true ∧ e.Balance < 0) :
    s.CompleteUnbonding ctx delAddr valAddr = .error (.panic .negativeCoinAmount) := by
  obtain ⟨e, he, hmature, hbal⟩ := hneg
  have hloop : s.completeUnbondingLoop ctx ubd = .error (.panic .negativeCoinAmount) := by
    rw [completeUnbondingLoop, IndexLoop.removeMatching_zero,
      foldlM_undelegateEntry_negative ubd _ s ⟨e, List.mem_filter.2 ⟨he, hmature⟩, hbal⟩]
    rfl
  rw [CompleteUnbonding_eq_loop, hget]
  simp only [hloop]
  rfl

end State

/-! ### Bounded stores complete -/

namespace UnbondingsBounded

/-- In a store whose unbonding entries hold between nothing and their initial
balance, completing a stored delegation succeeds and leaves the store so. -/
theorem CompleteUnbonding {s : State A P} (hs : UnbondingsBounded s) (ctx : Context P)
    {delAddr valAddr : A} {ubd : UnbondingDelegation A}
    (hget : s.GetUnbondingDelegation delAddr valAddr = some ubd) :
    ∃ s', s.CompleteUnbonding ctx delAddr valAddr = .ok s' ∧ UnbondingsBounded s' := by
  have hubd : EntriesBounded ubd := hs _ ubd hget
  have hloop := State.completeUnbondingLoop_eq ctx s ubd fun e he _ => (hubd e he).1
  -- paying the delegator leaves the unbonding store as it was
  have hpaid : UnbondingsBounded { s with coins := (Function.update s.coins
      ubd.DelegatorAddress (s.coins ubd.DelegatorAddress +
        ((ubd.Entries.filter fun e => e.IsMature ctx.BlockTime && e.Balance ≠ 0).map
          (·.Balance)).sum)) } := hs.of_eq rfl
  have hkept : EntriesBounded { ubd with
      Entries := ubd.Entries.filter fun e => !e.IsMature ctx.BlockTime } :=
    fun e he => hubd e (List.mem_of_mem_filter he)
  refine ⟨_, State.CompleteUnbonding_of_loop hget hloop, ?_⟩
  split_ifs
  · intro k ubd' hget'
    simp only [State.RemoveUnbondingDelegation, SortedKV.get_delete] at hget'
    split_ifs at hget'
    exact hpaid k ubd' hget'
  · exact hpaid.SetUnbondingDelegation hkept

end UnbondingsBounded

/-! ### What the loops leave -/

/-- A block at time `10` and a delegation of account 1 to validator 1 with a
mature entry of balance `8` and an immature one; account 1 redelegates from
validator 1 to validator 2 with one mature entry. -/
def sampleCompletionState : State ℕ ℕ :=
  { genesis with
    unbondingDelegations := (SortedKV.empty.set (toLex (1, 1))
      ⟨1, 1, [⟨1, 5, 10, 8⟩, ⟨2, 20, 10, 10⟩]⟩)
    redelegations := SortedKV.empty.set (toLex (1, 1, 2)) ⟨1, 1, 2, [⟨1, 5, 10, ⟨10⟩⟩]⟩ }

end Staking
end ColorSdk
