import ColorSdk.Slashing.Keeper
import ColorSdk.Lib.Window
import ColorSdk.Lib.ExceptSpec

/-!
# The missed-blocks counter

`handleValidatorSignature` keeps, per validator, a bit for each of the last
`SignedBlocksWindow` blocks it should have signed, at index
`IndexOffset % SignedBlocksWindow`, and a counter it moves by hand whenever a
bit changes; a downtime slash clears the bits and zeroes the counter and the
offset.  The bits are then the circular array of `Window` written with the
validator's calls since its last reset, and the counter is the number of its
set slots.

## Main definitions

* `Vote`, `State.handleVotes` — a run of signature calls, each in its own block.
* `Tracks` — the signing info and the bits of a validator hold the window of
  the calls `h` made since its last reset.

## Main results

* `Tracks.handleValidatorSignature` — a call for the validator writes one more
  result into its window, or resets it; a call for another leaves it alone.
* `missed_blocks_counter` — over every run from a fresh signing info, the
  counter is the number of set bits, within `min IndexOffset W`, and the number
  of misses among the validator's last `min IndexOffset W` calls.
-/

namespace ColorSdk
namespace Slashing

open Staking Window

variable {A P : Type} [LinearOrder A] [LinearOrder P]

namespace State

/-! ### Frame lemmas of the stores -/

@[simp] theorem getValidatorSigningInfo_SetValidatorSigningInfo (s : State A P) (a c : P)
    (info : ValidatorSigningInfo) :
    (s.SetValidatorSigningInfo a info).getValidatorSigningInfo c =
      if c = a then some info else s.getValidatorSigningInfo c := by
  simp [getValidatorSigningInfo, SetValidatorSigningInfo]

@[simp] theorem getValidatorMissedBlockBitArray_SetValidatorSigningInfo (s : State A P) (a c : P)
    (info : ValidatorSigningInfo) (i : ℤ) :
    (s.SetValidatorSigningInfo a info).getValidatorMissedBlockBitArray c i =
      s.getValidatorMissedBlockBitArray c i := rfl

@[simp] theorem getValidatorMissedBlockBitArray_setValidatorMissedBlockBitArray (s : State A P)
    (a c : P) (j i : ℤ) (missed : Bool) :
    (s.setValidatorMissedBlockBitArray a j missed).getValidatorMissedBlockBitArray c i =
      if c = a ∧ i = j then missed else s.getValidatorMissedBlockBitArray c i := by
  simp only [getValidatorMissedBlockBitArray, setValidatorMissedBlockBitArray, SortedKV.get_set]
  by_cases h : c = a ∧ i = j
  · obtain ⟨rfl, rfl⟩ := h
    simp
  · have hne : toLex (c, i) ≠ toLex (a, j) := fun heq => h (Prod.ext_iff.1 (toLex.injective heq))
    simp [hne, h]

/-- Clearing a validator's bits leaves none of them set, and no other
validator's bit changed. -/
theorem getValidatorMissedBlockBitArray_clear (s : State A P) (a c : P) (i : ℤ) :
    (s.clearValidatorMissedBlockBitArray a).getValidatorMissedBlockBitArray c i =
      if c = a then false else s.getValidatorMissedBlockBitArray c i := by
  simp only [getValidatorMissedBlockBitArray, clearValidatorMissedBlockBitArray]
  rw [SortedKV.get_foldl SortedKV.delete (fun _ => none) _
    (fun key _ m k => by rw [SortedKV.get_delete]) s.missedBlockBitArray]
  by_cases hca : c = a
  · subst hca
    rw [if_pos rfl]
    -- a stored bit of the validator is among the deleted keys
    split_ifs with hmem
    · rfl
    · cases hget : s.missedBlockBitArray.get (toLex (c, i)) with
      | none => rfl
      | some b =>
        refine absurd (List.mem_map.2 ⟨(toLex (c, i), b), ?_, rfl⟩) hmem
        exact List.mem_filter.2 ⟨SortedKV.get_eq_some_iff.1 hget, by simp⟩
  · have hnot : toLex (c, i) ∉ (s.missedBlockBitArray.entries.filter
        fun e => (ofLex e.1).1 = a).map (·.1) := by
      intro hmem
      obtain ⟨e, he, hkey⟩ := List.mem_map.1 hmem
      have hfst : (ofLex e.1).1 = a := by simpa using (List.mem_filter.1 he).2
      rw [hkey] at hfst
      exact hca hfst
    rw [if_neg hnot, if_neg hca]

/-! ### What one call does -/

/-- **Recording a vote** writes the bit at `index` and moves the counter by the
change of that bit; nothing else changes. -/
theorem updateMissedBlocks_spec (s : State A P) (consAddr : P) (index : ℤ) (missed : Bool)
    (signInfo : ValidatorSigningInfo) :
    let r := s.updateMissedBlocks consAddr index missed signInfo
    (∀ c i, r.1.getValidatorMissedBlockBitArray c i =
      if c = consAddr ∧ i = index then missed else s.getValidatorMissedBlockBitArray c i) ∧
    r.1.signingInfos = s.signingInfos ∧ r.1.params = s.params ∧
    r.2 = { signInfo with MissedBlocksCounter := signInfo.MissedBlocksCounter + missed.toNat -
      (s.getValidatorMissedBlockBitArray consAddr index).toNat } := by
  intro r
  -- where the bit does not change, it already holds the vote
  have hsame : ∀ c i, s.getValidatorMissedBlockBitArray c i =
      if c = consAddr ∧ i = index then s.getValidatorMissedBlockBitArray consAddr index
      else s.getValidatorMissedBlockBitArray c i := fun c i => by
    split_ifs with h
    · obtain ⟨rfl, rfl⟩ := h
      rfl
    · rfl
  simp only [r, updateMissedBlocks]
  cases hprev : s.getValidatorMissedBlockBitArray consAddr index <;> cases missed <;>
    rw [hprev] at hsame
  · exact ⟨hsame, rfl, rfl, by simp⟩
  · exact ⟨fun c i => by simp, rfl, rfl, by simp⟩
  · exact ⟨fun c i => by simp, rfl, rfl, by simp⟩
  · exact ⟨hsame, rfl, rfl, by simp⟩

/-- A downtime slash resets the validator's counter and offset and clears its
bits; the slashing parameters and every other signing info stay. -/
theorem slashDowntime_eq {ctx : Context P} {s t : State A P} {consAddr : P} {power : ℤ}
    {signInfo info : ValidatorSigningInfo}
    (h : s.slashDowntime ctx consAddr power signInfo = .ok (t, info)) :
    (∃ staking : Staking.State A P,
      t = { s with staking := staking }.clearValidatorMissedBlockBitArray consAddr) ∧
    info.MissedBlocksCounter = 0 ∧ info.IndexOffset = 0 := by
  simp only [slashDowntime, bind, Except.bind] at h
  split at h
  · cases h
  · split at h
    · cases h
    · simp only [pure, Except.pure, Except.ok.injEq, Prod.mk.injEq] at h
      obtain ⟨rfl, rfl⟩ := h
      exact ⟨⟨_, rfl⟩, rfl, rfl⟩

/-- **What a signature call does**: it finds the signing info, records the
vote at the offset modulo the window, then either stores the info or, on
downtime (more than `SignedBlocksWindow - MinSignedPerWindow` blocks missed),
slashes and stores it reset. -/
theorem handleValidatorSignature_eq {ctx : Context P} {s s' : State A P} {addr : P} {power : ℤ}
    {signed : Bool} (h : s.handleValidatorSignature ctx addr power signed = .ok s') :
    ∃ info, s.getValidatorSigningInfo addr = some info ∧
      let r := s.updateMissedBlocks addr (info.IndexOffset % s.SignedBlocksWindow) (!signed)
        { info with IndexOffset := info.IndexOffset + 1 }
      (s' = r.1.SetValidatorSigningInfo addr r.2 ∨
        ∃ t info', r.1.SignedBlocksWindow - r.1.MinSignedPerWindow < r.2.MissedBlocksCounter ∧
          r.1.slashDowntime ctx addr power r.2 = .ok (t, info') ∧
          s' = t.SetValidatorSigningInfo addr info') := by
  unfold handleValidatorSignature at h
  cases hpub : s.getPubkey addr with
  | none => simp [hpub, throw, throwThe, MonadExceptOf.throw] at h
  | some _ =>
  cases hinfo : s.getValidatorSigningInfo addr with
  | none => simp [hpub, hinfo, throw, throwThe, MonadExceptOf.throw] at h
  | some info =>
  simp only [hpub, hinfo, bind, Except.bind] at h
  refine ⟨info, rfl, ?_⟩
  -- the punishment is skipped, finds a jailed or no validator, or slashes
  split at h
  · rename_i hguard
    split at h
    · split at h
      · split at h
        · cases h
        · rename_i p hslash
          obtain ⟨t, info'⟩ := p
          simp only [pure, Except.pure, Except.ok.injEq] at h
          exact .inr ⟨t, info', hguard.2, hslash, h.symm⟩
      · simp only [pure, Except.pure, Except.ok.injEq] at h
        exact .inl h.symm
    · simp only [pure, Except.pure, Except.ok.injEq] at h
      exact .inl h.symm
  · simp only [pure, Except.pure, Except.ok.injEq] at h
    exact .inl h.symm

theorem params_handleValidatorSignature {ctx : Context P} {s s' : State A P} {addr : P}
    {power : ℤ} {signed : Bool} (h : s.handleValidatorSignature ctx addr power signed = .ok s') :
    s'.params = s.params := by
  obtain ⟨info, -, hcases⟩ := handleValidatorSignature_eq h
  have hparams := (updateMissedBlocks_spec s addr (info.IndexOffset % s.SignedBlocksWindow) (!signed)
    { info with IndexOffset := info.IndexOffset + 1 }).2.2.1
  rcases hcases with rfl | ⟨t, info', -, hslash, rfl⟩
  · exact hparams
  · obtain ⟨⟨staking, rfl⟩, -⟩ := slashDowntime_eq hslash
    exact hparams

/-- The limit of misses reads only the slashing parameters. -/
theorem maxMissed_eq_of_params_eq {t s : State A P} (h : t.params = s.params) :
    t.SignedBlocksWindow - t.MinSignedPerWindow = s.SignedBlocksWindow - s.MinSignedPerWindow := by
  simp only [MinSignedPerWindow, SignedBlocksWindow, h]

end State

/-! ### The window of a validator -/

/-- The signing info of `c` and its bits hold the window of the calls `h` made
for it since its last reset: the offset counts them, the bits in `[0, W)` are
the circular array they were written into, and the counter is the number of
its set slots. -/
structure Tracks (W : ℕ) (s : State A P) (c : P) (info : ValidatorSigningInfo) (h : List Bool) :
    Prop where
  get_info : s.getValidatorSigningInfo c = some info
  indexOffset : info.IndexOffset = h.length
  bits : ∀ i : ℕ, i < W → s.getValidatorMissedBlockBitArray c i = ring W h i
  counter : info.MissedBlocksCounter = (List.range W).countP (ring W h)

/-- A fresh signing info with no bits holds the empty window. -/
theorem tracks_fresh (W : ℕ) {s : State A P} {c : P} {info : ValidatorSigningInfo}
    (hinfo : s.getValidatorSigningInfo c = some info) (hoffset : info.IndexOffset = 0)
    (hcounter : info.MissedBlocksCounter = 0)
    (hbits : ∀ i : ℤ, s.getValidatorMissedBlockBitArray c i = false) : Tracks W s c info [] where
  get_info := hinfo
  indexOffset := hoffset
  bits i _ := hbits i
  counter := by simp [hcounter]

namespace Tracks

variable {W : ℕ} {s s' : State A P} {c : P} {info : ValidatorSigningInfo} {h : List Bool}

/-- Writing the validator's info and bits elsewhere keeps its window. -/
theorem of_frame (ht : Tracks W s c info h)
    (hinfo : s'.getValidatorSigningInfo c = s.getValidatorSigningInfo c)
    (hbits : ∀ i : ℤ, s'.getValidatorMissedBlockBitArray c i =
      s.getValidatorMissedBlockBitArray c i) : Tracks W s' c info h where
  get_info := hinfo.trans ht.get_info
  indexOffset := ht.indexOffset
  bits i hi := (hbits i).trans (ht.bits i hi)
  counter := ht.counter

/-- The counter is the number of set bits in `[0, W)`. -/
theorem counter_eq_countP (ht : Tracks W s c info h) :
    info.MissedBlocksCounter =
      (List.range W).countP fun i : ℕ => s.getValidatorMissedBlockBitArray c (i : ℤ) := by
  rw [ht.counter]
  congr 1
  exact List.countP_congr fun i hi => by rw [ht.bits i (List.mem_range.1 hi)]

/-- **One vote of the validator writes one more result into its window**: the
bit at `IndexOffset % W` and the counter move together. -/
theorem updateMissedBlocks (ht : Tracks W s c info h) (hW : 0 < W)
    (hwindow : s.SignedBlocksWindow = W) (missed : Bool) :
    let r := s.updateMissedBlocks c (info.IndexOffset % s.SignedBlocksWindow) missed
      { info with IndexOffset := info.IndexOffset + 1 }
    Tracks W (r.1.SetValidatorSigningInfo c r.2) c r.2 (h ++ [missed]) := by
  intro r
  obtain ⟨hbit, -, -, hinfo⟩ := s.updateMissedBlocks_spec c
    (info.IndexOffset % s.SignedBlocksWindow) missed { info with IndexOffset := info.IndexOffset + 1 }
  -- the vote goes to slot `h.length % W`
  have hindex : info.IndexOffset % s.SignedBlocksWindow = ((h.length % W : ℕ) : ℤ) := by
    rw [ht.indexOffset, hwindow, Int.natCast_mod]
  have hprev : s.getValidatorMissedBlockBitArray c (info.IndexOffset % s.SignedBlocksWindow) =
      ring W h (h.length % W) := by
    rw [hindex]
    exact ht.bits _ (Nat.mod_lt _ hW)
  have hcount := countP_update (ring W h) (h.length % W) missed (List.range W) List.nodup_range
    (List.mem_range.2 (Nat.mod_lt _ hW))
  refine ⟨by simp, ?_, fun i hi => ?_, ?_⟩
  · rw [hinfo]
    simp [ht.indexOffset]
  · rw [State.getValidatorMissedBlockBitArray_SetValidatorSigningInfo, hbit, ring_snoc, hindex]
    by_cases hi' : i = h.length % W
    · subst hi'
      simp
    · have hne : (i : ℤ) ≠ ((h.length % W : ℕ) : ℤ) := fun heq => hi' (Int.ofNat_inj.1 heq)
      rw [if_neg (fun hc => hne hc.2), Function.update_of_ne hi', ht.bits i hi]
  · rw [hinfo, ring_snoc, hprev, ht.counter]
    simp only
    omega

/-- A reset leaves the empty window. -/
theorem reset {t : State A P} {info' : ValidatorSigningInfo} {staking : Staking.State A P}
    (hcounter : info'.MissedBlocksCounter = 0) (hoffset : info'.IndexOffset = 0) :
    Tracks W (({ t with staking := staking }.clearValidatorMissedBlockBitArray c).SetValidatorSigningInfo
      c info') c info' [] :=
  tracks_fresh W (by simp) hoffset hcounter fun i => by
    rw [State.getValidatorMissedBlockBitArray_SetValidatorSigningInfo,
      State.getValidatorMissedBlockBitArray_clear, if_pos rfl]

/-- **A signature call keeps the window of every validator**: a call for `c`
writes one more result, or resets once the window with that result holds more
than `SignedBlocksWindow - MinSignedPerWindow` misses among its last `W`; a call
for another leaves `c` alone. -/
theorem handleValidatorSignature (ht : Tracks W s c info h) (hW : 0 < W)
    (hwindow : s.SignedBlocksWindow = W) {ctx : Context P} {addr : P} {power : ℤ} {signed : Bool}
    (hcall : s.handleValidatorSignature ctx addr power signed = .ok s') :
    ∃ info' h', Tracks W s' c info' h' ∧
      (h' = (if addr = c then h ++ [!signed] else h) ∨
        (addr = c ∧ h' = [] ∧ s.SignedBlocksWindow - s.MinSignedPerWindow <
          ((h ++ [!signed]).drop ((h ++ [!signed]).length - W)).count true)) := by
  obtain ⟨info₀, hinfo₀, hcases⟩ := State.handleValidatorSignature_eq hcall
  obtain ⟨hbit, hinfos, hparams, -⟩ := s.updateMissedBlocks_spec addr
    (info₀.IndexOffset % s.SignedBlocksWindow) (!signed) { info₀ with IndexOffset := info₀.IndexOffset + 1 }
  by_cases hac : addr = c
  · subst hac
    obtain rfl : info₀ = info := Option.some.inj (hinfo₀.symm.trans ht.get_info)
    have hnext := ht.updateMissedBlocks hW hwindow (!signed)
    rcases hcases with rfl | ⟨t, info', hguard, hslash, rfl⟩
    · exact ⟨_, _, hnext, .inl (by simp)⟩
    · obtain ⟨⟨staking, rfl⟩, hcounter, hoffset⟩ := State.slashDowntime_eq hslash
      refine ⟨info', [], reset hcounter hoffset, .inr ⟨rfl, rfl, ?_⟩⟩
      -- the guard read the counter of the window with this call's result
      rw [← State.maxMissed_eq_of_params_eq hparams, ← countP_ring hW, ← hnext.counter]
      exact hguard
  · -- every write of the call is at `addr`
    have hframe : ∀ t : State A P, t.signingInfos = s.signingInfos →
        (∀ i : ℤ, t.getValidatorMissedBlockBitArray c i = s.getValidatorMissedBlockBitArray c i) →
        ∀ info', Tracks W (t.SetValidatorSigningInfo addr info') c info h := fun t ht' hb info' =>
      ht.of_frame
        (by rw [State.getValidatorSigningInfo_SetValidatorSigningInfo, if_neg (Ne.symm hac),
          State.getValidatorSigningInfo, ht', State.getValidatorSigningInfo])
        (fun i => by rw [State.getValidatorMissedBlockBitArray_SetValidatorSigningInfo, hb i])
    have hbit' : ∀ i : ℤ, (s.updateMissedBlocks addr (info₀.IndexOffset % s.SignedBlocksWindow)
        (!signed) { info₀ with IndexOffset := info₀.IndexOffset + 1 }).1.getValidatorMissedBlockBitArray
        c i = s.getValidatorMissedBlockBitArray c i := fun i => by
      rw [hbit, if_neg (fun hc => hac hc.1.symm)]
    refine ⟨info, h, ?_, .inl (by simp [hac])⟩
    rcases hcases with rfl | ⟨t, info', -, hslash, rfl⟩
    · exact hframe _ hinfos hbit' _
    · obtain ⟨⟨staking, rfl⟩, -⟩ := State.slashDowntime_eq hslash
      refine hframe _ ?_ (fun i => ?_) _
      · exact hinfos
      · rw [State.getValidatorMissedBlockBitArray_clear, if_neg (Ne.symm hac), ← hbit' i]
        rfl

end Tracks

/-! ### Runs of votes -/

/-- A validator's vote in the last commit of a block. -/
structure Vote (P : Type) where
  ctx : Context P
  address : P
  power : ℤ
  signed : Bool

namespace State

/-- A run of signature calls, each in its own block. -/
def handleVotes (s : State A P) (votes : List (Vote P)) : Except Panic (State A P) :=
  votes.foldlM (fun s v => s.handleValidatorSignature v.ctx v.address v.power v.signed) s

end State

/-- Whether the validator missed each block of its calls, in order. -/
def missesOf (c : P) (votes : List (Vote P)) : List Bool :=
  (votes.filter fun v => v.address = c).map fun v => !v.signed

@[simp] theorem missesOf_snoc (c : P) (votes : List (Vote P)) (v : Vote P) :
    missesOf c (votes ++ [v]) = if v.address = c then missesOf c votes ++ [!v.signed]
      else missesOf c votes := by
  by_cases hv : v.address = c <;> simp [missesOf, List.filter_append, hv]

/-- The misses among the last `W` results of a suffix are among the last `W` of
the whole. -/
theorem count_lastWindow_le {l₁ l₂ : List Bool} (h : l₁ <:+ l₂) (W : ℕ) :
    (l₁.drop (l₁.length - W)).count true ≤ (l₂.drop (l₂.length - W)).count true := by
  refine List.IsSuffix.count_le true (List.suffix_of_suffix_length_le
    ((List.drop_suffix _ l₁).trans h) (List.drop_suffix _ l₂) ?_)
  simp only [List.length_drop]
  have := h.length_le
  omega

/-- The calls of a run, split at a reset: the calls before it ended with more
than `maxMissed` misses among their last `W`. -/
def ResetBefore (W : ℕ) (maxMissed : ℤ) (calls window : List Bool) : Prop :=
  window = calls ∨ ∃ pre, calls = pre ++ window ∧ pre ≠ [] ∧
    maxMissed < (pre.drop (pre.length - W)).count true

/-- The calls since the last reset end the validator's calls. -/
theorem ResetBefore.suffix {W : ℕ} {maxMissed : ℤ} {calls window : List Bool}
    (h : ResetBefore W maxMissed calls window) : window <:+ calls := by
  rcases h with rfl | ⟨pre, hpre, -⟩
  · exact List.suffix_refl _
  · exact ⟨pre, hpre.symm⟩

/-- **A run keeps the window**: the window is the calls since the last reset,
each call extending it or, past the limit of misses, resetting it. -/
theorem tracks_handleVotes {W : ℕ} (hW : 0 < W) {s₀ : State A P} {c : P}
    (hwindow : s₀.SignedBlocksWindow = W) (hfresh : ∃ info₀, Tracks W s₀ c info₀ []) :
    ∀ (votes : List (Vote P)) {s : State A P}, s₀.handleVotes votes = .ok s →
      s.params = s₀.params ∧ ∃ info h, Tracks W s c info h ∧
        ResetBefore W (s₀.SignedBlocksWindow - s₀.MinSignedPerWindow) (missesOf c votes) h := by
  intro votes
  induction votes using List.reverseRecOn with
  | nil =>
    intro s hrun
    obtain rfl : s₀ = s := Except.ok.inj hrun
    obtain ⟨info₀, ht⟩ := hfresh
    exact ⟨rfl, info₀, [], ht, .inl rfl⟩
  | append_singleton votes v ih =>
    intro s hrun
    obtain ⟨s₁, hrun₁, hcall⟩ := Except.foldlM_append_singleton_eq_ok.1 hrun
    obtain ⟨hparams, info, h, ht, hreset⟩ := ih hrun₁
    have hwindow₁ : s₁.SignedBlocksWindow = W := by
      rw [State.SignedBlocksWindow, hparams]
      exact hwindow
    obtain ⟨info', h', ht', hcases⟩ := ht.handleValidatorSignature hW hwindow₁ hcall
    refine ⟨(State.params_handleValidatorSignature hcall).trans hparams, info', h', ht', ?_⟩
    have hsuffix : h <:+ missesOf c votes := hreset.suffix
    rw [missesOf_snoc]
    rcases hcases with rfl | ⟨hac, rfl, hguard⟩
    · -- the call extends the window, or is another validator's
      split_ifs
      · rcases hreset with rfl | ⟨pre, hpre, hne, hmiss⟩
        · exact .inl rfl
        · exact .inr ⟨pre, by rw [hpre, List.append_assoc], hne, hmiss⟩
      · exact hreset
    · -- the call resets: the calls so far end with too many misses
      rw [if_pos hac]
      refine .inr ⟨missesOf c votes ++ [!v.signed], (List.append_nil _).symm, by simp, ?_⟩
      rw [← State.maxMissed_eq_of_params_eq hparams]
      have hsnoc : h ++ [!v.signed] <:+ missesOf c votes ++ [!v.signed] := by
        obtain ⟨pre, hpre⟩ := hsuffix
        exact ⟨pre, by rw [← hpre, List.append_assoc]⟩
      exact lt_of_lt_of_le hguard (by exact_mod_cast count_lastWindow_le hsnoc W)

/-- **The missed-blocks counter matches the bit array.**  From a fresh signing
info with no bits, after any run of signature calls with a positive window `W`:
the counter is the number of indices in `[0, W)` whose bit is set, lies between
`0` and `min IndexOffset W`, and is the number of misses among the validator's
last `min IndexOffset W` calls; and `IndexOffset` counts its calls since the
last reset: all of them, or those after a call that ended with more than
`SignedBlocksWindow - MinSignedPerWindow` misses among its last `W`. -/
theorem missed_blocks_counter {s₀ s : State A P} {c : P} {info₀ : ValidatorSigningInfo}
    {votes : List (Vote P)} (hW : 0 < s₀.SignedBlocksWindow)
    (hinfo₀ : s₀.getValidatorSigningInfo c = some info₀) (hoffset₀ : info₀.IndexOffset = 0)
    (hcounter₀ : info₀.MissedBlocksCounter = 0)
    (hbits₀ : ∀ i : ℤ, s₀.getValidatorMissedBlockBitArray c i = false)
    (hrun : s₀.handleVotes votes = .ok s) :
    ∃ info, s.getValidatorSigningInfo c = some info ∧
      info.MissedBlocksCounter = (List.range s.SignedBlocksWindow.toNat).countP
        (fun i : ℕ => s.getValidatorMissedBlockBitArray c (i : ℤ)) ∧
      0 ≤ info.MissedBlocksCounter ∧
      info.MissedBlocksCounter ≤ min info.IndexOffset s.SignedBlocksWindow ∧
      info.MissedBlocksCounter = ((missesOf c votes).drop ((missesOf c votes).length -
        (min info.IndexOffset s.SignedBlocksWindow).toNat)).count true ∧
      (info.IndexOffset = (missesOf c votes).length ∨
        ∃ pre rest, missesOf c votes = pre ++ rest ∧ info.IndexOffset = rest.length ∧ pre ≠ [] ∧
          s.SignedBlocksWindow - s.MinSignedPerWindow <
            (pre.drop (pre.length - s.SignedBlocksWindow.toNat)).count true) := by
  set W := s₀.SignedBlocksWindow.toNat with hWdef
  have hWpos : 0 < W := by omega
  have hwindow : s₀.SignedBlocksWindow = W := by omega
  obtain ⟨hparams, info, h, ht, hreset⟩ :=
    tracks_handleVotes hWpos hwindow ⟨info₀, tracks_fresh W hinfo₀ hoffset₀ hcounter₀ hbits₀⟩
      votes hrun
  have hwindow' : s.SignedBlocksWindow = W := by rw [State.SignedBlocksWindow, hparams]; exact hwindow
  have hmax := State.maxMissed_eq_of_params_eq hparams
  -- the window is the calls since the last reset
  obtain ⟨pre, hpre⟩ := hreset.suffix
  -- its set slots are the misses among its last `W` calls, the last of the run
  have hlast : h.drop (h.length - W) =
      (missesOf c votes).drop ((missesOf c votes).length - (min (h.length : ℤ) W).toNat) := by
    have hk : (missesOf c votes).length - (min (h.length : ℤ) W).toNat =
        pre.length + (h.length - W) := by
      rw [← hpre, List.length_append]
      omega
    rw [hk, ← hpre, List.drop_length_add_append]
  have hcount := countP_ring hWpos h
  have hle : (h.drop (h.length - W)).count true ≤ min h.length W := by
    have := List.count_le_length (a := true) (l := h.drop (h.length - W))
    simp only [List.length_drop] at this
    omega
  -- the offset counts the calls since the last reset
  have hoffset : info.IndexOffset = (missesOf c votes).length ∨
      ∃ pre rest, missesOf c votes = pre ++ rest ∧ info.IndexOffset = rest.length ∧ pre ≠ [] ∧
        s.SignedBlocksWindow - s.MinSignedPerWindow <
          (pre.drop (pre.length - s.SignedBlocksWindow.toNat)).count true := by
    rw [ht.indexOffset, hmax, hwindow', Int.toNat_natCast]
    rcases hreset with rfl | ⟨pre', hpre', hne, hmiss⟩
    · exact .inl rfl
    · exact .inr ⟨pre', h, hpre', rfl, hne, hmiss⟩
  rw [hwindow'] at hoffset ⊢
  refine ⟨info, ht.get_info, ?_, ?_, ?_, ?_, hoffset⟩
  · rw [Int.toNat_natCast]
    exact ht.counter_eq_countP
  · rw [ht.counter]
    omega
  · rw [ht.counter, hcount, ht.indexOffset]
    omega
  · rw [ht.counter, hcount, ht.indexOffset, hlast]

/-- A chain with no validator, where consensus address 7 has fresh signing
info, a window of three blocks and half of them to sign. -/
def sampleLiveness : State ℕ ℕ where
  staking := Staking.genesis
  params := ⟨0, 3, ⟨5 * 10 ^ 17⟩, 0, ZeroDec, ZeroDec⟩
  signingInfos := SortedKV.empty.set 7 ⟨0, 0, 0, false, 0⟩
  missedBlockBitArray := .empty
  addrPubkeyRelation := SortedKV.empty.set 7 7

/-- Address 7 misses block 1, signs block 2 and misses blocks 3 and 4. -/
def sampleVotes : List (Vote ℕ) :=
  [⟨⟨1, 0, none⟩, 7, 0, false⟩, ⟨⟨2, 0, none⟩, 7, 0, true⟩, ⟨⟨3, 0, none⟩, 7, 0, false⟩,
    ⟨⟨4, 0, none⟩, 7, 0, false⟩]

theorem missed_blocks_counter_sample :
    ∃ s, sampleLiveness.handleVotes sampleVotes = .ok s ∧
      ∃ info, s.getValidatorSigningInfo 7 = some info ∧
        info.MissedBlocksCounter = (List.range s.SignedBlocksWindow.toNat).countP
          (fun i : ℕ => s.getValidatorMissedBlockBitArray 7 (i : ℤ)) ∧
        0 ≤ info.MissedBlocksCounter ∧
        info.MissedBlocksCounter ≤ min info.IndexOffset s.SignedBlocksWindow ∧
        info.MissedBlocksCounter = ((missesOf 7 sampleVotes).drop ((missesOf 7 sampleVotes).length -
          (min info.IndexOffset s.SignedBlocksWindow).toNat)).count true ∧
        (info.IndexOffset = (missesOf 7 sampleVotes).length ∨
          ∃ pre rest, missesOf 7 sampleVotes = pre ++ rest ∧ info.IndexOffset = rest.length ∧
            pre ≠ [] ∧ s.SignedBlocksWindow - s.MinSignedPerWindow <
              (pre.drop (pre.length - s.SignedBlocksWindow.toNat)).count true) :=
  ⟨_, rfl, missed_blocks_counter (by decide : 0 < sampleLiveness.SignedBlocksWindow) rfl rfl rfl
    (fun _ => rfl) rfl⟩

end Slashing
end ColorSdk
