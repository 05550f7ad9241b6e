import ColorSdk.Auth.Ante
import ColorSdk.Lib.BigEndian
import ColorSdk.Lib.ExceptSpec
import Mathlib

/-!
# What a transaction the ante handler lets through did

The handler lets a transaction through when its body returns: every check
passed and every signer's round ran.  This file takes the body apart, one lemma
for each of its parts, and states what a pass did to the store
(`ante_pass_effects`).  The signers are the messages' signers, each once, one
per signature.  Each signer's account was read and checked against the key it
holds, or the first time against the key the signature carries, which must
hash to its address; unless simulating, the signature was checked against the
bytes of the account as read; and the account was written back with the key
and its sequence one up.  The first signer's account paid the fee, which went to
the fee pool.  No other account changed.

## Main definitions

* `signed` — an account after its round.
* `Round` — what one signer's round checked and wrote.
* `FeeTaken` — the fee payer's account after the fee.
* `Passes` — what a pass did to the store.

## Main results

* `GetSigners_spec` — the signers are the messages' signers, each once.
* `ValidateBasic_eq_none` — what the stateless checks ensure.
* `processSig_eq_ok`, `sigLoop_eq_ok`, `payFee_eq_ok`, `signAll_eq_ok`,
  `NewAnteHandler_pass` — each part of the handler that returns, and what it
  did.
* `ante_pass_effects` — **what a transaction the handler lets through did to the
  store.**
-/

namespace ColorSdk

namespace Auth

open Account
open BaseApp (GasMeter)

variable {A M : Type} [Account A] [SdkMsg M]

/-! ### The signers and the stateless checks -/

/-- A message's addresses added to the signers: still each once, and the
addresses of both. -/
theorem foldl_addSigner : ∀ (l signers : List AccAddress), signers.Nodup →
    (l.foldl addSigner signers).Nodup ∧ ∀ a, a ∈ l.foldl addSigner signers ↔ a ∈ signers ∨ a ∈ l
  | [], signers, h => ⟨h, by simp⟩
  | addr :: l, signers, h => by
    -- one round keeps the list free of repeats and adds the address
    have hstep : (addSigner signers addr).Nodup ∧
        ∀ a, a ∈ addSigner signers addr ↔ a ∈ signers ∨ a = addr := by
      unfold addSigner
      by_cases ha : addr ∈ signers
      · simp only [ha, if_true]
        exact ⟨h, fun a => ⟨Or.inl, fun h' => h'.elim id (· ▸ ha)⟩⟩
      · simp only [ha, if_false]
        exact ⟨h.append (List.nodup_singleton addr) (by simpa using ha), by simp⟩
    obtain ⟨hnd, hmem⟩ := foldl_addSigner l _ hstep.1
    refine ⟨hnd, fun a => ?_⟩
    rw [List.foldl_cons, hmem, hstep.2, List.mem_cons]
    tauto

/-- **The signers are the messages' signers, each once.** -/
theorem GetSigners_spec (tx : StdTx M) :
    tx.GetSigners.Nodup ∧ ∀ a, a ∈ tx.GetSigners ↔ ∃ msg ∈ tx.Msgs, a ∈ SdkMsg.GetSigners msg := by
  -- the loop over the messages, from the signers gathered so far
  have hloop : ∀ (msgs : List M) (signers : List AccAddress), signers.Nodup →
      (msgs.foldl (fun signers msg => (SdkMsg.GetSigners msg).foldl addSigner signers) signers).Nodup ∧
      ∀ a, a ∈ msgs.foldl (fun signers msg => (SdkMsg.GetSigners msg).foldl addSigner signers) signers ↔
        a ∈ signers ∨ ∃ msg ∈ msgs, a ∈ SdkMsg.GetSigners msg := by
    intro msgs
    induction msgs with
    | nil => intro signers h; simp [h]
    | cons msg msgs ih =>
      intro signers h
      obtain ⟨hnd, hmem⟩ := foldl_addSigner (SdkMsg.GetSigners msg) signers h
      obtain ⟨hnd', hmem'⟩ := ih _ hnd
      refine ⟨hnd', fun a => ?_⟩
      rw [List.foldl_cons, hmem', hmem]
      simp only [List.mem_cons, exists_eq_or_imp]
      tauto
  obtain ⟨hnd, hmem⟩ := hloop tx.Msgs [] List.nodup_nil
  unfold StdTx.GetSigners
  exact ⟨hnd, fun a => by simpa using hmem a⟩

/-- What the stateless checks ensure: a gas limit that fits, no negative fee,
and one signature per signer, of which there is at least one. -/
theorem ValidateBasic_eq_none {tx : StdTx M} (h : tx.ValidateBasic = none) :
    tx.Fee.Gas ≤ maxGasWanted ∧ tx.Fee.Amount.IsAnyNegative = false ∧ tx.Signatures ≠ [] ∧
      tx.Signatures.length = tx.GetSigners.length ∧ sigCountLoop 0 tx.Signatures = none := by
  simp only [StdTx.ValidateBasic] at h
  split_ifs at h with hgas hneg hnil hlen
  exact ⟨Nat.le_of_not_gt hgas, by simpa using hneg, fun h' => hnil (by simp [h']), not_not.1 hlen, h⟩

/-! ### One signer's round -/

theorem orStop_eq_ok {α : Type} {x : Except AnteError α} {a : α} {g g' : GasMeter} :
    orStop x g = .ok a g' ↔ x = .ok a ∧ g = g' := by
  cases x with
  | ok a' => simp [orStop]
  | error e => simp [orStop]

/-- An account after its round, as `processSig` returns it: the key recorded
and the sequence one up. -/
def signed (acc : A) (pk : PubKey) : A :=
  SetSequence (SetPubKey acc (some pk)) (GetSequence (SetPubKey acc (some pk)) + 1)

/-- A key once recorded is the key every later round checks against. -/
theorem ProcessPubKey_of_GetPubKey (be : Backend) {acc : A} {pk : PubKey} (sig : StdSignature)
    (simulate : Bool) (h : GetPubKey acc = some pk) : ProcessPubKey be acc sig simulate = .ok pk := by
  cases simulate <;> simp [ProcessPubKey, h]

section Lawful

variable [LawfulAccount A]

@[simp] theorem base_signed (acc : A) (pk : PubKey) :
    base (signed acc pk) = { base acc with PubKey := some pk, Sequence := GetSequence acc + 1 } := by
  simp [signed, GetSequence]

@[simp] theorem GetAddress_signed (acc : A) (pk : PubKey) : GetAddress (signed acc pk) = GetAddress acc := by
  simp [GetAddress]

@[simp] theorem GetPubKey_signed (acc : A) (pk : PubKey) : GetPubKey (signed acc pk) = some pk := by
  simp [GetPubKey]

@[simp] theorem GetSequence_signed (acc : A) (pk : PubKey) :
    GetSequence (signed acc pk) = GetSequence acc + 1 := by
  simp [GetSequence]

end Lawful

variable (be : Backend)

theorem verifySig_eq_ok {params : Params} {acc acc' : A} {pk : PubKey} {sig : StdSignature} {signBytes : Bytes}
    {simulate : Bool} {g g' : GasMeter} (h : verifySig be params acc pk sig signBytes simulate g = .ok acc' g') :
    (simulate = false → be.VerifyBytes pk signBytes sig.Signature = true) ∧
      acc' = SetSequence acc (GetSequence acc + 1) := by
  unfold verifySig at h
  obtain ⟨r, g₁, -, h⟩ := EStateM.bind_eq_ok.1 h
  cases r with
  | some e => exact absurd h EStateM.throw_ne_ok
  | none =>
    dsimp only at h
    split at h
    · exact absurd h EStateM.throw_ne_ok
    · rename_i hv
      refine ⟨fun hs => ?_, (EStateM.pure_eq_ok.1 h).1.symm⟩
      subst hs
      simpa using hv

/-- A round that returns checked the key and, unless simulating, the signature,
and wrote the key and the sequence one up. -/
theorem processSig_eq_ok {params : Params} {acc acc' : A} {sig : StdSignature} {signBytes : Bytes}
    {simulate : Bool} {g g' : GasMeter} (h : processSig be params acc sig signBytes simulate g = .ok acc' g') :
    ∃ pk, ProcessPubKey be acc sig simulate = .ok pk ∧
      (simulate = false → be.VerifyBytes pk signBytes sig.Signature = true) ∧ acc' = signed acc pk := by
  unfold processSig at h
  obtain ⟨pk, g₁, hpk, h⟩ := EStateM.bind_eq_ok.1 h
  obtain ⟨hpk, -⟩ := orStop_eq_ok.1 hpk
  -- in simulation the size of the signature is charged first
  have hverify : ∃ g₂, verifySig be params (SetPubKey acc (some pk)) pk sig signBytes simulate g₂ = .ok acc' g' := by
    cases simulate with
    | true =>
      obtain ⟨_, g₂, -, h⟩ := EStateM.bind_eq_ok.1 h
      exact ⟨g₂, h⟩
    | false => exact ⟨g₁, h⟩
  obtain ⟨g₂, hv⟩ := hverify
  exact ⟨pk, hpk, (verifySig_eq_ok be hv).1, (verifySig_eq_ok be hv).2⟩

/-! ### The rounds of the signers after the first -/

omit [Account A] in
theorem GetSignerAcc_eq_ok {s : AuthState A} {addr : AccAddress} {acc : A} :
    GetSignerAcc s addr = .ok acc ↔ s.accounts addr = some acc := by
  unfold GetSignerAcc AuthState.GetAccount
  cases s.accounts addr <;> simp

/-- What the round of a signer whose account was `acc` checked and wrote: the
key the account holds, or the signature's; unless simulating, the signature
against the bytes of the account as read; and the account with the key and the
sequence one up. -/
def Round (env : Env) (stdTx : StdTx M) (simulate : Bool) (acc : A) (sig : StdSignature) (acc' : A) :
    Prop :=
  ∃ pk, ProcessPubKey be acc sig simulate = .ok pk ∧
    (simulate = false →
      be.VerifyBytes pk (GetSignBytes be env.ChainID stdTx acc (env.BlockHeight == 0)) sig.Signature = true) ∧
    acc' = signed acc pk

/-- What rounds over pairs of a signature and a signer did to the store: each
signer's account ran its round, and nothing else changed. -/
structure Signs (env : Env) (stdTx : StdTx M) (simulate : Bool) (pairs : List (StdSignature × AccAddress))
    (s s' : AuthState A) : Prop where
  wf : s'.WF
  collectedFees : s'.collectedFees = s.collectedFees
  params : s'.params = s.params
  frame : ∀ a, a ∉ pairs.map Prod.snd → s'.accounts a = s.accounts a
  round : ∀ p ∈ pairs, ∃ acc acc', s.accounts p.2 = some acc ∧ s'.accounts p.2 = some acc' ∧
    Round be env stdTx simulate acc p.1 acc'

theorem mem_of_mem_map_snd_zip {α β : Type} {l₁ : List α} {l₂ : List β} {b : β}
    (h : b ∈ (l₁.zip l₂).map Prod.snd) : b ∈ l₂ := by
  obtain ⟨p, hp, rfl⟩ := List.mem_map.1 h
  exact (List.of_mem_zip hp).2

/-- The rounds of the later signers, run after a round that wrote `acc` under
an address none of them has: they leave that account as the round wrote it, and
read each later signer's account as it was before the round. -/
theorem Signs.after_round {env : Env} {stdTx : StdTx M} {simulate : Bool} {sigs : List StdSignature}
    {addr : AccAddress} {addrs : List AccAddress} {s s' : AuthState A} {acc : A}
    (haddr : GetAddress acc = addr) (hnot : addr ∉ addrs)
    (hrest : Signs be env stdTx simulate (sigs.zip addrs) (s.SetAccount acc) s') :
    s'.accounts addr = some acc ∧
      (∀ a, a ≠ addr → a ∉ (sigs.zip addrs).map Prod.snd → s'.accounts a = s.accounts a) ∧
      ∀ p ∈ sigs.zip addrs, p.2 ≠ addr ∧ ∃ acc' acc'', s.accounts p.2 = some acc' ∧
        s'.accounts p.2 = some acc'' ∧ Round be env stdTx simulate acc' p.1 acc'' := by
  refine ⟨?_, fun a hne ha => ?_, fun p hp => ?_⟩
  · rw [hrest.frame _ fun ha => hnot (mem_of_mem_map_snd_zip ha), AuthState.accounts_SetAccount,
      if_pos haddr.symm]
  · rw [hrest.frame a ha, AuthState.accounts_SetAccount, if_neg (haddr ▸ hne)]
  · -- a later signer is not the one this round wrote
    have hne : p.2 ≠ addr := fun h => hnot (h ▸ (List.of_mem_zip hp).2)
    obtain ⟨acc', acc'', hacc', hacc'', hround⟩ := hrest.round p hp
    rw [AuthState.accounts_SetAccount, if_neg (haddr ▸ hne)] at hacc'
    exact ⟨hne, acc', acc'', hacc', hacc'', hround⟩

/-- The loop over the other signers: each signer, which must have an account,
ran its round, and the loop needs no more signatures than signers.  The
signers are distinct, so that a later round never overwrites an earlier one. -/
theorem sigLoop_eq_ok [LawfulAccount A] (env : Env) (stdTx : StdTx M) (simulate : Bool) (params : Params) :
    ∀ {sigs : List StdSignature} {addrs : List AccAddress} {s s' : AuthState A} {g g' : GasMeter},
      s.WF → addrs.Nodup → sigLoop be env stdTx simulate params sigs addrs s g = .ok s' g' →
      sigs.length ≤ addrs.length ∧ Signs be env stdTx simulate (sigs.zip addrs) s s'
  | [], addrs, s, s', g, g', hwf, _, h => by
    obtain ⟨rfl, -⟩ := EStateM.pure_eq_ok.1 h
    exact ⟨Nat.zero_le _, ⟨hwf, rfl, rfl, fun _ _ => rfl, by simp⟩⟩
  | _ :: _, [], _, _, _, _, _, _, h => absurd h EStateM.throw_ne_ok
  | sig :: sigs, addr :: addrs, s, s', g, g', hwf, hnd, h => by
    obtain ⟨hnot, hnd⟩ := List.nodup_cons.1 hnd
    obtain ⟨acc, g₁, hacc, h⟩ := EStateM.bind_eq_ok.1 h
    obtain ⟨hacc, -⟩ := orStop_eq_ok.1 hacc
    rw [GetSignerAcc_eq_ok] at hacc
    obtain ⟨acc₁, g₂, hsig, h⟩ := EStateM.bind_eq_ok.1 h
    obtain ⟨pk, hpk, hver, rfl⟩ := processSig_eq_ok be hsig
    -- the round wrote the signer's account under its own address
    have haddr : GetAddress (signed acc pk) = addr := (GetAddress_signed acc pk).trans (hwf addr acc hacc)
    obtain ⟨hlen, hrest⟩ := sigLoop_eq_ok env stdTx simulate params (hwf.SetAccount _) hnd h
    obtain ⟨hself, hframe, hlater⟩ := Signs.after_round be haddr hnot hrest
    refine ⟨Nat.succ_le_succ hlen, ⟨hrest.wf, hrest.collectedFees, hrest.params, fun a ha => ?_, ?_⟩⟩
    · rw [List.zip_cons_cons, List.map_cons, List.mem_cons, not_or] at ha
      exact hframe a ha.1 ha.2
    · intro p hp
      rw [List.zip_cons_cons, List.mem_cons] at hp
      rcases hp with rfl | hp
      · exact ⟨acc, signed acc pk, hacc, hself, pk, hpk, hver, rfl⟩
      · exact (hlater p hp).2

/-! ### The fee -/

theorem DeductFees_eq_ok {t : ℤ} {acc acc' : A} {fee : StdFee} :
    DeductFees t acc fee = .ok acc' ↔
      fee.Amount.IsValid = true ∧ ((GetCoins acc).SafeSub fee.Amount).2 = false ∧
      ((SpendableCoins acc t).SafeSub fee.Amount).2 = false ∧
      acc' = SetCoins acc ((GetCoins acc).SafeSub fee.Amount).1 := by
  unfold DeductFees
  by_cases hv : fee.Amount.IsValid = true
  · by_cases hc : ((GetCoins acc).SafeSub fee.Amount).2 = true
    · simp [hv, hc]
    · by_cases hs : ((SpendableCoins acc t).SafeSub fee.Amount).2 = true
      · simp [hv, hc, hs]
      · simp [hv, hc, hs, eq_comm]
  · simp [hv]

/-- The fee payer's account after the fee: the fee taken from it when the fee is
not zero. -/
def FeeTaken (env : Env) (stdTx : StdTx M) (acc acc₁ : A) : Prop :=
  if stdTx.Fee.Amount.IsZero then acc₁ = acc else DeductFees env.BlockTime acc stdTx.Fee = .ok acc₁

omit [SdkMsg M] in
/-- Taking the fee changes the account's coins and nothing else. -/
theorem FeeTaken.base_eq [LawfulAccount A] {env : Env} {stdTx : StdTx M} {acc acc₁ : A}
    (h : FeeTaken env stdTx acc acc₁) : ∃ c, base acc₁ = { base acc with Coins := c } := by
  unfold FeeTaken at h
  split_ifs at h
  · exact ⟨GetCoins acc, by rw [h]; rfl⟩
  · obtain ⟨-, -, -, rfl⟩ := DeductFees_eq_ok.1 h
    exact ⟨_, LawfulAccount.base_SetCoins _ _⟩

omit [SdkMsg M] in
theorem payFee_eq_ok (env : Env) (stdTx : StdTx M) {s : AuthState A} {acc : A} {r : A × AuthState A}
    {g g' : GasMeter} (h : payFee env stdTx s acc g = .ok r g') :
    FeeTaken env stdTx acc r.1 ∧
      r.2 = if stdTx.Fee.Amount.IsZero then s else s.AddCollectedFees stdTx.Fee.Amount := by
  unfold payFee at h
  cases hz : stdTx.Fee.Amount.IsZero with
  | true =>
    simp only [hz] at h
    obtain ⟨rfl, -⟩ := EStateM.pure_eq_ok.1 h
    simp [FeeTaken, hz]
  | false =>
    simp only [hz] at h
    obtain ⟨paid, g₁, hpaid, h⟩ := EStateM.bind_eq_ok.1 h
    obtain ⟨hpaid, -⟩ := orStop_eq_ok.1 hpaid
    obtain ⟨rfl, -⟩ := EStateM.pure_eq_ok.1 h
    simp [FeeTaken, hz, hpaid]

/-! ### A pass of the handler -/

/-- What a pass did to the store: the fee went to the fee pool; each signer's
account ran its round, the fee payer's (the first signer's) after paying the
fee; and no other account and no parameter changed. -/
structure Passes (env : Env) (stdTx : StdTx M) (simulate : Bool) (s s' : AuthState A) : Prop where
  wf : s'.WF
  params : s'.params = s.params
  collectedFees : s'.collectedFees =
    if stdTx.Fee.Amount.IsZero then s.collectedFees else s.collectedFees.Add stdTx.Fee.Amount
  frame : ∀ a, a ∉ stdTx.GetSigners → s'.accounts a = s.accounts a
  round : ∀ p ∈ stdTx.Signatures.zip stdTx.GetSigners, ∃ acc acc₁ acc',
    s.accounts p.2 = some acc ∧ s'.accounts p.2 = some acc' ∧
    (if stdTx.GetSigners.head? = some p.2 then FeeTaken env stdTx acc acc₁ else acc₁ = acc) ∧
    Round be env stdTx simulate acc₁ p.1 acc'

omit [SdkMsg M] in
/-- The account a signer's round ran on differs from the account read in its
coins at most. -/
theorem base_eq_of_payer [LawfulAccount A] {env : Env} {stdTx : StdTx M} {c : Prop} [Decidable c]
    {acc acc₁ : A} (h : if c then FeeTaken env stdTx acc acc₁ else acc₁ = acc) :
    ∃ coins, base acc₁ = { base acc with Coins := coins } := by
  split_ifs at h
  · exact h.base_eq
  · exact ⟨GetCoins acc, by rw [h]; rfl⟩

/-- The bytes a signer signs tell its sequence when the sign document's
encoding does. -/
theorem GetSequence_eq_of_GetSignBytes_eq
    (hseq : ∀ d d' : StdSignDoc, be.encodeSignDoc d = be.encodeSignDoc d' → d.Sequence = d'.Sequence)
    {chainID chainID' : String} {stdTx stdTx' : StdTx M} {acc acc' : A} {genesis genesis' : Bool}
    (h : GetSignBytes be chainID stdTx acc genesis = GetSignBytes be chainID' stdTx' acc' genesis') :
    GetSequence acc = GetSequence acc' :=
  hseq _ _ h

theorem anteChecks_eq_ok {stdTx : StdTx M} {params : Params} {n : ℕ} {u : Unit} {g g' : GasMeter}
    (h : anteChecks stdTx params n g = .ok u g') :
    stdTx.ValidateBasic = none ∧ ValidateMemo stdTx params = none := by
  rcases hvb : stdTx.ValidateBasic with _ | e
  case some => simp [anteChecks, hvb] at h
  simp only [anteChecks, hvb] at h
  obtain ⟨_, g₁, -, h⟩ := EStateM.bind_eq_ok.1 h
  rcases hmemo : ValidateMemo stdTx params with _ | e
  case some => simp [hmemo] at h
  exact ⟨rfl, rfl⟩

/-- The signers' rounds, the fee payer's first, after its fee. -/
theorem signAll_eq_ok [LawfulAccount A] (env : Env) (stdTx : StdTx M) (simulate : Bool) (params : Params)
    {s s' : AuthState A} {g g' : GasMeter} (hwf : s.WF) (hvb : stdTx.ValidateBasic = none)
    (h : signAll be env stdTx simulate params s g = .ok s' g') : Passes be env stdTx simulate s s' := by
  obtain ⟨hnd, -⟩ := GetSigners_spec stdTx
  obtain ⟨-, -, hsigs, -, -⟩ := ValidateBasic_eq_none hvb
  rcases hsigners : stdTx.GetSigners with _ | ⟨addr, addrs⟩
  case nil => simp [signAll, hsigners] at h
  simp only [signAll, hsigners] at h
  rw [hsigners] at hnd
  obtain ⟨hnot, hnd⟩ := List.nodup_cons.1 hnd
  obtain ⟨acc, g₁, hacc, h⟩ := EStateM.bind_eq_ok.1 h
  obtain ⟨hacc, -⟩ := orStop_eq_ok.1 hacc
  rw [GetSignerAcc_eq_ok] at hacc
  obtain ⟨paid, g₂, hpaid, h⟩ := EStateM.bind_eq_ok.1 h
  obtain ⟨hfee, hpool⟩ := payFee_eq_ok env stdTx hpaid
  -- the fee touched the fee pool, not the accounts
  have hpaid_accounts : paid.2.accounts = s.accounts := by
    rw [hpool]
    split <;> rfl
  have hpaid_params : paid.2.params = s.params := by
    rw [hpool]
    split <;> rfl
  rcases hsig : stdTx.Signatures with _ | ⟨sig, sigs⟩
  case nil => exact absurd hsig hsigs
  simp only [hsig] at h
  obtain ⟨acc₁, g₃, hround, h⟩ := EStateM.bind_eq_ok.1 h
  obtain ⟨pk, hpk, hver, rfl⟩ := processSig_eq_ok be hround
  -- the payer's account is written back under its own address
  have haddr : GetAddress (signed paid.1 pk) = addr := by
    obtain ⟨c, hc⟩ := hfee.base_eq
    rw [GetAddress_signed, GetAddress, hc]
    exact hwf addr acc hacc
  have hwf₁ : (paid.2.SetAccount (signed paid.1 pk)).WF :=
    AuthState.WF.SetAccount (fun a acc' h' => hwf a acc' (hpaid_accounts ▸ h')) _
  obtain ⟨-, hrest⟩ := sigLoop_eq_ok be env stdTx simulate params hwf₁ hnd h
  obtain ⟨hself, hframe, hlater⟩ := Signs.after_round be haddr hnot hrest
  refine ⟨hrest.wf, by rw [hrest.params, AuthState.params_SetAccount, hpaid_params], ?_, ?_, ?_⟩
  · rw [hrest.collectedFees, AuthState.collectedFees_SetAccount, hpool]
    split <;> rfl
  · intro a ha
    rw [hsigners, List.mem_cons, not_or] at ha
    rw [hframe a ha.1 fun h' => ha.2 (mem_of_mem_map_snd_zip h'), hpaid_accounts]
  · intro p hp
    rw [hsig, hsigners, List.zip_cons_cons, List.mem_cons] at hp
    rcases hp with rfl | hp
    · exact ⟨acc, paid.1, signed paid.1 pk, hacc, hself, by simpa [hsigners] using hfee, pk, hpk, hver, rfl⟩
    · -- a later signer, which neither the fee nor the payer's round touched
      obtain ⟨hne, acc', acc'', hacc', hacc'', hround'⟩ := hlater p hp
      rw [hpaid_accounts] at hacc'
      refine ⟨acc', acc', acc'', hacc', hacc'', ?_, hround'⟩
      rw [if_neg (by simpa [hsigners] using hne.symm)]

theorem anteBody_eq_ok [LawfulAccount A] (env : Env) (stdTx : StdTx M) (simulate : Bool) (params : Params)
    {s s' : AuthState A} {n : ℕ} {g g' : GasMeter} (hwf : s.WF)
    (h : anteBody be env stdTx simulate params s n g = .ok s' g') :
    stdTx.ValidateBasic = none ∧ ValidateMemo stdTx params = none ∧ Passes be env stdTx simulate s s' := by
  obtain ⟨u, g₁, hchecks, h⟩ := EStateM.bind_eq_ok.1 h
  obtain ⟨hvb, hmemo⟩ := anteChecks_eq_ok hchecks
  exact ⟨hvb, hmemo, signAll_eq_ok be env stdTx simulate params hwf hvb h⟩

/-- A transaction the handler lets through is a `StdTx` whose fee passed the
mempool check, if it ran, and whose body returned; the new context's meter is
the one the body left, and the result is OK, for the fee's gas. -/
theorem NewAnteHandler_pass (env : Env) {s : AuthState A} {gasMeter : GasMeter} {tx : AnteTx M}
    {simulate : Bool} {ret : BaseApp.AnteReturn}
    (h : (NewAnteHandler be env s gasMeter tx simulate).value = .ok ret) (hpass : ret.abort = false) :
    ∃ stdTx g, tx.tx = some stdTx ∧
      ((env.IsCheckTx && !simulate) = true → EnsureSufficientMempoolFees env.MinGasPrices stdTx.Fee = .ok none) ∧
      anteBody be env stdTx simulate s.params s tx.TxBytesLen (SetGasMeter simulate env stdTx.Fee.Gas) =
        .ok (NewAnteHandler be env s gasMeter tx simulate).store g ∧
      ret = ⟨some g, ⟨BaseApp.CodeOK, stdTx.Fee.Gas, 0⟩, false⟩ := by
  rcases htx : tx.tx with _ | stdTx
  case none =>
    simp only [NewAnteHandler, htx, Except.ok.injEq] at h
    simp [← h] at hpass
  -- the mempool check, which runs in `CheckTx` only
  have hmempool : ∀ r, (if (env.IsCheckTx && !simulate) = true then
      EnsureSufficientMempoolFees env.MinGasPrices stdTx.Fee else .ok none) = r →
      (r = .ok none → (env.IsCheckTx && !simulate) = true →
        EnsureSufficientMempoolFees env.MinGasPrices stdTx.Fee = .ok none) := by
    intro r hr hnone hcheck
    rw [← hnone, ← hr, if_pos hcheck]
  simp only [NewAnteHandler, htx] at h ⊢
  rcases hm : (if (env.IsCheckTx && !simulate) = true then
      EnsureSufficientMempoolFees env.MinGasPrices stdTx.Fee else .ok none) with p | _ | e
  · rw [hm] at h
    cases h
  · rw [hm] at h
    dsimp only at h ⊢
    rcases hb : anteBody be env stdTx simulate s.params s tx.TxBytesLen (SetGasMeter simulate env stdTx.Fee.Gas)
      with ⟨s', g⟩ | ⟨stop, g⟩
    · rw [hb] at h
      exact ⟨stdTx, g, rfl, hmempool _ hm rfl, hb, (Except.ok.inj h).symm⟩
    · -- the body stopped: the handler aborts or raises the panic
      rw [hb] at h
      rcases stop with e | (_ | _ | _) <;> simp at h <;> simp [← h] at hpass
  · rw [hm] at h
    simp only [Except.ok.injEq] at h
    simp [← h] at hpass

/-- The handler aborts only with a result that is not OK. -/
theorem NewAnteHandler_abort (env : Env) {s : AuthState A} {gasMeter : GasMeter} {tx : AnteTx M}
    {simulate : Bool} {ret : BaseApp.AnteReturn}
    (h : (NewAnteHandler be env s gasMeter tx simulate).value = .ok ret) (habort : ret.abort = true) :
    ret.result.IsOK = false := by
  rcases htx : tx.tx with _ | stdTx
  case none =>
    simp only [NewAnteHandler, htx, Except.ok.injEq] at h
    rw [← h]
    exact BaseApp.errResult_isOK_of_ne (by decide)
  simp only [NewAnteHandler, htx] at h
  rcases hm : (if (env.IsCheckTx && !simulate) = true then
      EnsureSufficientMempoolFees env.MinGasPrices stdTx.Fee else .ok none) with p | _ | e
  · rw [hm] at h
    cases h
  · rw [hm] at h
    dsimp only at h
    rcases hb : anteBody be env stdTx simulate s.params s tx.TxBytesLen (SetGasMeter simulate env stdTx.Fee.Gas)
      with ⟨s', g⟩ | ⟨stop, g⟩
    · rw [hb] at h
      simp [← Except.ok.inj h] at habort
    · -- the body's error, or running out of gas
      rw [hb] at h
      rcases stop with e | (_ | _ | _) <;> simp only [Except.ok.injEq, reduceCtorEq] at h <;> rw [← h]
      · exact BaseApp.errResult_isOK_of_ne e.code_ne
      · simp [BaseApp.Result.IsOK, BaseApp.CodeOutOfGas, BaseApp.CodeOK]
  · rw [hm] at h
    rw [← Except.ok.inj h]
    exact BaseApp.errResult_isOK_of_ne e.code_ne

/-- **What a transaction the handler lets through did to the store.**  It is a
`StdTx` that passed the stateless checks, the memo check and, in `CheckTx`, the
mempool's fee check; its result is OK; and the store after it is as `Passes`
says: the fee went to the fee pool, each signer's account ran its round, the
fee payer's after the fee, and nothing else changed. -/
theorem ante_pass_effects [LawfulAccount A] (env : Env) {s : AuthState A} (hwf : s.WF)
    {gasMeter : GasMeter} {tx : AnteTx M} {simulate : Bool} {ret : BaseApp.AnteReturn}
    (h : (NewAnteHandler be env s gasMeter tx simulate).value = .ok ret) (hpass : ret.abort = false) :
    ∃ stdTx, tx.tx = some stdTx ∧ stdTx.ValidateBasic = none ∧ ValidateMemo stdTx s.params = none ∧
      ((env.IsCheckTx && !simulate) = true → EnsureSufficientMempoolFees env.MinGasPrices stdTx.Fee = .ok none) ∧
      ret.result = ⟨BaseApp.CodeOK, stdTx.Fee.Gas, 0⟩ ∧
      Passes be env stdTx simulate s (NewAnteHandler be env s gasMeter tx simulate).store := by
  obtain ⟨stdTx, g, htx, hmempool, hbody, rfl⟩ := NewAnteHandler_pass be env h hpass
  obtain ⟨hvb, hmemo, hpasses⟩ := anteBody_eq_ok be env stdTx simulate s.params hwf hbody
  exact ⟨stdTx, htx, hvb, hmemo, hmempool, rfl, hpasses⟩

/-! ### A transaction that passes -/

/-- A message that names its signer. -/
structure SampleMsg where
  signer : AccAddress

instance sampleMsgSdkMsg : SdkMsg SampleMsg where
  GetSigners msg := [msg.signer]
  GetSignBytes msg := msg.signer

/-- A backend whose secp256k1 key's address is the key's bytes, whose
signature of a message is the message, and whose sign document is the eight
bytes of its sequence. -/
def sampleBackend : Backend where
  Address pk := match pk with
    | .Secp256k1 key => key
    | _ => []
  VerifyBytes _ msg sig := decide (msg = sig)
  UnmarshalMultisignature _ := none
  sigSize sig := sig.Signature.length
  encodeSignDoc doc := BigEndian.encode 256 8 doc.Sequence.toNat

/-- The account at address `[1]`, with no coins, no key and sequence zero. -/
def sampleAccount : BaseAccount := ⟨[1], [], none, 0, 0⟩

def sampleState : AuthState BaseAccount :=
  ⟨fun a => if a = [1] then some sampleAccount else none, [], DefaultParams⟩

theorem sampleState_wf : sampleState.WF := by
  intro addr acc h
  simp only [sampleState] at h
  split_ifs at h with ha
  cases h
  exact ha.symm

def sampleEnv : Env := ⟨"color", 1, 0, false, []⟩

/-- One message signed by `[1]`, no fee, and the signature of sequence zero
with the key whose address is `[1]`. -/
def sampleStdTx : StdTx SampleMsg :=
  ⟨[⟨[1]⟩], ⟨[], 100000⟩, [⟨some (.Secp256k1 [1]), BigEndian.encode 256 8 0⟩], ""⟩

/-- The sample transaction, of ten bytes. -/
def sampleTx : AnteTx SampleMsg := ⟨some sampleStdTx, 10⟩

theorem ante_pass_effects_sampleTx :
    ∃ stdTx, sampleTx.tx = some stdTx ∧ stdTx.ValidateBasic = none ∧ ValidateMemo stdTx sampleState.params = none ∧
      ((sampleEnv.IsCheckTx && !false) = true →
        EnsureSufficientMempoolFees sampleEnv.MinGasPrices stdTx.Fee = .ok none) ∧
      BaseApp.AnteReturn.result ⟨some ⟨some 100000, 1100⟩, ⟨BaseApp.CodeOK, 100000, 0⟩, false⟩ =
        ⟨BaseApp.CodeOK, stdTx.Fee.Gas, 0⟩ ∧
      Passes sampleBackend sampleEnv stdTx false sampleState
        (NewAnteHandler sampleBackend sampleEnv sampleState BaseApp.GasMeter.NewInfiniteGasMeter sampleTx false).store :=
  ante_pass_effects sampleBackend sampleEnv sampleState_wf (by decide +kernel) rfl

end Auth

end ColorSdk
