import ColorSdk.Auth.AntePass
import ColorSdk.Lib.LoggedRun
import Mathlib

/-!
# A delivered transaction is not delivered again

A signer signs its account's sequence with the rest of the transaction, and
the ante handler counts the sequence of every signer one up each time it lets a
transaction through.  So once a transaction was delivered, its signatures no
longer verify, and delivering it again is refused and changes nothing, for as
long as the sequences do not wrap around.  This file proves it over every run
of deliveries of an app whose ante handler is `NewAnteHandler` and whose
message handlers leave every account, its key and its sequence in place (those
of the repository change an account's coins only).

Two facts about the backend are assumed: a signature verifies under a key for
one message at most, and the encoding of a sign document tells its sequence.

## Main definitions

* `authApp` — the app that runs `StdTx`s through `NewAnteHandler`.
* `Keeps`, `KeepsSigners` — what the message handlers may do to the accounts.
* `Advances` — what a delivery does to the accounts.
* `deliverStep` — one delivery of a run, which logs its result.
* `Fresh` — an account whose sequence is past the one a transaction was signed
  at, with room for more rounds before it wraps.

## Main results

* `authApp_abortsWithError` — the handler aborts only with an error, as
  `runTx` needs.
* `Passes.advances`, `deliver_advances` — a delivery keeps every account and
  its key, and moves its sequence up by at most one.
* `replay_refused` — a transaction whose signer's sequence is past the one it
  signed is not let through.
* `deliver_once` — **a delivered transaction, delivered again after any run of
  deliveries, is refused and changes nothing.**
-/

namespace ColorSdk

namespace Auth

open Account
open BaseApp (GasMeter Handler TxState runTx runAnte runMsgs)

variable {A M : Type} [Account A] [SdkMsg M]

/-! ### The app -/

/-- The app that runs `StdTx`s: the ante handler `NewAnteHandler` in the
context `env`, the message handlers `route` and the messages' stateless checks.
The repository's decoder makes every transaction a `StdTx`; a transaction of
another type is given no message. -/
def authApp (be : Backend) (env : Env) (route : M → Option (Handler (AuthState A) M))
    (ValidateBasic : M → Option ℕ) : BaseApp.App (AuthState A) (AnteTx M) M where
  anteHandler := some (NewAnteHandler be env)
  route := route
  GetMsgs tx := (tx.tx.map StdTx.Msgs).getD []
  ValidateBasic := ValidateBasic

/-- `NewAnteHandler` aborts only with an error, as `runTx` needs. -/
theorem authApp_abortsWithError (be : Backend) (env : Env) (route : M → Option (Handler (AuthState A) M))
    (ValidateBasic : M → Option ℕ) : BaseApp.AbortsWithError (authApp be env route ValidateBasic) := by
  intro anteHandler hmem ms gasMeter tx simulate ret h habort
  cases hmem
  exact NewAnteHandler_abort be env h habort

/-- The ante handler's part of a run of `authApp` goes on only after a pass. -/
theorem authApp_runAnte {be : Backend} {env : Env} {route : M → Option (Handler (AuthState A) M)}
    {ValidateBasic : M → Option ℕ} {mode : BaseApp.RunTxMode} {ms s₁ : AuthState A} {gasMeter g₁ : GasMeter}
    {tx : AnteTx M} {w : ℕ} (h : runAnte (authApp be env route ValidateBasic) mode ms gasMeter tx = .inr (s₁, g₁, w)) :
    ∃ ret, (NewAnteHandler be env ms gasMeter tx (decide (mode = .simulate))).value = .ok ret ∧
      ret.abort = false ∧ (NewAnteHandler be env ms gasMeter tx (decide (mode = .simulate))).store = s₁ := by
  rcases BaseApp.runAnte_eq_inr h with ⟨hnone, -⟩ | ⟨anteHandler, hmem, ret, hret, habort, hstore⟩
  · cases hnone
  · cases hmem
    exact ⟨ret, hret, habort, hstore⟩

/-! ### What the handlers may do to the accounts -/

/-- What a message handler may do to the accounts: keep the store well formed,
and every account, with its key and its sequence. -/
structure Keeps (s s' : AuthState A) : Prop where
  wf : s'.WF
  keep : ∀ addr acc, s.accounts addr = some acc →
    ∃ acc', s'.accounts addr = some acc' ∧ GetPubKey acc' = GetPubKey acc ∧ GetSequence acc' = GetSequence acc

/-- The message handlers keep the accounts. -/
def KeepsSigners (route : M → Option (Handler (AuthState A) M)) : Prop :=
  ∀ msg handler, route msg = some handler → ∀ s gasMeter, s.WF → Keeps s (handler s gasMeter msg).store

theorem Keeps.refl {s : AuthState A} (h : s.WF) : Keeps s s :=
  ⟨h, fun _ acc hacc => ⟨acc, hacc, rfl, rfl⟩⟩

theorem Keeps.trans {s₁ s₂ s₃ : AuthState A} (h₁ : Keeps s₁ s₂) (h₂ : Keeps s₂ s₃) : Keeps s₁ s₃ := by
  refine ⟨h₂.wf, fun addr acc hacc => ?_⟩
  obtain ⟨acc', hacc', hpk, hseq⟩ := h₁.keep addr acc hacc
  obtain ⟨acc'', hacc'', hpk', hseq'⟩ := h₂.keep addr acc' hacc'
  exact ⟨acc'', hacc'', hpk'.trans hpk, hseq'.trans hseq⟩

/-- The messages of a transaction keep the accounts. -/
theorem runMsgs_keeps {route : M → Option (Handler (AuthState A) M)} (hroute : KeepsSigners route)
    (be : Backend) (env : Env) (ValidateBasic : M → Option ℕ) (mode : BaseApp.RunTxMode) (msgs : List M)
    {s : AuthState A} (hwf : s.WF) (gasMeter : GasMeter) :
    Keeps s (runMsgs (authApp be env route ValidateBasic) mode msgs s gasMeter).store := by
  refine BaseApp.runMsgs_store (R := fun s s' => s.WF → Keeps s s') (fun _ => Keeps.refl)
    (fun _ _ _ h₁ h₂ hwf => (h₁ hwf).trans (h₂ (h₁ hwf).wf)) ?_ mode msgs s gasMeter hwf
  exact hroute

/-- What a delivery does to the accounts: it keeps the store well formed, and
every account, with its key once recorded, and moves its sequence up by at most
one. -/
structure Advances (s s' : AuthState A) : Prop where
  wf : s'.WF
  advance : ∀ addr acc, s.accounts addr = some acc → ∃ acc', s'.accounts addr = some acc' ∧
    (∀ pk, GetPubKey acc = some pk → GetPubKey acc' = some pk) ∧
    (GetSequence acc' = GetSequence acc ∨ GetSequence acc' = GetSequence acc + 1)

theorem Keeps.advances {s s' : AuthState A} (h : Keeps s s') : Advances s s' := by
  refine ⟨h.wf, fun addr acc hacc => ?_⟩
  obtain ⟨acc', hacc', hpk, hseq⟩ := h.keep addr acc hacc
  exact ⟨acc', hacc', fun pk h' => hpk.trans h', .inl hseq⟩

theorem Advances.keeps {s₁ s₂ s₃ : AuthState A} (h₁ : Advances s₁ s₂) (h₂ : Keeps s₂ s₃) : Advances s₁ s₃ := by
  refine ⟨h₂.wf, fun addr acc hacc => ?_⟩
  obtain ⟨acc', hacc', hpk, hseq⟩ := h₁.advance addr acc hacc
  obtain ⟨acc'', hacc'', hpk', hseq'⟩ := h₂.keep addr acc' hacc'
  exact ⟨acc'', hacc'', fun pk h' => hpk'.trans (hpk pk h'), hseq'.symm ▸ hseq⟩

/-- A signer of a transaction that passed its basic validation signed with its
own signature. -/
theorem exists_pair_of_mem_GetSigners {stdTx : StdTx M} (hvb : stdTx.ValidateBasic = none)
    {addr : AccAddress} (haddr : addr ∈ stdTx.GetSigners) :
    ∃ p ∈ stdTx.Signatures.zip stdTx.GetSigners, p.2 = addr := by
  obtain ⟨-, -, -, hlen, -⟩ := ValidateBasic_eq_none hvb
  rw [← List.map_snd_zip hlen.ge] at haddr
  exact List.mem_map.1 haddr

variable (be : Backend)

/-- The round of a signer in a pass ran on an account with the key and the
sequence of the account the store held: the fee changed its coins at most. -/
theorem Passes.signer_round [LawfulAccount A] {env : Env} {stdTx : StdTx M} {simulate : Bool}
    {s s' : AuthState A} (h : Passes be env stdTx simulate s s') {p : StdSignature × AccAddress}
    (hp : p ∈ stdTx.Signatures.zip stdTx.GetSigners) {acc : A} (hacc : s.accounts p.2 = some acc) :
    ∃ acc₁ acc', s'.accounts p.2 = some acc' ∧ GetPubKey acc₁ = GetPubKey acc ∧
      GetSequence acc₁ = GetSequence acc ∧ Round be env stdTx simulate acc₁ p.1 acc' := by
  obtain ⟨acc₀, acc₁, acc', hacc₀, hacc', hfee, hround⟩ := h.round p hp
  obtain rfl : acc = acc₀ := Option.some.inj (hacc.symm.trans hacc₀)
  obtain ⟨coins, hc⟩ := base_eq_of_payer hfee
  exact ⟨acc₁, acc', hacc', by rw [GetPubKey, hc]; rfl, by rw [GetSequence, hc]; rfl, hround⟩

/-- A pass keeps every account and the key it holds, and moves each signer's
sequence one up. -/
theorem Passes.advances [LawfulAccount A] {env : Env} {stdTx : StdTx M} {simulate : Bool}
    {s s' : AuthState A} (hvb : stdTx.ValidateBasic = none) (h : Passes be env stdTx simulate s s') :
    Advances s s' := by
  refine ⟨h.wf, fun addr acc hacc => ?_⟩
  by_cases haddr : addr ∈ stdTx.GetSigners
  · -- a signer: its round kept the key it held and counted the sequence up
    obtain ⟨p, hp, rfl⟩ := exists_pair_of_mem_GetSigners hvb haddr
    obtain ⟨acc₁, acc', hacc', hkey, hseq, pk, hpk, -, rfl⟩ := h.signer_round be hp hacc
    refine ⟨signed acc₁ pk, hacc', fun pk₀ hpk₀ => ?_, .inr ?_⟩
    · rw [ProcessPubKey_of_GetPubKey be p.1 simulate (hkey.trans hpk₀)] at hpk
      cases hpk
      exact GetPubKey_signed acc₁ _
    · rw [GetSequence_signed, hseq]
  · exact ⟨acc, (h.frame addr haddr).trans hacc, fun _ h' => h', .inl rfl⟩

section Deliveries

variable {route : M → Option (Handler (AuthState A) M)} (ValidateBasic : M → Option ℕ)

/-- The ante handler's pass in a run of `authApp` advances the accounts. -/
theorem runAnte_advances [LawfulAccount A] {env : Env} {mode : BaseApp.RunTxMode} {ms s₁ : AuthState A}
    (hwf : ms.WF) {gasMeter g₁ : GasMeter} {tx : AnteTx M} {w : ℕ}
    (h : runAnte (authApp be env route ValidateBasic) mode ms gasMeter tx = .inr (s₁, g₁, w)) :
    Advances ms s₁ := by
  obtain ⟨ret, hret, habort, rfl⟩ := authApp_runAnte h
  obtain ⟨stdTx, -, hvb, -, -, -, hpasses⟩ := ante_pass_effects be env hwf hret habort
  exact hpasses.advances be hvb

/-- **A delivery advances the accounts**: whatever its ante handler and its
messages do, every account stays, with its key once recorded, and its sequence
moves up by at most one. -/
theorem deliver_advances [LawfulAccount A] (hroute : KeepsSigners route) (env : Env)
    {st : TxState (AuthState A)} (hwf : st.ms.WF) (gasMeter : GasMeter) (tx : AnteTx M) :
    Advances st.ms (runTx (authApp be env route ValidateBasic) .deliver st gasMeter tx).2.ms := by
  rcases BaseApp.runTx_deliver_store st gasMeter tx with h | ⟨s₁, g₁, w, ha, h | h⟩ <;> rw [h]
  · exact (Keeps.refl hwf).advances
  · exact runAnte_advances be ValidateBasic hwf ha
  · -- the messages' writes over the ante handler's
    have hadv := runAnte_advances be ValidateBasic hwf ha
    exact hadv.keeps (runMsgs_keeps hroute be env ValidateBasic .deliver _ hadv.wf g₁)

/-- One delivery of a run: the transaction delivered in the context and with the
gas meter of the call; its result is logged. -/
def deliverStep (route : M → Option (Handler (AuthState A) M)) (st : TxState (AuthState A))
    (call : Env × GasMeter × AnteTx M) : TxState (AuthState A) × Option BaseApp.Result :=
  ((runTx (authApp be call.1 route ValidateBasic) .deliver st call.2.1 call.2.2).2,
    some (runTx (authApp be call.1 route ValidateBasic) .deliver st call.2.1 call.2.2).1)

end Deliveries

/-! ### Replays -/

/-- The account of `addr` holds the key `pk` and a sequence past `q`, with room
for `b` more rounds before the sequence wraps. -/
def Fresh (addr : AccAddress) (pk : PubKey) (q b : ℕ) (s : AuthState A) : Prop :=
  s.WF ∧ ∃ acc, s.accounts addr = some acc ∧ GetPubKey acc = some pk ∧
    q < (GetSequence acc).toNat ∧ (GetSequence acc).toNat + b < 2 ^ 64

section Fresh

variable {addr : AccAddress} {pk : PubKey} {q b : ℕ} {s s' : AuthState A}

/-- A round counts the sequence one up without wrapping while there is room. -/
theorem toNat_add_one {n : UInt64} (h : n.toNat + 1 < 2 ^ 64) : (n + 1).toNat = n.toNat + 1 := by
  rw [UInt64.toNat_add, UInt64.toNat_one, Nat.mod_eq_of_lt h]

theorem Fresh.keeps (h : Fresh addr pk q b s) (hkeep : Keeps s s') : Fresh addr pk q b s' := by
  obtain ⟨-, acc, hacc, hpk, hq, hb⟩ := h
  obtain ⟨acc', hacc', hpk', hseq⟩ := hkeep.keep addr acc hacc
  exact ⟨hkeep.wf, acc', hacc', hpk'.trans hpk, hseq ▸ hq, hseq ▸ hb⟩

/-- A delivery spends at most one round of the room. -/
theorem Fresh.advances (h : Fresh addr pk q (b + 1) s) (hadv : Advances s s') : Fresh addr pk q b s' := by
  obtain ⟨-, acc, hacc, hpk, hq, hb⟩ := h
  obtain ⟨acc', hacc', hpk', hseq⟩ := hadv.advance addr acc hacc
  refine ⟨hadv.wf, acc', hacc', hpk' pk hpk, ?_⟩
  rcases hseq with hseq | hseq <;> rw [hseq]
  · omega
  · rw [toNat_add_one (by omega)]
    omega

end Fresh

section Replay

variable [LawfulAccount A]
  (hbind : ∀ pk msg msg' sig, be.VerifyBytes pk msg sig = true → be.VerifyBytes pk msg' sig = true → msg = msg')
  (hseq : ∀ d d' : StdSignDoc, be.encodeSignDoc d = be.encodeSignDoc d' → d.Sequence = d'.Sequence)
include hbind hseq

/-- **A replay is not let through.**  When a signer signed, with the key `pk`,
the bytes of its account at the sequence `GetSequence acc₁`, and its account
now holds `pk` and a sequence past that one, the transaction does not pass
outside simulation. -/
theorem replay_refused {env env' : Env} {stdTx : StdTx M} {p : StdSignature × AccAddress}
    (hp : p ∈ stdTx.Signatures.zip stdTx.GetSigners) {acc₁ : A} {pk : PubKey}
    (hsigned : be.VerifyBytes pk (GetSignBytes be env.ChainID stdTx acc₁ (env.BlockHeight == 0)) p.1.Signature = true)
    {s : AuthState A} {b : ℕ} (hfresh : Fresh p.2 pk (GetSequence acc₁).toNat b s) {gasMeter : GasMeter}
    {tx : AnteTx M} (htx : tx.tx = some stdTx) {ret : BaseApp.AnteReturn}
    (h : (NewAnteHandler be env' s gasMeter tx false).value = .ok ret) : ret.abort = true := by
  rw [← Bool.not_eq_false]
  intro hpass
  obtain ⟨stdTx', htx', -, -, -, -, hpasses⟩ := ante_pass_effects be env' hfresh.1 h hpass
  obtain rfl : stdTx' = stdTx := Option.some.inj (htx'.symm.trans htx)
  obtain ⟨-, acc, hacc, hpk, hq, -⟩ := hfresh
  obtain ⟨acc₂, -, -, hkey, hsame', pk', hpk', hver, -⟩ := hpasses.signer_round be hp hacc
  -- the round checked the key the account holds, against the bytes of its sequence
  rw [ProcessPubKey_of_GetPubKey be p.1 false (hkey.trans hpk)] at hpk'
  cases hpk'
  have hbytes := hbind _ _ _ _ hsigned (hver rfl)
  have hsame : GetSequence acc₁ = GetSequence acc₂ := GetSequence_eq_of_GetSignBytes_eq be hseq hbytes
  rw [hsame, hsame'] at hq
  exact lt_irrefl _ hq

variable {route : M → Option (Handler (AuthState A) M)} {ValidateBasic : M → Option ℕ}
  (hroute : KeepsSigners route) (hvalid : ∀ msg code, ValidateBasic msg = some code → code ≠ BaseApp.CodeOK)
include hroute hvalid

/-- **A delivered transaction is not delivered again.**  When a transaction was
delivered with an OK result, delivering it again after any run of deliveries,
in any contexts, is refused and changes nothing, as long as one of its signers'
sequences has room for the run before it wraps. -/
theorem deliver_once {st : TxState (AuthState A)} (hwf : st.ms.WF) {env env' : Env}
    {gasMeter gasMeter' : GasMeter} {tx tx' : AnteTx M} {stdTx : StdTx M} (htx : tx.tx = some stdTx)
    (htx' : tx'.tx = some stdTx) {addr : AccAddress} {acc : A} (haddr : addr ∈ stdTx.GetSigners)
    (hacc : st.ms.accounts addr = some acc) (calls : List (Env × GasMeter × AnteTx M))
    (hbudget : (GetSequence acc).toNat + calls.length + 1 < 2 ^ 64)
    (hok : (runTx (authApp be env route ValidateBasic) .deliver st gasMeter tx).1.IsOK = true) :
    (runTx (authApp be env' route ValidateBasic) .deliver
        (LoggedRun.run (deliverStep be ValidateBasic route)
          (runTx (authApp be env route ValidateBasic) .deliver st gasMeter tx).2 calls).1 gasMeter' tx').1.IsOK =
      false ∧
    (runTx (authApp be env' route ValidateBasic) .deliver
        (LoggedRun.run (deliverStep be ValidateBasic route)
          (runTx (authApp be env route ValidateBasic) .deliver st gasMeter tx).2 calls).1 gasMeter' tx').2.ms =
      (LoggedRun.run (deliverStep be ValidateBasic route)
        (runTx (authApp be env route ValidateBasic) .deliver st gasMeter tx).2 calls).1.ms := by
  -- the first delivery: its ante handler passed, and its messages kept the accounts
  obtain ⟨s₁, g₁, w, r, ha, -, -, hstore⟩ :=
    BaseApp.runTx_isOK (authApp_abortsWithError be env route ValidateBasic) hvalid hok
  obtain ⟨ret, hret, habort, hs₁⟩ := authApp_runAnte ha
  obtain ⟨stdTx', htx'', hvb, -, -, -, hpasses⟩ := ante_pass_effects be env hwf hret habort
  obtain rfl : stdTx' = stdTx := Option.some.inj (htx''.symm.trans htx)
  rw [hs₁] at hpasses
  -- the signer's round: its signature of its sequence, and its account after
  obtain ⟨p, hp, rfl⟩ := exists_pair_of_mem_GetSigners hvb haddr
  obtain ⟨acc₁, acc', hacc', -, hseq₁, pk, -, hver, rfl⟩ := hpasses.signer_round be hp hacc
  have hfresh₁ : Fresh p.2 pk (GetSequence acc₁).toNat calls.length s₁ := by
    refine ⟨hpasses.wf, signed acc₁ pk, hacc', GetPubKey_signed acc₁ pk, ?_, ?_⟩ <;>
      rw [GetSequence_signed, toNat_add_one (by rw [hseq₁]; omega)]
    · omega
    · rw [hseq₁]
      omega
  have hfresh₂ : Fresh p.2 pk (GetSequence acc₁).toNat calls.length
      (runTx (authApp be env route ValidateBasic) .deliver st gasMeter tx).2.ms := by
    rw [hstore]
    exact hfresh₁.keeps (runMsgs_keeps hroute be env ValidateBasic .deliver _ hfresh₁.1 g₁)
  -- the run spends at most one round of the room per delivery
  have hrun : Fresh p.2 pk (GetSequence acc₁).toNat 0
      (LoggedRun.run (deliverStep be ValidateBasic route)
        (runTx (authApp be env route ValidateBasic) .deliver st gasMeter tx).2 calls).1.ms :=
    LoggedRun.run_invariant_of_budget (deliverStep be ValidateBasic route)
      (Q := fun b st => Fresh p.2 pk (GetSequence acc₁).toNat b st.ms) (H := fun _ => True)
      (fun _ st call hst _ => hst.advances (deliver_advances be ValidateBasic hroute call.1 hst.1 _ _))
      (by simpa using hfresh₂) (fun _ _ => trivial)
  -- the replay's ante handler refuses it
  refine BaseApp.runTx_of_ante_refuses (authApp_abortsWithError be env' route ValidateBasic) hvalid ?_
  intro s₂ g₂ w₂ ha₂
  obtain ⟨ret₂, hret₂, habort₂, -⟩ := authApp_runAnte ha₂
  have := replay_refused be hbind hseq hp (hver rfl) hrun htx' hret₂
  rw [habort₂] at this
  cases this

end Replay

/-! ### The sample delivered twice -/

/-- The sample's message handler, which writes nothing. -/
def sampleRoute : SampleMsg → Option (Handler (AuthState BaseAccount) SampleMsg) :=
  fun _ => some fun s gasMeter _ => ⟨gasMeter, s, .ok ⟨BaseApp.CodeOK, 0, 0⟩⟩

theorem sampleRoute_keeps : KeepsSigners sampleRoute := by
  intro msg handler h s gasMeter hwf
  cases h
  exact Keeps.refl hwf

/-- The sample's signatures are the messages they sign. -/
theorem sampleBackend_binds (pk : PubKey) (msg msg' sig : Bytes)
    (h : sampleBackend.VerifyBytes pk msg sig = true) (h' : sampleBackend.VerifyBytes pk msg' sig = true) :
    msg = msg' := by
  simp only [sampleBackend, decide_eq_true_eq] at h h'
  rw [h, h']

/-- The sample's sign document is its sequence's eight bytes. -/
theorem sampleBackend_sequence (d d' : StdSignDoc)
    (h : sampleBackend.encodeSignDoc d = sampleBackend.encodeSignDoc d') : d.Sequence = d'.Sequence := by
  have hlt : ∀ n : UInt64, n.toNat < 256 ^ 8 := fun n => by simpa using n.toNat_lt
  exact UInt64.toNat_inj.1 ((BigEndian.encode_inj (hlt _) (hlt _)).1 h)

/-- The sample chain: the sample store, and a block with gas left. -/
def sampleChain : TxState (AuthState BaseAccount) := ⟨sampleState, BaseApp.GasMeter.NewGasMeter 1000000⟩

/-- Two deliveries after the first: the transaction again in its block, and
again in the next block. -/
def sampleCalls : List (Env × BaseApp.GasMeter × AnteTx SampleMsg) :=
  [(sampleEnv, BaseApp.GasMeter.NewInfiniteGasMeter, sampleTx),
    (⟨"color", 2, 5, false, []⟩, BaseApp.GasMeter.NewInfiniteGasMeter, sampleTx)]

theorem deliver_once_sampleTx :
    (runTx (authApp sampleBackend sampleEnv sampleRoute fun _ => none) .deliver
        (LoggedRun.run (deliverStep sampleBackend (fun _ => none) sampleRoute)
          (runTx (authApp sampleBackend sampleEnv sampleRoute fun _ => none) .deliver sampleChain
            BaseApp.GasMeter.NewInfiniteGasMeter sampleTx).2 sampleCalls).1
        BaseApp.GasMeter.NewInfiniteGasMeter sampleTx).1.IsOK = false ∧
    (runTx (authApp sampleBackend sampleEnv sampleRoute fun _ => none) .deliver
        (LoggedRun.run (deliverStep sampleBackend (fun _ => none) sampleRoute)
          (runTx (authApp sampleBackend sampleEnv sampleRoute fun _ => none) .deliver sampleChain
            BaseApp.GasMeter.NewInfiniteGasMeter sampleTx).2 sampleCalls).1
        BaseApp.GasMeter.NewInfiniteGasMeter sampleTx).2.ms =
      (LoggedRun.run (deliverStep sampleBackend (fun _ => none) sampleRoute)
        (runTx (authApp sampleBackend sampleEnv sampleRoute fun _ => none) .deliver sampleChain
          BaseApp.GasMeter.NewInfiniteGasMeter sampleTx).2 sampleCalls).1.ms :=
  deliver_once sampleBackend sampleBackend_binds sampleBackend_sequence sampleRoute_keeps
    (fun _ _ h => absurd h (Option.some_ne_none _).symm) sampleState_wf rfl rfl
    (show ([1] : AccAddress) ∈ sampleStdTx.GetSigners by decide +kernel)
    (show sampleChain.ms.accounts [1] = some sampleAccount from rfl) sampleCalls (by decide)
    (by decide +kernel)

end Auth

end ColorSdk
