import ColorSdk.BaseApp.RunTx
import ColorSdk.Lib.ExceptSpec
import ColorSdk.Lib.LoggedRun
import ColorSdk.Store.Types
import ColorSdk.Types.DecCoin
import Mathlib

/-!
# The ABCI requests

Tendermint drives `BaseApp` by requests: `InitChain` once, then for each block
`BeginBlock`, a `DeliverTx` for each of its transactions, `EndBlock` and
`Commit`, and, in between, `CheckTx` for each transaction that enters the
mempool.  `BaseApp` keeps two states over the committed store.  The deliver
state, created by `InitChain` or by the block's `BeginBlock`, collects the
block's writes, and `Commit` writes it to the committed store and drops it.
The check state, reset to the committed store by `Commit`, collects the writes
of `CheckTx`, which are never committed.

Cache-wrapped stores are values here: a cache of the committed store holds its
contents, and writing it back makes them the store's, as
`CacheKV.cacheKV_refines_map` shows of `cachekv.Store`.  A panic that nothing
recovers stops the node (`Halt`).

## Main definitions

* `Header`, `ConsensusParams`, `Context` — what the requests carry and what the
  handlers see.
* `Hook`, `ABCIApp` — an app: `runTx`'s app in a context, the decoder and the
  hooks, which may panic.
* `ABCIState` — the committed store and its version, the check and deliver
  states, and the consensus parameters.
* `InitChain`, `BeginBlock`, `CheckTx`, `DeliverTx`, `EndBlock`, `Commit`,
  `step` — the requests.

## Main results

* `consensus_ignores_checkTx` — **`CheckTx` never changes consensus**: any run
  of requests and the same run without its `CheckTx` requests fail alike, or
  leave the same committed store, version and deliver state, and give the same
  responses to every other request, `Info` included.
* `committed_heights` — the versions a run commits are consecutive, from the
  version after the last commit.
* `block_commits` — a block at the next height, in the order consensus sends its
  requests, under begin and end blockers that do not panic, does not halt and
  commits the next version.

## References

* src/baseapp/baseapp.go
-/

namespace ColorSdk
namespace BaseApp

/-! ### Requests and states -/

/-- `abci.Header`, with the fields the app reads. -/
structure Header where
  ChainID : String
  Height : ℤ
  Time : ℤ
  deriving DecidableEq, Repr

/-- `abci.BlockParams`, with the field the app reads. -/
structure BlockParams where
  MaxGas : ℤ
  deriving DecidableEq, Repr

/-- `abci.ConsensusParams`, with the field the app reads. -/
structure ConsensusParams where
  Block : Option BlockParams
  deriving DecidableEq, Repr

/-- What a context tells the app's handlers: the block's header, whether it
runs for `CheckTx`, and the minimum gas prices, which only the check state
sets. -/
structure Context where
  header : Header
  IsCheckTx : Bool
  MinGasPrices : Types.DecCoins
  deriving DecidableEq, Repr

/-- `sdk.InitChainer`, `sdk.BeginBlocker`, `sdk.EndBlocker`: a hook of the chain
run on the deliver context, which leaves the store or panics with a message.
The modules' hooks do panic (the slashing and crisis keepers among them). -/
def Hook (σ : Type) : Type := Context → σ → Except String σ

/-- A hook that never panics. -/
def Hook.NoPanic {σ : Type} (hook : Hook σ) : Prop := ∀ ctx ms, ∃ ms', hook ctx ms = .ok ms'

/-- What `BaseApp` runs: the app `runTx` runs in a context, the transaction
decoder, whose error is a code, the hooks of the chain, and the validator's
minimum gas prices. -/
structure ABCIApp (σ Tx M : Type) where
  app : Context → App σ Tx M
  txDecoder : Bytes → Except ℕ Tx
  initChainer : Option (Hook σ)
  beginBlocker : Option (Hook σ)
  endBlocker : Option (Hook σ)
  minGasPrices : Types.DecCoins

/-- `state` of the check mode: a cache of the committed store, and its context. -/
structure CheckState (σ : Type) where
  ms : σ
  ctx : Context
  deriving DecidableEq

/-- `state` of the deliver mode, with the block gas meter of its context, nil
until `BeginBlock` or the init chainer sets one. -/
structure DeliverState (σ : Type) where
  ms : σ
  ctx : Context
  blockGasMeter : Option GasMeter
  deriving DecidableEq

/-- The fields of `BaseApp` the requests read and write: the contents of the
commit multistore and the version of its last commit, the check state, the
deliver state (nil between a commit and the next block), and the consensus
parameters. -/
structure ABCIState (σ : Type) where
  cms : σ
  LastBlockHeight : ℕ
  checkState : CheckState σ
  deliverState : Option (DeliverState σ)
  consensusParams : Option ConsensusParams
  deriving DecidableEq

/-- An ABCI request. -/
inductive Request where
  | Info
  | InitChain (ChainId : String) (Time : ℤ) (ConsensusParams : Option ConsensusParams)
  | BeginBlock (Header : Header)
  | CheckTx (txBytes : Bytes)
  | DeliverTx (txBytes : Bytes)
  | EndBlock
  | Commit

/-- An ABCI response, with the fields the model computes: the height of the
last commit, a transaction's result, and the version a commit made. -/
inductive Response where
  | Info (LastBlockHeight : ℕ)
  | InitChain
  | BeginBlock
  | CheckTx (result : Result)
  | DeliverTx (result : Result)
  | EndBlock
  | Commit (version : ℕ)
  deriving DecidableEq, Repr

/-- A panic that nothing recovers: it stops the node. -/
inductive Halt where
  | invalidHeight (msg : String)
  | invalidMaxGas (maxGas : ℤ)
  /-- the deliver state is nil -/
  | nilDeliverState
  /-- the block gas meter of the deliver context is nil -/
  | nilBlockGasMeter
  /-- a hook of the chain panicked; `BeginBlock`, `EndBlock` and `InitChain`
  recover nothing -/
  | hookPanic (msg : String)
  deriving DecidableEq, Repr

variable {σ Tx M : Type} (abci : ABCIApp σ Tx M)

/-- `setCheckState`: a cache of the committed store, in check mode. -/
def setCheckState (s : ABCIState σ) (header : Header) : ABCIState σ :=
  { s with checkState := ⟨s.cms, ⟨header, true, abci.minGasPrices⟩⟩ }

/-- The deliver state `setDeliverState` makes: a cache of the committed store,
with no block gas meter. -/
def newDeliverState (cms : σ) (header : Header) : DeliverState σ := ⟨cms, ⟨header, false, []⟩, none⟩

/-- `initFromMainStore` after the store was loaded at a version: the check
state with an empty header. -/
def NewABCIState (cms : σ) (version : ℕ) (consensusParams : Option ConsensusParams) : ABCIState σ :=
  setCheckState abci ⟨cms, version, ⟨cms, ⟨⟨"", 0, 0⟩, true, []⟩⟩, none, consensusParams⟩ ⟨"", 0, 0⟩

/-- `getMaximumBlockGas`: zero without block parameters or for `-1`, a panic
below `-1`. -/
def getMaximumBlockGas (consensusParams : Option ConsensusParams) : Except Halt ℕ :=
  match consensusParams.bind ConsensusParams.Block with
  | none => .ok 0
  | some ⟨maxGas⟩ =>
    if maxGas < -1 then .error (.invalidMaxGas maxGas)
    else if maxGas = -1 then .ok 0
    else .ok maxGas.toNat

/-- `validateHeight`: a block's height is one above the last commit's. -/
def validateHeight (LastBlockHeight : ℕ) (header : Header) : Option String :=
  if header.Height < 1 then some ("invalid height: " ++ toString header.Height)
  else if header.Height ≠ LastBlockHeight + 1 then
    some ("invalid height: " ++ toString header.Height ++ "; expected: " ++ toString (LastBlockHeight + 1))
  else none

/-- A hook of the app, if it has one, run on the deliver state.  Its panic halts
the node. -/
def runHook : Option (Hook σ) → DeliverState σ → Except Halt (DeliverState σ)
  | none, ds => .ok ds
  | some hook, ds => ((hook ds.ctx ds.ms).mapError Halt.hookPanic).map fun ms => { ds with ms := ms }

/-- The deliver state of a block: the one made, or for the first block given
the block's header, with the block gas meter of the limit `maxGas`. -/
def blockDeliverState (s : ABCIState σ) (header : Header) (maxGas : ℕ) : DeliverState σ :=
  let ds := match s.deliverState with
    | none => newDeliverState s.cms header
    | some ds => { ds with ctx := { ds.ctx with header := header } }
  { ds with
    blockGasMeter := some (if maxGas > 0 then GasMeter.NewGasMeter maxGas else GasMeter.NewInfiniteGasMeter) }

/-! ### The requests -/

/-- `InitChain`: the consensus parameters, when given; the deliver and check
states with the genesis header; and the init chainer, on the deliver state with
a block gas meter without limit.  Nothing is committed. -/
def InitChain (s : ABCIState σ) (ChainId : String) (Time : ℤ) (cp : Option ConsensusParams) :
    Except Halt (ABCIState σ) :=
  let initHeader : Header := ⟨ChainId, 0, Time⟩
  let ds := newDeliverState s.cms initHeader
  let s := setCheckState abci
    { s with consensusParams := cp.orElse fun _ => s.consensusParams, deliverState := some ds } initHeader
  match abci.initChainer with
  | none => .ok s
  | some initChainer =>
    -- add block gas meter for any genesis transactions (allow infinite gas)
    (runHook (some initChainer) { ds with blockGasMeter := some GasMeter.NewInfiniteGasMeter }).map
      fun ds => { s with deliverState := some ds }

/-- `BeginBlock`: the height checked, the deliver state made, or for the first
block given the block's header, the block gas meter of the consensus
parameters' limit, and the begin blocker. -/
def BeginBlock (s : ABCIState σ) (header : Header) : Except Halt (ABCIState σ) :=
  match validateHeight s.LastBlockHeight header with
  | some msg => .error (.invalidHeight msg)
  | none =>
    getMaximumBlockGas s.consensusParams >>= fun maxGas =>
      (runHook abci.beginBlocker (blockDeliverState s header maxGas)).map
        fun ds => { s with deliverState := some ds }

/-- `CheckTx`: the transaction decoded and run in check mode on the check
state, whose context's gas meter has no limit. -/
def CheckTx (s : ABCIState σ) (txBytes : Bytes) : ABCIState σ × Result :=
  match abci.txDecoder txBytes with
  | .error code => (s, ErrResult code)
  | .ok tx =>
    let r := runTx (abci.app s.checkState.ctx) .check ⟨s.checkState.ms, GasMeter.NewInfiniteGasMeter⟩
      GasMeter.NewInfiniteGasMeter tx
    ({ s with checkState := { s.checkState with ms := r.2.ms } }, r.1)

/-- `DeliverTx`: the transaction decoded and run in deliver mode on the deliver
state, against the block gas meter. -/
def DeliverTx (s : ABCIState σ) (txBytes : Bytes) : Except Halt (ABCIState σ × Result) :=
  match abci.txDecoder txBytes with
  | .error code => .ok (s, ErrResult code)
  | .ok tx =>
    match s.deliverState with
    | none => .error .nilDeliverState
    | some ds =>
      match ds.blockGasMeter with
      | none => .error .nilBlockGasMeter
      | some blockGasMeter =>
        let r := runTx (abci.app ds.ctx) .deliver ⟨ds.ms, blockGasMeter⟩ GasMeter.NewInfiniteGasMeter tx
        .ok ({ s with deliverState := some { ds with ms := r.2.ms, blockGasMeter := some r.2.blockGasMeter } },
          r.1)

/-- `EndBlock`: the end blocker, on the deliver state. -/
def EndBlock (s : ABCIState σ) : Except Halt (ABCIState σ) :=
  match s.deliverState with
  | none => .error .nilDeliverState
  | some ds => (runHook abci.endBlocker ds).map fun ds => { s with deliverState := some ds }

/-- `Commit`: the deliver state written to the committed store, which makes a
new version; the check state reset to it with the block's header; the deliver
state dropped. -/
def Commit (s : ABCIState σ) : Except Halt (ABCIState σ × ℕ) :=
  match s.deliverState with
  | none => .error .nilDeliverState
  | some ds =>
    .ok ({ setCheckState abci { s with cms := ds.ms, LastBlockHeight := s.LastBlockHeight + 1 } ds.ctx.header with
      deliverState := none }, s.LastBlockHeight + 1)

/-- One request: the state after it and its response, or the node's halt. -/
def step (s : ABCIState σ) : Request → Except Halt (ABCIState σ × Option Response)
  | .Info => .ok (s, some (.Info s.LastBlockHeight))
  | .InitChain ChainId Time cp => (InitChain abci s ChainId Time cp).map fun s => (s, some .InitChain)
  | .BeginBlock header => (BeginBlock abci s header).map fun s => (s, some .BeginBlock)
  | .CheckTx txBytes => .ok ((CheckTx abci s txBytes).1, some (.CheckTx (CheckTx abci s txBytes).2))
  | .DeliverTx txBytes => (DeliverTx abci s txBytes).map fun r => (r.1, some (.DeliverTx r.2))
  | .EndBlock => (EndBlock abci s).map fun s => (s, some .EndBlock)
  | .Commit => (Commit abci s).map fun r => (r.1, some (.Commit r.2))

/-! ### What the check state does not reach -/

/-- What consensus depends on: the state but its check state. -/
def ABCIState.consensus (s : ABCIState σ) : σ × ℕ × Option (DeliverState σ) × Option ConsensusParams :=
  (s.cms, s.LastBlockHeight, s.deliverState, s.consensusParams)

/-- The requests of consensus: all but `CheckTx`. -/
def Request.isConsensus : Request → Bool
  | .CheckTx _ => false
  | _ => true

/-- The responses to the requests of consensus. -/
def Response.consensus : Response → Option Response
  | .CheckTx _ => none
  | r => some r

omit abci in
/-- Two states of one consensus view differ in their check state at most. -/
theorem ABCIState.eq_of_consensus_eq {s t : ABCIState σ} (h : s.consensus = t.consensus) :
    s = { t with checkState := s.checkState } := by
  obtain ⟨cms, height, cs, ds, cp⟩ := s
  simp only [ABCIState.consensus, Prod.mk.injEq] at h
  obtain ⟨rfl, rfl, rfl, rfl⟩ := h
  rfl

theorem InitChain_checkState (t : ABCIState σ) (c : CheckState σ) (ChainId : String) (Time : ℤ)
    (cp : Option ConsensusParams) :
    InitChain abci { t with checkState := c } ChainId Time cp = InitChain abci t ChainId Time cp := rfl

omit abci in
theorem blockDeliverState_checkState (t : ABCIState σ) (c : CheckState σ) (header : Header) (maxGas : ℕ) :
    blockDeliverState { t with checkState := c } header maxGas = blockDeliverState t header maxGas := rfl

theorem Commit_checkState (t : ABCIState σ) (c : CheckState σ) :
    Commit abci { t with checkState := c } = Commit abci t := rfl

theorem BeginBlock_checkState (t : ABCIState σ) (c : CheckState σ) (header : Header) :
    BeginBlock abci { t with checkState := c } header =
      (BeginBlock abci t header).map fun t' => { t' with checkState := c } := by
  unfold BeginBlock
  dsimp only
  rcases validateHeight t.LastBlockHeight header with _ | msg
  · rcases getMaximumBlockGas t.consensusParams with e | maxGas
    · rfl
    · simp only [Except.ok_bind, blockDeliverState_checkState, Except.map_map]
      rfl
  · rfl

theorem DeliverTx_checkState (t : ABCIState σ) (c : CheckState σ) (txBytes : Bytes) :
    DeliverTx abci { t with checkState := c } txBytes =
      (DeliverTx abci t txBytes).map fun r => ({ r.1 with checkState := c }, r.2) := by
  unfold DeliverTx
  dsimp only
  rcases abci.txDecoder txBytes with code | tx
  · rfl
  · rcases t.deliverState with _ | ds
    · rfl
    · -- the block gas meter is a field of the deliver state the match reads
      rcases ds with ⟨ms, ctx, _ | blockGasMeter⟩ <;> rfl

theorem EndBlock_checkState (t : ABCIState σ) (c : CheckState σ) :
    EndBlock abci { t with checkState := c } = (EndBlock abci t).map fun t' => { t' with checkState := c } := by
  unfold EndBlock
  dsimp only
  rcases t.deliverState with _ | ds
  · rfl
  · rw [Except.map_map]
    rfl

/-- `CheckTx` writes the check state alone. -/
theorem CheckTx_frame (s : ABCIState σ) (txBytes : Bytes) :
    ∃ c, (CheckTx abci s txBytes).1 = { s with checkState := c } := by
  unfold CheckTx
  split <;> exact ⟨_, rfl⟩

/-- `CheckTx` changes nothing consensus sees and answers nothing it reads. -/
theorem step_silent (s : ABCIState σ) (req : Request) (hreq : req.isConsensus = false) :
    ∃ s' o, step abci s req = .ok (s', o) ∧ s'.consensus = s.consensus ∧ o.bind Response.consensus = none := by
  cases req with
  | CheckTx txBytes =>
    obtain ⟨c, hc⟩ := CheckTx_frame abci s txBytes
    exact ⟨_, _, rfl, by rw [hc]; rfl, rfl⟩
  | _ => cases hreq

/-- The other requests do the same from states of one consensus view. -/
theorem step_visible (s t : ABCIState σ) (req : Request) (hreq : req.isConsensus = true)
    (h : s.consensus = t.consensus) :
    (step abci s req).map (fun r => (r.1.consensus, r.2.bind Response.consensus)) =
      (step abci t req).map (fun r => (r.1.consensus, r.2.bind Response.consensus)) := by
  rw [ABCIState.eq_of_consensus_eq h]
  cases req with
  | CheckTx _ => cases hreq
  -- `Info` reports the version, which consensus sees
  | Info => rfl
  | InitChain ChainId Time cp => simp only [step, InitChain_checkState]
  | Commit => simp only [step, Commit_checkState]
  | BeginBlock header =>
    simp only [step, BeginBlock_checkState, Except.map_map]
    rfl
  | DeliverTx txBytes =>
    simp only [step, DeliverTx_checkState, Except.map_map]
    rfl
  | EndBlock =>
    simp only [step, EndBlock_checkState, Except.map_map]
    rfl

/-- **`CheckTx` never changes consensus.**  A run of requests and the same run
without its `CheckTx` requests halt alike, or end with the same committed store
and version, deliver state and consensus parameters, and give the same
responses to the other requests, `Info` included, in order. -/
theorem consensus_ignores_checkTx (s : ABCIState σ) (reqs : List Request) :
    (LoggedRun.runE (step abci) s reqs).map (fun r => (r.1.consensus, r.2.filterMap Response.consensus)) =
      (LoggedRun.runE (step abci) s (reqs.filter Request.isConsensus)).map
        fun r => (r.1.consensus, r.2.filterMap Response.consensus) :=
  LoggedRun.runE_filter (step abci) ABCIState.consensus Response.consensus Request.isConsensus
    (step_silent abci) (step_visible abci) reqs rfl

/-! ### Versions -/

/-- The version a response reports committing. -/
def Response.committedVersion : Response → Option ℕ
  | .Commit version => some version
  | _ => none

theorem InitChain_LastBlockHeight {s s' : ABCIState σ} {ChainId : String} {Time : ℤ}
    {cp : Option ConsensusParams} (h : InitChain abci s ChainId Time cp = .ok s') :
    s'.LastBlockHeight = s.LastBlockHeight := by
  unfold InitChain at h
  split at h
  · cases h
    rfl
  · obtain ⟨ds, -, rfl⟩ := Except.map_eq_ok.1 h
    rfl

theorem BeginBlock_LastBlockHeight {s s' : ABCIState σ} {header : Header}
    (h : BeginBlock abci s header = .ok s') : s'.LastBlockHeight = s.LastBlockHeight := by
  unfold BeginBlock at h
  rcases hv : validateHeight s.LastBlockHeight header with _ | msg <;> rw [hv] at h
  · obtain ⟨maxGas, -, hmap⟩ := Except.bind_eq_ok.1 h
    obtain ⟨ds, -, rfl⟩ := Except.map_eq_ok.1 hmap
    rfl
  · cases h

theorem DeliverTx_LastBlockHeight {s : ABCIState σ} {txBytes : Bytes} {r : ABCIState σ × Result}
    (h : DeliverTx abci s txBytes = .ok r) : r.1.LastBlockHeight = s.LastBlockHeight := by
  obtain ⟨cms, LastBlockHeight, checkState, ds, cp⟩ := s
  unfold DeliverTx at h
  rcases hd : abci.txDecoder txBytes with code | tx <;> rw [hd] at h
  · cases h
    rfl
  · rcases ds with _ | ⟨ms, ctx, _ | blockGasMeter⟩ <;> cases h
    rfl

theorem EndBlock_LastBlockHeight {s s' : ABCIState σ} (h : EndBlock abci s = .ok s') :
    s'.LastBlockHeight = s.LastBlockHeight := by
  obtain ⟨cms, LastBlockHeight, checkState, _ | ds, cp⟩ := s
  · cases h
  · obtain ⟨ds', -, rfl⟩ := Except.map_eq_ok.1 h
    rfl

theorem Commit_eq_ok {s : ABCIState σ} {r : ABCIState σ × ℕ} (h : Commit abci s = .ok r) :
    r.1.LastBlockHeight = s.LastBlockHeight + 1 ∧ r.2 = s.LastBlockHeight + 1 := by
  obtain ⟨cms, LastBlockHeight, checkState, _ | ds, cp⟩ := s <;> cases h
  exact ⟨rfl, rfl⟩

/-- What a request does to the version: `Commit` makes the next one and reports
it; every other request keeps it and reports no commit. -/
theorem step_LastBlockHeight {s s' : ABCIState σ} {req : Request} {o : Option Response}
    (h : step abci s req = .ok (s', o)) :
    (o.bind Response.committedVersion = some (s.LastBlockHeight + 1) ∧
        s'.LastBlockHeight = s.LastBlockHeight + 1) ∨
      (o.bind Response.committedVersion = none ∧ s'.LastBlockHeight = s.LastBlockHeight) := by
  cases req with
  | Info =>
    cases h
    exact .inr ⟨rfl, rfl⟩
  | InitChain ChainId Time cp =>
    obtain ⟨s₁, hs₁, hr⟩ := Except.map_eq_ok.1 h
    cases hr
    exact .inr ⟨rfl, InitChain_LastBlockHeight abci hs₁⟩
  | CheckTx txBytes =>
    cases h
    obtain ⟨c, hc⟩ := CheckTx_frame abci s txBytes
    exact .inr ⟨rfl, by rw [hc]⟩
  | BeginBlock header =>
    obtain ⟨s₁, hs₁, hr⟩ := Except.map_eq_ok.1 h
    cases hr
    exact .inr ⟨rfl, BeginBlock_LastBlockHeight abci hs₁⟩
  | DeliverTx txBytes =>
    obtain ⟨r, hr, heq⟩ := Except.map_eq_ok.1 h
    cases heq
    exact .inr ⟨rfl, DeliverTx_LastBlockHeight abci hr⟩
  | EndBlock =>
    obtain ⟨s₁, hs₁, hr⟩ := Except.map_eq_ok.1 h
    cases hr
    exact .inr ⟨rfl, EndBlock_LastBlockHeight abci hs₁⟩
  | Commit =>
    obtain ⟨r, hr, heq⟩ := Except.map_eq_ok.1 h
    cases heq
    obtain ⟨hheight, hversion⟩ := Commit_eq_ok abci hr
    exact .inl ⟨by rw [← hversion]; rfl, hheight⟩

/-- A sample chain: a counter for a store, transactions that are their bytes,
each one message, a handler that counts, and an end blocker that counts too. -/
def sampleABCI : ABCIApp ℕ Bytes Bytes where
  app _ := ⟨none, fun _ => some fun s gasMeter _ => ⟨gasMeter, s + 1, .ok ⟨CodeOK, 0, 0⟩⟩,
    fun tx => [tx], fun _ => none⟩
  txDecoder bytes := .ok bytes
  initChainer := none
  beginBlocker := none
  endBlocker := some fun _ s => .ok (s + 1)
  minGasPrices := []

/-- **Commits make consecutive versions.**  While the version has room below
`2⁶³`, where rootmulti's `int64` version would wrap, the versions that a run of
requests which does not halt commits are those after the last commit, each
once and in order, up to the version the run ends at, and that stays below
`2⁶³`. -/
theorem committed_heights (s : ABCIState σ) (reqs : List Request)
    (hroom : s.LastBlockHeight + reqs.length < 2 ^ 63) :
    (LoggedRun.runE (step abci) s reqs).Sat (fun _ => True) fun r =>
      r.1.LastBlockHeight < 2 ^ 63 ∧
      r.2.filterMap Response.committedVersion =
        List.range' (s.LastBlockHeight + 1) (r.1.LastBlockHeight - s.LastBlockHeight) := by
  rcases h : LoggedRun.runE (step abci) s reqs with e | ⟨s', log⟩
  · trivial
  -- the counter is the version the next commit makes
  obtain ⟨hle, hlog⟩ := LoggedRun.filterMap_runE_log (step abci) (fun s => s.LastBlockHeight + 1)
    Response.committedVersion (fun _ _ _ _ hstep => by
      rcases step_LastBlockHeight abci hstep with ⟨hout, hn⟩ | ⟨hout, hn⟩
      · exact .inl ⟨hout, by rw [hn]⟩
      · exact .inr ⟨hout, by rw [hn]⟩) reqs h
  rw [Nat.add_sub_add_right] at hlog
  -- each commit is one request: the version moves at most once per request
  have hcommits : s'.LastBlockHeight - s.LastBlockHeight ≤ reqs.length :=
    calc s'.LastBlockHeight - s.LastBlockHeight
        = (log.filterMap Response.committedVersion).length := by rw [hlog, List.length_range']
      _ ≤ log.length := List.length_filterMap_le _ _
      _ ≤ reqs.length := LoggedRun.length_runE_log_le (step abci) reqs h
  have hmono : s.LastBlockHeight ≤ s'.LastBlockHeight := Nat.le_of_add_le_add_right hle
  rw [Except.sat_ok]
  exact ⟨show s'.LastBlockHeight < 2 ^ 63 by omega, hlog⟩

theorem committed_heights_sampleABCI :
    (NewABCIState sampleABCI 0 0 none).LastBlockHeight +
        [Request.BeginBlock ⟨"", 1, 0⟩, .DeliverTx [1], .EndBlock, .Commit].length < 2 ^ 63 ∧
    (LoggedRun.runE (step sampleABCI) (NewABCIState sampleABCI 0 0 none)
        [.BeginBlock ⟨"", 1, 0⟩, .DeliverTx [1], .EndBlock, .Commit]).Sat (fun _ => True) fun r =>
      r.1.LastBlockHeight < 2 ^ 63 ∧
      r.2.filterMap Response.committedVersion =
        List.range' ((NewABCIState sampleABCI 0 0 none).LastBlockHeight + 1)
          (r.1.LastBlockHeight - (NewABCIState sampleABCI 0 0 none).LastBlockHeight) :=
  ⟨by decide, committed_heights sampleABCI _ _ (by decide)⟩

/-! ### A block in order -/

/-- Inside a block: the deliver state holds a block gas meter. -/
def InBlock (s : ABCIState σ) : Prop :=
  ∃ ds, s.deliverState = some ds ∧ ds.blockGasMeter.isSome

/-- The requests of one block, in the order consensus sends them. -/
def blockRequests (header : Header) (txs : List Bytes) : List Request :=
  .BeginBlock header :: (txs.map .DeliverTx ++ [.EndBlock, .Commit])

theorem validateHeight_eq_none {LastBlockHeight : ℕ} {header : Header}
    (h : header.Height = LastBlockHeight + 1) : validateHeight LastBlockHeight header = none := by
  unfold validateHeight
  rw [if_neg (by omega), if_neg (not_not.2 h)]

theorem getMaximumBlockGas_eq_ok {cp : Option ConsensusParams}
    (hgas : ∀ maxGas, cp.bind ConsensusParams.Block = some ⟨maxGas⟩ → -1 ≤ maxGas) :
    ∃ maxGas, getMaximumBlockGas cp = .ok maxGas := by
  unfold getMaximumBlockGas
  rcases hb : cp.bind ConsensusParams.Block with _ | ⟨⟨maxGas⟩⟩
  · exact ⟨0, rfl⟩
  · have hle := hgas maxGas hb
    dsimp only
    rw [if_neg (by omega)]
    split <;> exact ⟨_, rfl⟩

omit abci in
/-- A hook that does not panic runs, and writes the store of the deliver state
only. -/
theorem runHook_of_noPanic {hook : Option (Hook σ)} (h : ∀ f ∈ hook, Hook.NoPanic f)
    (ds : DeliverState σ) : ∃ ms, runHook hook ds = .ok { ds with ms := ms } := by
  cases hook with
  | none => exact ⟨ds.ms, rfl⟩
  | some f =>
    obtain ⟨ms, hms⟩ := h f rfl ds.ctx ds.ms
    exact ⟨ms, by rw [runHook, hms, Except.mapError_ok]; rfl⟩

/-- `BeginBlock` at the next height, under a valid block gas limit and a begin
blocker that does not panic, opens the block. -/
theorem BeginBlock_inBlock {s : ABCIState σ} {header : Header}
    (hheight : header.Height = s.LastBlockHeight + 1)
    (hgas : ∀ maxGas, s.consensusParams.bind ConsensusParams.Block = some ⟨maxGas⟩ → -1 ≤ maxGas)
    (hbegin : ∀ f ∈ abci.beginBlocker, Hook.NoPanic f) :
    ∃ s', BeginBlock abci s header = .ok s' ∧ InBlock s' ∧ s'.LastBlockHeight = s.LastBlockHeight := by
  obtain ⟨maxGas, hmax⟩ := getMaximumBlockGas_eq_ok hgas
  -- the begin blocker writes the store, not the block gas meter
  obtain ⟨ms, hms⟩ := runHook_of_noPanic hbegin (blockDeliverState s header maxGas)
  unfold BeginBlock
  rw [validateHeight_eq_none hheight]
  dsimp only
  rw [hmax, Except.ok_bind, hms]
  exact ⟨_, rfl, ⟨_, rfl, rfl⟩, rfl⟩

/-- Inside a block `DeliverTx` does not halt, whatever the bytes, and the
block stays open. -/
theorem DeliverTx_inBlock {s : ABCIState σ} (hs : InBlock s) (txBytes : Bytes) :
    ∃ r, DeliverTx abci s txBytes = .ok r ∧ InBlock r.1 ∧ r.1.LastBlockHeight = s.LastBlockHeight := by
  obtain ⟨⟨ms, ctx, _ | blockGasMeter⟩, hds, hg⟩ := hs
  · cases hg
  obtain ⟨cms, LastBlockHeight, checkState, ds, cp⟩ := s
  cases hds
  unfold DeliverTx
  rcases abci.txDecoder txBytes with code | tx
  · exact ⟨_, rfl, ⟨_, rfl, rfl⟩, rfl⟩
  · exact ⟨_, rfl, ⟨_, rfl, rfl⟩, rfl⟩

/-- Inside a block, an end blocker that does not panic keeps the block open. -/
theorem EndBlock_inBlock {s : ABCIState σ} (hs : InBlock s)
    (hend : ∀ f ∈ abci.endBlocker, Hook.NoPanic f) :
    ∃ s', EndBlock abci s = .ok s' ∧ InBlock s' ∧ s'.LastBlockHeight = s.LastBlockHeight := by
  obtain ⟨ds, hds, hg⟩ := hs
  obtain ⟨cms, LastBlockHeight, checkState, ds', cp⟩ := s
  cases hds
  -- the end blocker writes the store, not the block gas meter
  obtain ⟨ms, hms⟩ := runHook_of_noPanic hend ds
  unfold EndBlock
  dsimp only
  rw [hms]
  exact ⟨_, rfl, ⟨_, rfl, hg⟩, rfl⟩

theorem Commit_inBlock {s : ABCIState σ} (hs : InBlock s) : ∃ r, Commit abci s = .ok r := by
  obtain ⟨ds, hds, -⟩ := hs
  obtain ⟨cms, LastBlockHeight, checkState, ds', cp⟩ := s
  cases hds
  exact ⟨_, rfl⟩

/-- Inside a block, `DeliverTx`, and `EndBlock` under an end blocker that does
not panic, do not halt, and keep the block open at its height. -/
theorem step_inBlock {t : ABCIState σ} (hin : InBlock t) (hend : ∀ f ∈ abci.endBlocker, Hook.NoPanic f)
    {req : Request} (hreq : req = .EndBlock ∨ ∃ txBytes, req = .DeliverTx txBytes) :
    ∃ r, step abci t req = .ok r ∧ InBlock r.1 ∧ r.1.LastBlockHeight = t.LastBlockHeight := by
  rcases hreq with rfl | ⟨txBytes, rfl⟩
  · obtain ⟨t', h, hin', ht'⟩ := EndBlock_inBlock abci hin hend
    exact ⟨(t', some .EndBlock), Except.map_eq_ok.2 ⟨t', h, rfl⟩, hin', ht'⟩
  · obtain ⟨r, h, hin', ht'⟩ := DeliverTx_inBlock abci hin txBytes
    exact ⟨(r.1, some (.DeliverTx r.2)), Except.map_eq_ok.2 ⟨r, h, rfl⟩, hin', ht'⟩

/-- **A block in order commits.**  From any state, a block whose header carries
the next height, under consensus parameters whose block gas limit is valid and
begin and end blockers that do not panic, does not halt whatever its
transactions' bytes: it ends by committing the next version. -/
theorem block_commits (s : ABCIState σ) (header : Header) (txs : List Bytes)
    (hheight : header.Height = s.LastBlockHeight + 1)
    (hgas : ∀ maxGas, s.consensusParams.bind ConsensusParams.Block = some ⟨maxGas⟩ → -1 ≤ maxGas)
    (hbegin : ∀ f ∈ abci.beginBlocker, Hook.NoPanic f) (hend : ∀ f ∈ abci.endBlocker, Hook.NoPanic f) :
    ∃ s' log, LoggedRun.runE (step abci) s (blockRequests header txs) = .ok (s', log) ∧
      s'.LastBlockHeight = s.LastBlockHeight + 1 ∧ log.getLast? = some (.Commit (s.LastBlockHeight + 1)) := by
  -- BeginBlock opens the block
  obtain ⟨s₁, h₁, hin₁, hheight₁⟩ := BeginBlock_inBlock abci hheight hgas hbegin
  have hstep₁ : step abci s (.BeginBlock header) = .ok (s₁, some .BeginBlock) :=
    Except.map_eq_ok.2 ⟨s₁, h₁, rfl⟩
  -- the transactions and EndBlock keep it open at the same height
  obtain ⟨⟨s₂, log₂⟩, h₂, hin₂, hheight₂⟩ := LoggedRun.runE_ok_of_invariant (step abci)
    (P := fun t => InBlock t ∧ t.LastBlockHeight = s.LastBlockHeight)
    (H := fun req => req = .EndBlock ∨ ∃ txBytes, req = .DeliverTx txBytes)
    (fun t _ ⟨hin, ht⟩ hreq => by
      obtain ⟨r, h, hin', ht'⟩ := step_inBlock abci hin hend hreq
      exact ⟨r, h, hin', ht'.trans ht⟩)
    (l := txs.map .DeliverTx ++ [.EndBlock]) ⟨hin₁, hheight₁⟩ (fun req hreq => by
      rcases List.mem_append.1 hreq with hreq | hreq
      · obtain ⟨txBytes, -, rfl⟩ := List.mem_map.1 hreq
        exact .inr ⟨txBytes, rfl⟩
      · exact .inl (List.mem_singleton.1 hreq))
  -- Commit makes the next version
  obtain ⟨r, h₃⟩ := Commit_inBlock abci hin₂
  obtain ⟨hheight₃, hversion⟩ := Commit_eq_ok abci h₃
  have hstep₃ : step abci s₂ .Commit = .ok (r.1, some (.Commit r.2)) :=
    Except.map_eq_ok.2 ⟨r, h₃, rfl⟩
  have hreqs : blockRequests header txs =
      .BeginBlock header :: ((txs.map .DeliverTx ++ [.EndBlock]) ++ [.Commit]) := by
    simp [blockRequests]
  refine ⟨r.1, .BeginBlock :: (log₂ ++ [.Commit r.2]), ?_, by rw [hheight₃, hheight₂], ?_⟩
  · rw [hreqs, LoggedRun.runE_cons_of_eq_ok (step abci) _ hstep₁,
      LoggedRun.runE_append_of_eq_ok (step abci) _ h₂, LoggedRun.runE_cons_of_eq_ok (step abci) _ hstep₃]
    rfl
  · rw [← List.cons_append, List.getLast?_concat, hversion, hheight₂]

theorem block_commits_sampleABCI :
    (∀ f ∈ sampleABCI.endBlocker, Hook.NoPanic f) ∧
    ∃ s' log, LoggedRun.runE (step sampleABCI) (NewABCIState sampleABCI 0 0 none)
        (blockRequests ⟨"", 1, 0⟩ [[1], [2]]) = .ok (s', log) ∧
      s'.LastBlockHeight = 1 ∧ log.getLast? = some (.Commit 1) := by
  -- the end blocker counts, and never panics
  have hend : ∀ f ∈ sampleABCI.endBlocker, Hook.NoPanic f := by
    rintro f hf ctx ms
    cases hf
    exact ⟨ms + 1, rfl⟩
  exact ⟨hend, block_commits sampleABCI (NewABCIState sampleABCI 0 0 none) ⟨"", 1, 0⟩ [[1], [2]]
    (by decide) (fun _ h => nomatch h) (fun _ h => nomatch h) hend⟩

end BaseApp
end ColorSdk
