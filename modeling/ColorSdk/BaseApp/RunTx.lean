import Mathlib.Logic.Basic
import Mathlib.Data.Nat.Notation

/-!
# Running a transaction

`BaseApp.runTx` runs a transaction's ante handler and then its messages, each
on a cache-wrapped store that is written back only when they pass.  Two
deferred functions run when the body returns or panics.  The one registered
last runs first: in deliver mode it charges the transaction's gas to the block
gas meter, and that charge panics when the block runs past its limit.  The
other recovers the newest panic into an error result and records the gas.

The store is a parameter `σ`.  A handler sees the contents of its cache and
returns what the cache holds when it stops; writing the cache back makes that
the store, as `CacheKV.cacheKV_refines_map` shows of `cachekv.Store`.  Gas
meters are pointers in Go, shared by a context and the contexts made from it:
a handler returns the meter of its context as it left it, also when it panics.

The block gas is charged after the messages' cache was written back.  When the
charge runs past the block's limit, its panic turns the result into
`ErrOutOfGas` while the messages' writes stay in the store.

## Main definitions

* `GasMeter`, `GasMeter.ConsumeGas` — `basicGasMeter` and `infiniteGasMeter`.
* `Ran`, `Handler`, `AnteHandler`, `App` — application code as `runTx` calls it.
* `runMsgs`, `runAnte`, `runTxBody`, `consumeBlockGas`, `runTx`.

## Main results

* `runTx_isOK` — a result that is OK commits the writes of the ante handler and
  of every message, each of which passed.
* `runTx_msgs_fail` — when a message fails or panics, only the ante handler's
  writes are committed.
* `runTx_ante_stops` — when the ante handler aborts or panics, nothing is.
* `runTx_deliver_store` — the store after a delivery is the store before it, the
  ante handler's writes, or the messages' writes over those; `runMsgs_store`
  carries a relation of stores through the messages.
* `runTx_of_ante_refuses` — a transaction the ante handler does not let
  through changes nothing.
* `runTx_block_gas_panic` — when every message passes but the block gas charge
  panics, the messages' writes are committed and the result is an error.

## References

* src/baseapp/baseapp.go, src/store/types/gas.go
-/

namespace ColorSdk
namespace BaseApp

/-! ### Results and panics -/

/-- `CodeOK`. -/
def CodeOK : ℕ := 0

/-- `CodeInternal`. -/
def CodeInternal : ℕ := 1

/-- `CodeUnknownRequest`. -/
def CodeUnknownRequest : ℕ := 6

/-- `CodeOutOfGas`. -/
def CodeOutOfGas : ℕ := 12

/-- `math.MaxUint64`: gas is a `uint64`. -/
def MaxUint64 : ℕ := 18446744073709551615

/-- A value a deferred `recover` may see. -/
inductive Panic where
  | ErrorOutOfGas (Descriptor : String)
  | ErrorGasOverflow (Descriptor : String)
  /-- Any other panic of application code. -/
  | other
  deriving DecidableEq, Repr

/-- `sdk.Result`, with the fields `runTx` reads and sets. -/
structure Result where
  Code : ℕ
  GasWanted : ℕ
  GasUsed : ℕ
  deriving DecidableEq, Repr

/-- `Result.IsOK`. -/
def Result.IsOK (res : Result) : Bool := res.Code == CodeOK

/-- `sdk.Error.Result()`: the error's code, and no gas. -/
def ErrResult (code : ℕ) : Result := ⟨code, 0, 0⟩

/-! ### Gas meters -/

/-- `basicGasMeter`, with `some` limit, or `infiniteGasMeter`. -/
structure GasMeter where
  limit : Option ℕ
  consumed : ℕ
  deriving DecidableEq, Repr

namespace GasMeter

/-- `NewGasMeter`. -/
def NewGasMeter (limit : ℕ) : GasMeter := ⟨some limit, 0⟩

/-- `NewInfiniteGasMeter`. -/
def NewInfiniteGasMeter : GasMeter := ⟨none, 0⟩

def GasConsumed (g : GasMeter) : ℕ := g.consumed

def IsPastLimit (g : GasMeter) : Bool :=
  match g.limit with
  | some limit => decide (limit < g.consumed)
  | none => false

def IsOutOfGas (g : GasMeter) : Bool :=
  match g.limit with
  | some limit => decide (limit ≤ g.consumed)
  | none => false

def GasConsumedToLimit (g : GasMeter) : ℕ :=
  match g.limit with
  | some limit => if g.IsPastLimit then limit else g.consumed
  | none => g.consumed

/-- `addUint64Overflow`: the sum, or zero and `true` when it overflows. -/
def addUint64Overflow (a b : ℕ) : ℕ × Bool :=
  if MaxUint64 - a < b then (0, true) else (a + b, false)

/-- `ConsumeGas`: the meter afterwards, and the panic it raises.  The meter
keeps what it consumed also when it panics. -/
def ConsumeGas (g : GasMeter) (amount : ℕ) (descriptor : String) : GasMeter × Option Panic :=
  let (consumed, overflow) := addUint64Overflow g.consumed amount
  let g := { g with consumed := consumed }
  if overflow then (g, some (.ErrorGasOverflow descriptor))
  else match g.limit with
    | some limit => if limit < consumed then (g, some (.ErrorOutOfGas descriptor)) else (g, none)
    | none => (g, none)

end GasMeter

/-! ### Application code -/

/-- `runTxMode`. -/
inductive RunTxMode where
  | check
  | simulate
  | deliver
  deriving DecidableEq, Repr

/-- How application code run on a context ends: the gas meter of the context
and the contents of its store when it stopped, and its value or the panic it
raised. -/
structure Ran (σ α : Type) where
  gasMeter : GasMeter
  store : σ
  value : Except Panic α

/-- `sdk.Handler`: a message handler run on a context. -/
def Handler (σ M : Type) : Type := σ → GasMeter → M → Ran σ Result

/-- What `sdk.AnteHandler` returns: the gas meter of the new context, `none` for
the zero context, its result, and whether the transaction is aborted. -/
structure AnteReturn where
  newCtx : Option GasMeter
  result : Result
  abort : Bool
  deriving DecidableEq

/-- `sdk.AnteHandler`: run on a context, for a transaction, in simulation or
not. -/
def AnteHandler (σ Tx : Type) : Type := σ → GasMeter → Tx → Bool → Ran σ AnteReturn

/-- What `runTx` uses of a `BaseApp` and of its transactions and messages. -/
structure App (σ Tx M : Type) where
  anteHandler : Option (AnteHandler σ Tx)
  /-- `app.router.Route(msg.Route())`. -/
  route : M → Option (Handler σ M)
  GetMsgs : Tx → List M
  /-- `msg.ValidateBasic()`, the code of its error. -/
  ValidateBasic : M → Option ℕ

variable {σ Tx M : Type}

/-- `validateBasicTxMsgs`: a transaction has a message, and each passes its
stateless checks. -/
def validateBasicTxMsgs (app : App σ Tx M) (msgs : List M) : Option ℕ :=
  if msgs = [] then some CodeUnknownRequest else msgs.findSome? app.ValidateBasic

/-- `runMsgs`: run the messages in turn on the store of the context, stopping
at the first that fails.  In check mode the handlers are not run. -/
def runMsgs (app : App σ Tx M) (mode : RunTxMode) : List M → σ → GasMeter → Ran σ Result
  | [], store, gasMeter => ⟨gasMeter, store, .ok ⟨CodeOK, 0, gasMeter.GasConsumed⟩⟩
  | msg :: msgs, store, gasMeter =>
    match app.route msg with
    | none => ⟨gasMeter, store, .ok (ErrResult CodeUnknownRequest)⟩
    | some handler =>
      -- skip actual execution for CheckTx mode
      let r : Ran σ Result :=
        if mode = .check then ⟨gasMeter, store, .ok ⟨CodeOK, 0, 0⟩⟩ else handler store gasMeter msg
      match r.value with
      | .error p => ⟨r.gasMeter, r.store, .error p⟩
      | .ok msgResult =>
        -- stop execution and return on first failed message
        if msgResult.IsOK then runMsgs app mode msgs r.store r.gasMeter
        else ⟨r.gasMeter, r.store, .ok ⟨msgResult.Code, 0, r.gasMeter.GasConsumed⟩⟩

/-- Where the body of `runTx` stops: the store of the mode's state, the gas
meter of the transaction's context, the gas wanted, and the result it returns or
the panic it raises. -/
structure Body (σ : Type) where
  store : σ
  gasMeter : GasMeter
  gasWanted : ℕ
  result : Except Panic Result

/-- The ante handler's part of `runTx`, on a cache-wrapped store: the body
stops, or goes on with the store, gas meter and gas wanted it leaves. -/
def runAnte (app : App σ Tx M) (mode : RunTxMode) (ms : σ) (gasMeter : GasMeter) (tx : Tx) :
    Body σ ⊕ (σ × GasMeter × ℕ) :=
  match app.anteHandler with
  | none => .inr (ms, gasMeter, 0)
  | some anteHandler =>
    let r := anteHandler ms gasMeter tx (decide (mode = .simulate))
    match r.value with
    | .error p => .inl ⟨ms, r.gasMeter, 0, .error p⟩
    | .ok ret =>
      -- the context is the new one from now on, unless that is the zero context
      let gasMeter := ret.newCtx.getD r.gasMeter
      if ret.abort then .inl ⟨ms, gasMeter, ret.result.GasWanted, .ok ret.result⟩
      else .inr (r.store, gasMeter, ret.result.GasWanted)

/-- The body of `runTx`, from its checks of the messages to its return or panic.
Check mode returns the named result, which nothing has set. -/
def runTxBody (app : App σ Tx M) (mode : RunTxMode) (ms : σ) (gasMeter : GasMeter) (tx : Tx) :
    Body σ :=
  match validateBasicTxMsgs app (app.GetMsgs tx) with
  | some code => ⟨ms, gasMeter, 0, .ok (ErrResult code)⟩
  | none =>
    match runAnte app mode ms gasMeter tx with
    | .inl stopped => stopped
    | .inr (ms, gasMeter, gasWanted) =>
      if mode = .check then ⟨ms, gasMeter, gasWanted, .ok ⟨CodeOK, 0, 0⟩⟩
      else
        -- the messages run on another cache-wrapped store
        let r := runMsgs app mode (app.GetMsgs tx) ms gasMeter
        match r.value with
        | .error p => ⟨ms, r.gasMeter, gasWanted, .error p⟩
        | .ok result =>
          let result := { result with GasWanted := gasWanted }
          if mode = .simulate then ⟨ms, r.gasMeter, gasWanted, .ok result⟩
          -- only update state if all messages pass
          else if result.IsOK then ⟨r.store, r.gasMeter, gasWanted, .ok result⟩
          else ⟨ms, r.gasMeter, gasWanted, .ok result⟩

/-- The deferred charge of the transaction's gas to the block gas meter. -/
def consumeBlockGas (blockGasMeter gasMeter : GasMeter) (startingGas : ℕ) :
    GasMeter × Option Panic :=
  match blockGasMeter.ConsumeGas gasMeter.GasConsumedToLimit "block gas meter" with
  | (blockGasMeter, some p) => (blockGasMeter, some p)
  | (blockGasMeter, none) =>
    if blockGasMeter.GasConsumed < startingGas then
      (blockGasMeter, some (.ErrorGasOverflow "tx gas summation"))
    else (blockGasMeter, none)

/-- The result the deferred `recover` makes of a panic. -/
def recoverResult : Panic → Result
  | .ErrorOutOfGas _ => ErrResult CodeOutOfGas
  | _ => ErrResult CodeInternal

/-- What `runTx` reads and writes of the state of its mode: the store and the
block gas meter. -/
structure TxState (σ : Type) where
  ms : σ
  blockGasMeter : GasMeter

/-- `runTx`, for a context whose gas meter is `gasMeter`.  In simulate mode the
context is cache-wrapped and nothing is kept. -/
def runTx (app : App σ Tx M) (mode : RunTxMode) (st : TxState σ) (gasMeter : GasMeter) (tx : Tx) :
    Result × TxState σ :=
  -- only run the tx if there is block gas remaining
  if mode = .deliver ∧ st.blockGasMeter.IsOutOfGas then (ErrResult CodeOutOfGas, st)
  else
    let startingGas := if mode = .deliver then st.blockGasMeter.GasConsumed else 0
    let body := runTxBody app mode st.ms gasMeter tx
    let (blockGasMeter, blockGasPanic) :=
      if mode = .deliver then consumeBlockGas st.blockGasMeter body.gasMeter startingGas
      else (st.blockGasMeter, none)
    -- a panic of the deferred charge replaces the body's; recover sees the newest
    let result := match blockGasPanic, body.result with
      | some p, _ => recoverResult p
      | none, .error p => recoverResult p
      | none, .ok result => result
    ({ result with GasWanted := body.gasWanted, GasUsed := body.gasMeter.GasConsumed },
      ⟨if mode = .simulate then st.ms else body.store, blockGasMeter⟩)

/-! ### What a transaction commits -/

/-- A recovered panic is an error. -/
@[simp] theorem recoverResult_code_ne (p : Panic) : (recoverResult p).Code ≠ CodeOK := by
  cases p <;> simp [recoverResult, ErrResult, CodeOutOfGas, CodeInternal, CodeOK]

@[simp] theorem errResult_isOK_of_ne {code : ℕ} (h : code ≠ CodeOK) : (ErrResult code).IsOK = false := by
  simpa [ErrResult, Result.IsOK] using h

/-- The ante handlers that abort only with an error, as `auth.NewAnteHandler`
does. -/
def AbortsWithError (app : App σ Tx M) : Prop :=
  ∀ anteHandler ∈ app.anteHandler, ∀ ms gasMeter tx simulate ret,
    (anteHandler ms gasMeter tx simulate).value = .ok ret → ret.abort = true → ret.result.IsOK = false

/-- The messages whose stateless checks fail with an error code. -/
def ValidatesWithError (app : App σ Tx M) : Prop :=
  ∀ msg code, app.ValidateBasic msg = some code → code ≠ CodeOK

variable {app : App σ Tx M}

/-- In deliver mode, the store is the body's unless no block gas was left. -/
theorem runTx_deliver_ms (st : TxState σ) (gasMeter : GasMeter) (tx : Tx) :
    (runTx app .deliver st gasMeter tx).2.ms =
      if st.blockGasMeter.IsOutOfGas then st.ms else (runTxBody app .deliver st.ms gasMeter tx).store := by
  by_cases h : st.blockGasMeter.IsOutOfGas = true
  · simp [runTx, h]
  · simp [runTx, h]

/-- In deliver mode, the result is OK exactly when block gas was left, the body
returned an OK result, and the deferred charge did not panic. -/
theorem runTx_deliver_isOK (st : TxState σ) (gasMeter : GasMeter) (tx : Tx) :
    (runTx app .deliver st gasMeter tx).1.IsOK = true ↔
      st.blockGasMeter.IsOutOfGas = false ∧
      (consumeBlockGas st.blockGasMeter (runTxBody app .deliver st.ms gasMeter tx).gasMeter
        st.blockGasMeter.GasConsumed).2 = none ∧
      ∃ r, (runTxBody app .deliver st.ms gasMeter tx).result = .ok r ∧ r.IsOK = true := by
  by_cases h : st.blockGasMeter.IsOutOfGas = true
  · simp [runTx, h, ErrResult, Result.IsOK, CodeOutOfGas, CodeOK]
  -- the deferred charge's panic, if any, decides first; then the body's ending
  rcases hc : consumeBlockGas st.blockGasMeter (runTxBody app .deliver st.ms gasMeter tx).gasMeter
    st.blockGasMeter.GasConsumed with ⟨blockGasMeter, _ | p⟩
  all_goals
    rcases hb : (runTxBody app .deliver st.ms gasMeter tx).result with p' | r
    all_goals simp [runTx, h, hc, hb, Result.IsOK]

/-- When the ante handler stops the body, nothing was written, and the result is
an error. -/
theorem runAnte_stops (happ : AbortsWithError app) {mode : RunTxMode} {ms : σ}
    {gasMeter : GasMeter} {tx : Tx} {b : Body σ} (h : runAnte app mode ms gasMeter tx = .inl b) :
    b.store = ms ∧ ∀ r, b.result = .ok r → r.IsOK = false := by
  unfold runAnte at h
  split at h
  · cases h
  · rename_i anteHandler hante
    dsimp only at h
    split at h
    · -- the ante handler panicked
      cases h
      exact ⟨rfl, fun r hr => by cases hr⟩
    · rename_i ret hret
      split at h
      · -- it aborted, with its own result
        rename_i habort
        cases h
        refine ⟨rfl, fun r hr => ?_⟩
        cases hr
        exact happ anteHandler (Option.mem_def.2 hante) _ _ _ _ ret hret habort
      · cases h

/-- The body of deliver mode once the checks and the ante handler passed: the
messages run on what the ante handler wrote, which their writes replace when
they all pass. -/
theorem runTxBody_deliver_of_runAnte {ms : σ} {gasMeter : GasMeter} {tx : Tx} {s₁ : σ}
    {g₁ : GasMeter} {w : ℕ} (hv : validateBasicTxMsgs app (app.GetMsgs tx) = none)
    (ha : runAnte app .deliver ms gasMeter tx = .inr (s₁, g₁, w)) :
    runTxBody app .deliver ms gasMeter tx =
      match (runMsgs app .deliver (app.GetMsgs tx) s₁ g₁).value with
      | .error p => ⟨s₁, (runMsgs app .deliver (app.GetMsgs tx) s₁ g₁).gasMeter, w, .error p⟩
      | .ok result =>
        if result.IsOK then
          ⟨(runMsgs app .deliver (app.GetMsgs tx) s₁ g₁).store,
            (runMsgs app .deliver (app.GetMsgs tx) s₁ g₁).gasMeter, w, .ok { result with GasWanted := w }⟩
        else ⟨s₁, (runMsgs app .deliver (app.GetMsgs tx) s₁ g₁).gasMeter, w,
          .ok { result with GasWanted := w }⟩ := by
  simp only [runTxBody, hv, ha, reduceCtorEq, if_false]
  split <;> simp [Result.IsOK]

/-- A failed check has an error code. -/
theorem validateBasicTxMsgs_ne (hvalid : ValidatesWithError app) {msgs : List M} {code : ℕ}
    (h : validateBasicTxMsgs app msgs = some code) : code ≠ CodeOK := by
  unfold validateBasicTxMsgs at h
  split at h
  · cases h
    decide
  · obtain ⟨msg, -, hmsg⟩ := List.exists_of_findSome?_eq_some h
    exact hvalid msg code hmsg

/-- **A result that is OK commits every write.**  In deliver mode, an OK result
means that the checks, the ante handler and every message passed, and the store
holds the messages' writes over the ante handler's. -/
theorem runTx_isOK (happ : AbortsWithError app) (hvalid : ValidatesWithError app)
    {st : TxState σ} {gasMeter : GasMeter} {tx : Tx}
    (h : (runTx app .deliver st gasMeter tx).1.IsOK = true) :
    ∃ s₁ g₁ w r, runAnte app .deliver st.ms gasMeter tx = .inr (s₁, g₁, w) ∧
      (runMsgs app .deliver (app.GetMsgs tx) s₁ g₁).value = .ok r ∧ r.IsOK = true ∧
      (runTx app .deliver st gasMeter tx).2.ms =
        (runMsgs app .deliver (app.GetMsgs tx) s₁ g₁).store := by
  obtain ⟨hblock, -, r, hr, hok⟩ := (runTx_deliver_isOK st gasMeter tx).1 h
  rw [runTx_deliver_ms, hblock, if_neg Bool.false_ne_true]
  rcases hv : validateBasicTxMsgs app (app.GetMsgs tx) with _ | code
  case some =>
    -- a failed check returns its error
    simp only [runTxBody, hv, Except.ok.injEq] at hr
    subst hr
    exact absurd hok (by simp [errResult_isOK_of_ne (validateBasicTxMsgs_ne hvalid hv)])
  rcases ha : runAnte app .deliver st.ms gasMeter tx with b | ⟨s₁, g₁, w⟩
  · -- an ante handler that stops the body returns an error
    have hb : b.result = .ok r := by simpa [runTxBody, hv, ha] using hr
    exact absurd hok (by simp [(runAnte_stops happ ha).2 r hb])
  rw [runTxBody_deliver_of_runAnte hv ha] at hr ⊢
  rcases hm : (runMsgs app .deliver (app.GetMsgs tx) s₁ g₁).value with p | r'
  · simp [hm] at hr
  by_cases hr' : r'.IsOK = true
  · exact ⟨s₁, g₁, w, r', rfl, hm, hr', by simp [hr']⟩
  · -- a failed message's result is the transaction's
    simp only [hm, hr', if_false, Bool.false_eq_true, Except.ok.injEq] at hr
    subst hr
    exact absurd hok (by simpa [Result.IsOK] using hr')

/-- **An ante handler that stops the transaction leaves the store.** -/
theorem runTx_ante_stops (happ : AbortsWithError app) {st : TxState σ} {gasMeter : GasMeter}
    {tx : Tx} {b : Body σ} (hv : validateBasicTxMsgs app (app.GetMsgs tx) = none)
    (ha : runAnte app .deliver st.ms gasMeter tx = .inl b) :
    (runTx app .deliver st gasMeter tx).2.ms = st.ms ∧
      (runTx app .deliver st gasMeter tx).1.IsOK = false := by
  have hbody : runTxBody app .deliver st.ms gasMeter tx = b := by simp [runTxBody, hv, ha]
  have hstops := runAnte_stops happ ha
  constructor
  · rw [runTx_deliver_ms, hbody, hstops.1]
    split <;> rfl
  · rw [Bool.eq_false_iff]
    intro h
    obtain ⟨-, -, r, hr, hok⟩ := (runTx_deliver_isOK st gasMeter tx).1 h
    rw [hbody] at hr
    exact absurd hok (by simp [hstops.2 r hr])

/-- **A failed message leaves only the ante handler's writes.**  When a message
fails or panics, the store holds what the ante handler wrote, and the result is
an error. -/
theorem runTx_msgs_fail {st : TxState σ} {gasMeter : GasMeter} {tx : Tx} {s₁ : σ}
    {g₁ : GasMeter} {w : ℕ} (hblock : st.blockGasMeter.IsOutOfGas = false)
    (hv : validateBasicTxMsgs app (app.GetMsgs tx) = none)
    (ha : runAnte app .deliver st.ms gasMeter tx = .inr (s₁, g₁, w))
    (hfail : ∀ r, (runMsgs app .deliver (app.GetMsgs tx) s₁ g₁).value = .ok r → r.IsOK = false) :
    (runTx app .deliver st gasMeter tx).2.ms = s₁ ∧
      (runTx app .deliver st gasMeter tx).1.IsOK = false := by
  -- the body returns the messages' error, or raises their panic
  have hbody : (runTxBody app .deliver st.ms gasMeter tx).store = s₁ ∧
      ∀ r, (runTxBody app .deliver st.ms gasMeter tx).result = .ok r → r.IsOK = false := by
    rw [runTxBody_deliver_of_runAnte hv ha]
    rcases hm : (runMsgs app .deliver (app.GetMsgs tx) s₁ g₁).value with p | r
    · exact ⟨rfl, fun r hr => by cases hr⟩
    · have hr := hfail r hm
      refine ⟨by simp [hr], fun r' hr' => ?_⟩
      simp only [hr, Bool.false_eq_true, if_false, Except.ok.injEq] at hr'
      subst hr'
      simpa [Result.IsOK] using hr
  constructor
  · rw [runTx_deliver_ms, hblock, if_neg Bool.false_ne_true, hbody.1]
  · rw [Bool.eq_false_iff]
    intro h
    obtain ⟨-, -, r, hr, hok⟩ := (runTx_deliver_isOK st gasMeter tx).1 h
    exact absurd hok (by simp [hbody.2 r hr])

/-- **The block gas charge fails a transaction whose writes it keeps.**  When
every message passes but charging the transaction's gas to the block panics,
the store holds the messages' writes while the result is the recovered panic's
error. -/
theorem runTx_block_gas_panic {st : TxState σ} {gasMeter : GasMeter} {tx : Tx} {s₁ : σ}
    {g₁ : GasMeter} {w : ℕ} {r : Result} {p : Panic}
    (hblock : st.blockGasMeter.IsOutOfGas = false)
    (hv : validateBasicTxMsgs app (app.GetMsgs tx) = none)
    (ha : runAnte app .deliver st.ms gasMeter tx = .inr (s₁, g₁, w))
    (hm : (runMsgs app .deliver (app.GetMsgs tx) s₁ g₁).value = .ok r) (hr : r.IsOK = true)
    (hp : (consumeBlockGas st.blockGasMeter (runMsgs app .deliver (app.GetMsgs tx) s₁ g₁).gasMeter
      st.blockGasMeter.GasConsumed).2 = some p) :
    (runTx app .deliver st gasMeter tx).2.ms = (runMsgs app .deliver (app.GetMsgs tx) s₁ g₁).store ∧
      (runTx app .deliver st gasMeter tx).1 =
        { recoverResult p with
          GasWanted := w
          GasUsed := (runMsgs app .deliver (app.GetMsgs tx) s₁ g₁).gasMeter.GasConsumed } := by
  have hbody : runTxBody app .deliver st.ms gasMeter tx =
      ⟨(runMsgs app .deliver (app.GetMsgs tx) s₁ g₁).store,
        (runMsgs app .deliver (app.GetMsgs tx) s₁ g₁).gasMeter, w, .ok { r with GasWanted := w }⟩ := by
    rw [runTxBody_deliver_of_runAnte hv ha]
    simp [hm, hr]
  rcases hc : consumeBlockGas st.blockGasMeter (runMsgs app .deliver (app.GetMsgs tx) s₁ g₁).gasMeter
    st.blockGasMeter.GasConsumed with ⟨blockGasMeter, q⟩
  rw [hc] at hp
  cases hp
  simp [runTx, hblock, hbody, hc]

/-! ### What a transaction leaves in the store -/

/-- The ante handler's part that stops the body leaves the store as it was. -/
theorem runAnte_inl_store {mode : RunTxMode} {ms : σ} {gasMeter : GasMeter} {tx : Tx} {b : Body σ}
    (h : runAnte app mode ms gasMeter tx = .inl b) : b.store = ms := by
  unfold runAnte at h
  rcases hante : app.anteHandler with _ | anteHandler
  · simp [hante] at h
  simp only [hante] at h
  rcases hr : (anteHandler ms gasMeter tx (decide (mode = .simulate))).value with p | ret
  · simp only [hr, Sum.inl.injEq] at h
    rw [← h]
  · simp only [hr] at h
    split at h
    · rw [← Sum.inl.inj h]
    · cases h

/-- The ante handler's part goes on with the store the ante handler left when
it let the transaction through, or with the store as it was when there is no
ante handler. -/
theorem runAnte_eq_inr {mode : RunTxMode} {ms : σ} {gasMeter : GasMeter} {tx : Tx} {s₁ : σ}
    {g₁ : GasMeter} {w : ℕ} (h : runAnte app mode ms gasMeter tx = .inr (s₁, g₁, w)) :
    (app.anteHandler = none ∧ s₁ = ms) ∨ ∃ anteHandler ∈ app.anteHandler, ∃ ret,
      (anteHandler ms gasMeter tx (decide (mode = .simulate))).value = .ok ret ∧ ret.abort = false ∧
      (anteHandler ms gasMeter tx (decide (mode = .simulate))).store = s₁ := by
  unfold runAnte at h
  rcases hante : app.anteHandler with _ | anteHandler
  · simp only [hante, Sum.inr.injEq, Prod.mk.injEq] at h
    exact .inl ⟨rfl, h.1.symm⟩
  simp only [hante] at h
  rcases hr : (anteHandler ms gasMeter tx (decide (mode = .simulate))).value with p | ret
  · simp [hr] at h
  · simp only [hr] at h
    split at h
    · cases h
    · rename_i habort
      simp only [Sum.inr.injEq, Prod.mk.injEq] at h
      exact .inr ⟨anteHandler, rfl, ret, hr, by simpa using habort, h.1⟩

/-- **The messages' rule.**  A reflexive and transitive relation that every
routed handler's run establishes holds between the store before the messages
and the store after them. -/
theorem runMsgs_store {R : σ → σ → Prop} (hrefl : ∀ s, R s s)
    (htrans : ∀ s₁ s₂ s₃, R s₁ s₂ → R s₂ s₃ → R s₁ s₃)
    (hhandler : ∀ msg handler, app.route msg = some handler → ∀ s gasMeter, R s (handler s gasMeter msg).store)
    (mode : RunTxMode) :
    ∀ (msgs : List M) (s : σ) (gasMeter : GasMeter), R s (runMsgs app mode msgs s gasMeter).store
  | [], s, _ => hrefl s
  | msg :: msgs, s, gasMeter => by
    unfold runMsgs
    rcases hroute : app.route msg with _ | handler
    · exact hrefl s
    -- the handler's run, skipped in check mode
    have hr : R s (if mode = .check then (⟨gasMeter, s, .ok ⟨CodeOK, 0, 0⟩⟩ : Ran σ Result)
        else handler s gasMeter msg).store := by
      split
      · exact hrefl s
      · exact hhandler msg handler hroute s gasMeter
    dsimp only
    split
    · exact hr
    · split
      · exact htrans _ _ _ hr (runMsgs_store hrefl htrans hhandler mode msgs _ _)
      · exact hr

/-- In deliver mode the store after a transaction is the store before it, or
the store the ante handler left when it let the transaction through, or the
messages' writes over that. -/
theorem runTx_deliver_store (st : TxState σ) (gasMeter : GasMeter) (tx : Tx) :
    (runTx app .deliver st gasMeter tx).2.ms = st.ms ∨
      ∃ s₁ g₁ w, runAnte app .deliver st.ms gasMeter tx = .inr (s₁, g₁, w) ∧
        ((runTx app .deliver st gasMeter tx).2.ms = s₁ ∨
          (runTx app .deliver st gasMeter tx).2.ms = (runMsgs app .deliver (app.GetMsgs tx) s₁ g₁).store) := by
  rw [runTx_deliver_ms]
  split
  · exact .inl rfl
  rcases hv : validateBasicTxMsgs app (app.GetMsgs tx) with _ | code
  case some => exact .inl (by simp [runTxBody, hv])
  rcases ha : runAnte app .deliver st.ms gasMeter tx with b | ⟨s₁, g₁, w⟩
  · exact .inl (by simpa [runTxBody, hv, ha] using runAnte_inl_store ha)
  refine .inr ⟨s₁, g₁, w, rfl, ?_⟩
  rw [runTxBody_deliver_of_runAnte hv ha]
  -- the messages' writes are kept when they all pass
  split
  · exact .inl rfl
  · split
    · exact .inr rfl
    · exact .inl rfl

/-- **A transaction the ante handler does not let through changes nothing.**
Its result is an error, and the store is as it was. -/
theorem runTx_of_ante_refuses (happ : AbortsWithError app) (hvalid : ValidatesWithError app)
    {st : TxState σ} {gasMeter : GasMeter} {tx : Tx}
    (h : ∀ s₁ g₁ w, runAnte app .deliver st.ms gasMeter tx ≠ .inr (s₁, g₁, w)) :
    (runTx app .deliver st gasMeter tx).1.IsOK = false ∧ (runTx app .deliver st gasMeter tx).2.ms = st.ms := by
  constructor
  · rw [Bool.eq_false_iff]
    intro hok
    obtain ⟨s₁, g₁, w, -, ha, -⟩ := runTx_isOK happ hvalid hok
    exact h s₁ g₁ w ha
  · rcases runTx_deliver_store st gasMeter tx with hms | ⟨s₁, g₁, w, ha, -⟩
    · exact hms
    · exact absurd ha (h s₁ g₁ w)

/-! ### A block that runs past its gas -/

/-- A handler that writes one to a counter store for 9 gas. -/
def sampleHandler : Handler ℕ Unit := fun store gasMeter _ =>
  match gasMeter.ConsumeGas 9 "WriteFlat" with
  | (gasMeter, some p) => ⟨gasMeter, store + 1, .error p⟩
  | (gasMeter, none) => ⟨gasMeter, store + 1, .ok ⟨CodeOK, 0, 0⟩⟩

/-- An ante handler that gives each transaction a gas meter of limit 10, as the
fee of its transactions asks. -/
def sampleAnteHandler : AnteHandler ℕ Unit := fun ms gasMeter _ _ =>
  ⟨gasMeter, ms, .ok ⟨some (GasMeter.NewGasMeter 10), ⟨CodeOK, 10, 0⟩, false⟩⟩

/-- An app whose transactions hold one message, routed to `sampleHandler`. -/
def sampleApp : App ℕ Unit Unit where
  anteHandler := some sampleAnteHandler
  route _ := some sampleHandler
  GetMsgs _ := [()]
  ValidateBasic _ := none

/-- A block of gas limit 100 that has used 99: gas is left. -/
def sampleBlock : TxState ℕ := ⟨0, ⟨some 100, 99⟩⟩

theorem runTx_commits_out_of_gas :
    sampleBlock.blockGasMeter.IsOutOfGas = false ∧
      (runMsgs sampleApp .deliver [()] 0 (GasMeter.NewGasMeter 10)).value = .ok ⟨CodeOK, 0, 9⟩ ∧
      (runTx sampleApp .deliver sampleBlock GasMeter.NewInfiniteGasMeter ()).2.ms = 1 ∧
      (runTx sampleApp .deliver sampleBlock GasMeter.NewInfiniteGasMeter ()).1 = ⟨CodeOutOfGas, 10, 9⟩ :=
  ⟨rfl, rfl, rfl, rfl⟩

end BaseApp
end ColorSdk
