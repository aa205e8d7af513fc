import SharedTsLibs.Lib.Slots
import SharedTsLibs.Lib.StepSystem
import SharedTsLibs.BackgroundJobs.FlowJobs

/-!
# The flow manager

`FlowManager` owns one BullMQ `FlowProducer`, built by `start` (or by the first
call that needs it) and closed by `dispose`.  Its methods are asynchronous: a
call runs up to its next `await`, then waits there while other calls run.

* `FlowManager` — the fields of the class, with what the outside world sees: the
  producers built and closed, and the calls made on them.
* `DoStart`, `CallPhase` — where an execution of `doStart`, and a call, stands.
* `flowStep` — what one event does: a call is made, a promise it awaits settles,
  or it goes on past an `await` whose promise has settled.  Events come in any
  order the awaits allow.
* `Stepped`, `stepped_of_flowStep` — everything an event can do, case by case.
-/

namespace SharedTsLibs.BackgroundJobs

variable {Input P : Type}

/-! ## State -/

/-- What a flow manager is constructed with. -/
structure FlowEnv (Input P : Type) where
  libs : JobLibs P
  registry : QueueConfigRegistry Input P
  isTest : Bool
  lazyInitEnabled : Option Bool

/-- The methods that need the producer.  The options of `getFlow` come without
their `queueId`. -/
inductive FlowOperation (Input P : Type) where
  | addFlow (flow : FlowJobInput Input P) (opts : Option (JsObject P))
  | addFlowBulk (flows : List (FlowJobInput Input P))
  | getFlow (queueId : String) (rest : JsObject P)

inductive FlowRequest (Input P : Type) where
  | start
  | dispose
  | operation (op : FlowOperation Input P)

/-- A call made on a producer. -/
inductive ProducerCall (P : Type) where
  | add (job : FlowJob P) (opts : Option (JsObject P))
  | addBulk (jobs : List (FlowJob P))
  | getFlow (opts : JsObject P)

/-- An execution of `doStart`.  It awaits `waitUntilReady` of the producer it
built, and when that fails it awaits the producer's `close` before it throws the
error; it also throws when no producer could be built. -/
inductive DoStart where
  | awaitingReady (p : ℕ)
  | awaitingClose (p : ℕ) (error : String)
  | fulfilled (p : ℕ)
  | rejected (p : Option ℕ) (error : String)
  deriving DecidableEq

/-- The producer an execution of `doStart` built. -/
def DoStart.producer : DoStart → Option ℕ
  | .awaitingReady p | .awaitingClose p _ | .fulfilled p => some p
  | .rejected p _ => p

/-- The result of `doStart`, once its promise has settled. -/
def DoStart.result : DoStart → Option (Except String Unit)
  | .awaitingReady _ | .awaitingClose _ _ => none
  | .fulfilled _ => some (.ok ())
  | .rejected _ e => some (.error e)

/-- Where a call stands: at the `await` of a start, with the call it means to make
on the producer, if any; past `startIfNotStarted`; at the `await` of the
producer's reply; for `dispose`, at the `await` of a start or of the producer's
`close`; or settled. -/
inductive CallPhase (P : Type) where
  | awaitingStart (k : ℕ) (next : Option (ProducerCall P))
  | started (call : ProducerCall P)
  | awaitingReply
  | disposeAwaitingStart (k : ℕ)
  | awaitingClose (p : ℕ)
  | done (result : Except String Unit)

structure FlowCall (Input P : Type) where
  request : FlowRequest Input P
  phase : CallPhase P

/-- A call received by a producer, with the call of the manager it comes from. -/
structure Handover (P : Type) where
  call : ℕ
  producer : ℕ
  producerCall : ProducerCall P

/-- The manager.  `flowProducer` and `startPromise` are its fields: the number of
the producer held, and of the `doStart` execution whose promise is kept.
`producerCount` producers have been built, and `close` was called on those in
`closed`. -/
structure FlowManager (Input P : Type) where
  flowProducer : Option ℕ
  startPromise : Option ℕ
  producerCount : ℕ
  closed : List ℕ
  starts : List DoStart
  calls : List (FlowCall Input P)
  log : List (Handover P)

/-- A manager just constructed. -/
def FlowManager.new : FlowManager Input P := ⟨none, none, 0, [], [], [], []⟩

namespace FlowManager

/-- `isStarted`. -/
def isStarted (m : FlowManager Input P) : Bool := m.flowProducer.isSome

/-! ## The methods, from one `await` to the next -/

/-- `doStart` up to its first `await`, when the factory builds a producer or
throws. -/
def doStart (m : FlowManager Input P) : Except String Unit → FlowManager Input P
  | .ok () =>
    { m with
      producerCount := m.producerCount + 1
      starts := m.starts ++ [.awaitingReady m.producerCount] }
  | .error e => { m with starts := m.starts ++ [.rejected none e] }

/-- `start` up to its `await`: the promise it awaits, if it does not return at
once. -/
def start (m : FlowManager Input P) (built : Except String Unit) :
    FlowManager Input P × Option ℕ :=
  match m.flowProducer with
  | some _ => (m, none)
  | none =>
    match m.startPromise with
    | some k => (m, some k)
    | none => ({ m.doStart built with startPromise := some m.starts.length }, some m.starts.length)

/-- `dispose` past its wait for a start: return, or `close` the producer held and
await that. -/
def closeProducer (m : FlowManager Input P) : FlowManager Input P × CallPhase P :=
  match m.flowProducer with
  | none => (m, .done (.ok ()))
  | some p => ({ m with closed := m.closed ++ [p] }, .awaitingClose p)

/-- Record a new call. -/
def push (m : FlowManager Input P) (request : FlowRequest Input P) (phase : CallPhase P) :
    FlowManager Input P :=
  { m with calls := m.calls ++ [⟨request, phase⟩] }

/-- Move a call on. -/
def setPhase (m : FlowManager Input P) (i : ℕ) (c : FlowCall Input P) (phase : CallPhase P) :
    FlowManager Input P :=
  { m with calls := m.calls.set i { c with phase } }

end FlowManager

/-- The part of a method before `startIfNotStarted`: the call it means to make on
the producer; `addFlowBulk` returns at once when there is no flow.  `n` uuids have
been drawn so far. -/
def FlowOperation.prepare (env : FlowEnv Input P) (n : ℕ) :
    FlowOperation Input P → Except String (Option (ProducerCall P))
  | .addFlow flow opts => do
    let (job, _) ← (buildRootFlowJob env.libs env.registry env.isTest flow).run n
    return some (.add job opts)
  | .addFlowBulk flows =>
    if flows.length = 0 then return none
    else do
      let (jobs, _) ← (buildRootFlowJobs env.libs env.registry env.isTest flows).run n
      return some (.addBulk jobs)
  | .getFlow queueId rest => do
    let queueConfig ← env.registry.getQueueConfig queueId
    return some (.getFlow (OrderedMap.set "queueName" (.str (resolveQueueId queueConfig)) rest))

def notStartedMessage : String :=
  "FlowManager not started, please call `start` or enable lazy init"

namespace FlowManager

/-- Where a call goes on to when the start it awaits has settled. -/
def afterStart (next : Option (ProducerCall P)) : Except String Unit → CallPhase P
  | .error e => .done (.error e)
  | .ok () =>
    match next with
    | none => .done (.ok ())
    | some call => .started call

/-- A call that awaits `start`, which may return at once; `next` is what the call
means to do then. -/
def awaitStart (m : FlowManager Input P) (request : FlowRequest Input P)
    (built : Except String Unit) (next : Option (ProducerCall P)) : FlowManager Input P :=
  match m.start built with
  | (m', none) => m'.push request (afterStart next (.ok ()))
  | (m', some k) => m'.push request (.awaitingStart k next)

/-- A call is made.  `built` is what the factory does if the call has a producer
built. -/
def invoke (env : FlowEnv Input P) (m : FlowManager Input P) (request : FlowRequest Input P)
    (built : Except String Unit) (n : ℕ) : FlowManager Input P :=
  match request with
  | .start => m.awaitStart request built none
  | .dispose =>
    match m.startPromise with
    | some k => m.push request (.disposeAwaitingStart k)
    | none => m.closeProducer.1.push request m.closeProducer.2
  | .operation op =>
    match op.prepare env n with
    | .error e => m.push request (.done (.error e))
    | .ok none => m.push request (.done (.ok ()))
    | .ok (some call) =>
      if m.isStarted = false ∧ env.lazyInitEnabled = some false then
        m.push request (.done (.error notStartedMessage))
      else m.awaitStart request built (some call)

/-- `doStart` past `waitUntilReady`: the producer is ready, and held, or it is
closed. -/
def startReady (m : FlowManager Input P) (k p : ℕ) : Except String Unit → FlowManager Input P
  | .ok () => { m with flowProducer := some p, starts := m.starts.set k (.fulfilled p) }
  | .error e => { m with closed := m.closed ++ [p], starts := m.starts.set k (.awaitingClose p e) }

/-- `doStart` past the `close` of a producer that never got ready. -/
def startClosed (m : FlowManager Input P) (k p : ℕ) (e : String) : FlowManager Input P :=
  { m with starts := m.starts.set k (.rejected (some p) e) }

/-- A call past its `await` of a start: the `finally` of `start` clears
`startPromise`, whatever promise it holds by now. -/
def startResumed (m : FlowManager Input P) (i : ℕ) (c : FlowCall Input P)
    (next : Option (ProducerCall P)) (result : Except String Unit) : FlowManager Input P :=
  setPhase { m with startPromise := none } i c (afterStart next result)

/-- `getFlowProducer` and the call on the producer. -/
def callProducer (m : FlowManager Input P) (i : ℕ) (c : FlowCall Input P)
    (call : ProducerCall P) : FlowManager Input P :=
  match m.flowProducer with
  | none => m.setPhase i c (.done (.error notStartedMessage))
  | some p => setPhase { m with log := m.log ++ [⟨i, p, call⟩] } i c .awaitingReply

/-- `dispose` past the `close` of the producer, which may have failed. -/
def disposed (m : FlowManager Input P) (i : ℕ) (c : FlowCall Input P) : FlowManager Input P :=
  setPhase { m with flowProducer := none } i c (.done (.ok ()))

end FlowManager

/-! ## Events -/

inductive FlowEvent (Input P : Type) where
  /-- A method is called. -/
  | invoke (request : FlowRequest Input P) (built : Except String Unit) (n : ℕ)
  /-- `waitUntilReady` settles in the `k`-th execution of `doStart`. -/
  | ready (k : ℕ) (result : Except String Unit)
  /-- `close` settles in the `k`-th execution of `doStart`. -/
  | startClosed (k : ℕ)
  /-- The `i`-th call goes on past its `await` of a start. -/
  | resume (i : ℕ)
  /-- The `i`-th call goes on past `startIfNotStarted`. -/
  | proceed (i : ℕ)
  /-- The producer replies to the `i`-th call. -/
  | reply (i : ℕ) (result : Except String Unit)
  /-- `close` settles in the `i`-th call, a `dispose`. -/
  | closed (i : ℕ)

open FlowManager in
/-- What an event does; `none` when the call or the start is not at that `await`,
or the promise it awaits has not settled. -/
def flowStep (env : FlowEnv Input P) (m : FlowManager Input P) :
    FlowEvent Input P → Option (FlowManager Input P)
  | .invoke request built n => some (m.invoke env request built n)
  | .ready k result =>
    match m.starts[k]? with
    | some (.awaitingReady p) => some (m.startReady k p result)
    | _ => none
  | .startClosed k =>
    match m.starts[k]? with
    | some (.awaitingClose p e) => some (m.startClosed k p e)
    | _ => none
  | .resume i => do
    let c ← m.calls[i]?
    match c.phase with
    | .awaitingStart k next =>
      let d ← m.starts[k]?
      let result ← d.result
      some (m.startResumed i c next result)
    | .disposeAwaitingStart k =>
      let d ← m.starts[k]?
      let _ ← d.result
      some (m.closeProducer.1.setPhase i c m.closeProducer.2)
    | _ => none
  | .proceed i => do
    let c ← m.calls[i]?
    match c.phase with
    | .started call => some (m.callProducer i c call)
    | _ => none
  | .reply i result => do
    let c ← m.calls[i]?
    match c.phase with
    | .awaitingReply => some (m.setPhase i c (.done result))
    | _ => none
  | .closed i => do
    let c ← m.calls[i]?
    match c.phase with
    | .awaitingClose _ => some (m.disposed i c)
    | _ => none

/-! ## What an event can do -/

/-- The events, and the calls they make, one case for each way a method goes on. -/
inductive Stepped (env : FlowEnv Input P) (m : FlowManager Input P) :
    FlowEvent Input P → FlowManager Input P → Prop where
  | started {request : FlowRequest Input P} {built : Except String Unit} {n : ℕ}
      {next : Option (ProducerCall P)}
      (hnext : (request = .start ∧ next = none) ∨
        ∃ op call, request = .operation op ∧ op.prepare env n = .ok (some call) ∧
          next = some call) :
      Stepped env m (.invoke request built n) (m.awaitStart request built next)
  | disposeAwaits {built : Except String Unit} {n k : ℕ} (hk : m.startPromise = some k) :
      Stepped env m (.invoke .dispose built n) (m.push .dispose (.disposeAwaitingStart k))
  | disposes {built : Except String Unit} {n : ℕ} (hk : m.startPromise = none) :
      Stepped env m (.invoke .dispose built n) (m.closeProducer.1.push .dispose m.closeProducer.2)
  | returns {op : FlowOperation Input P} {built : Except String Unit} {n : ℕ}
      {result : Except String Unit}
      (hresult : (∃ e, result = .error e) ∨ op.prepare env n = .ok none) :
      Stepped env m (.invoke (.operation op) built n) (m.push (.operation op) (.done result))
  | ready {k p : ℕ} {result : Except String Unit} (hk : m.starts[k]? = some (.awaitingReady p)) :
      Stepped env m (.ready k result) (m.startReady k p result)
  | startClosed {k p : ℕ} {e : String} (hk : m.starts[k]? = some (.awaitingClose p e)) :
      Stepped env m (.startClosed k) (m.startClosed k p e)
  | resume {i k : ℕ} {c : FlowCall Input P} {next : Option (ProducerCall P)} {d : DoStart}
      {result : Except String Unit} (hi : m.calls[i]? = some c)
      (hc : c.phase = .awaitingStart k next) (hk : m.starts[k]? = some d)
      (hd : d.result = some result) :
      Stepped env m (.resume i) (m.startResumed i c next result)
  | resumeDispose {i k : ℕ} {c : FlowCall Input P} {d : DoStart} {result : Except String Unit}
      (hi : m.calls[i]? = some c) (hc : c.phase = .disposeAwaitingStart k)
      (hk : m.starts[k]? = some d) (hd : d.result = some result) :
      Stepped env m (.resume i) (m.closeProducer.1.setPhase i c m.closeProducer.2)
  | proceed {i : ℕ} {c : FlowCall Input P} {call : ProducerCall P} (hi : m.calls[i]? = some c)
      (hc : c.phase = .started call) : Stepped env m (.proceed i) (m.callProducer i c call)
  | reply {i : ℕ} {c : FlowCall Input P} {result : Except String Unit} (hi : m.calls[i]? = some c)
      (hc : c.phase = .awaitingReply) :
      Stepped env m (.reply i result) (m.setPhase i c (.done result))
  | closed {i p : ℕ} {c : FlowCall Input P} (hi : m.calls[i]? = some c)
      (hc : c.phase = .awaitingClose p) : Stepped env m (.closed i) (m.disposed i c)

theorem stepped_invoke (env : FlowEnv Input P) (m : FlowManager Input P)
    (request : FlowRequest Input P) (built : Except String Unit) (n : ℕ) :
    Stepped env m (.invoke request built n) (m.invoke env request built n) := by
  cases request with
  | start => exact .started (Or.inl ⟨rfl, rfl⟩)
  | dispose =>
    simp only [FlowManager.invoke]
    cases hk : m.startPromise with
    | none => exact .disposes hk
    | some k => exact .disposeAwaits hk
  | operation op =>
    simp only [FlowManager.invoke]
    cases hp : op.prepare env n with
    | error e => exact .returns (Or.inl ⟨e, rfl⟩)
    | ok next =>
      cases next with
      | none => exact .returns (Or.inr hp)
      | some call =>
        simp only []
        split
        · exact .returns (Or.inl ⟨notStartedMessage, rfl⟩)
        · exact .started (Or.inr ⟨op, call, rfl, hp, rfl⟩)

theorem stepped_of_flowStep {env : FlowEnv Input P} {m m' : FlowManager Input P}
    {e : FlowEvent Input P} (h : flowStep env m e = some m') : Stepped env m e m' := by
  cases e with
  | invoke request built n =>
    cases h
    exact stepped_invoke env m request built n
  | ready k result =>
    simp only [flowStep] at h
    split at h
    · next p hk => cases h; exact .ready hk
    · cases h
  | startClosed k =>
    simp only [flowStep] at h
    split at h
    · next p e hk => cases h; exact .startClosed hk
    · cases h
  | resume i =>
    obtain ⟨c, hi, h⟩ := Option.bind_eq_some_iff.1 h
    split at h
    · next k next hc =>
      obtain ⟨d, hk, h⟩ := Option.bind_eq_some_iff.1 h
      obtain ⟨result, hd, h⟩ := Option.bind_eq_some_iff.1 h
      cases h
      exact .resume hi hc hk hd
    · next k hc =>
      obtain ⟨d, hk, h⟩ := Option.bind_eq_some_iff.1 h
      obtain ⟨result, hd, h⟩ := Option.bind_eq_some_iff.1 h
      cases h
      exact .resumeDispose hi hc hk hd
    · cases h
  | proceed i =>
    obtain ⟨c, hi, h⟩ := Option.bind_eq_some_iff.1 h
    split at h
    · next call hc => cases h; exact .proceed hi hc
    · cases h
  | reply i result =>
    obtain ⟨c, hi, h⟩ := Option.bind_eq_some_iff.1 h
    split at h
    · next hc => cases h; exact .reply hi hc
    · cases h
  | closed i =>
    obtain ⟨c, hi, h⟩ := Option.bind_eq_some_iff.1 h
    split at h
    · next p hc => cases h; exact .closed hi hc
    · cases h

end SharedTsLibs.BackgroundJobs
