import SharedTsLibs.Lib.Slots
import SharedTsLibs.Lib.StepSystem
import SharedTsLibs.BackgroundJobs.JobOptions

/-!
# The queue manager

`QueueManager` starts BullMQ queues through its `QueueRegistry`, on `start` or
when a call needs one and lazy initialisation is enabled.  The registry keeps the
queues it has built; the manager keeps the promise of a start in progress.

* `QueueManager` — the fields of the two classes, with the starts of the registry
  and the calls under way.
* `QueueOperation.prepare`, `Prepared.action` — what the methods that need a queue
  do before it is started, and what they then ask of it.
* `QueueManager.registryStart` — `QueueRegistry.start` up to its first `await`: it
  builds the queues one after the other.
* `queueStep`, `QueueStepped` — what one event does.
-/

namespace SharedTsLibs.BackgroundJobs

variable {Input P : Type}

/-! ## State -/

/-- What a queue manager is constructed with. -/
structure QueueEnv (Input P : Type) where
  libs : JobLibs P
  registry : QueueConfigRegistry Input P
  isTest : Bool
  lazyInitEnabled : Option Bool

/-- The argument of `start`: all queues, none, or those listed. -/
inductive Enabled where
  | bool (b : Bool)
  | ids (queueIds : List String)

/-- BullMQ's job states. -/
inductive JobState where
  | completed
  | failed
  | active
  | delayed
  | prioritized
  | waiting
  | waitingChildren

/-- The methods that need a queue. -/
inductive QueueOperation (Input P : Type) where
  | getJobCount (queueId : String)
  | getJobsInQueue (queueId : String) (states : List JobState) (start «end» : ℤ) (asc : Bool)
  | schedule (queueId : String) (jobPayload : Input) (options : Option (JsObject P))
  | scheduleBulk (queueId : String) (jobPayloads : List Input) (options : Option (JsObject P))

inductive QueueRequest (Input P : Type) where
  | start (enabled : Enabled)
  | dispose
  | operation (op : QueueOperation Input P)

/-- An operation past its checks, with its payloads parsed. -/
inductive Prepared (P : Type) where
  | getJobCount
  | getJobsInQueue (states : List JobState) (start «end» : ℤ) (asc : Bool)
  | schedule (parsedPayload : P) (options : Option (JsObject P))
  | scheduleBulk (parsedPayload : List P) (options : Option (JsObject P))

/-- A call made on a BullMQ queue. -/
inductive QueueAction (P : Type) where
  | getJobCountByTypes
  | getJobs (states : List JobState) (start «end» : ℤ) (asc : Bool)
  | add (name : String) (data : P) (opts : JsObject P)
  | addBulk (jobs : List (String × P × JsObject P))

/-- The step of a registry start that failed: building a queue, its
`waitUntilReady`, or the registration of the active queue ids. -/
inductive StartFailure where
  | build (queueId error : String)
  | waitUntilReady (queueId error : String)
  | registerActiveQueueIds (error : String)
  deriving DecidableEq

def StartFailure.error : StartFailure → String
  | .build _ e | .waitUntilReady _ e | .registerActiveQueueIds e => e

/-- Where a registry start stands: at the `await` of the `waitUntilReady` promises
still pending, at the `await` of the registration, or settled. -/
inductive RegistryStartPhase where
  | awaitingReady (pending : List String)
  | registering
  | fulfilled
  | rejected (failure : StartFailure)
  deriving DecidableEq

/-- An execution of `QueueRegistry.start`, with the ids of the queues it built. -/
structure RegistryStart where
  built : List String
  phase : RegistryStartPhase
  deriving DecidableEq

/-- The result of a registry start, once its promise has settled. -/
def RegistryStart.result (d : RegistryStart) : Option (Except String Unit) :=
  match d.phase with
  | .awaitingReady _ | .registering => none
  | .fulfilled => some (.ok ())
  | .rejected failure => some (.error failure.error)

/-- Where a call stands: at the `await` of a registry start, with the operation
that is to follow, if any; past `startIfNotStarted`; at the `await` of the queue's
reply; for `dispose`, at the `await` of the queues' `close`; or settled. -/
inductive QueueCallPhase (P : Type) where
  | awaitingStart (k : ℕ) (next : Option (String × Prepared P))
  | started (queueId : String) (prepared : Prepared P)
  | awaitingReply
  | awaitingClose
  | done (result : Except String Unit)

structure QueueCall (Input P : Type) where
  request : QueueRequest Input P
  phase : QueueCallPhase P

/-- The manager and its registry.  `queues` holds the queue built last for each id,
by number; `queueCount` queues have been built. -/
structure QueueManager (Input P : Type) where
  queues : List (String × ℕ)
  queueCount : ℕ
  startPromise : Option ℕ
  starts : List RegistryStart
  calls : List (QueueCall Input P)

/-- A manager just constructed. -/
def QueueManager.new : QueueManager Input P := ⟨[], 0, none, [], []⟩

/-! ## The registry -/

namespace QueueManager

/-- `QueueRegistry.isStarted`. -/
def isStarted (m : QueueManager Input P) : Bool := 0 < m.queues.length

/-- `QueueRegistry.getQueue`. -/
def getQueue (m : QueueManager Input P) (queueId : String) : Except String ℕ :=
  match OrderedMap.get? m.queues queueId with
  | some queue => .ok queue
  | none => .error s!"queue {queueId} was not instantiated yet, please run \"start()\""

/-- The loop of `QueueRegistry.start`: the unsupported ids are skipped, a queue is
built and kept for each of the others, until one cannot be built.  `built` collects
the ids. -/
def buildQueues (supported : List String) (build : String → Except String Unit)
    (m : QueueManager Input P) (built : List String) :
    List String → QueueManager Input P × List String × Option StartFailure
  | [] => (m, built, none)
  | queueId :: ids =>
    if queueId ∈ supported then
      match build queueId with
      | .error e => (m, built, some (.build queueId e))
      | .ok () =>
        buildQueues supported build
          { m with
            queues := OrderedMap.set queueId m.queueCount m.queues
            queueCount := m.queueCount + 1 }
          (built ++ [queueId]) ids
    else buildQueues supported build m built ids

/-- The ids a start of the registry goes through: a `Set` drops the repetitions. -/
def queueIdsToStart (supported : List String) : Enabled → List String
  | .bool _ => supported
  | .ids queueIds => queueIds.eraseDups

/-- `QueueRegistry.start` up to its first `await`.  `build` says for which ids the
factory throws. -/
def registryStart (env : QueueEnv Input P) (m : QueueManager Input P) (enabled : Enabled)
    (build : String → Except String Unit) : QueueManager Input P :=
  match m.buildQueues env.registry.queueIds build []
      (queueIdsToStart env.registry.queueIds enabled) with
  | (m', built, some failure) => { m' with starts := m'.starts ++ [⟨built, .rejected failure⟩] }
  | (m', built, none) =>
    if built.length = 0 then { m' with starts := m'.starts ++ [⟨built, .registering⟩] }
    else { m' with starts := m'.starts ++ [⟨built, .awaitingReady built⟩] }

end QueueManager

/-! ## Operations -/

def QueueOperation.queueId : QueueOperation Input P → String
  | .getJobCount queueId | .getJobsInQueue queueId _ _ _ _ | .schedule queueId _ _
  | .scheduleBulk queueId _ _ => queueId

/-- The part of a method before `startIfNotStarted`; `scheduleBulk` returns at once
when there is no payload. -/
def QueueOperation.prepare (env : QueueEnv Input P) :
    QueueOperation Input P → Except String (Option (Prepared P))
  | .getJobCount _ => return some .getJobCount
  | .getJobsInQueue _ states start stop asc =>
    if states.length = 0 then throw "states must not be empty"
    else if start > stop then throw "start must be less than or equal to end"
    else return some (.getJobsInQueue states start stop asc)
  | .schedule queueId jobPayload options => do
    let queueConfig ← env.registry.getQueueConfig queueId
    let parsedPayload ← queueConfig.jobPayloadSchema jobPayload
    return some (.schedule parsedPayload options)
  | .scheduleBulk queueId jobPayloads options =>
    if jobPayloads.length = 0 then return none
    else do
      let queueConfig ← env.registry.getQueueConfig queueId
      let parsedPayload ← jobPayloads.mapM queueConfig.jobPayloadSchema
      return some (.scheduleBulk parsedPayload options)

/-- What a prepared operation asks of its queue; `n` uuids have been drawn so far. -/
def Prepared.action (env : QueueEnv Input P) (queueId : String) (n : ℕ) :
    Prepared P → Except String (QueueAction P)
  | .getJobCount => return .getJobCountByTypes
  | .getJobsInQueue states start stop asc => return .getJobs states start (stop + 1) asc
  | .schedule parsedPayload options => do
    let (opts, _) ←
      (resolveJobOptions env.libs env.registry env.isTest queueId parsedPayload options).run n
    return .add queueId parsedPayload opts
  | .scheduleBulk parsedPayload options => do
    let (jobs, _) ← (parsedPayload.mapM fun data => do
      let opts ← resolveJobOptions env.libs env.registry env.isTest queueId data options
      return (queueId, data, opts)).run n
    return .addBulk jobs

def queueNotStartedMessage : String :=
  "QueueManager not started, please call `start` or enable lazy init"

/-! ## The methods, from one `await` to the next -/

namespace QueueManager

/-- Record a new call. -/
def push (m : QueueManager Input P) (request : QueueRequest Input P) (phase : QueueCallPhase P) :
    QueueManager Input P :=
  { m with calls := m.calls ++ [⟨request, phase⟩] }

/-- Move a call on. -/
def setPhase (m : QueueManager Input P) (i : ℕ) (c : QueueCall Input P)
    (phase : QueueCallPhase P) : QueueManager Input P :=
  { m with calls := m.calls.set i { c with phase } }

/-- Where a call goes on to when the start it awaits has settled. -/
def afterStart (next : Option (String × Prepared P)) : Except String Unit → QueueCallPhase P
  | .error e => .done (.error e)
  | .ok () =>
    match next with
    | none => .done (.ok ())
    | some (queueId, prepared) => .started queueId prepared

/-- `start` up to its `await`: it returns at once when a queue was ever built or
when it is disabled, and else awaits the promise of the start in progress, or of a
new one; `next` is what the call means to do then. -/
def start (env : QueueEnv Input P) (m : QueueManager Input P) (request : QueueRequest Input P)
    (enabled : Enabled) (build : String → Except String Unit)
    (next : Option (String × Prepared P)) : QueueManager Input P :=
  if m.isStarted then m.push request (afterStart next (.ok ()))
  else
    match enabled with
    | .bool false => m.push request (afterStart next (.ok ()))
    | _ =>
      match m.startPromise with
      | some k => m.push request (.awaitingStart k next)
      | none =>
        push { m.registryStart env enabled build with startPromise := some m.starts.length } request
          (.awaitingStart m.starts.length next)

/-- A call is made.  `build` is what the factory does if the call starts queues. -/
def invoke (env : QueueEnv Input P) (m : QueueManager Input P) (request : QueueRequest Input P)
    (build : String → Except String Unit) : QueueManager Input P :=
  match request with
  | .start enabled => m.start env request enabled build none
  | .dispose =>
    if m.isStarted then m.push request .awaitingClose else m.push request (.done (.ok ()))
  | .operation op =>
    match op.prepare env with
    | .error e => m.push request (.done (.error e))
    | .ok none => m.push request (.done (.ok ()))
    | .ok (some prepared) =>
      if m.isStarted = false ∧ env.lazyInitEnabled = some false then
        m.push request (.done (.error queueNotStartedMessage))
      else m.start env request (.ids [op.queueId]) build (some (op.queueId, prepared))

/-- `Promise.all` hears from one of the `waitUntilReady` promises. -/
def startReady (m : QueueManager Input P) (k : ℕ) (d : RegistryStart) (pending : List String)
    (queueId : String) : Except String Unit → QueueManager Input P
  | .error e =>
    { m with starts := m.starts.set k { d with phase := .rejected (.waitUntilReady queueId e) } }
  | .ok () =>
    if (pending.erase queueId).length = 0 then
      { m with starts := m.starts.set k { d with phase := .registering } }
    else
      { m with starts := m.starts.set k { d with phase := .awaitingReady (pending.erase queueId) } }

/-- The registration of the active queue ids settles. -/
def startRegistered (m : QueueManager Input P) (k : ℕ) (d : RegistryStart) :
    Except String Unit → QueueManager Input P
  | .error e =>
    { m with starts := m.starts.set k { d with phase := .rejected (.registerActiveQueueIds e) } }
  | .ok () => { m with starts := m.starts.set k { d with phase := .fulfilled } }

/-- A call past its `await` of a start: `startPromise` is cleared after a success
only. -/
def startResumed (m : QueueManager Input P) (i : ℕ) (c : QueueCall Input P)
    (next : Option (String × Prepared P)) : Except String Unit → QueueManager Input P
  | .error e => m.setPhase i c (.done (.error e))
  | .ok () => setPhase { m with startPromise := none } i c (afterStart next (.ok ()))

/-- A call past `startIfNotStarted`: `getQueue`, then the call on the queue. -/
def callQueue (env : QueueEnv Input P) (m : QueueManager Input P) (i : ℕ) (c : QueueCall Input P)
    (queueId : String) (prepared : Prepared P) (n : ℕ) : QueueManager Input P :=
  match m.getQueue queueId with
  | .error e => m.setPhase i c (.done (.error e))
  | .ok _ =>
    match prepared.action env queueId n with
    | .error e => m.setPhase i c (.done (.error e))
    | .ok _ => m.setPhase i c .awaitingReply

/-- `dispose` past the `close` of the queues. -/
def disposed (m : QueueManager Input P) (i : ℕ) (c : QueueCall Input P) : QueueManager Input P :=
  setPhase { m with queues := [] } i c (.done (.ok ()))

end QueueManager

/-! ## Events -/

inductive QueueEvent (Input P : Type) where
  /-- A method is called. -/
  | invoke (request : QueueRequest Input P) (build : String → Except String Unit)
  /-- `waitUntilReady` of a queue settles in the `k`-th start of the registry. -/
  | ready (k : ℕ) (queueId : String) (result : Except String Unit)
  /-- The registration settles in the `k`-th start of the registry; without a queue
  it cannot fail. -/
  | registered (k : ℕ) (result : Except String Unit)
  /-- The `i`-th call goes on past its `await` of a start. -/
  | resume (i : ℕ)
  /-- The `i`-th call goes on past `startIfNotStarted`; `n` uuids have been drawn. -/
  | proceed (i : ℕ) (n : ℕ)
  /-- The queue replies to the `i`-th call. -/
  | reply (i : ℕ) (result : Except String Unit)
  /-- The queues are closed in the `i`-th call, a `dispose`. -/
  | closed (i : ℕ)

/-- What an event does; `none` when the call or the start is not at that `await`,
or the promise it awaits has not settled. -/
def queueStep (env : QueueEnv Input P) (m : QueueManager Input P) :
    QueueEvent Input P → Option (QueueManager Input P)
  | .invoke request build => some (m.invoke env request build)
  | .ready k queueId result => do
    let d ← m.starts[k]?
    match d.phase with
    | .awaitingReady pending =>
      if queueId ∈ pending then some (m.startReady k d pending queueId result) else none
    | _ => none
  | .registered k result => do
    let d ← m.starts[k]?
    match d.phase with
    | .registering =>
      if d.built.length = 0 ∧ result.isOk = false then none
      else some (m.startRegistered k d result)
    | _ => none
  | .resume i => do
    let c ← m.calls[i]?
    match c.phase with
    | .awaitingStart k next =>
      let d ← m.starts[k]?
      let result ← d.result
      some (m.startResumed i c next result)
    | _ => none
  | .proceed i n => do
    let c ← m.calls[i]?
    match c.phase with
    | .started queueId prepared => some (m.callQueue env i c queueId prepared n)
    | _ => none
  | .reply i result => do
    let c ← m.calls[i]?
    match c.phase with
    | .awaitingReply => some (m.setPhase i c (.done result))
    | _ => none
  | .closed i => do
    let c ← m.calls[i]?
    match c.phase with
    | .awaitingClose => some (m.disposed i c)
    | _ => none

/-! ## What an event can do -/

/-- The events, and the calls they make, one case for each way a method goes on. -/
inductive QueueStepped (env : QueueEnv Input P) (m : QueueManager Input P) :
    QueueEvent Input P → QueueManager Input P → Prop where
  | starts {request : QueueRequest Input P} {enabled : Enabled}
      {build : String → Except String Unit} {next : Option (String × Prepared P)}
      (hrequest : (request = .start enabled ∧ next = none) ∨
        ∃ op prepared, request = .operation op ∧ op.prepare env = .ok (some prepared) ∧
          enabled = .ids [op.queueId] ∧ next = some (op.queueId, prepared)) :
      QueueStepped env m (.invoke request build) (m.start env request enabled build next)
  | disposes {build : String → Except String Unit} (hm : m.isStarted = true) :
      QueueStepped env m (.invoke .dispose build) (m.push .dispose .awaitingClose)
  | returns {request : QueueRequest Input P} {build : String → Except String Unit}
      {result : Except String Unit} (hrequest : ∀ enabled, request ≠ .start enabled) :
      QueueStepped env m (.invoke request build) (m.push request (.done result))
  | ready {k : ℕ} {d : RegistryStart} {pending : List String} {queueId : String}
      {result : Except String Unit} (hk : m.starts[k]? = some d)
      (hd : d.phase = .awaitingReady pending) :
      QueueStepped env m (.ready k queueId result) (m.startReady k d pending queueId result)
  | registered {k : ℕ} {d : RegistryStart} {result : Except String Unit}
      (hk : m.starts[k]? = some d) (hd : d.phase = .registering)
      (hresult : d.built = [] → result = .ok ()) :
      QueueStepped env m (.registered k result) (m.startRegistered k d result)
  | resume {i k : ℕ} {c : QueueCall Input P} {next : Option (String × Prepared P)}
      {d : RegistryStart} {result : Except String Unit} (hi : m.calls[i]? = some c)
      (hc : c.phase = .awaitingStart k next) (hk : m.starts[k]? = some d)
      (hd : d.result = some result) :
      QueueStepped env m (.resume i) (m.startResumed i c next result)
  | proceed {i n : ℕ} {c : QueueCall Input P} {queueId : String} {prepared : Prepared P}
      (hi : m.calls[i]? = some c) (hc : c.phase = .started queueId prepared) :
      QueueStepped env m (.proceed i n) (m.callQueue env i c queueId prepared n)
  | reply {i : ℕ} {c : QueueCall Input P} {result : Except String Unit}
      (hi : m.calls[i]? = some c) (hc : c.phase = .awaitingReply) :
      QueueStepped env m (.reply i result) (m.setPhase i c (.done result))
  | closed {i : ℕ} {c : QueueCall Input P} (hi : m.calls[i]? = some c)
      (hc : c.phase = .awaitingClose) : QueueStepped env m (.closed i) (m.disposed i c)

theorem queueStepped_invoke (env : QueueEnv Input P) (m : QueueManager Input P)
    (request : QueueRequest Input P) (build : String → Except String Unit) :
    QueueStepped env m (.invoke request build) (m.invoke env request build) := by
  cases request with
  | start enabled => exact .starts (Or.inl ⟨rfl, rfl⟩)
  | dispose =>
    simp only [QueueManager.invoke]
    split
    · next hm => exact .disposes hm
    · exact .returns (by simp)
  | operation op =>
    simp only [QueueManager.invoke]
    cases hp : op.prepare env with
    | error e => exact .returns (by simp)
    | ok prepared =>
      cases prepared with
      | none => exact .returns (by simp)
      | some prepared =>
        simp only []
        split
        · exact .returns (by simp)
        · exact .starts (Or.inr ⟨op, prepared, rfl, hp, rfl, rfl⟩)

theorem queueStepped_of_queueStep {env : QueueEnv Input P} {m m' : QueueManager Input P}
    {e : QueueEvent Input P} (h : queueStep env m e = some m') : QueueStepped env m e m' := by
  cases e with
  | invoke request build =>
    cases h
    exact queueStepped_invoke env m request build
  | ready k queueId result =>
    obtain ⟨d, hk, h⟩ := Option.bind_eq_some_iff.1 h
    split at h
    · next pending hd =>
      split at h
      · cases h; exact .ready hk hd
      · cases h
    · cases h
  | registered k result =>
    obtain ⟨d, hk, h⟩ := Option.bind_eq_some_iff.1 h
    split at h
    · next hd =>
      split at h
      · cases h
      · next hfails =>
        cases h
        refine .registered hk hd fun hbuilt => ?_
        cases result with
        | error e => exact absurd ⟨by rw [hbuilt]; rfl, rfl⟩ hfails
        | ok => rfl
    · cases h
  | resume i =>
    obtain ⟨c, hi, h⟩ := Option.bind_eq_some_iff.1 h
    split at h
    · next k next hc =>
      obtain ⟨d, hk, h⟩ := Option.bind_eq_some_iff.1 h
      obtain ⟨result, hd, h⟩ := Option.bind_eq_some_iff.1 h
      cases h
      exact .resume hi hc hk hd
    · cases h
  | proceed i n =>
    obtain ⟨c, hi, h⟩ := Option.bind_eq_some_iff.1 h
    split at h
    · next queueId prepared hc => cases h; exact .proceed hi hc
    · cases h
  | reply i result =>
    obtain ⟨c, hi, h⟩ := Option.bind_eq_some_iff.1 h
    split at h
    · next hc => cases h; exact .reply hi hc
    · cases h
  | closed i =>
    obtain ⟨c, hi, h⟩ := Option.bind_eq_some_iff.1 h
    split at h
    · next hc => cases h; exact .closed hi hc
    · cases h

end SharedTsLibs.BackgroundJobs
