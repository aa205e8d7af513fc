import SharedTsLibs.Lib.Slots
import SharedTsLibs.Lib.StepSystem
import Mathlib.Logic.Function.Basic

/-!
# Job processors

An `AbstractBackgroundJobProcessorNew` serves one queue with a BullMQ worker,
which `start` builds and `dispose` closes.  All processors of a process share the
set of the queue ids that have an active processor, so that no queue gets two.

* `ProcessorSystem` — the shared set, the fields of every processor, and the calls
  under way.  Processors are named by the elements of a type, of any size.
* `ProcessorSystem.start`, `.build`, `.ready`, `.dispose`, `.disposed` — the
  methods, from one `await` to the next.
* `processorStep`, `ProcessorStepped` — what one event does.
-/

namespace SharedTsLibs.BackgroundJobs

variable {ι : Type} [DecidableEq ι]

/-! ## State -/

/-- What a processor is constructed with; `isTest` is that of its queue manager. -/
structure ProcessorConfig where
  queueId : String
  isTest : Bool
  deriving DecidableEq

/-- The fields of a processor: the number of its worker, and of the execution of
`internalStart` whose promise it keeps. -/
structure ProcessorFields where
  worker : Option ℕ
  startPromise : Option ℕ
  deriving DecidableEq

/-- Where an execution of `internalStart` stands: at the `await` of the
registration of the queue id, at the `await` of the worker's `waitUntilReady`, or
settled. -/
inductive InternalStartPhase where
  | registered
  | waitingReady (worker : ℕ)
  | fulfilled
  | rejected (error : String)
  deriving DecidableEq

structure InternalStart (ι : Type) where
  processor : ι
  phase : InternalStartPhase

/-- The result of `internalStart`, once its promise has settled. -/
def InternalStartPhase.result : InternalStartPhase → Option (Except String Unit)
  | .registered | .waitingReady _ => none
  | .fulfilled => some (.ok ())
  | .rejected e => some (.error e)

/-- Where a call stands: at the `await` of a start; for `dispose`, at the `await` of
the worker's `close`, or of the promises of the hooks still running; or settled. -/
inductive ProcessorCallPhase where
  | awaitingStart (k : ℕ)
  | awaitingClose
  | awaitingRunning
  | done (result : Except String Unit)

structure ProcessorCall (ι : Type) where
  processor : ι
  phase : ProcessorCallPhase

/-- The call is a `dispose` under way. -/
def ProcessorCallPhase.isDisposing : ProcessorCallPhase → Bool
  | .awaitingClose | .awaitingRunning => true
  | _ => false

/-- The processors of a process.  `activeQueueIds` is the monitor's
`queueIdsWithActiveProcessorsSet`.  `workerCount` workers have been built; those in
`listening` have the event listeners, and `close` was called on those in
`closed`. -/
structure ProcessorSystem (ι : Type) where
  activeQueueIds : List String
  processors : ι → ProcessorFields
  workerCount : ℕ
  listening : List ℕ
  closed : List ℕ
  starts : List (InternalStart ι)
  calls : List (ProcessorCall ι)

/-- No processor has been started. -/
def ProcessorSystem.new : ProcessorSystem ι := ⟨[], fun _ => ⟨none, none⟩, 0, [], [], [], []⟩

/-! ## The methods, from one `await` to the next -/

namespace ProcessorSystem

/-- Record a new call. -/
def push (s : ProcessorSystem ι) (p : ι) (phase : ProcessorCallPhase) : ProcessorSystem ι :=
  { s with calls := s.calls ++ [⟨p, phase⟩] }

/-- Move a call on. -/
def setPhase (s : ProcessorSystem ι) (i : ℕ) (c : ProcessorCall ι) (phase : ProcessorCallPhase) :
    ProcessorSystem ι :=
  { s with calls := s.calls.set i { c with phase } }

/-- Write a field of a processor. -/
def setFields (s : ProcessorSystem ι) (p : ι) (fields : ProcessorFields) : ProcessorSystem ι :=
  { s with processors := Function.update s.processors p fields }

theorem setFields_worker (s : ProcessorSystem ι) (p : ι) (fields : ProcessorFields) (q : ι) :
    ((s.setFields p fields).processors q).worker =
      if q = p then fields.worker else (s.processors q).worker := by
  show (Function.update s.processors p fields q).worker = _
  rw [Function.update_apply]
  split <;> rfl

theorem setFields_startPromise (s : ProcessorSystem ι) (p : ι) (fields : ProcessorFields) (q : ι) :
    ((s.setFields p fields).processors q).startPromise =
      if q = p then fields.startPromise else (s.processors q).startPromise := by
  show (Function.update s.processors p fields q).startPromise = _
  rw [Function.update_apply]
  split <;> rfl

/-- Writing the promise leaves every worker as it was. -/
theorem setFields_worker_of_eq {s : ProcessorSystem ι} {p : ι} {fields : ProcessorFields}
    (h : fields.worker = (s.processors p).worker) (q : ι) :
    ((s.setFields p fields).processors q).worker = (s.processors q).worker := by
  rw [setFields_worker]
  split
  · next hq => rw [h, hq]
  · rfl

/-- Writing the worker leaves every promise as it was. -/
theorem setFields_startPromise_of_eq {s : ProcessorSystem ι} {p : ι} {fields : ProcessorFields}
    (h : fields.startPromise = (s.processors p).startPromise) (q : ι) :
    ((s.setFields p fields).processors q).startPromise = (s.processors q).startPromise := by
  rw [setFields_startPromise]
  split
  · next hq => rw [h, hq]
  · rfl

/-- `registerQueueProcessor`, with which `internalStart` begins. -/
def internalStart (s : ProcessorSystem ι) (p : ι) (queueId : String) : ProcessorSystem ι :=
  if queueId ∈ s.activeQueueIds then
    { s with
      starts := s.starts ++
        [⟨p, .rejected s!"Processor for queue id \"{queueId}\" is not unique."⟩] }
  else
    { s with
      activeQueueIds := s.activeQueueIds ++ [queueId]
      starts := s.starts ++ [⟨p, .registered⟩] }

/-- `start` up to its `await`. -/
def start (config : ι → ProcessorConfig) (s : ProcessorSystem ι) (p : ι) : ProcessorSystem ι :=
  match (s.processors p).worker with
  | some _ => s.push p (.done (.ok ()))
  | none =>
    match (s.processors p).startPromise with
    | some k => s.push p (.awaitingStart k)
    | none =>
      ((s.internalStart p (config p).queueId).setFields p
        { s.processors p with startPromise := some s.starts.length }).push p
        (.awaitingStart s.starts.length)

/-- `registerListeners`, on the worker held by now, if any. -/
def registerListeners (s : ProcessorSystem ι) (p : ι) : ProcessorSystem ι :=
  match (s.processors p).worker with
  | some w => { s with listening := s.listening ++ [w] }
  | none => s

/-- Settle or move on an execution of `internalStart`. -/
def setStart (s : ProcessorSystem ι) (k : ℕ) (d : InternalStart ι) (phase : InternalStartPhase) :
    ProcessorSystem ι :=
  { s with starts := s.starts.set k { d with phase } }

/-- `internalStart` past the registration: the worker is built, or `getQueueConfig`
or the factory throws; only in tests is it waited for. -/
def build (config : ι → ProcessorConfig) (s : ProcessorSystem ι) (k : ℕ) (d : InternalStart ι) :
    Except String Unit → ProcessorSystem ι
  | .error e => s.setStart k d (.rejected e)
  | .ok () =>
    let built := setFields { s with workerCount := s.workerCount + 1 } d.processor
      { s.processors d.processor with worker := some s.workerCount }
    if (config d.processor).isTest then built.setStart k d (.waitingReady s.workerCount)
    else (built.registerListeners d.processor).setStart k d .fulfilled

/-- `internalStart` past the worker's `waitUntilReady`. -/
def ready (s : ProcessorSystem ι) (k : ℕ) (d : InternalStart ι) :
    Except String Unit → ProcessorSystem ι
  | .error e => s.setStart k d (.rejected e)
  | .ok () => (s.registerListeners d.processor).setStart k d .fulfilled

/-- `start` past its `await`: `startPromise` is cleared after a success only. -/
def startResumed (s : ProcessorSystem ι) (i : ℕ) (c : ProcessorCall ι) :
    Except String Unit → ProcessorSystem ι
  | .error e => s.setPhase i c (.done (.error e))
  | .ok () =>
    (s.setFields c.processor { s.processors c.processor with startPromise := none }).setPhase i c
      (.done (.ok ()))

/-- `dispose` up to its first `await`. -/
def dispose (s : ProcessorSystem ι) (p : ι) : ProcessorSystem ι :=
  match (s.processors p).worker with
  | none => s.push p (.done (.ok ()))
  | some w => push { s with closed := s.closed ++ [w] } p .awaitingClose

/-- The end of `dispose`: `unregisterQueueProcessor`, and the worker is dropped. -/
def disposed (config : ι → ProcessorConfig) (s : ProcessorSystem ι) (i : ℕ)
    (c : ProcessorCall ι) : ProcessorSystem ι :=
  (setFields
    { s with activeQueueIds := s.activeQueueIds.filter (· ≠ (config c.processor).queueId) }
    c.processor { s.processors c.processor with worker := none }).setPhase i c (.done (.ok ()))

end ProcessorSystem

/-! ## Events -/

inductive ProcessorEvent (ι : Type) where
  /-- `start` is called. -/
  | start (p : ι)
  /-- `dispose` is called. -/
  | dispose (p : ι)
  /-- The `k`-th execution of `internalStart` goes on past the registration. -/
  | build (k : ℕ) (result : Except String Unit)
  /-- The worker's `waitUntilReady` settles in the `k`-th execution. -/
  | ready (k : ℕ) (result : Except String Unit)
  /-- The `i`-th call, a `start`, goes on past its `await`. -/
  | resume (i : ℕ)
  /-- The worker's `close` settles in the `i`-th call, a `dispose`. -/
  | closed (i : ℕ) (result : Except String Unit)
  /-- The hooks still running settle in the `i`-th call, a `dispose`. -/
  | runningSettled (i : ℕ)

/-- What an event does; `none` when the call or the start is not at that `await`,
or the promise it awaits has not settled. -/
def processorStep (config : ι → ProcessorConfig) (s : ProcessorSystem ι) :
    ProcessorEvent ι → Option (ProcessorSystem ι)
  | .start p => some (s.start config p)
  | .dispose p => some (s.dispose p)
  | .build k result => do
    let d ← s.starts[k]?
    match d.phase with
    | .registered => some (s.build config k d result)
    | _ => none
  | .ready k result => do
    let d ← s.starts[k]?
    match d.phase with
    | .waitingReady _ => some (s.ready k d result)
    | _ => none
  | .resume i => do
    let c ← s.calls[i]?
    match c.phase with
    | .awaitingStart k =>
      let d ← s.starts[k]?
      let result ← d.phase.result
      some (s.startResumed i c result)
    | _ => none
  | .closed i result => do
    let c ← s.calls[i]?
    match c.phase with
    | .awaitingClose =>
      match result with
      | .ok () => some (s.setPhase i c .awaitingRunning)
      | .error _ => some (s.disposed config i c)
    | _ => none
  | .runningSettled i => do
    let c ← s.calls[i]?
    match c.phase with
    | .awaitingRunning => some (s.disposed config i c)
    | _ => none

/-! ## What an event can do -/

/-- The events, one case for each way a method goes on. -/
inductive ProcessorStepped (config : ι → ProcessorConfig) (s : ProcessorSystem ι) :
    ProcessorEvent ι → ProcessorSystem ι → Prop where
  | startReturns {p : ι} {w : ℕ} (hw : (s.processors p).worker = some w) :
      ProcessorStepped config s (.start p) (s.push p (.done (.ok ())))
  | startAwaits {p : ι} {k : ℕ} (hw : (s.processors p).worker = none)
      (hk : (s.processors p).startPromise = some k) :
      ProcessorStepped config s (.start p) (s.push p (.awaitingStart k))
  | startBegins {p : ι} (hw : (s.processors p).worker = none)
      (hk : (s.processors p).startPromise = none) :
      ProcessorStepped config s (.start p)
        (((s.internalStart p (config p).queueId).setFields p
          { s.processors p with startPromise := some s.starts.length }).push p
          (.awaitingStart s.starts.length))
  | disposeReturns {p : ι} (hw : (s.processors p).worker = none) :
      ProcessorStepped config s (.dispose p) (s.push p (.done (.ok ())))
  | disposeCloses {p : ι} {w : ℕ} (hw : (s.processors p).worker = some w) :
      ProcessorStepped config s (.dispose p)
        (ProcessorSystem.push { s with closed := s.closed ++ [w] } p .awaitingClose)
  | build {k : ℕ} {d : InternalStart ι} {result : Except String Unit}
      (hk : s.starts[k]? = some d) (hd : d.phase = .registered) :
      ProcessorStepped config s (.build k result) (s.build config k d result)
  | ready {k w : ℕ} {d : InternalStart ι} {result : Except String Unit}
      (hk : s.starts[k]? = some d) (hd : d.phase = .waitingReady w) :
      ProcessorStepped config s (.ready k result) (s.ready k d result)
  | resume {i k : ℕ} {c : ProcessorCall ι} {d : InternalStart ι} {result : Except String Unit}
      (hi : s.calls[i]? = some c) (hc : c.phase = .awaitingStart k) (hk : s.starts[k]? = some d)
      (hd : d.phase.result = some result) :
      ProcessorStepped config s (.resume i) (s.startResumed i c result)
  | closed {i : ℕ} {c : ProcessorCall ι} (hi : s.calls[i]? = some c)
      (hc : c.phase = .awaitingClose) :
      ProcessorStepped config s (.closed i (.ok ())) (s.setPhase i c .awaitingRunning)
  | disposed {i : ℕ} {c : ProcessorCall ι} {e : ProcessorEvent ι} (hi : s.calls[i]? = some c)
      (hc : c.phase.isDisposing = true)
      (he : (∃ f, e = .closed i (.error f)) ∨ e = .runningSettled i) :
      ProcessorStepped config s e (s.disposed config i c)

theorem processorStepped_of_processorStep {config : ι → ProcessorConfig} {s s' : ProcessorSystem ι}
    {e : ProcessorEvent ι} (h : processorStep config s e = some s') :
    ProcessorStepped config s e s' := by
  cases e with
  | start p =>
    cases h
    unfold ProcessorSystem.start
    cases hw : (s.processors p).worker with
    | some w => exact .startReturns hw
    | none =>
      cases hk : (s.processors p).startPromise with
      | some k => exact .startAwaits hw hk
      | none => exact .startBegins hw hk
  | dispose p =>
    cases h
    unfold ProcessorSystem.dispose
    cases hw : (s.processors p).worker with
    | none => exact .disposeReturns hw
    | some w => exact .disposeCloses hw
  | build k result =>
    obtain ⟨d, hk, h⟩ := Option.bind_eq_some_iff.1 h
    split at h
    · next hd => cases h; exact .build hk hd
    · cases h
  | ready k result =>
    obtain ⟨d, hk, h⟩ := Option.bind_eq_some_iff.1 h
    split at h
    · next w hd => cases h; exact .ready hk hd
    · cases h
  | resume i =>
    obtain ⟨c, hi, h⟩ := Option.bind_eq_some_iff.1 h
    split at h
    · next k hc =>
      obtain ⟨d, hk, h⟩ := Option.bind_eq_some_iff.1 h
      obtain ⟨result, hd, h⟩ := Option.bind_eq_some_iff.1 h
      cases h
      exact .resume hi hc hk hd
    · cases h
  | closed i result =>
    obtain ⟨c, hi, h⟩ := Option.bind_eq_some_iff.1 h
    split at h
    · next hc =>
      split at h
      · cases h; exact .closed hi hc
      · cases h; exact .disposed hi (by rw [hc]; rfl) (Or.inl ⟨_, rfl⟩)
    · cases h
  | runningSettled i =>
    obtain ⟨c, hi, h⟩ := Option.bind_eq_some_iff.1 h
    split at h
    · next hc => cases h; exact .disposed hi (by rw [hc]; rfl) (Or.inr rfl)
    · cases h

end SharedTsLibs.BackgroundJobs
