import SharedTsLibs.Lib.Leasing
import SharedTsLibs.Lib.StepSystem

/-!
# Periodic jobs

An `AbstractPeriodicJob` is registered with a scheduler in every instance of an
application.  In single consumer mode each of its executions begins with the job's
lock, so that the instances take turns: the lock is refreshed while the job runs, and
given another while when it has run.

* `PeriodicJob`, `PeriodicJob.construct` — what the constructor keeps, its defaults,
  and the configuration it refuses.
* `PeriodicState` — the clock, the store of the locks, and where every executor stands.
* `PeriodicState.process`, `.serve`, `.answer`, `.settle`, `.update`, `.close`,
  `.dispose` — the methods, from one `await` to the next: a request for a lock is sent,
  the store handles it, and its answer is read.
* `periodicStep`, `PeriodicStepped` — what one event does.

An executor is named by its id.  The locks are those of a library, `redis-semaphore`:
what it does with the store of the locks is a parameter, and so are the timeout of a
lock that is given none, `defaultTimeout`, and the interval at which the library
refreshes a lock, `refreshInterval`.  That its mutex refreshes a lock it has acquired
until `stopRefresh` or `release`, or until a refresh fails, is as documented.  A request
that fails was handled by the store before, or is not handled at all.
-/

namespace SharedTsLibs.BackgroundJobs

open Leasing

/-! ## Configuration -/

structure Schedule where
  intervalInMs : Option ℕ
  deriving DecidableEq

/-- An optional member may be absent, or there and `undefined` (`some none`). -/
structure SingleConsumerMode where
  enabled : Bool
  exclusiveLockSuffix : Option (Option String)
  lockTimeout : Option (Option ℕ)
  lockTimeoutAfterSuccess : Option ℕ
  deriving DecidableEq

structure BackgroundJobConfiguration where
  jobId : String
  schedule : Schedule
  singleConsumerMode : Option SingleConsumerMode
  shouldLogExecution : Option Bool
  deriving DecidableEq

/-- Which of the optional dependencies are there. -/
structure PeriodicJobDependencies where
  redis : Bool
  transactionObservabilityManager : Bool
  errorReporter : Bool
  deriving DecidableEq

/-- `options.singleConsumerMode` over its defaults: an `undefined` one takes the place of
a default. -/
structure ResolvedSingleConsumerMode where
  enabled : Bool
  exclusiveLockSuffix : Option String
  lockTimeout : Option ℕ
  lockTimeoutAfterSuccess : Option ℕ
  deriving DecidableEq

/-- `DEFAULT_EXCLUSIVE_LOCK_SUFFIX` -/
def defaultExclusiveLockSuffix : String := "EXCLUSIVE"

/-- `DEFAULT_LOCK_TIMEOUT` -/
def defaultLockTimeout : ℕ := 120000

/-- What the constructor keeps: in single consumer mode there is a Redis. -/
structure PeriodicJob where
  jobId : String
  schedule : Schedule
  singleConsumerMode : ResolvedSingleConsumerMode
  shouldLogExecution : Bool
  dependencies : PeriodicJobDependencies
  redis_of_enabled : singleConsumerMode.enabled = true → dependencies.redis = true

/-- `schedule.intervalInMs ? schedule.intervalInMs * 2 : DEFAULT_LOCK_TIMEOUT` -/
def Schedule.lockTimeout (schedule : Schedule) : ℕ :=
  match schedule.intervalInMs with
  | some interval => if interval ≠ 0 then interval * 2 else defaultLockTimeout
  | none => defaultLockTimeout

def resolveSingleConsumerMode (options : BackgroundJobConfiguration) :
    ResolvedSingleConsumerMode where
  enabled := (options.singleConsumerMode.map (·.enabled)).getD false
  exclusiveLockSuffix :=
    (options.singleConsumerMode.bind (·.exclusiveLockSuffix)).getD (some "EXCLUSIVE")
  lockTimeout :=
    (options.singleConsumerMode.bind (·.lockTimeout)).getD (some options.schedule.lockTimeout)
  lockTimeoutAfterSuccess := options.singleConsumerMode.bind (·.lockTimeoutAfterSuccess)

namespace PeriodicJob

/-- The constructor. -/
def construct (options : BackgroundJobConfiguration) (dependencies : PeriodicJobDependencies) :
    Except String PeriodicJob :=
  if h : (resolveSingleConsumerMode options).enabled = true → dependencies.redis = true then
    .ok
      { jobId := options.jobId
        schedule := options.schedule
        singleConsumerMode := resolveSingleConsumerMode options
        shouldLogExecution := options.shouldLogExecution.getD false
        dependencies
        redis_of_enabled := h }
  else .error "Redis instance must be provided in a single consumer mode"

/-- `getJobLockName` of the job's suffix. -/
def lockName (job : PeriodicJob) : String :=
  s!"{job.jobId}:locks:{job.singleConsumerMode.exclusiveLockSuffix.getD defaultExclusiveLockSuffix}"

/-- How long the lock is given after an execution: a `0` is kept. -/
def timeoutAfterExecution (job : PeriodicJob) : ℕ :=
  (job.singleConsumerMode.lockTimeoutAfterSuccess.or job.schedule.intervalInMs).getD
    defaultLockTimeout

end PeriodicJob

/-! ## State -/

/-- Where an executor stands: no execution is under way; a request for the lock has been
sent, a fresh one or, on the `retry`, one to refresh it; the store has granted it the
lock, or refused, and the answer is to be read; `processInternal` is running; it has
settled and the lock is to be updated; the lock was updated and the answer is to come. -/
inductive PeriodicPhase where
  | idle
  | requesting (retry : Bool)
  | granted (since : ℕ)
  | refused (retry : Bool)
  | executing
  | executed (wasSuccessful : Bool)
  | updated (wasSuccessful : Bool)
  deriving DecidableEq

/-- A request for the lock is under way, or its answer. -/
def PeriodicPhase.isRequesting : PeriodicPhase → Bool
  | .requesting _ | .granted _ | .refused _ => true
  | .idle | .executing | .executed _ | .updated _ => false

/-- The mutex kept as `singleConsumerLock`: whether it counts as acquired, and when its
next refresh is due. -/
structure MutexHandle where
  acquired : Bool
  refreshAt : Option ℕ
  deriving DecidableEq

/-- The fields of a job.  `orphaned` are the timers of mutexes that another has
replaced while theirs was running; `stopped` says that the scheduler has dropped it, and
`releases` counts the requests to release the lock that the store has yet to handle. -/
structure PeriodicFields where
  phase : PeriodicPhase
  lock : Option MutexHandle
  orphaned : List ℕ
  stopped : Bool
  releases : ℕ
  deriving DecidableEq

/-- What an executor logs, reports and tells the transaction manager. -/
inductive PeriodicEffect where
  | skipped
  | transactionStarted
  | logStarted
  | logError
  | reported
  | logFinished
  | transactionStopped (wasSuccessful : Bool)
  | lockLost
  | taskError
  deriving DecidableEq

structure PeriodicState (σ ι : Type) where
  now : ℕ
  store : σ
  executors : ι → PeriodicFields
  effects : List (ι × PeriodicEffect)

variable {σ ι : Type}

namespace PeriodicState

/-- Nothing has been executed: the store may hold any locks. -/
def new (now : ℕ) (store : σ) : PeriodicState σ ι :=
  ⟨now, store, fun _ => ⟨.idle, none, [], false, 0⟩, []⟩

def emit (s : PeriodicState σ ι) (e : ι) (effects : List PeriodicEffect) : PeriodicState σ ι :=
  { s with effects := s.effects ++ effects.map (e, ·) }

section

variable (s : PeriodicState σ ι) (e : ι) (effects : List PeriodicEffect)

@[simp] theorem emit_executors : (s.emit e effects).executors = s.executors := rfl

@[simp] theorem emit_effects :
    (s.emit e effects).effects = s.effects ++ effects.map (e, ·) := rfl

variable [DecidableEq ι] (fields : PeriodicFields)

def setFields : PeriodicState σ ι :=
  { s with executors := Function.update s.executors e fields }

@[simp] theorem setFields_now : (s.setFields e fields).now = s.now := rfl

@[simp] theorem setFields_store : (s.setFields e fields).store = s.store := rfl

end

end PeriodicState

variable [DecidableEq ι]

/-- What stays the same: the jobs, the store of the locks, the timeout of a lock that is
given none, and how often a lock with a timeout is refreshed. -/
structure PeriodicSetup (σ ι : Type) [DecidableEq ι] where
  jobs : ι → PeriodicJob
  locks : LeaseStore σ String ι
  defaultTimeout : ℕ
  refreshInterval : ℕ → ℕ

/-! ## Effects -/

/-- With which an execution begins. -/
def PeriodicJob.startEffects (job : PeriodicJob) : List PeriodicEffect :=
  (if job.dependencies.transactionObservabilityManager then [.transactionStarted] else [])
    ++ (if job.shouldLogExecution then [.logStarted] else [])

/-- What a rejection of `processInternal` brings about; `isError` is that of the error. -/
def PeriodicJob.failureEffects (job : PeriodicJob) (isError : Bool) : List PeriodicEffect :=
  .logError :: (if isError && job.dependencies.errorReporter then [.reported] else [])

/-- With which an execution ends. -/
def PeriodicJob.finishEffects (job : PeriodicJob) (wasSuccessful : Bool) : List PeriodicEffect :=
  (if job.shouldLogExecution then [.logFinished] else [])
    ++ (if job.dependencies.transactionObservabilityManager then
          [.transactionStopped wasSuccessful] else [])

/-- `onLockLost` -/
def PeriodicJob.lockLostEffects (job : PeriodicJob) : List PeriodicEffect :=
  if job.dependencies.errorReporter then [.lockLost] else []

/-! ## The methods, from one `await` to the next -/

namespace PeriodicSetup

variable (setup : PeriodicSetup σ ι) (e : ι)

def lockName : String := (setup.jobs e).lockName

/-- The timeout of the lock while the job runs. -/
def timeout : ℕ := (setup.jobs e).singleConsumerMode.lockTimeout.getD setup.defaultTimeout

/-- How often the lock is refreshed meanwhile; `0` is never. -/
def refreshPeriod : ℕ := setup.refreshInterval (setup.timeout e)

/-- When a timer set at a moment is due first. -/
def armed (now : ℕ) : Option ℕ :=
  if 0 < setup.refreshPeriod e then some (now + setup.refreshPeriod e) else none

end PeriodicSetup

namespace PeriodicFields

/-- `singleConsumerLock` is overwritten: a timer that its mutex still has goes on. -/
def replaceLock (fields : PeriodicFields) (lock : Option MutexHandle) : PeriodicFields :=
  { fields with
    lock
    orphaned := fields.orphaned ++ (fields.lock.bind (·.refreshAt)).toList }

/-- `stopRefresh` of the mutex kept. -/
def stopRefresh (fields : PeriodicFields) : PeriodicFields :=
  { fields with lock := fields.lock.map fun handle => { handle with refreshAt := none } }

@[simp] theorem stopRefresh_phase (fields : PeriodicFields) :
    fields.stopRefresh.phase = fields.phase := rfl

end PeriodicFields

namespace PeriodicState

variable (setup : PeriodicSetup σ ι) (s : PeriodicState σ ι) (e : ι)

/-- The execution proper begins. -/
def beginExecution (fields : PeriodicFields) : PeriodicState σ ι :=
  (s.setFields e { fields with phase := .executing }).emit e (setup.jobs e).startEffects

/-- `tryAcquire` sends its request. -/
def request (retry : Bool) : PeriodicState σ ι :=
  s.setFields e { s.executors e with phase := .requesting retry }

/-- `process` up to its first `await`. -/
def process : PeriodicState σ ι :=
  if (setup.jobs e).singleConsumerMode.enabled then s.request e false
  else s.beginExecution setup e (s.executors e)

/-- The store handles the request for the lock. -/
def serve (retry : Bool) : PeriodicState σ ι :=
  let answer :=
    if retry then setup.locks.refresh s.store s.now (setup.lockName e) e (setup.timeout e)
    else setup.locks.acquire s.store s.now (setup.lockName e) e (setup.timeout e)
  setFields { s with store := answer.2 } e
    { s.executors e with phase := if answer.1 then .granted s.now else .refused retry }

/-- `tryAcquireExclusiveLock` returns a lock, whose timer it has started. -/
def acquired : PeriodicState σ ι :=
  s.beginExecution setup e
    ((s.executors e).replaceLock (some ⟨true, setup.armed e s.now⟩))

/-- `tryAcquireExclusiveLock` returns none: the execution is skipped. -/
def skip : PeriodicState σ ι :=
  (s.setFields e { (s.executors e).replaceLock none with phase := .idle }).emit e [.skipped]

/-- The answer to the request for the lock is read; when a fresh one was refused, the lock
may be the executor's own, to refresh. -/
def answer : Option (PeriodicState σ ι) :=
  match (s.executors e).phase with
  | .granted _ => some (s.acquired setup e)
  | .refused false => some (s.request e true)
  | .refused true => some (s.skip e)
  | _ => none

/-- `processInternal` settles: `none`, or whether what it was rejected with is an error. -/
def settle (rejection : Option Bool) : PeriodicState σ ι :=
  (s.setFields e { s.executors e with phase := .executed rejection.isNone }).emit e
    ((rejection.map (setup.jobs e).failureEffects).getD [])

/-- `updateMutex`: nothing depends on its answer. -/
def update (wasSuccessful : Bool) : PeriodicState σ ι :=
  setFields
    { s with
      store := (setup.locks.refresh s.store s.now (setup.lockName e) e
        (setup.jobs e).timeoutAfterExecution).2 }
    e { s.executors e with phase := .updated wasSuccessful }

/-- The end of `process`. -/
def close (wasSuccessful : Bool) : PeriodicState σ ι :=
  (s.setFields e { (s.executors e).stopRefresh with phase := .idle }).emit e
    ((setup.jobs e).finishEffects wasSuccessful)

/-- The request under way rejects, and so does `process`. -/
def reject : PeriodicState σ ι :=
  (s.setFields e { s.executors e with phase := .idle }).emit e [.taskError]

/-- The store handles a request of the timer of the mutex kept. -/
def refresh : PeriodicState σ ι :=
  let answer := setup.locks.refresh s.store s.now (setup.lockName e) e (setup.timeout e)
  if answer.1 then
    setFields { s with store := answer.2 } e
      { s.executors e with lock := some ⟨true, some (s.now + setup.refreshPeriod e)⟩ }
  else
    (setFields { s with store := answer.2 } e
      { s.executors e with lock := some ⟨false, none⟩ }).emit e (setup.jobs e).lockLostEffects

/-- The store handles a request of the timer of a mutex that has been replaced. -/
def refreshOrphaned (k : ℕ) : PeriodicState σ ι :=
  let answer := setup.locks.refresh s.store s.now (setup.lockName e) e (setup.timeout e)
  if answer.1 then
    setFields { s with store := answer.2 } e
      { s.executors e with
        orphaned := (s.executors e).orphaned.set k (s.now + setup.refreshPeriod e) }
  else
    (setFields { s with store := answer.2 } e
      { s.executors e with orphaned := (s.executors e).orphaned.eraseIdx k }).emit e
      (setup.jobs e).lockLostEffects

/-- `dispose`: the mutex kept stops its timer and, when it counts as acquired, asks for the
release of the lock.  It goes on to count as acquired, so that another `dispose` may ask
once more. -/
def dispose : PeriodicState σ ι :=
  s.setFields e
    { (s.executors e).stopRefresh with
      stopped := true
      releases := (s.executors e).releases +
        if ((s.executors e).lock.map (·.acquired)).getD false then 1 else 0 }

/-- The store handles a request to release the lock. -/
def release : PeriodicState σ ι :=
  setFields
    { s with store := setup.locks.release s.store s.now (setup.lockName e) e } e
    { s.executors e with releases := (s.executors e).releases - 1 }

/-! ### The fields of the executor afterwards -/

@[simp] theorem setFields_executors_self (fields : PeriodicFields) :
    (s.setFields e fields).executors e = fields := Function.update_self ..

@[simp] theorem beginExecution_executors_self (fields : PeriodicFields) :
    (s.beginExecution setup e fields).executors e = { fields with phase := .executing } :=
  Function.update_self ..

@[simp] theorem acquired_executors_self : (s.acquired setup e).executors e =
    { (s.executors e).replaceLock (some ⟨true, setup.armed e s.now⟩) with phase := .executing } :=
  Function.update_self ..

@[simp] theorem settle_executors_self (rejection : Option Bool) :
    (s.settle setup e rejection).executors e =
      { s.executors e with phase := .executed rejection.isNone } := Function.update_self ..

@[simp] theorem update_executors_self (wasSuccessful : Bool) :
    (s.update setup e wasSuccessful).executors e =
      { s.executors e with phase := .updated wasSuccessful } := Function.update_self ..

@[simp] theorem close_executors_self (wasSuccessful : Bool) :
    (s.close setup e wasSuccessful).executors e =
      { (s.executors e).stopRefresh with phase := .idle } := Function.update_self ..

@[simp] theorem reject_executors_self :
    (s.reject e).executors e = { s.executors e with phase := .idle } := Function.update_self ..

@[simp] theorem request_executors_self (retry : Bool) :
    (s.request e retry).executors e = { s.executors e with phase := .requesting retry } :=
  Function.update_self ..

@[simp] theorem skip_executors_self :
    (s.skip e).executors e = { (s.executors e).replaceLock none with phase := .idle } :=
  Function.update_self ..

@[simp] theorem dispose_executors_self :
    (s.dispose e).executors e =
      { (s.executors e).stopRefresh with
        stopped := true
        releases := (s.executors e).releases +
          if ((s.executors e).lock.map (·.acquired)).getD false then 1 else 0 } :=
  Function.update_self ..

@[simp] theorem release_executors_self :
    (s.release setup e).executors e =
      { s.executors e with releases := (s.executors e).releases - 1 } := Function.update_self ..

end PeriodicState

/-! ## Events -/

/-- What can happen. -/
inductive PeriodicEvent (ι : Type) where
  /-- Time passes. -/
  | tick (d : ℕ)
  /-- The scheduler runs the job. -/
  | process (e : ι)
  | serve (e : ι)
  | answer (e : ι)
  | settle (e : ι) (rejection : Option Bool)
  | update (e : ι)
  | close (e : ι)
  /-- The request under way fails. -/
  | reject (e : ι)
  | refresh (e : ι)
  | refreshOrphaned (e : ι) (k : ℕ)
  | dispose (e : ι)
  | release (e : ι)
  deriving DecidableEq

/-- Whose event it is. -/
def PeriodicEvent.executor : PeriodicEvent ι → Option ι
  | .tick _ => none
  | .process e | .serve e | .answer e | .settle e _ | .update e | .close e | .reject e
  | .refresh e | .refreshOrphaned e _ | .dispose e | .release e => some e

/-- What an event does; `none` when the executor is not at that point.  The scheduler
runs no job that is running or was dropped.  The request of a timer may reach the store
sooner than `refreshAt`, when the one before was long on its way. -/
def periodicStep (setup : PeriodicSetup σ ι) (s : PeriodicState σ ι) :
    PeriodicEvent ι → Option (PeriodicState σ ι)
  | .tick d => some { s with now := s.now + d }
  | .process e =>
    if (s.executors e).phase = .idle ∧ (s.executors e).stopped = false then
      some (s.process setup e)
    else none
  | .serve e =>
    match (s.executors e).phase with
    | .requesting retry => some (s.serve setup e retry)
    | _ => none
  | .answer e => s.answer setup e
  | .settle e rejection =>
    if (s.executors e).phase = .executing then some (s.settle setup e rejection) else none
  | .update e =>
    match (s.executors e).phase, (s.executors e).lock with
    | .executed wasSuccessful, some _ => some (s.update setup e wasSuccessful)
    | _, _ => none
  | .close e =>
    match (s.executors e).phase, (s.executors e).lock with
    | .executed wasSuccessful, none => some (s.close setup e wasSuccessful)
    | .updated wasSuccessful, _ => some (s.close setup e wasSuccessful)
    | _, _ => none
  | .reject e =>
    match (s.executors e).phase, (s.executors e).lock with
    | .requesting _, _ | .granted _, _ | .refused _, _ | .updated _, _ => some (s.reject e)
    | .executed _, some _ => some (s.reject e)
    | _, _ => none
  | .refresh e => ((s.executors e).lock.bind (·.refreshAt)).map fun _ => s.refresh setup e
  | .refreshOrphaned e k => (s.executors e).orphaned[k]?.map fun _ => s.refreshOrphaned setup e k
  | .dispose e => some (s.dispose e)
  | .release e => if 0 < (s.executors e).releases then some (s.release setup e) else none

/-! ## What an event can do -/

/-- The events, one case for each way a method goes on: what a request did with the
locks is read off the leases in the store. -/
inductive PeriodicStepped (setup : PeriodicSetup σ ι) (s : PeriodicState σ ι) :
    PeriodicEvent ι → PeriodicState σ ι → Prop where
  | tick {d : ℕ} : PeriodicStepped setup s (.tick d) { s with now := s.now + d }
  | begins {e : ι} (hphase : (s.executors e).phase = .idle)
      (hstopped : (s.executors e).stopped = false)
      (henabled : (setup.jobs e).singleConsumerMode.enabled = false) :
      PeriodicStepped setup s (.process e) (s.beginExecution setup e (s.executors e))
  | requests {e : ι} {event : PeriodicEvent ι} {retry : Bool}
      (hphase : event = .process e ∧ (s.executors e).phase = .idle ∧
          (s.executors e).stopped = false ∨
        event = .answer e ∧ (s.executors e).phase = .refused false) :
      PeriodicStepped setup s event (s.request e retry)
  | grants {e : ι} {retry : Bool} {store : σ} (hphase : (s.executors e).phase = .requesting retry)
      (hholder : ∀ i, holder (setup.locks.view s.store) s.now (setup.lockName e) = some i → i = e)
      (hview : setup.locks.view store = Function.update (setup.locks.view s.store)
        (setup.lockName e) (some ⟨e, s.now + setup.timeout e⟩)) :
      PeriodicStepped setup s (.serve e)
        (PeriodicState.setFields { s with store } e { s.executors e with phase := .granted s.now })
  | refuses {e : ι} {retry : Bool} {store : σ}
      (hphase : (s.executors e).phase = .requesting retry)
      (hview : setup.locks.view store = setup.locks.view s.store) :
      PeriodicStepped setup s (.serve e)
        (PeriodicState.setFields { s with store } e { s.executors e with phase := .refused retry })
  | acquires {e : ι} {since : ℕ} (hphase : (s.executors e).phase = .granted since) :
      PeriodicStepped setup s (.answer e) (s.acquired setup e)
  | skips {e : ι} (hphase : (s.executors e).phase = .refused true) :
      PeriodicStepped setup s (.answer e) (s.skip e)
  | settles {e : ι} {rejection : Option Bool} (hphase : (s.executors e).phase = .executing) :
      PeriodicStepped setup s (.settle e rejection) (s.settle setup e rejection)
  | updates {e : ι} {wasSuccessful : Bool} {handle : MutexHandle}
      (hphase : (s.executors e).phase = .executed wasSuccessful)
      (hlock : (s.executors e).lock = some handle) :
      PeriodicStepped setup s (.update e) (s.update setup e wasSuccessful)
  | closes {e : ι} {wasSuccessful : Bool}
      (hphase : (s.executors e).phase = .executed wasSuccessful ∧ (s.executors e).lock = none ∨
        (s.executors e).phase = .updated wasSuccessful) :
      PeriodicStepped setup s (.close e) (s.close setup e wasSuccessful)
  | rejects {e : ι} (hphase : (s.executors e).phase.isRequesting = true ∨
        ∃ wasSuccessful, (s.executors e).phase = .executed wasSuccessful ∨
          (s.executors e).phase = .updated wasSuccessful) :
      PeriodicStepped setup s (.reject e) (s.reject e)
  | refreshes {e : ι} {event : PeriodicEvent ι} {store : σ} {fields : PeriodicFields}
      (hfields : event = .refresh e ∧
          fields = { s.executors e with
            lock := some ⟨true, some (s.now + setup.refreshPeriod e)⟩ } ∨
        ∃ k, event = .refreshOrphaned e k ∧
          fields = { s.executors e with
            orphaned := (s.executors e).orphaned.set k (s.now + setup.refreshPeriod e) })
      (hholder : holder (setup.locks.view s.store) s.now (setup.lockName e) = some e)
      (hview : setup.locks.view store = Function.update (setup.locks.view s.store)
        (setup.lockName e) (some ⟨e, s.now + setup.timeout e⟩)) :
      PeriodicStepped setup s event (PeriodicState.setFields { s with store } e fields)
  | loses {e : ι} {event : PeriodicEvent ι} {store : σ} {fields : PeriodicFields}
      (hfields : event = .refresh e ∧
          fields = { s.executors e with lock := some ⟨false, none⟩ } ∨
        ∃ k, event = .refreshOrphaned e k ∧
          fields = { s.executors e with orphaned := (s.executors e).orphaned.eraseIdx k })
      (hholder : holder (setup.locks.view s.store) s.now (setup.lockName e) ≠ some e)
      (hview : setup.locks.view store = setup.locks.view s.store) :
      PeriodicStepped setup s event ((PeriodicState.setFields { s with store } e fields).emit e
        (setup.jobs e).lockLostEffects)
  | disposes {e : ι} : PeriodicStepped setup s (.dispose e) (s.dispose e)
  | releases {e : ι} (hreleases : 0 < (s.executors e).releases) :
      PeriodicStepped setup s (.release e) (s.release setup e)

section

variable {setup : PeriodicSetup σ ι} {s s' : PeriodicState σ ι}

/-- A request to refresh a lock that succeeds writes it, and one that fails writes nothing. -/
theorem refresh_cases (setup : PeriodicSetup σ ι) (s : PeriodicState σ ι) (e : ι) (ttl : ℕ) :
    (setup.locks.refresh s.store s.now (setup.lockName e) e ttl).1 = true ∧
        holder (setup.locks.view s.store) s.now (setup.lockName e) = some e ∧
        setup.locks.view (setup.locks.refresh s.store s.now (setup.lockName e) e ttl).2
          = Function.update (setup.locks.view s.store) (setup.lockName e) (some ⟨e, s.now + ttl⟩) ∨
      (setup.locks.refresh s.store s.now (setup.lockName e) e ttl).1 = false ∧
        holder (setup.locks.view s.store) s.now (setup.lockName e) ≠ some e ∧
        setup.locks.view (setup.locks.refresh s.store s.now (setup.lockName e) e ttl).2
          = setup.locks.view s.store := by
  rw [setup.locks.refresh_fst, setup.locks.view_refresh]
  cases hrenew : (renew (setup.locks.view s.store) s.now (setup.lockName e) e ttl).1 with
  | true =>
    have hheld := (lease_of_renew hrenew).1
    exact .inl ⟨rfl, hheld, by rw [renew_of_held hheld]⟩
  | false =>
    obtain ⟨hnot, hsame⟩ := snd_of_renew_eq_false hrenew
    exact .inr ⟨rfl, hnot, hsame⟩

theorem stepped_process {e : ι} (hphase : (s.executors e).phase = .idle)
    (hstopped : (s.executors e).stopped = false) :
    PeriodicStepped setup s (.process e) (s.process setup e) := by
  unfold PeriodicState.process
  split
  · exact .requests (.inl ⟨rfl, hphase, hstopped⟩)
  · next henabled => exact .begins hphase hstopped (by simpa using henabled)

theorem stepped_serve {e : ι} {retry : Bool} (hphase : (s.executors e).phase = .requesting retry) :
    PeriodicStepped setup s (.serve e) (s.serve setup e retry) := by
  unfold PeriodicState.serve
  cases retry with
  | true =>
    obtain ⟨hok, hheld, hview⟩ | ⟨hok, -, hview⟩ := refresh_cases setup s e (setup.timeout e)
    · simp only [hok, if_true]
      refine .grants hphase (fun i hi => ?_) hview
      rw [hheld] at hi
      exact (Option.some.inj hi).symm
    · simp only [hok, if_true, Bool.false_eq_true, if_false]
      exact .refuses hphase hview
  | false =>
    simp only [Bool.false_eq_true, if_false, setup.locks.acquire_fst]
    cases hgrant : (grant (setup.locks.view s.store) s.now (setup.lockName e) e
      (setup.timeout e)).1 with
    | true =>
      have hfree := (lease_of_grant hgrant).1
      refine .grants hphase (fun i hi => ?_) ?_
      · rw [hfree] at hi
        cases hi
      · rw [setup.locks.view_acquire, grant_of_free hfree]
    | false =>
      refine .refuses hphase ?_
      rw [setup.locks.view_acquire]
      exact snd_of_grant_eq_false hgrant

theorem stepped_answer {e : ι} (h : s.answer setup e = some s') :
    PeriodicStepped setup s (.answer e) s' := by
  unfold PeriodicState.answer at h
  split at h
  · next hphase => cases h; exact .acquires hphase
  · next hphase => cases h; exact .requests (.inr ⟨rfl, hphase⟩)
  · next hphase => cases h; exact .skips hphase
  · cases h

theorem stepped_refresh {e : ι} : PeriodicStepped setup s (.refresh e) (s.refresh setup e) := by
  unfold PeriodicState.refresh
  obtain ⟨hok, hheld, hview⟩ | ⟨hok, hnot, hview⟩ := refresh_cases setup s e (setup.timeout e)
  · simp only [hok, if_true]
    exact .refreshes (.inl ⟨rfl, rfl⟩) hheld hview
  · simp only [hok, Bool.false_eq_true, if_false]
    exact .loses (.inl ⟨rfl, rfl⟩) hnot hview

theorem stepped_refreshOrphaned {e : ι} {k : ℕ} :
    PeriodicStepped setup s (.refreshOrphaned e k) (s.refreshOrphaned setup e k) := by
  unfold PeriodicState.refreshOrphaned
  obtain ⟨hok, hheld, hview⟩ | ⟨hok, hnot, hview⟩ := refresh_cases setup s e (setup.timeout e)
  · simp only [hok, if_true]
    exact .refreshes (.inr ⟨k, rfl, rfl⟩) hheld hview
  · simp only [hok, Bool.false_eq_true, if_false]
    exact .loses (.inr ⟨k, rfl, rfl⟩) hnot hview

/-- **Every event is one of the cases.** -/
theorem periodicStepped_of_periodicStep {event : PeriodicEvent ι}
    (h : periodicStep setup s event = some s') : PeriodicStepped setup s event s' := by
  cases event with
  | tick d => cases h; exact .tick
  | process e =>
    simp only [periodicStep] at h
    split at h
    · next hidle => cases h; exact stepped_process hidle.1 hidle.2
    · cases h
  | serve e =>
    simp only [periodicStep] at h
    split at h
    · next hphase => cases h; exact stepped_serve hphase
    · cases h
  | answer e => exact stepped_answer h
  | settle e rejection =>
    simp only [periodicStep] at h
    split at h
    · next hphase => cases h; exact .settles hphase
    · cases h
  | update e =>
    simp only [periodicStep] at h
    split at h
    · next hphase hlock => cases h; exact .updates hphase hlock
    · cases h
  | close e =>
    simp only [periodicStep] at h
    split at h
    · next hphase hlock => cases h; exact .closes (.inl ⟨hphase, hlock⟩)
    · next hphase => cases h; exact .closes (.inr hphase)
    · cases h
  | reject e =>
    simp only [periodicStep] at h
    split at h
    · next hphase => cases h; exact .rejects (.inl (by rw [hphase]; rfl))
    · next hphase => cases h; exact .rejects (.inl (by rw [hphase]; rfl))
    · next hphase => cases h; exact .rejects (.inl (by rw [hphase]; rfl))
    · next hphase => cases h; exact .rejects (.inr ⟨_, .inr hphase⟩)
    · next hphase _ => cases h; exact .rejects (.inr ⟨_, .inl hphase⟩)
    · cases h
  | refresh e =>
    obtain ⟨t, -, rfl⟩ := Option.map_eq_some_iff.1 h
    exact stepped_refresh
  | refreshOrphaned e k =>
    obtain ⟨t, -, rfl⟩ := Option.map_eq_some_iff.1 h
    exact stepped_refreshOrphaned
  | dispose e => cases h; exact .disposes
  | release e =>
    simp only [periodicStep] at h
    split at h
    · next hreleases => cases h; exact .releases hreleases
    · cases h

end

end SharedTsLibs.BackgroundJobs
