import SharedTsLibs.Lib.StepSystem
import Mathlib.Data.Rat.Cast.Order
import Mathlib.Algebra.Order.Field.Rat

/-!
# The failure hook

BullMQ emits a `failed` event for every failed attempt of a job.  The processor
reports the error, and when it takes the failure for the job's last one it calls
the `onFailed` hook.  The report has the error as JSON, and an error that cannot be
written so ends the handling.  The logger and the reporter are taken not to throw.

* `internalOnFailed`, `onFailedEvent` — the handler of the event, and its listener.
* `retriesAutomatically` — what BullMQ does after the event.
* `JobLife`, `jobStep` — a job through its attempts, its automatic retries and the
  manual ones of a job that has failed.
* `HookExact`, `HookCondition` — the hook is called exactly for the failures BullMQ
  does not follow with a retry; the condition under which the code achieves it.
* `hook_exact_iff` — the two agree along every life of a job.
* `hookCondition_of_no_manual_retry` — the condition holds in a life without manual
  retries, of a job with at least one attempt, whose unrecoverable errors bear their
  name and whose errors can be reported.
-/

namespace SharedTsLibs.BackgroundJobs

open StepSystem

/-! ## Errors -/

/-- What is read of an `Error`: its name and message, whether it is an instance of
BullMQ's `UnrecoverableError`, and whether it bears the muting symbol. -/
structure JobError where
  name : String
  message : String
  isUnrecoverableInstance : Bool
  isMuted : Bool
  deriving DecidableEq

/-- The error of a failed attempt, with what `JSON.stringify(pino.stdSerializers.err(error))`
gives: `none` when it throws, as for a property that is a BigInt or leads back to its object. -/
structure FailureError extends JobError where
  json : Option String
  deriving DecidableEq

/-- `isUnrecoverableJobError`. -/
def isUnrecoverableJobError (error : JobError) : Bool := error.name == "UnrecoverableError"

/-- `isMutedUnrecoverableJobError`. -/
def isMutedUnrecoverableJobError (error : JobError) : Bool :=
  isUnrecoverableJobError error && error.isMuted

def stalledMessage : String := "job stalled more than allowable limit"

/-- `isStalledJobError`. -/
def isStalledJobError (error : JobError) : Bool := error.message == stalledMessage

/-! ## The handler -/

/-- The part of a job the handler reads.  `attempts` is the job option, which may be
missing. -/
structure FailedJob where
  id : Option String
  name : String
  correlationId : String
  attempts : Option ℚ
  attemptsMade : ℕ
  deriving DecidableEq

/-- `resolveJobId`. -/
def resolveJobId (job : FailedJob) : String := job.id.getD "unknown"

/-- What the hook rejects with: an error, or another value with what `JSON.stringify` gives
for it, `none` when it throws and `some none` for `undefined`. -/
inductive HookRejection where
  | error (error : FailureError)
  | value (json : Option (Option String))
  deriving DecidableEq

/-- An error handed to the reporter: the one that was thrown, or one made for another value. -/
inductive ReportedError where
  | thrown (error : FailureError)
  | made (message : String)
  deriving DecidableEq

/-- An error reported, with its context. -/
structure ErrorReport where
  error : ReportedError
  jobId : String
  jobName : String
  requestId : String
  json : Option String
  deriving DecidableEq

/-- What the handler has done so far: the errors reported, the calls of the hook and
the jobs handed to the spy. -/
structure HookLog where
  reported : List ErrorReport
  hooked : List (FailedJob × FailureError)
  spied : List FailedJob
  deriving DecidableEq

/-- A processor: there is a spy in tests only. -/
structure HookConfig where
  name : String
  isTest : Bool
  onFailed : FailedJob → FailureError → Except HookRejection Unit

/-- `this.errorReporter.report`, for which the error is written as JSON first.  What throws
leaves what was done before. -/
def HookLog.report (log : HookLog) (error : ReportedError) (json : Option (Option String))
    (job : FailedJob) : Except HookLog HookLog :=
  match json with
  | none => .error log
  | some json =>
    .ok { log with
      reported := log.reported ++ [⟨error, resolveJobId job, job.name, job.correlationId, json⟩] }

/-- `internalOnHook`: the hook is called, and what it rejects with is reported. -/
def internalOnHook (config : HookConfig) (log : HookLog) (job : FailedJob)
    (error : FailureError) : Except HookLog HookLog :=
  let log := { log with hooked := log.hooked ++ [(job, error)] }
  match config.onFailed job error with
  | .ok () => .ok log
  | .error (.error hookError) => log.report (.thrown hookError) (hookError.json.map some) job
  | .error (.value json) =>
    log.report (.made s!"{config.name} onFailed non-error exception") json job

/-- The failure is taken for the last one. -/
def isLastFailure (job : FailedJob) (error : JobError) : Bool :=
  isUnrecoverableJobError error || isStalledJobError error ||
    job.attempts == some (job.attemptsMade : ℚ)

/-- Errors are reported unless they are muted. -/
def reportFailure (log : HookLog) (job : FailedJob) (error : FailureError) :
    Except HookLog HookLog :=
  if isMutedUnrecoverableJobError error.toJobError then .ok log
  else log.report (.thrown error) (error.json.map some) job

/-- `internalOnFailed` -/
def internalOnFailed (config : HookConfig) (log : HookLog) (job : FailedJob)
    (error : FailureError) : Except HookLog HookLog := do
  let log ← reportFailure log job error
  if isLastFailure job error.toJobError then
    let log ← internalOnHook config log job error
    return if config.isTest then { log with spied := log.spied ++ [job] } else log
  else return log

/-- What has been done when a handler has returned or thrown. -/
def logAfter : Except HookLog HookLog → HookLog
  | .ok log | .error log => log

/-- The listener of the event: what `internalOnFailed` throws is dropped. -/
def onFailedEvent (config : HookConfig) (log : HookLog) (job : FailedJob)
    (error : FailureError) : HookLog :=
  logAfter (internalOnFailed config log job error)

/-! ## BullMQ -/

/-- After a failure BullMQ retries the job when it has attempts left and the error is
neither an `UnrecoverableError`, by class or by name, nor that of a stalled job. -/
def retriesAutomatically (job : FailedJob) (error : JobError) : Bool :=
  (match job.attempts with
    | some attempts => decide ((job.attemptsMade : ℚ) < attempts)
    | none => false) &&
  !(error.isUnrecoverableInstance || isUnrecoverableJobError error) && !isStalledJobError error

/-- A job waiting for its next attempt, or failed for good, until it is retried by
hand. -/
inductive JobPhase where
  | active
  | failed
  deriving DecidableEq

/-- A job, and what the handler has done about it. -/
structure JobLife where
  job : FailedJob
  phase : JobPhase
  log : HookLog
  deriving DecidableEq

inductive JobEvent where
  /-- An attempt fails; BullMQ counts it. -/
  | attemptFailed (error : FailureError)
  /-- The job stalled too often; the attempt is not counted. -/
  | stalled (error : FailureError)
  /-- A failed job is retried by hand. -/
  | retry
  deriving DecidableEq

/-- The job as the event that reports a failure carries it, and the error. -/
def JobEvent.failure (job : FailedJob) : JobEvent → Option (FailedJob × FailureError)
  | .attemptFailed error => some ({ job with attemptsMade := job.attemptsMade + 1 }, error)
  | .stalled error => some (job, { error with message := stalledMessage })
  | .retry => none

/-- What an event does: a failure reaches the handler, and the job is retried or has
failed; a manual retry keeps the count of the attempts made. -/
def jobStep (config : HookConfig) (s : JobLife) (e : JobEvent) : Option JobLife :=
  match s.phase, e.failure s.job with
  | .active, some (job, error) =>
    some
      { job
        phase := if retriesAutomatically job error.toJobError then .active else .failed
        log := onFailedEvent config s.log job error }
  | .failed, none => some { s with phase := .active }
  | _, _ => none

/-- A job just added, of which nothing was reported. -/
def JobLife.new (job : FailedJob) : JobLife :=
  ⟨{ job with attemptsMade := 0 }, .active, ⟨[], [], []⟩⟩

/-! ## When the hook is called -/

/-- The handler calls the hook for the failure if and only if BullMQ will not retry
the job. -/
def HookExact (config : HookConfig) (s : JobLife) (e : JobEvent) : Prop :=
  ∀ job error, e.failure s.job = some (job, error) →
    ((onFailedEvent config s.log job error).hooked = s.log.hooked ++ [(job, error)] ↔
      retriesAutomatically job error.toJobError = false)

/-- The error is muted, or it can be written as JSON. -/
def Reportable (error : FailureError) : Prop :=
  isMutedUnrecoverableJobError error.toJobError = true ∨ error.json.isSome = true

instance (error : FailureError) : Decidable (Reportable error) :=
  inferInstanceAs (Decidable (_ ∨ _))

/-- Either BullMQ retries the job, which has attempts left for an error that is no
`UnrecoverableError` and not that of a stalled job; or the error can be reported, and it is of
a stalled job or bears the name of an `UnrecoverableError`, or the attempts made are exactly
the attempts configured. -/
def HookCondition (s : JobLife) (e : JobEvent) : Prop :=
  ∀ job error, e.failure s.job = some (job, error) →
    (∃ attempts, job.attempts = some attempts ∧ (job.attemptsMade : ℚ) < attempts ∧
      error.isUnrecoverableInstance = false ∧ isUnrecoverableJobError error.toJobError = false ∧
      isStalledJobError error.toJobError = false) ∨
    Reportable error ∧
      (isUnrecoverableJobError error.toJobError = true ∨
        isStalledJobError error.toJobError = true ∨
        job.attempts = some (job.attemptsMade : ℚ))

variable {config : HookConfig}

theorem hooked_report (log : HookLog) (error : ReportedError) (json : Option (Option String))
    (job : FailedJob) : (logAfter (log.report error json job)).hooked = log.hooked := by
  cases json <;> rfl

variable (config) in
/-- The hook is called once, however it settles. -/
theorem hooked_internalOnHook (log : HookLog) (job : FailedJob) (error : FailureError) :
    (logAfter (internalOnHook config log job error)).hooked = log.hooked ++ [(job, error)] := by
  unfold internalOnHook
  split
  · rfl
  · exact hooked_report ..
  · exact hooked_report ..

/-- What follows the report: the hook and the spy, for the last failure. -/
theorem hooked_lastFailure (log : HookLog) (job : FailedJob) (error : FailureError) :
    (logAfter (if isLastFailure job error.toJobError then do
        let log ← internalOnHook config log job error
        return if config.isTest then { log with spied := log.spied ++ [job] } else log
      else return log)).hooked =
      log.hooked ++ if isLastFailure job error.toJobError = true then [(job, error)] else [] := by
  split
  · rw [← hooked_internalOnHook config]
    cases internalOnHook config log job error with
    | error log => rfl
    | ok log => cases config.isTest <;> rfl
  · exact (List.append_nil _).symm

/-- An error that can be reported is, and the handler goes on; another ends it at once. -/
theorem reportFailure_cases (log : HookLog) (job : FailedJob) (error : FailureError) :
    (Reportable error ∧ ∃ log', reportFailure log job error = .ok log' ∧
        log'.hooked = log.hooked) ∨
      ¬ Reportable error ∧ reportFailure log job error = .error log := by
  unfold reportFailure Reportable
  by_cases hmuted : isMutedUnrecoverableJobError error.toJobError = true
  · exact .inl ⟨.inl hmuted, log, if_pos hmuted, rfl⟩
  · rw [if_neg hmuted]
    cases hjson : error.json with
    | none => exact .inr ⟨by simp [hmuted], rfl⟩
    | some json => exact .inl ⟨.inr rfl, _, rfl, rfl⟩

/-- The handler calls the hook once when it can report the error and takes the failure for the
last one, and else not at all. -/
theorem hooked_onFailedEvent (log : HookLog) (job : FailedJob) (error : FailureError) :
    (onFailedEvent config log job error).hooked = log.hooked ++
      if Reportable error ∧ isLastFailure job error.toJobError = true then [(job, error)]
      else [] := by
  obtain ⟨hreports, log', hlog', hsame⟩ | ⟨hnot, hthrows⟩ := reportFailure_cases log job error
  · simp only [hreports, true_and]
    rw [← hsame, onFailedEvent, internalOnFailed, hlog']
    exact hooked_lastFailure log' job error
  · rw [if_neg fun h => hnot h.1, onFailedEvent, internalOnFailed, hthrows]
    exact (List.append_nil _).symm

/-- The hook is called for the failure exactly when the error can be reported and the failure is
taken for the last one. -/
theorem hooked_iff (log : HookLog) (job : FailedJob) (error : FailureError) :
    (onFailedEvent config log job error).hooked = log.hooked ++ [(job, error)] ↔
      Reportable error ∧ isLastFailure job error.toJobError = true := by
  rw [hooked_onFailedEvent, List.append_cancel_left_eq]
  split
  · next h => exact iff_of_true rfl h
  · next h => exact iff_of_false (by simp) h

theorem isLastFailure_iff {job : FailedJob} {error : JobError} :
    isLastFailure job error = true ↔ isUnrecoverableJobError error = true ∨
      isStalledJobError error = true ∨ job.attempts = some (job.attemptsMade : ℚ) := by
  simp [isLastFailure, or_assoc]

theorem retriesAutomatically_iff {job : FailedJob} {error : JobError} :
    retriesAutomatically job error = true ↔
      (∃ attempts, job.attempts = some attempts ∧ (job.attemptsMade : ℚ) < attempts) ∧
      error.isUnrecoverableInstance = false ∧ isUnrecoverableJobError error = false ∧
      isStalledJobError error = false := by
  unfold retriesAutomatically
  cases job.attempts with
  | none => simp
  | some attempts => simp [and_assoc]

/-- A failure taken for the last one is one BullMQ does not retry. -/
theorem not_retries_of_isLastFailure {job : FailedJob} {error : JobError}
    (h : isLastFailure job error = true) : retriesAutomatically job error = false := by
  rw [← Bool.not_eq_true, retriesAutomatically_iff]
  rintro ⟨⟨attempts, hattempts, hlt⟩, -, hname, hstalled⟩
  rcases isLastFailure_iff.1 h with hn | hs | heq
  · rw [hname] at hn
    cases hn
  · rw [hstalled] at hs
    cases hs
  · rw [hattempts] at heq
    rw [Option.some.inj heq] at hlt
    exact lt_irrefl _ hlt

/-- One failure. -/
theorem hookExact_iff (s : JobLife) (e : JobEvent) :
    HookExact config s e ↔ HookCondition s e := by
  refine forall_congr' fun job => forall_congr' fun error => imp_congr_right fun _ => ?_
  rw [hooked_iff, isLastFailure_iff]
  constructor
  · intro h
    by_cases hr : retriesAutomatically job error.toJobError = true
    · obtain ⟨⟨attempts, hattempts, hlt⟩, hkept⟩ := retriesAutomatically_iff.1 hr
      exact .inl ⟨attempts, hattempts, hlt, hkept⟩
    · exact .inr (h.2 (Bool.eq_false_iff.2 hr))
  · rintro (⟨attempts, hattempts, hlt, hkept⟩ | hlast)
    · -- the job is retried, and so the failure is not taken for the last one
      have hr := retriesAutomatically_iff.2 ⟨⟨attempts, hattempts, hlt⟩, hkept⟩
      refine iff_of_false (fun hlast => ?_) (by simp [hr])
      rw [not_retries_of_isLastFailure (isLastFailure_iff.2 hlast.2)] at hr
      cases hr
    · exact iff_of_true hlast (not_retries_of_isLastFailure (isLastFailure_iff.2 hlast.2))

/-- Along every life of a job, the hook is called for every failure that BullMQ does
not retry, and for no other, exactly when every failure meets the condition. -/
theorem hook_exact_iff (config : HookConfig) (job : FailedJob) (events : List JobEvent) :
    AllSteps (jobStep config) (HookExact config) (.new job) events ↔
      AllSteps (jobStep config) HookCondition (.new job) events :=
  allSteps_congr hookExact_iff

/-! ## Lives without manual retries -/

/-- The event is no manual retry, and its error can be reported and is an
`UnrecoverableError` in name when it is one by class. -/
def PlainEvent (_ : JobLife) : JobEvent → Prop
  | .attemptFailed error | .stalled error =>
    error.json.isSome = true ∧
      (error.isUnrecoverableInstance = true → isUnrecoverableJobError error.toJobError = true)
  | .retry => False

/-- A job that is not retried by hand has attempts left as long as it is active. -/
theorem attempts_left_of_step {attempts : ℕ} {s s' : JobLife} {e : JobEvent}
    (h : s.job.attempts = some (attempts : ℚ) ∧ (s.phase = .active → s.job.attemptsMade < attempts))
    (hplain : PlainEvent s e) (hs : jobStep config s e = some s') :
    s'.job.attempts = some (attempts : ℚ) ∧
      (s'.phase = .active → s'.job.attemptsMade < attempts) := by
  cases hf : e.failure s.job with
  | none => cases e <;> first | exact hplain.elim | cases hf
  | some failure =>
    obtain ⟨job, error⟩ := failure
    cases hp : s.phase with
    | failed => rw [jobStep, hp, hf] at hs; cases hs
    | active =>
      rw [jobStep, hp, hf] at hs
      cases hs
      have hattempts : job.attempts = some (attempts : ℚ) := by
        cases e <;> cases hf <;> exact h.1
      refine ⟨hattempts, fun hactive => ?_⟩
      have hr : retriesAutomatically job error.toJobError = true := by
        by_contra hr
        simp [hr] at hactive
      obtain ⟨⟨a, ha, hlt⟩, -⟩ := retriesAutomatically_iff.1 hr
      rw [hattempts] at ha
      cases ha
      exact_mod_cast hlt

/-- As long as attempts are left, the attempts made reach the attempts configured but
do not exceed them. -/
theorem hookCondition_of_attempts_left {attempts : ℕ} {s s' : JobLife} {e : JobEvent}
    (h : s.job.attempts = some (attempts : ℚ) ∧ (s.phase = .active → s.job.attemptsMade < attempts))
    (hplain : PlainEvent s e) (hs : jobStep config s e = some s') : HookCondition s e := by
  intro job error hf
  have hactive : s.phase = .active := by
    cases hp : s.phase with
    | active => rfl
    | failed => rw [jobStep, hp, hf] at hs; cases hs
  have hlt : s.job.attemptsMade < attempts := h.2 hactive
  cases e with
  | retry => cases hf
  | stalled e =>
    cases hf
    exact .inr ⟨.inr hplain.1, .inr (.inl (beq_self_eq_true _))⟩
  | attemptFailed e =>
    cases hf
    by_cases hname : isUnrecoverableJobError error.toJobError = true
    · exact .inr ⟨.inr hplain.1, .inl hname⟩
    by_cases hstalled : isStalledJobError error.toJobError = true
    · exact .inr ⟨.inr hplain.1, .inr (.inl hstalled)⟩
    rcases Nat.lt_or_eq_of_le (Nat.succ_le_of_lt hlt) with hleft | hlast
    · refine .inl ⟨attempts, h.1, by exact_mod_cast hleft, ?_, Bool.eq_false_iff.2 hname,
        Bool.eq_false_iff.2 hstalled⟩
      exact Bool.eq_false_iff.2 fun hinst => hname (hplain.2 hinst)
    · refine .inr ⟨.inr hplain.1, .inr (.inr ?_)⟩
      show s.job.attempts = some ((s.job.attemptsMade + 1 : ℕ) : ℚ)
      rw [h.1, ← hlast]

/-- In a life without manual retries, of a job with at least one attempt whose
unrecoverable errors bear their name and whose errors can be reported, every failure meets the
condition. -/
theorem hookCondition_of_no_manual_retry {attempts : ℕ} {s : JobLife} {events : List JobEvent}
    (h : s.job.attempts = some (attempts : ℚ) ∧ (s.phase = .active → s.job.attemptsMade < attempts))
    (hplain : AllSteps (jobStep config) PlainEvent s events)
    (hrun : ∃ t, run (jobStep config) s events = some t) :
    AllSteps (jobStep config) HookCondition s events := by
  induction events generalizing s with
  | nil => trivial
  | cons e events ih =>
    obtain ⟨t, hrun⟩ := hrun
    obtain ⟨s', hs', hrun'⟩ := run_cons_eq_some.1 hrun
    have hnext := attempts_left_of_step h hplain.1 hs'
    refine ⟨?_, fun s'' hs'' => ?_⟩
    · exact hookCondition_of_attempts_left h hplain.1 hs'
    · rw [hs'] at hs''
      cases hs''
      exact ih hnext (hplain.2 s' hs') ⟨t, hrun'⟩

/-- An ordinary error. -/
def plainError : FailureError := ⟨⟨"Error", "no answer", false, false⟩, some "\x7b\x7d"⟩

/-- A job with three attempts, added anew. -/
def threeAttempts : FailedJob := ⟨some "1", "job", "request", some 3, 0⟩

/-- Its processor, whose hook never rejects. -/
def quietHook : HookConfig := ⟨"Processor", false, fun _ _ => .ok ()⟩

/-- It fails three times, is retried by hand, and fails again. -/
def retriedByHand : List JobEvent :=
  [.attemptFailed plainError, .attemptFailed plainError, .attemptFailed plainError, .retry,
    .attemptFailed plainError]

/-- The hook is called for the third failure but not for the fourth, after which
BullMQ does not retry the job either. -/
theorem hook_misses_retried_job :
    (run (jobStep quietHook) (.new threeAttempts) retriedByHand).map
        (fun s => (s.phase, s.job.attemptsMade, s.log.hooked.map (·.1.attemptsMade))) =
      some (.failed, 4, [3]) ∧
    ¬ AllSteps (jobStep quietHook) (HookExact quietHook) (.new threeAttempts) retriedByHand := by
  refine ⟨by decide, ?_⟩
  rw [allSteps_congr hookExact_iff]
  intro h
  have hfourth := (((h.2 _ rfl).2 _ rfl).2 _ rfl).2 _ rfl
  rcases hfourth.1 _ _ rfl with ⟨attempts, hattempts, hlt, -⟩ | ⟨-, hn | hs | heq⟩
  · cases hattempts
    exact absurd hlt (by decide)
  · exact absurd hn (by decide)
  · exact absurd hs (by decide)
  · exact absurd heq (by decide)

-- The hook is not called for a last failure either when the error cannot be written as JSON.
example : (run (jobStep quietHook) (.new ⟨some "1", "job", "request", some 1, 0⟩)
    [.attemptFailed { plainError with json := none }]).map (fun s => (s.phase, s.log.hooked)) =
      some (.failed, []) := by decide

end SharedTsLibs.BackgroundJobs
