import Mathlib.Data.Fintype.Basic
import Mathlib.Data.List.Forall2
import SharedTsLibs.BackgroundJobs.FailureHook
import SharedTsLibs.MetricsUtils.Measurements

/-!
# Attempts of jobs

A worker calls `processInternal` for every attempt of a job, and works on several jobs
at a time.  An attempt is a transaction: it is started under the job's id before the
payload is checked, and stopped whichever way the attempt ends.  Here the transactions
are those of a Prometheus manager.

* `wasSuccessful` — the control-flow errors of BullMQ count as success.
* `AttemptSystem` — the attempts under way, the manager's maps, what its metric was
  handed, and the attempts that have ended.
* `AttemptSystem.start`, `.finish` — `jobStart` and `jobEnd`.
* `attemptStep` — an attempt, from one `await` to the next.
* `Accounted`, `accounted_run` — transactions are in flight exactly for the attempts
  under way, and an attempt that has ended was measured once, with how it went and how
  long it took.
-/

namespace SharedTsLibs.BackgroundJobs

open MetricsUtils StepSystem

/-! ## Errors -/

/-- What can be thrown: an error, or a value that is none. -/
inductive Thrown where
  | error (e : JobError)
  | value
  deriving DecidableEq

/-- `BULLMQ_CONTROL_FLOW_ERROR_NAMES` -/
def controlFlowErrorNames : List String :=
  ["DelayedError", "WaitingChildrenError", "RateLimitError"]

/-- `isBullmqControlFlowError` -/
def isBullmqControlFlowError : Thrown → Bool
  | .error e => decide (e.name ∈ controlFlowErrorNames)
  | .value => false

/-- `new ZodUnrecoverableError(…)`: no `UnrecoverableError`, but under its name. -/
def zodUnrecoverableError (message : String) : JobError :=
  ⟨"UnrecoverableError", message, false, false⟩

/-- `new DelayedError()` -/
def delayedError : JobError := ⟨"DelayedError", "bullmq:movedToDelayed", false, false⟩

/-- `!failure || isBullmqControlFlowError(failure.error)` -/
def wasSuccessful (failure : Option Thrown) : Bool :=
  (failure.map isBullmqControlFlowError).getD true

/-! ## State -/

/-- At which `await` an attempt is. -/
inductive AttemptStage where
  | barrier
  | movingToDelayed
  | processing
  | updatingProgress
  deriving DecidableEq

structure JobAttempt where
  stage : AttemptStage
  startedAt : ℤ
  deriving DecidableEq

/-- An attempt that has ended: what it threw, if anything, and whether the metric threw
on top of this. -/
structure AttemptEnd (ι : Type) where
  job : ι
  failure : Option Thrown
  startedAt : ℤ
  endedAt : ℤ
  metricThrew : Bool

structure AttemptSystem (ι : Type) where
  attempts : ι → Option JobAttempt
  maps : TransactionMaps
  measured : List Measurement
  ended : List (AttemptEnd ι)

/-- The processor, its manager, and its jobs. -/
structure AttemptConfig (ι : Type) where
  ownerName : String
  queueId : String
  hasBarrier : Bool
  manager : Manager
  jobs : ι → FailedJob

variable {ι : Type} [DecidableEq ι] (config : AttemptConfig ι)

namespace AttemptConfig

def transactionName : String := s!"bg_job:{config.ownerName}:{config.queueId}"

/-- Under which the transaction of a job is kept. -/
def key (i : ι) : String := resolveJobId (config.jobs i)

end AttemptConfig

namespace AttemptSystem

/-- No attempt has been made. -/
def new : AttemptSystem ι := ⟨fun _ => none, {}, [], []⟩

def setAttempt (s : AttemptSystem ι) (i : ι) (attempt : Option JobAttempt) : AttemptSystem ι :=
  { s with attempts := Function.update s.attempts i attempt }

/-- `jobStart` -/
def start (s : AttemptSystem ι) (i : ι) (stage : AttemptStage) (now : ℤ) : AttemptSystem ι :=
  { s.setAttempt i (some ⟨stage, now⟩) with
    maps := s.maps.start config.transactionName (config.key i) now }

/-- `jobEnd` -/
def finish (s : AttemptSystem ι) (i : ι) (startedAt : ℤ) (failure : Option Thrown) (now : ℤ)
    (metricThrows : Bool) : AttemptSystem ι :=
  let stopped := stop config.manager s.maps (config.key i) (wasSuccessful failure) now metricThrows
  { attempts := Function.update s.attempts i none
    maps := stopped.maps
    measured := s.measured ++ stopped.passed.toList
    ended := s.ended ++ [⟨i, failure, startedAt, now, stopped.threw⟩] }

end AttemptSystem

/-! ## Steps -/

/-- What the barrier decides. -/
inductive BarrierResult where
  | passing
  | delayed (delayAmountInMs : ℤ)

/-- What happens to an attempt: what it awaits settles. -/
inductive AttemptEvent (ι : Type) where
  /-- The worker begins an attempt; whether the queue is configured, and the payload valid. -/
  | start (i : ι) (payload : Except JobError (Except String Unit))
  | barrierSettled (i : ι) (result : Except Thrown BarrierResult)
  | movedToDelayed (i : ι) (result : Except Thrown Unit)
  | processed (i : ι) (result : Except Thrown Unit)
  | progressUpdated (i : ι) (result : Except Thrown Unit)
  /-- Attributes are added under a key by whatever has the manager. -/
  | addCustomAttributes (key : String) (attributes : PlainObject AttributeValue)

/-- An event, the time, and whether the metric would throw. -/
structure AttemptLabel (ι : Type) where
  event : AttemptEvent ι
  now : ℤ
  metricThrows : Bool

/-- Where an attempt with a valid payload is first. -/
def AttemptConfig.firstStage : AttemptStage := if config.hasBarrier then .barrier else .processing

/-- What the check of the payload throws. -/
def payloadFailure : Except JobError (Except String Unit) → Option Thrown
  | .error e => some (.error e)
  | .ok (.error issues) => some (.error (zodUnrecoverableError issues))
  | .ok (.ok ()) => none

/-- How an attempt goes on when what it awaits has settled: to another stage, or to its
end, with what was thrown. -/
def settleStage (stage : AttemptStage) :
    AttemptEvent ι → Option (Except (Option Thrown) AttemptStage)
  | .barrierSettled _ result =>
    if stage = .barrier then
      some (match result with
        | .ok .passing => .ok .processing
        | .ok (.delayed _) => .ok .movingToDelayed
        | .error thrown => .error (some thrown))
    else none
  | .movedToDelayed _ result =>
    if stage = .movingToDelayed then
      some (match result with
        | .ok () => .error (some (.error delayedError))
        | .error thrown => .error (some thrown))
    else none
  | .processed _ result =>
    if stage = .processing then
      some (match result with
        | .ok () => .ok .updatingProgress
        | .error thrown => .error (some thrown))
    else none
  | .progressUpdated _ result =>
    if stage = .updatingProgress then
      some (match result with
        | .ok () => .error none
        | .error thrown => .error (some thrown))
    else none
  | .start .. | .addCustomAttributes .. => none

/-- The job whose attempt an event concerns. -/
def AttemptEvent.job : AttemptEvent ι → Option ι
  | .start i _ | .barrierSettled i _ | .movedToDelayed i _ | .processed i _
  | .progressUpdated i _ => some i
  | .addCustomAttributes .. => none

/-- `processInternal`, from one `await` to the next. -/
def attemptStep (s : AttemptSystem ι) (l : AttemptLabel ι) : Option (AttemptSystem ι) :=
  match l.event with
  | .start i payload =>
    match s.attempts i, payloadFailure payload with
    | some _, _ => none
    | none, none => some (s.start config i config.firstStage l.now)
    | none, some thrown =>
      some ((s.start config i config.firstStage l.now).finish config i l.now (some thrown) l.now
        l.metricThrows)
  | .addCustomAttributes key attributes =>
    some { s with maps := addCustomAttributes config.manager s.maps key attributes }
  | event => do
    let i ← event.job
    let attempt ← s.attempts i
    match ← settleStage attempt.stage event with
    | .ok stage => some (s.setAttempt i (some { attempt with stage }))
    | .error failure =>
      some (s.finish config i attempt.startedAt failure l.now l.metricThrows)

/-! ## What a step can do -/

/-- The steps, one case for each thing that can happen to an attempt. -/
inductive AttemptStepped (s : AttemptSystem ι) (l : AttemptLabel ι) : AttemptSystem ι → Prop where
  | starts {i : ι} {payload : Except JobError (Except String Unit)}
      (hevent : l.event = .start i payload) (hnone : s.attempts i = none) :
      AttemptStepped s l (s.start config i config.firstStage l.now)
  | startFails {i : ι} {payload : Except JobError (Except String Unit)} {thrown : Thrown}
      (hevent : l.event = .start i payload) (hnone : s.attempts i = none) :
      AttemptStepped s l ((s.start config i config.firstStage l.now).finish config i l.now
        (some thrown) l.now l.metricThrows)
  | attributes {key : String} {attributes : PlainObject AttributeValue} :
      AttemptStepped s l { s with maps := addCustomAttributes config.manager s.maps key attributes }
  | moves {i : ι} {attempt : JobAttempt} {stage : AttemptStage}
      (hattempt : s.attempts i = some attempt) :
      AttemptStepped s l (s.setAttempt i (some { attempt with stage }))
  | finishes {i : ι} {attempt : JobAttempt} {failure : Option Thrown}
      (hattempt : s.attempts i = some attempt) :
      AttemptStepped s l (s.finish config i attempt.startedAt failure l.now l.metricThrows)

variable {config} {s s' t : AttemptSystem ι} {l : AttemptLabel ι}

theorem attemptStepped_of_attemptStep (h : attemptStep config s l = some s') :
    AttemptStepped config s l s' := by
  unfold attemptStep at h
  split at h
  · next i payload hevent =>
    split at h
    · cases h
    · next hnone _ => cases h; exact .starts hevent hnone
    · next hnone _ => cases h; exact .startFails hevent hnone
  · cases h
    exact .attributes
  · obtain ⟨i, -, h⟩ := Option.bind_eq_some_iff.1 h
    obtain ⟨attempt, hattempt, h⟩ := Option.bind_eq_some_iff.1 h
    obtain ⟨next, -, h⟩ := Option.bind_eq_some_iff.1 h
    cases next with
    | ok stage => cases h; exact .moves hattempt
    | error failure => cases h; exact .finishes hattempt

/-! ## Measurements -/

/-- A measurement says how the attempt went and, if it is a histogram's, how long it took. -/
def Records (config : AttemptConfig ι) (measurement : Measurement) (e : AttemptEnd ι) : Prop :=
  OrderedMap.get? measurement.labels "transaction_name" = some (.str config.transactionName) ∧
    OrderedMap.get? measurement.labels "status"
      = some (.str (if wasSuccessful e.failure then "success" else "error")) ∧
    measurement.amount = match config.manager.type with
      | .counter => .num (.finite 1)
      | .histogram => .num (.finite (e.endedAt - e.startedAt : ℤ))

/-! ## Transactions and attempts -/

/-- Transactions are in flight exactly for the attempts under way, under keys of their own,
and the attempts that have ended were measured one by one. -/
structure Accounted (config : AttemptConfig ι) (s : AttemptSystem ι) : Prop where
  distinct : ∀ i j, (s.attempts i).isSome → (s.attempts j).isSome → config.key i = config.key j →
    i = j
  inFlight : ∀ key, s.maps.InFlight key → ∃ i, (s.attempts i).isSome ∧ config.key i = key
  underWay : ∀ i attempt, s.attempts i = some attempt →
    OrderedMap.get? s.maps.transactionNameByKey (config.key i) = some config.transactionName ∧
      OrderedMap.get? s.maps.startTimeByKey (config.key i) = some attempt.startedAt
  labels : ∀ key, ∀ label ∈ OrderedMap.keys (s.maps.labelsOf key),
    label ∈ config.manager.supportedCustomLabels
  measured : config.manager.hasClient = true → List.Forall₂ (Records config) s.measured s.ended

/-- An attempt is started under a key under which none is under way. -/
def FreshKey (config : AttemptConfig ι) (s : AttemptSystem ι) (l : AttemptLabel ι) : Prop :=
  match l.event with
  | .start i _ => ∀ j, (s.attempts j).isSome → config.key j ≠ config.key i
  | _ => True

instance [Fintype ι] : Decidable (FreshKey config s l) :=
  match hevent : l.event with
  | .start i _ => decidable_of_iff
      (∀ j, (s.attempts j).isSome → config.key j ≠ config.key i) (by rw [FreshKey, hevent])
  | .barrierSettled .. | .movedToDelayed .. | .processed .. | .progressUpdated ..
  | .addCustomAttributes .. => .isTrue (by rw [FreshKey, hevent]; trivial)

omit [DecidableEq ι] in
theorem accounted_new : Accounted config (AttemptSystem.new : AttemptSystem ι) where
  distinct _ _ h := by cases h
  inFlight _ h := by cases h
  underWay _ _ h := by cases h
  labels _ _ h := by cases h
  measured _ := .nil

theorem isSome_update {attempts : ι → Option JobAttempt} {i j : ι} {attempt : Option JobAttempt} :
    (Function.update attempts i attempt j).isSome ↔
      (j = i ∧ attempt.isSome) ∨ (j ≠ i ∧ (attempts j).isSome) := by
  by_cases hj : j = i
  · subst hj
    simp
  · simp [hj]

namespace Accounted

/-- `jobStart` under a fresh key. -/
theorem start {i : ι} {stage : AttemptStage} {now : ℤ} (h : Accounted config s)
    (hfresh : ∀ j, (s.attempts j).isSome → config.key j ≠ config.key i) :
    Accounted config (s.start config i stage now) where
  distinct j k hj hk hkey := by
    obtain ⟨hji, -⟩ | ⟨-, hj⟩ := isSome_update.1 hj <;>
    obtain ⟨hki, -⟩ | ⟨-, hk⟩ := isSome_update.1 hk
    · rw [hji, hki]
    · exact absurd (by rw [← hkey, hji]) (hfresh k hk)
    · exact absurd (by rw [hkey, hki]) (hfresh j hj)
    · exact h.distinct j k hj hk hkey
  inFlight key hkey := by
    obtain rfl | hkey := inFlight_start.1 hkey
    · exact ⟨i, isSome_update.2 (.inl ⟨rfl, rfl⟩), rfl⟩
    · obtain ⟨j, hj, rfl⟩ := h.inFlight key hkey
      refine ⟨j, isSome_update.2 (.inr ⟨?_, hj⟩), rfl⟩
      rintro rfl
      exact hfresh j hj rfl
  underWay j attempt hj := by
    show OrderedMap.get? (OrderedMap.set _ _ _) _ = _ ∧ OrderedMap.get? (OrderedMap.set _ _ _) _ = _
    rw [OrderedMap.get?_set, OrderedMap.get?_set]
    change Function.update s.attempts i _ j = some attempt at hj
    by_cases hij : j = i
    · subst hij
      rw [Function.update_self] at hj
      cases hj
      simp
    · rw [Function.update_of_ne hij] at hj
      have hne := hfresh j (by rw [hj]; rfl)
      rw [if_neg hne.symm, if_neg hne.symm]
      exact h.underWay j attempt hj
  labels key label hlabel := h.labels key label hlabel
  measured hclient := h.measured hclient

omit [DecidableEq ι] in
/-- Attributes that are added leave the transactions as they are. -/
theorem addCustomAttributes {key : String} {attributes : PlainObject AttributeValue}
    (h : Accounted config s) :
    Accounted config
      { s with maps := MetricsUtils.addCustomAttributes config.manager s.maps key attributes } where
  distinct := h.distinct
  inFlight key' hkey := h.inFlight key' (inFlight_addCustomAttributes.1 hkey)
  underWay i attempt hi := by
    have hnames := h.underWay i attempt hi
    simp only [MetricsUtils.addCustomAttributes]
    split <;> exact hnames
  labels := supported_addCustomAttributes h.labels
  measured := h.measured

/-- An attempt that moves on is the same one. -/
theorem move {i : ι} {attempt : JobAttempt} {stage : AttemptStage} (h : Accounted config s)
    (hattempt : s.attempts i = some attempt) :
    Accounted config (s.setAttempt i (some { attempt with stage })) := by
  have hsome : ∀ j, ((s.setAttempt i (some { attempt with stage })).attempts j).isSome ↔
      (s.attempts j).isSome := by
    intro j
    rw [show (s.setAttempt i (some { attempt with stage })).attempts
      = Function.update s.attempts i (some { attempt with stage }) from rfl, isSome_update]
    by_cases hj : j = i
    · subst hj
      simp [hattempt]
    · simp [hj]
  refine ⟨fun j k hj hk => h.distinct j k ((hsome j).1 hj) ((hsome k).1 hk), fun key hkey => ?_,
    fun j attempt' hj => ?_, h.labels, h.measured⟩
  · obtain ⟨j, hj, hjkey⟩ := h.inFlight key hkey
    exact ⟨j, (hsome j).2 hj, hjkey⟩
  · change Function.update s.attempts i _ j = some attempt' at hj
    by_cases hij : j = i
    · subst hij
      rw [Function.update_self] at hj
      cases hj
      exact h.underWay j attempt hattempt
    · rw [Function.update_of_ne hij] at hj
      exact h.underWay j attempt' hj

/-- `jobEnd` of an attempt under way. -/
theorem finish {i : ι} {attempt : JobAttempt} {failure : Option Thrown} {now : ℤ}
    {metricThrows : Bool} (h : Accounted config s) (hattempt : s.attempts i = some attempt) :
    Accounted config (s.finish config i attempt.startedAt failure now metricThrows) := by
  obtain ⟨hname, hstart⟩ := h.underWay i attempt hattempt
  have hstopped : (stop config.manager s.maps (config.key i) (wasSuccessful failure) now
      metricThrows).maps.transactionNameByKey = _ ∧ _ ∧ _ := stop_maps hname
  obtain ⟨hnames, hstarts, -⟩ := hstopped
  have hother : ∀ {j : ι}, ((s.finish config i attempt.startedAt failure now
      metricThrows).attempts j).isSome → j ≠ i ∧ (s.attempts j).isSome := by
    intro j hj
    obtain ⟨-, hnone⟩ | hj := isSome_update.1 hj
    · cases hnone
    · exact hj
  have hkey : ∀ {j : ι}, j ≠ i → (s.attempts j).isSome → config.key i ≠ config.key j :=
    fun hne hj heq => hne (h.distinct _ _ hj (by rw [hattempt]; rfl) heq.symm)
  refine ⟨fun j k hj hk => h.distinct j k (hother hj).2 (hother hk).2, fun key hin => ?_,
    fun j attempt' hj => ?_, supported_stop h.labels, fun hclient => ?_⟩
  · change (OrderedMap.get? (stop ..).maps.transactionNameByKey key).isSome at hin
    rw [hnames, OrderedMap.get?_delete] at hin
    split at hin
    · cases hin
    · next hne =>
      obtain ⟨j, hj, rfl⟩ := h.inFlight key hin
      exact ⟨j, isSome_update.2 (.inr ⟨fun hji => hne (by rw [hji]), hj⟩), rfl⟩
  · obtain ⟨hne, hsome⟩ := hother (by rw [hj]; rfl)
    change Function.update s.attempts i _ j = some attempt' at hj
    rw [Function.update_of_ne hne] at hj
    show OrderedMap.get? (stop ..).maps.transactionNameByKey _ = _ ∧
      OrderedMap.get? (stop ..).maps.startTimeByKey _ = _
    rw [hnames, hstarts, OrderedMap.get?_delete, OrderedMap.get?_delete, if_neg (hkey hne hsome),
      if_neg (hkey hne hsome)]
    exact h.underWay j attempt' hj
  · have hpassed : (stop config.manager s.maps (config.key i) (wasSuccessful failure) now
        metricThrows).passed = some _ := passedBy_stop.2 ⟨hclient, _, hname, rfl⟩
    show List.Forall₂ _ (s.measured ++ (stop ..).passed.toList) (s.ended ++ [_])
    rw [hpassed, hstart]
    refine List.rel_append (h.measured hclient) (.cons ⟨?_, ?_, amount_measure _⟩ .nil)
    · rw [get?_measure_builtIn (by decide) (h.labels _)]
      rfl
    · rw [get?_measure_builtIn (by decide) (h.labels _)]
      cases wasSuccessful failure <;> rfl

/-- One step keeps the account. -/
theorem step (h : Accounted config s) (hfresh : FreshKey config s l)
    (hstep : AttemptStepped config s l s') : Accounted config s' := by
  cases hstep with
  | starts hevent hnone =>
    rw [FreshKey, hevent] at hfresh
    exact h.start hfresh
  | startFails hevent hnone =>
    rw [FreshKey, hevent] at hfresh
    exact (h.start hfresh).finish (Function.update_self ..)
  | attributes => exact h.addCustomAttributes
  | moves hattempt => exact h.move hattempt
  | finishes hattempt => exact h.finish hattempt

end Accounted

/-- **Attempts and transactions.**  However the attempts of any number of jobs overlap, and
whatever they end with, a transaction is in flight exactly for each attempt under way, and the
metric was handed one measurement for each attempt that has ended, with how it went and how long
it took, as long as no two jobs under way share an id. -/
theorem accounted_run {labels : List (AttemptLabel ι)}
    (hfresh : AllSteps (attemptStep config) (FreshKey config) AttemptSystem.new labels)
    (hrun : run (attemptStep config) AttemptSystem.new labels = some t) :
    (∀ key, t.maps.InFlight key ↔ ∃ i, (t.attempts i).isSome ∧ config.key i = key) ∧
      (config.manager.hasClient = true → List.Forall₂ (Records config) t.measured t.ended) := by
  have h : Accounted config t := invariant_run
    (fun _ _ _ hI hC hstep => hI.step hC (attemptStepped_of_attemptStep hstep))
    accounted_new hfresh hrun
  refine ⟨fun key => ⟨h.inFlight key, ?_⟩, h.measured⟩
  rintro ⟨i, hi, rfl⟩
  obtain ⟨attempt, hattempt⟩ := Option.isSome_iff_exists.1 hi
  rw [TransactionMaps.InFlight, (h.underWay i attempt hattempt).1]
  rfl

/-- Two jobs of a queue whose attempts are timed. -/
def timedJobs : AttemptConfig Bool where
  ownerName := "owner"
  queueId := "queue"
  hasBarrier := true
  manager := { type := .histogram, supportedCustomLabels := [], hasClient := true,
               noCollisions := by decide }
  jobs i := ⟨some (if i then "1" else "2"), "job", "request", some 3, 0⟩

/-- One job waits for its barrier in vain while the other is processed, and fails. -/
def overlappingAttempts : List (AttemptLabel Bool) :=
  [⟨.start true (.ok (.ok ())), 0, false⟩, ⟨.start false (.ok (.ok ())), 5, false⟩,
    ⟨.barrierSettled true (.ok (.delayed 100)), 7, false⟩,
    ⟨.barrierSettled false (.ok .passing), 8, false⟩,
    ⟨.movedToDelayed true (.ok ()), 9, false⟩, ⟨.processed false (.error .value), 12, false⟩]

theorem accounted_run_overlapping :
    ∃ t, run (attemptStep timedJobs) AttemptSystem.new overlappingAttempts = some t ∧
      t.ended.map (fun e => (e.job, wasSuccessful e.failure)) = [(true, true), (false, false)] ∧
      List.Forall₂ (Records timedJobs) t.measured t.ended := by
  have hfresh : AllSteps (attemptStep timedJobs) (FreshKey timedJobs) AttemptSystem.new
      overlappingAttempts := by decide +kernel
  exact ⟨_, rfl, rfl, (accounted_run hfresh rfl).2 rfl⟩

end SharedTsLibs.BackgroundJobs
