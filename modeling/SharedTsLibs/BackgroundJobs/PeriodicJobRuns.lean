import Mathlib.Data.Fintype.Basic
import SharedTsLibs.BackgroundJobs.PeriodicJob

/-!
# Runs of periodic jobs

The executions of a job in single consumer mode, in any order that any number of
instances, their timers and the clock can bring about.

* `Prompt` — the answers that grant a lock, and the timers that refresh those of running
  jobs, are at most so late, and no job is disposed of from its request on.
* `Guarded`, `guarded_run` — then a lock does not end while it is held.
* `singleConsumer_exclusive` — and no two instances run the job at a time.
* `Reserved`, `others_wait` — nor does another instance run it for a while after.
* `Traced`, `traced_run` — what an executor logs, reports and tells the transaction
  manager is one attempt after the other.
-/

namespace SharedTsLibs.BackgroundJobs

open Leasing

variable {σ ι : Type} [DecidableEq ι] {setup : PeriodicSetup σ ι} {s s' t : PeriodicState σ ι}
  {e : ι} {event : PeriodicEvent ι} {delay : ℕ}

/-! ## What an event leaves alone -/

/-- An event changes the fields of its own executor only. -/
theorem PeriodicStepped.executors_of_ne (h : PeriodicStepped setup s event s')
    (hne : event.executor ≠ some e) : s'.executors e = s.executors e := by
  have hother : ∀ {e' : ι}, event.executor = some e' → e ≠ e' := by
    rintro e' he' rfl
    exact hne he'
  cases h with
  | tick => rfl
  | requests hphase =>
    obtain ⟨rfl, -⟩ | ⟨rfl, -⟩ := hphase <;> exact Function.update_of_ne (hother rfl) ..
  | refreshes hfields =>
    obtain ⟨rfl, -⟩ | ⟨k, rfl, -⟩ := hfields <;> exact Function.update_of_ne (hother rfl) ..
  | loses hfields =>
    obtain ⟨rfl, -⟩ | ⟨k, rfl, -⟩ := hfields <;> exact Function.update_of_ne (hother rfl) ..
  | _ => exact Function.update_of_ne (hother rfl) ..

/-- Only the clock's own event moves the clock. -/
theorem PeriodicStepped.now_eq (h : PeriodicStepped setup s event s') :
    s'.now = s.now ∨ ∃ d, event = .tick d ∧ s' = { s with now := s.now + d } := by
  cases h with
  | tick => exact .inr ⟨_, rfl, rfl⟩
  | _ => exact .inl rfl

/-- A lock held by an executor is left alone by the events of the others. -/
theorem PeriodicStepped.lease_of_ne {name : String} (h : PeriodicStepped setup s event s')
    (hne : event.executor ≠ some e)
    (hheld : holder (setup.locks.view s.store) s.now name = some e) :
    setup.locks.view s'.store name = setup.locks.view s.store name := by
  have hother : ∀ {e' : ι}, event.executor = some e' → e ≠ e' := by
    rintro e' he' rfl
    exact hne he'
  cases h with
  | @grants _ _ store _ hholder hview =>
    show setup.locks.view store name = _
    rw [hview]
    refine Function.update_of_ne (fun hname => hother rfl (hholder e ?_)) ..
    rw [← hname, hheld]
  | @refreshes e' _ store fields hfields hholder hview =>
    have he' : e ≠ e' := by
      obtain ⟨rfl, -⟩ | ⟨k, rfl, -⟩ := hfields <;> exact hother rfl
    show setup.locks.view store name = _
    rw [hview]
    refine Function.update_of_ne (fun hname => he' ?_) ..
    rw [← hname, hheld] at hholder
    exact Option.some.inj hholder
  | updates =>
    show setup.locks.view (setup.locks.refresh ..).2 name = _
    rw [setup.locks.view_refresh]
    exact renew_apply_of_held hheld (hother rfl)
  | releases =>
    show setup.locks.view (setup.locks.release ..) name = _
    rw [setup.locks.release_eq]
    exact drop_apply_of_held hheld (hother rfl)
  | refuses _ hview | loses _ _ hview => exact congrFun hview name
  | _ => rfl

/-! ## Running jobs -/

/-- The lock is the executor's to use: it was granted, `processInternal` is running, or the
lock is still to be updated. -/
def PeriodicPhase.isHolding : PeriodicPhase → Bool
  | .granted _ | .executing | .executed _ => true
  | .idle | .requesting _ | .refused _ | .updated _ => false

/-- From the request for the lock until it has been updated. -/
def PeriodicPhase.isBusy : PeriodicPhase → Bool
  | .requesting _ | .granted _ | .refused _ | .executing | .executed _ => true
  | .idle | .updated _ => false

theorem PeriodicPhase.isBusy_of_isHolding {phase : PeriodicPhase} (h : phase.isHolding = true) :
    phase.isBusy = true := by
  cases phase with
  | granted | executing | executed => rfl
  | idle | requesting | refused | updated => cases h

/-- What an executor that holds the lock is to do next, and when it is due: to read the
answer, at once, and then to refresh the lock. -/
def PeriodicFields.deadline (fields : PeriodicFields) : Option ℕ :=
  match fields.phase with
  | .granted since => some since
  | .executing | .executed _ => fields.lock.bind (·.refreshAt)
  | .idle | .requesting _ | .refused _ | .updated _ => none

/-- What is due is done at most `delay` late: the store handles the refreshes of running
jobs, and the answer that grants a lock is read.  No job is disposed of from its request
for the lock until it has updated it. -/
def Prompt (delay : ℕ) (s : PeriodicState σ ι) : PeriodicEvent ι → Prop
  | .tick d => ∀ e, ∀ due ∈ (s.executors e).deadline, s.now + d ≤ due + delay
  | .dispose e => (s.executors e).phase.isBusy = false
  | _ => True

instance [Fintype ι] : ∀ event, Decidable (Prompt delay s event)
  | .tick d => inferInstanceAs
      (Decidable (∀ e, ∀ due ∈ (s.executors e).deadline, s.now + d ≤ due + delay))
  | .dispose e => inferInstanceAs (Decidable ((s.executors e).phase.isBusy = false))
  | .process _ | .serve _ | .answer _ | .settle _ _ | .update _ | .close _ | .reject _
  | .refresh _ | .refreshOrphaned _ _ | .release _ => .isTrue trivial

/-- How long before the end of a lock's timeout its holder's deadline may be: not at all
when it was just granted. -/
def slack (setup : PeriodicSetup σ ι) (delay : ℕ) (s : PeriodicState σ ι) (e : ι) : ℕ :=
  match (s.executors e).phase with
  | .granted _ => 0
  | _ => setup.refreshPeriod e + delay

/-- The lock of an executor and its deadline, which comes before the lock ends even if it
is met `delay` late. -/
def Guarded (setup : PeriodicSetup σ ι) (delay : ℕ) (s : PeriodicState σ ι) (e : ι) : Prop :=
  ∃ due ends, (s.executors e).deadline = some due ∧
    setup.locks.view s.store (setup.lockName e) = some ⟨e, ends⟩ ∧
    s.now ≤ due + delay ∧ due ≤ s.now + slack setup delay s e ∧
    due + setup.timeout e ≤ ends + slack setup delay s e

/-- In single consumer mode locks are refreshed, so often that the answer that grants one
and each timer may be late by `delay`. -/
def LockMargin (setup : PeriodicSetup σ ι) (delay : ℕ) : Prop :=
  ∀ e, (setup.jobs e).singleConsumerMode.enabled = true →
    0 < setup.refreshPeriod e ∧ setup.refreshPeriod e + 2 * delay < setup.timeout e

/-- Every executor of single consumer mode that holds its lock has it guarded. -/
def AllGuarded (setup : PeriodicSetup σ ι) (delay : ℕ) (s : PeriodicState σ ι) : Prop :=
  ∀ e, (setup.jobs e).singleConsumerMode.enabled = true →
    (s.executors e).phase.isHolding = true → Guarded setup delay s e

/-- Only a job that was dropped, and is not at work, releases its lock. -/
def ReleasesIdle (s : PeriodicState σ ι) : Prop :=
  ∀ e, 0 < (s.executors e).releases →
    (s.executors e).stopped = true ∧ (s.executors e).phase.isBusy = false

variable (setup delay) in
theorem slack_le (s : PeriodicState σ ι) (e : ι) :
    slack setup delay s e ≤ setup.refreshPeriod e + delay := by
  unfold slack
  split
  · exact Nat.zero_le _
  · exact Nat.le_refl _

variable (setup delay) in
theorem slack_congr (h : (s'.executors e).phase = (s.executors e).phase) :
    slack setup delay s' e = slack setup delay s e := by rw [slack, slack, h]

theorem Guarded.holder_eq (h : Guarded setup delay s e)
    (hmargin : setup.refreshPeriod e + 2 * delay < setup.timeout e) :
    holder (setup.locks.view s.store) s.now (setup.lockName e) = some e := by
  obtain ⟨due, ends, -, hlease, hlate, -, hends⟩ := h
  have hslack := slack_le setup delay s e
  exact holder_of_lease hlease (by omega)

/-- A lock that was just written for its timeout is guarded, if nothing is overdue. -/
theorem guarded_of_written {due : ℕ} (hdeadline : (s.executors e).deadline = some due)
    (hlease : setup.locks.view s.store (setup.lockName e) = some ⟨e, s.now + setup.timeout e⟩)
    (hlate : s.now ≤ due + delay) (hdue : due ≤ s.now + slack setup delay s e) :
    Guarded setup delay s e := ⟨due, _, hdeadline, hlease, hlate, hdue, by omega⟩

theorem allGuarded_new (now : ℕ) (store : σ) :
    AllGuarded setup delay (PeriodicState.new now store) := by
  intro e _ hholding
  cases hholding

omit [DecidableEq ι] in
theorem releasesIdle_new (now : ℕ) (store : σ) :
    ReleasesIdle (PeriodicState.new (ι := ι) now store) := by
  intro e hreleases
  cases hreleases

/-- Only `dispose` asks for a release and stops a job, and one that is stopped stays idle. -/
theorem PeriodicStepped.idle_of_ne_dispose (h : PeriodicStepped setup s event s')
    (hnot : event ≠ .dispose e) :
    (s'.executors e).releases ≤ (s.executors e).releases ∧
      (s'.executors e).stopped = (s.executors e).stopped ∧
      ((s'.executors e).phase.isBusy = true →
        (s.executors e).phase.isBusy = true ∨ (s.executors e).stopped = false) := by
  by_cases hown : event.executor = some e
  · cases h with
    | tick => cases hown
    | begins hphase hstopped =>
      cases hown
      simp [hstopped]
    | requests hphase =>
      obtain ⟨rfl, -, hstopped⟩ | ⟨rfl, hphase⟩ := hphase <;>
      · cases hown
        simp [*, PeriodicPhase.isBusy]
    | grants hphase | refuses hphase | acquires hphase | skips hphase | settles hphase
    | updates hphase =>
      cases hown
      simp [hphase, PeriodicPhase.isBusy, PeriodicFields.replaceLock]
    | closes | rejects =>
      cases hown
      simp [PeriodicPhase.isBusy, PeriodicFields.stopRefresh]
    | refreshes hfields | loses hfields =>
      obtain ⟨rfl, rfl⟩ | ⟨k, rfl, rfl⟩ := hfields <;>
      · cases hown
        simpa using Or.inl
    | disposes =>
      cases hown
      exact absurd rfl hnot
    | releases =>
      cases hown
      simpa using Or.inl
  · rw [h.executors_of_ne hown]
    exact ⟨Nat.le_refl _, rfl, .inl⟩

/-- One event keeps it so that jobs at work release nothing. -/
theorem releasesIdle_step (hreleasing : ReleasesIdle s) (hprompt : Prompt delay s event)
    (h : PeriodicStepped setup s event s') : ReleasesIdle s' := by
  intro e hreleases
  by_cases hevent : event = .dispose e
  · subst hevent
    cases h with
    | disposes =>
      have hidle : (s.executors e).phase.isBusy = false := hprompt
      simpa [PeriodicFields.stopRefresh] using hidle
    | requests hphase => obtain ⟨hevent, -⟩ | ⟨hevent, -⟩ := hphase <;> cases hevent
    | refreshes hfields | loses hfields =>
      obtain ⟨hevent, -⟩ | ⟨k, hevent, -⟩ := hfields <;> cases hevent
  · obtain ⟨hle, hstopped, hbusy⟩ := h.idle_of_ne_dispose hevent
    obtain ⟨hwas, hidle⟩ := hreleasing e (Nat.lt_of_lt_of_le hreleases hle)
    refine ⟨hstopped.trans hwas, ?_⟩
    by_contra hnot
    simpa [hidle, hwas] using hbusy (by simpa using hnot)

/-- What is due once a timer of its own has refreshed a lock that is held: as before, or the
next refresh. -/
theorem deadline_of_refreshed {fields : PeriodicFields}
    (hfields : event = .refresh e ∧
        fields = { s.executors e with
          lock := some ⟨true, some (s.now + setup.refreshPeriod e)⟩ } ∨
      ∃ k, event = .refreshOrphaned e k ∧
        fields = { s.executors e with
          orphaned := (s.executors e).orphaned.set k (s.now + setup.refreshPeriod e) })
    (hholding : fields.phase.isHolding = true) (hguard : Guarded setup delay s e) :
    ∃ due, fields.deadline = some due ∧ s.now ≤ due + delay ∧
      due ≤ s.now + slack setup delay s e := by
  obtain ⟨due, -, hdeadline, -, hnow, hdue, -⟩ := hguard
  obtain ⟨-, rfl⟩ | ⟨k, -, rfl⟩ := hfields
  · cases hphase : (s.executors e).phase with
    | granted since =>
      refine ⟨due, ?_, hnow, hdue⟩
      simpa [PeriodicFields.deadline, hphase] using hdeadline
    | executing | executed =>
      refine ⟨s.now + setup.refreshPeriod e, ?_, by omega, ?_⟩
      · simp [PeriodicFields.deadline, hphase]
      · simp [slack, hphase]
    | idle | requesting | refused | updated => simp [hphase, PeriodicPhase.isHolding] at hholding
  · exact ⟨due, hdeadline, hnow, hdue⟩

/-- One event keeps the locks that are held guarded. -/
theorem guarded_step (hmargin : LockMargin setup delay) (hguarded : AllGuarded setup delay s)
    (hreleasing : ReleasesIdle s) (hprompt : Prompt delay s event)
    (h : PeriodicStepped setup s event s') : AllGuarded setup delay s' := by
  intro e henabled hholding
  obtain ⟨hperiod, hlate⟩ := hmargin e henabled
  by_cases hown : event.executor = some e
  · -- an event of the executor itself: it acquires the lock, or runs on with it
    cases h with
    | tick => cases hown
    | begins _ _ hdisabled =>
      cases hown
      rw [henabled] at hdisabled
      cases hdisabled
    | grants hphase hholder hview =>
      cases hown
      exact guarded_of_written (show _ = some s.now by simp [PeriodicFields.deadline])
        (by simp [hview]) (Nat.le_add_right ..) (Nat.le_add_right ..)
    | acquires hphase =>
      cases hown
      obtain ⟨due, ends, hdeadline, hlease, hnow, -, hends⟩ :=
        hguarded e henabled (by rw [hphase]; rfl)
      replace hends : due + setup.timeout e ≤ ends := by simpa [slack, hphase] using hends
      have hslack : slack setup delay (s.acquired setup e) e = setup.refreshPeriod e + delay := by
        rw [slack, PeriodicState.acquired_executors_self]
      refine ⟨s.now + setup.refreshPeriod e, ends, ?_, hlease, ?_, ?_, ?_⟩
      · simp [PeriodicFields.deadline, PeriodicFields.replaceLock, PeriodicSetup.armed, hperiod]
      · show s.now ≤ _
        omega
      · rw [hslack]
        show _ ≤ s.now + _
        omega
      · rw [hslack]
        show _ ≤ ends + _
        omega
    | @refreshes e' _ store fields hfields hholder hview =>
      have he' : e' = e := by
        obtain ⟨rfl, -⟩ | ⟨k, rfl, -⟩ := hfields <;> exact Option.some.inj hown
      subst he'
      rw [PeriodicState.setFields_executors_self] at hholding
      have hphase : fields.phase = (s.executors e').phase := by
        obtain ⟨-, rfl⟩ | ⟨k, -, rfl⟩ := hfields <;> rfl
      obtain ⟨due, hdeadline, hnow, hdue⟩ := deadline_of_refreshed hfields hholding
        (hguarded e' henabled (hphase ▸ hholding))
      refine guarded_of_written (by simpa using hdeadline) (by simp [hview]) hnow ?_
      rwa [slack_congr setup delay (s := s) (by simpa using hphase)]
    | settles hphase =>
      cases hown
      obtain ⟨due, ends, hdeadline, hguard⟩ := hguarded e henabled (by rw [hphase]; rfl)
      refine ⟨due, ends, ?_, ?_⟩
      · simpa [PeriodicFields.deadline, hphase] using hdeadline
      · rw [slack, hphase] at hguard
        rw [slack, PeriodicState.settle_executors_self]
        exact hguard
    | loses hfields hholder hview =>
      -- a lock that is guarded is not lost
      obtain ⟨rfl, rfl⟩ | ⟨k, rfl, rfl⟩ := hfields <;>
      · cases hown
        rw [PeriodicState.emit_executors, PeriodicState.setFields_executors_self] at hholding
        exact absurd ((hguarded e henabled hholding).holder_eq hlate) hholder
    | disposes =>
      cases hown
      have hidle : (s.executors e).phase.isBusy = false := hprompt
      rw [PeriodicPhase.isBusy_of_isHolding (by simpa using hholding)] at hidle
      cases hidle
    | releases hreleases =>
      cases hown
      rw [PeriodicState.release_executors_self] at hholding
      have hidle := (hreleasing e hreleases).2
      rw [PeriodicPhase.isBusy_of_isHolding hholding] at hidle
      cases hidle
    | requests hphase =>
      obtain ⟨rfl, -⟩ | ⟨rfl, -⟩ := hphase <;>
      · cases hown
        rw [PeriodicState.request_executors_self] at hholding
        cases hholding
    | _ =>
      cases hown
      simp at hholding
      cases hholding
  · -- an event of another executor, or the clock
    rw [h.executors_of_ne hown] at hholding
    have hguard := hguarded e henabled hholding
    have hlease := h.lease_of_ne hown (hguard.holder_eq hlate)
    have hfields := h.executors_of_ne hown
    have hslack := slack_congr setup delay (congrArg PeriodicFields.phase hfields)
    obtain ⟨due, ends, hdeadline, hends, hnow, hdue, hbefore⟩ := hguard
    rw [hends] at hlease
    refine ⟨due, ends, by rw [hfields, hdeadline], hlease, ?_, ?_, by rwa [hslack]⟩
    · obtain hsame | ⟨d, rfl, rfl⟩ := h.now_eq
      · rwa [hsame]
      · exact hprompt e due hdeadline
    · rw [hslack]
      obtain hsame | ⟨d, rfl, rfl⟩ := h.now_eq
      · rwa [hsame]
      · exact Nat.le_trans hdue (Nat.add_le_add_right (Nat.le_add_right ..) _)

/-- Along every run that is prompt, the locks that are held are guarded. -/
theorem guarded_run (hmargin : LockMargin setup delay) {events : List (PeriodicEvent ι)}
    (hguarded : AllGuarded setup delay s ∧ ReleasesIdle s)
    (hprompt : StepSystem.AllSteps (periodicStep setup) (Prompt delay) s events)
    (hrun : StepSystem.run (periodicStep setup) s events = some t) :
    AllGuarded setup delay t ∧ ReleasesIdle t := by
  refine StepSystem.invariant_run (I := fun s => AllGuarded setup delay s ∧ ReleasesIdle s) ?_
    hguarded hprompt hrun
  rintro s event s' ⟨hguarded, hreleasing⟩ hprompt hstep
  have hstepped := periodicStepped_of_periodicStep hstep
  exact ⟨guarded_step hmargin hguarded hreleasing hprompt hstepped,
    releasesIdle_step hreleasing hprompt hstepped⟩

/-- The same, from the start. -/
theorem guarded_of_run (hmargin : LockMargin setup delay) {now : ℕ} {store : σ}
    {events : List (PeriodicEvent ι)}
    (hprompt : StepSystem.AllSteps (periodicStep setup) (Prompt delay)
      (PeriodicState.new now store) events)
    (hrun : StepSystem.run (periodicStep setup) (PeriodicState.new now store) events = some t) :
    AllGuarded setup delay t ∧ ReleasesIdle t :=
  guarded_run hmargin ⟨allGuarded_new now store, releasesIdle_new now store⟩ hprompt hrun

/-- **Single consumer mode.**  However the instances, their requests and answers, their timers
and the clock interleave, two executors that hold the lock of the same name are one, as long
as the answers that grant a lock and the timers are in time. -/
theorem singleConsumer_exclusive (hmargin : LockMargin setup delay) {now : ℕ} {store : σ}
    {events : List (PeriodicEvent ι)}
    (hprompt : StepSystem.AllSteps (periodicStep setup) (Prompt delay)
      (PeriodicState.new now store) events)
    (hrun : StepSystem.run (periodicStep setup) (PeriodicState.new now store) events = some t)
    {e₁ e₂ : ι} (h₁ : (setup.jobs e₁).singleConsumerMode.enabled = true)
    (h₂ : (setup.jobs e₂).singleConsumerMode.enabled = true)
    (hname : setup.lockName e₁ = setup.lockName e₂)
    (hholding₁ : (t.executors e₁).phase.isHolding = true)
    (hholding₂ : (t.executors e₂).phase.isHolding = true) : e₁ = e₂ := by
  have hguarded := (guarded_of_run hmargin hprompt hrun).1
  have hholder₁ := (hguarded e₁ h₁ hholding₁).holder_eq (hmargin e₁ h₁).2
  have hholder₂ := (hguarded e₂ h₂ hholding₂).holder_eq (hmargin e₂ h₂).2
  rw [hname, hholder₂] at hholder₁
  exact (Option.some.inj hholder₁).symm

def pairOptions : BackgroundJobConfiguration where
  jobId := "job"
  schedule := ⟨some 50⟩
  singleConsumerMode := some ⟨true, none, some (some 60), some 100⟩
  shouldLogExecution := none

/-- Two instances of a job that runs every 50 ms. -/
def pairSetup : PeriodicSetup (Leases String Bool) Bool where
  jobs _ := (PeriodicJob.construct pairOptions ⟨true, true, true⟩).toOption.get rfl
  locks := .plain String Bool
  defaultTimeout := 10000
  refreshInterval t := (8 * t + 5) / 10

/-- One instance runs the job for long, and the other finds the lock taken. -/
def pairEvents : List (PeriodicEvent Bool) :=
  [.process true, .process false, .serve true, .serve false, .tick 5, .answer true,
    .answer false, .serve false, .tick 50, .refresh true, .answer false, .tick 40]

theorem pair_margin : LockMargin pairSetup 5 := fun e _ => by cases e <;> decide

theorem singleConsumer_exclusive_pair :
    ∃ t, StepSystem.run (periodicStep pairSetup) (PeriodicState.new 0 fun _ => none) pairEvents
        = some t ∧
      ∀ e₁ e₂, (t.executors e₁).phase.isHolding = true →
        (t.executors e₂).phase.isHolding = true → e₁ = e₂ := by
  have hprompt : StepSystem.AllSteps (periodicStep pairSetup) (Prompt 5)
      (PeriodicState.new 0 fun _ => none) pairEvents := by decide
  exact ⟨_, rfl, fun e₁ e₂ h₁ h₂ =>
    singleConsumer_exclusive pair_margin hprompt rfl rfl rfl rfl h₁ h₂⟩

-- An answer that is read when the lock has ended lets two instances run the job.
example : ((StepSystem.run (periodicStep pairSetup) (PeriodicState.new 0 fun _ => none)
    [.process true, .serve true, .tick 60, .process false, .serve false, .answer false,
      .answer true]).map fun t => ((t.executors true).phase, (t.executors false).phase))
    = some (.executing, .executing) := rfl

-- A job disposed of while it runs gives its lock up, and another instance runs it too.
example : ((StepSystem.run (periodicStep pairSetup) (PeriodicState.new 0 fun _ => none)
    [.process true, .serve true, .answer true, .dispose true, .release true, .process false,
      .serve false, .answer false]).map fun t =>
      ((t.executors true).phase, (t.executors false).phase)) = some (.executing, .executing) := rfl

/-! ## After an execution -/

/-- Until `reserved` the lock is the executor's, and no other runs the job. -/
def Reserved (setup : PeriodicSetup σ ι) (e : ι) (reserved : ℕ) (s : PeriodicState σ ι) : Prop :=
  s.now < reserved →
    (∃ ends, setup.locks.view s.store (setup.lockName e) = some ⟨e, ends⟩ ∧ reserved ≤ ends) ∧
    ∀ e', e' ≠ e → (setup.jobs e').singleConsumerMode.enabled = true →
      setup.lockName e' = setup.lockName e → (s.executors e').phase.isHolding = false

/-- An executor that comes to hold the lock was granted it. -/
theorem PeriodicStepped.grants_of_holding (h : PeriodicStepped setup s event s')
    (henabled : (setup.jobs e).singleConsumerMode.enabled = true)
    (hbefore : (s.executors e).phase.isHolding = false)
    (hafter : (s'.executors e).phase.isHolding = true) :
    ∀ i, holder (setup.locks.view s.store) s.now (setup.lockName e) = some i → i = e := by
  by_cases hown : event.executor = some e
  · cases h with
    | tick => cases hown
    | begins _ _ hdisabled =>
      cases hown
      rw [henabled] at hdisabled
      cases hdisabled
    | grants _ hholder =>
      cases hown
      exact hholder
    | acquires hphase | settles hphase =>
      cases hown
      rw [hphase] at hbefore
      cases hbefore
    | requests hphase =>
      obtain ⟨rfl, -⟩ | ⟨rfl, -⟩ := hphase <;>
      · cases hown
        simp [PeriodicPhase.isHolding] at hafter
    | refreshes hfields | loses hfields =>
      obtain ⟨rfl, rfl⟩ | ⟨k, rfl, rfl⟩ := hfields <;>
      · cases hown
        simp [hbefore] at hafter
    | disposes | releases =>
      cases hown
      simp [hbefore] at hafter
    | _ =>
      cases hown
      simp at hafter
      cases hafter
  · rw [h.executors_of_ne hown, hbefore] at hafter
    cases hafter

/-- One event keeps a lock reserved that its owner has not asked to release. -/
theorem reserved_step {start reserved : ℕ} (hstart : start ≤ s.now)
    (htimeout : reserved ≤ start + setup.timeout e)
    (hafter : reserved ≤ start + (setup.jobs e).timeoutAfterExecution)
    (hreserved : Reserved setup e reserved s) (hnone : (s.executors e).releases = 0)
    (h : PeriodicStepped setup s event s') : Reserved setup e reserved s' := by
  intro hnow
  have hbefore : s.now < reserved := by
    obtain hsame | ⟨d, -, rfl⟩ := h.now_eq
    · rwa [← hsame]
    · exact Nat.lt_of_le_of_lt (Nat.le_add_right ..) hnow
  obtain ⟨⟨ends, hlease, hends⟩, hothers⟩ := hreserved hbefore
  have hheld := holder_of_lease hlease (Nat.lt_of_lt_of_le hbefore hends)
  refine ⟨?_, fun e' hne henabled hname => ?_⟩
  · by_cases hown : event.executor = some e
    · -- its owner's events leave the lock alone or write it for a while that is long enough
      cases h with
      | tick => cases hown
      | @grants _ _ store _ hholder hview =>
        cases hown
        refine ⟨s.now + setup.timeout e, ?_, by omega⟩
        show setup.locks.view store _ = _
        rw [hview, Function.update_self]
      | @refreshes e' _ store fields hfields hholder hview =>
        refine ⟨s.now + setup.timeout e, ?_, by omega⟩
        obtain ⟨rfl, -⟩ | ⟨k, rfl, -⟩ := hfields <;>
        · cases hown
          show setup.locks.view store _ = _
          rw [hview, Function.update_self]
      | updates =>
        cases hown
        refine ⟨s.now + (setup.jobs e).timeoutAfterExecution, ?_, by omega⟩
        show setup.locks.view (setup.locks.refresh ..).2 _ = _
        rw [setup.locks.view_refresh, renew_of_held hheld]
        exact Function.update_self ..
      | releases hreleases =>
        cases hown
        rw [hnone] at hreleases
        exact absurd hreleases (Nat.lt_irrefl 0)
      | refuses _ hview | loses _ _ hview =>
        exact ⟨ends, (congrFun hview _).trans hlease, hends⟩
      | _ => exact ⟨ends, hlease, hends⟩
    · exact ⟨ends, (h.lease_of_ne hown hheld).trans hlease, hends⟩
  · -- another executor would have had to acquire the lock
    by_contra hholding
    rw [Bool.not_eq_false] at hholding
    have hgrants := h.grants_of_holding henabled (hothers e' hne henabled hname) hholding
    rw [hname] at hgrants
    exact hne (hgrants e hheld).symm

/-- Along every run that does not dispose of its owner, a lock stays reserved. -/
theorem reserved_run {start reserved : ℕ} {events : List (PeriodicEvent ι)}
    (hstart : start ≤ s.now) (htimeout : reserved ≤ start + setup.timeout e)
    (hafter : reserved ≤ start + (setup.jobs e).timeoutAfterExecution)
    (hreserved : Reserved setup e reserved s) (hnone : (s.executors e).releases = 0)
    (hnot : ∀ l ∈ events, l ≠ .dispose e)
    (hrun : StepSystem.run (periodicStep setup) s events = some t) :
    Reserved setup e reserved t := by
  refine (StepSystem.invariant_run (C := fun _ l => l ≠ .dispose e)
    (I := fun s => start ≤ s.now ∧ (s.executors e).releases = 0 ∧ Reserved setup e reserved s) ?_
    ⟨hstart, hnone, hreserved⟩ (StepSystem.allSteps_of_forall_mem s hnot) hrun).2.2
  rintro s l s' ⟨hle, hnone, hI⟩ hl hstep
  have hstepped := periodicStepped_of_periodicStep hstep
  refine ⟨?_, ?_, reserved_step hle htimeout hafter hI hnone hstepped⟩
  swap
  · exact Nat.le_zero.1 (hnone ▸ (hstepped.idle_of_ne_dispose hl).1)
  obtain hsame | ⟨d, -, rfl⟩ := hstepped.now_eq
  · rwa [hsame]
  · exact Nat.le_trans hle (Nat.le_add_right ..)

/-- When the lock of a job that has run was updated, it is reserved for as long as it was
updated for, and as a refresh that is still under way may give it. -/
theorem reserved_of_update (hmargin : LockMargin setup delay)
    (hguarded : AllGuarded setup delay s) {wasSuccessful : Bool}
    (henabled : (setup.jobs e).singleConsumerMode.enabled = true)
    (hphase : (s.executors e).phase = .executed wasSuccessful) {reserved : ℕ}
    (hafter : reserved ≤ s.now + (setup.jobs e).timeoutAfterExecution) :
    Reserved setup e reserved (s.update setup e wasSuccessful) := by
  have hheld := (hguarded e henabled (by rw [hphase]; rfl)).holder_eq (hmargin e henabled).2
  refine fun _ => ⟨⟨_, ?_, hafter⟩, fun e' hne henabled' hname => ?_⟩
  · show setup.locks.view (setup.locks.refresh ..).2 _ = _
    rw [setup.locks.view_refresh, renew_of_held hheld]
    exact Function.update_self ..
  · show ((Function.update s.executors e _) e').phase.isHolding = false
    rw [Function.update_of_ne hne]
    by_contra hholding
    rw [Bool.not_eq_false] at hholding
    have hheld' := (hguarded e' henabled' hholding).holder_eq (hmargin e' henabled').2
    rw [hname, hheld] at hheld'
    exact hne (Option.some.inj hheld').symm

/-- **The pause after an execution.**  When an executor has run the job, and until the time
its lock was updated for has passed (or the lock's own timeout, if that is shorter), no other
executor runs it, unless the one that did is disposed of. -/
theorem others_wait (hmargin : LockMargin setup delay) {now : ℕ} {store : σ}
    {events events' : List (PeriodicEvent ι)} {u : PeriodicState σ ι}
    (hprompt : StepSystem.AllSteps (periodicStep setup) (Prompt delay)
      (PeriodicState.new now store) events)
    (hrun : StepSystem.run (periodicStep setup) (PeriodicState.new now store) events = some s)
    (henabled : (setup.jobs e).singleConsumerMode.enabled = true)
    (hupdate : periodicStep setup s (.update e) = some u)
    (hnot : ∀ l ∈ events', l ≠ .dispose e)
    (hrun' : StepSystem.run (periodicStep setup) u events' = some t)
    (hwithin : t.now < s.now + min (setup.jobs e).timeoutAfterExecution (setup.timeout e))
    {e' : ι} (hne : e' ≠ e) (henabled' : (setup.jobs e').singleConsumerMode.enabled = true)
    (hname : setup.lockName e' = setup.lockName e) :
    (t.executors e').phase.isHolding = false := by
  obtain ⟨hguarded, hreleasing⟩ := guarded_of_run hmargin hprompt hrun
  cases periodicStepped_of_periodicStep hupdate with
  | @updates _ wasSuccessful _ hphase hlock =>
    have hreserved := reserved_of_update hmargin hguarded henabled hphase
      (Nat.add_le_add_left (Nat.min_le_left _ (setup.timeout e)) s.now)
    have hstart : s.now ≤ (s.update setup e wasSuccessful).now := Nat.le_refl _
    have hnone : ((s.update setup e wasSuccessful).executors e).releases = 0 := by
      by_contra hsome
      rw [PeriodicState.update_executors_self] at hsome
      have hidle := (hreleasing e (Nat.pos_of_ne_zero hsome)).2
      rw [hphase] at hidle
      cases hidle
    exact (reserved_run hstart (Nat.add_le_add_left (Nat.min_le_right ..) _)
      (Nat.add_le_add_left (Nat.min_le_left ..) _) hreserved hnone hnot hrun' hwithin).2
      e' hne henabled' hname
  | requests hphase => obtain ⟨hevent, -⟩ | ⟨hevent, -⟩ := hphase <;> cases hevent
  | refreshes hfields | loses hfields =>
    obtain ⟨hevent, -⟩ | ⟨k, hevent, -⟩ := hfields <;> cases hevent

/-- With the defaults of a job that runs at an interval, the others wait for one interval. -/
theorem pause_of_defaults {options : BackgroundJobConfiguration}
    {dependencies : PeriodicJobDependencies} {suffix : Option (Option String)} {interval : ℕ}
    (hjob : PeriodicJob.construct options dependencies = .ok (setup.jobs e))
    (hmode : options.singleConsumerMode = some ⟨true, suffix, none, none⟩)
    (hinterval : options.schedule.intervalInMs = some interval) :
    min (setup.jobs e).timeoutAfterExecution (setup.timeout e) = interval := by
  have hresolved : (setup.jobs e).singleConsumerMode = resolveSingleConsumerMode options ∧
      (setup.jobs e).schedule = options.schedule := by
    unfold PeriodicJob.construct at hjob
    split at hjob
    · rw [← Except.ok.inj hjob]
      exact ⟨rfl, rfl⟩
    · cases hjob
  obtain ⟨hresolved, hschedule⟩ := hresolved
  have hafter : (setup.jobs e).timeoutAfterExecution = interval := by
    simp [PeriodicJob.timeoutAfterExecution, hresolved, hschedule, resolveSingleConsumerMode,
      hmode, hinterval]
  have htimeout : setup.timeout e = if interval ≠ 0 then interval * 2 else defaultLockTimeout := by
    simp [PeriodicSetup.timeout, hresolved, resolveSingleConsumerMode, hmode, Schedule.lockTimeout,
      hinterval]
  rw [hafter, htimeout]
  split <;> omega

theorem others_wait_pair :
    ∃ t, StepSystem.run (periodicStep pairSetup) (PeriodicState.new 0 fun _ => none)
        ([.process true, .serve true, .tick 5, .answer true, .settle true none] ++
          .update true :: [.close true, .tick 55, .process false, .serve false]) = some t ∧
      (t.executors false).phase.isHolding = false := by
  have hprompt : StepSystem.AllSteps (periodicStep pairSetup) (Prompt 5)
      (PeriodicState.new 0 fun _ => none)
      [.process true, .serve true, .tick 5, .answer true, .settle true none] := by decide
  exact ⟨_, rfl, others_wait pair_margin hprompt rfl rfl rfl
    (by decide : ∀ l ∈ [.close true, .tick 55, .process false, .serve false],
      l ≠ PeriodicEvent.dispose true)
    rfl (by decide) (by decide : false ≠ true) rfl rfl⟩

/-! ## What an executor tells -/

/-- How a call of `process` went: it was skipped; a request for the lock failed; or
`processInternal` settled as told, and the lock was updated or that request failed. -/
inductive Attempt where
  | skipped
  | refused
  | executed (rejection : Option Bool) (lockUpdated : Bool)

/-- What an execution tells up to where `processInternal` has settled. -/
def PeriodicJob.settledEffects (job : PeriodicJob) (rejection : Option Bool) :
    List PeriodicEffect :=
  job.startEffects ++ (rejection.map job.failureEffects).getD []

/-- What an attempt tells, in order: the transaction is stopped with whether
`processInternal` was fulfilled, and not at all when the lock cannot be updated. -/
def PeriodicJob.attemptEffects (job : PeriodicJob) : Attempt → List PeriodicEffect
  | .skipped => [.skipped]
  | .refused => [.taskError]
  | .executed rejection true => job.settledEffects rejection ++ job.finishEffects rejection.isNone
  | .executed rejection false => job.settledEffects rejection ++ [.taskError]

/-- What an execution under way has told so far. -/
def PeriodicJob.Pending (job : PeriodicJob) (effects : List PeriodicEffect) :
    PeriodicPhase → Prop
  | .idle | .requesting _ | .granted _ | .refused _ => effects = []
  | .executing => effects = job.startEffects
  | .executed wasSuccessful | .updated wasSuccessful =>
    ∃ rejection : Option Bool, rejection.isNone = wasSuccessful ∧
      effects = job.settledEffects rejection

/-- An execution whose lock is still asked for has told nothing. -/
theorem PeriodicJob.Pending.eq_nil {job : PeriodicJob} {effects : List PeriodicEffect}
    {phase : PeriodicPhase} (h : job.Pending effects phase) (hphase : phase.isRequesting = true) :
    effects = [] := by
  cases phase with
  | requesting | granted | refused => exact h
  | idle | executing | executed | updated => cases hphase

/-- What an executor has told, in order, apart from the locks that its timers lost. -/
def PeriodicState.told (s : PeriodicState σ ι) (e : ι) : List PeriodicEffect :=
  (s.effects.filter fun p => p.1 = e ∧ p.2 ≠ .lockLost).map (·.2)

/-- An executor has told one attempt after the other, and what is under way. -/
def Traced (setup : PeriodicSetup σ ι) (s : PeriodicState σ ι) (e : ι) : Prop :=
  ∃ (attempts : List Attempt) (pending : List PeriodicEffect),
    s.told e = attempts.flatMap (setup.jobs e).attemptEffects ++ pending ∧
    (setup.jobs e).Pending pending (s.executors e).phase

/-! ### One event -/

@[simp] theorem told_setFields (s : PeriodicState σ ι) (e e' : ι) (fields : PeriodicFields) :
    (s.setFields e fields).told e' = s.told e' := rfl

theorem told_emit (s : PeriodicState σ ι) (e : ι) {effects : List PeriodicEffect}
    (h : ∀ effect ∈ effects, effect ≠ .lockLost) :
    (s.emit e effects).told e = s.told e ++ effects := by
  have hkeep : (effects.map (e, ·)).filter (fun p => p.1 = e ∧ p.2 ≠ .lockLost)
      = effects.map (e, ·) := by
    rw [List.filter_eq_self]
    simpa using h
  have hback : (effects.map (e, ·)).map (·.2) = effects := by simp [Function.comp_def]
  rw [PeriodicState.told, PeriodicState.emit_effects, List.filter_append, List.map_append, hkeep,
    hback]
  rfl

theorem told_emit_of_ne (s : PeriodicState σ ι) {e e' : ι} (hne : e ≠ e')
    (effects : List PeriodicEffect) : (s.emit e' effects).told e = s.told e := by
  have hdrop : (effects.map (e', ·)).filter (fun p => p.1 = e ∧ p.2 ≠ .lockLost) = [] := by
    rw [List.filter_eq_nil_iff]
    simp [hne.symm]
  rw [PeriodicState.told, PeriodicState.emit_effects, List.filter_append, hdrop, List.append_nil]
  rfl

theorem told_emit_lockLost (s : PeriodicState σ ι) (e : ι) (job : PeriodicJob) :
    (s.emit e job.lockLostEffects).told e = s.told e := by
  have hdrop : (job.lockLostEffects.map (e, ·)).filter (fun p => p.1 = e ∧ p.2 ≠ .lockLost)
      = [] := by
    rw [List.filter_eq_nil_iff]
    unfold PeriodicJob.lockLostEffects
    split <;> simp
  rw [PeriodicState.told, PeriodicState.emit_effects, List.filter_append, hdrop, List.append_nil]
  rfl

theorem startEffects_ne_lockLost (job : PeriodicJob) :
    ∀ effect ∈ job.startEffects, effect ≠ .lockLost := by
  rintro _ h rfl
  simp [PeriodicJob.startEffects] at h

theorem failureEffects_ne_lockLost (job : PeriodicJob) (rejection : Option Bool) :
    ∀ effect ∈ (rejection.map job.failureEffects).getD [], effect ≠ .lockLost := by
  rintro _ h rfl
  cases rejection with
  | none => cases h
  | some isError => simp [PeriodicJob.failureEffects] at h

theorem finishEffects_ne_lockLost (job : PeriodicJob) (wasSuccessful : Bool) :
    ∀ effect ∈ job.finishEffects wasSuccessful, effect ≠ .lockLost := by
  rintro _ h rfl
  simp [PeriodicJob.finishEffects] at h

/-- Nobody speaks for another executor. -/
theorem PeriodicStepped.told_of_ne (h : PeriodicStepped setup s event s')
    (hne : event.executor ≠ some e) : s'.told e = s.told e := by
  have hother : ∀ {e' : ι}, event.executor = some e' → e ≠ e' := by
    rintro e' he' rfl
    exact hne he'
  cases h with
  | begins => exact told_emit_of_ne _ (hother rfl) _
  | acquires => exact told_emit_of_ne _ (hother rfl) _
  | skips => exact told_emit_of_ne _ (hother rfl) _
  | settles => exact told_emit_of_ne _ (hother rfl) _
  | closes => exact told_emit_of_ne _ (hother rfl) _
  | rejects => exact told_emit_of_ne _ (hother rfl) _
  | loses hfields =>
    obtain ⟨rfl, -⟩ | ⟨k, rfl, -⟩ := hfields <;> exact told_emit_of_ne _ (hother rfl) _
  | _ => rfl

/-- An executor that tells nothing, and stays where it was, is traced as before. -/
theorem Traced.of_same (h : Traced setup s e) (htold : s'.told e = s.told e)
    (hphase : (s'.executors e).phase = (s.executors e).phase) : Traced setup s' e := by
  obtain ⟨attempts, pending, heq, hpending⟩ := h
  exact ⟨attempts, pending, by rw [htold, heq], by rwa [hphase]⟩

/-- One event keeps every executor traced. -/
theorem traced_step (htraced : Traced setup s e) (h : PeriodicStepped setup s event s') :
    Traced setup s' e := by
  by_cases hown : event.executor = some e
  · obtain ⟨attempts, pending, heq, hpending⟩ := htraced
    cases h with
    | tick => cases hown
    | begins hphase =>
      cases hown
      rw [hphase] at hpending
      refine ⟨attempts, (setup.jobs e).startEffects, ?_, by simp [PeriodicJob.Pending]⟩
      rw [PeriodicState.beginExecution, told_emit _ _ (startEffects_ne_lockLost _), told_setFields,
        heq, show pending = [] from hpending, List.append_nil]
    | requests hphase =>
      have hnone : pending = [] := by
        obtain ⟨rfl, hphase, -⟩ | ⟨rfl, hphase⟩ := hphase <;>
        · cases hown
          rw [hphase] at hpending
          exact hpending
      obtain ⟨rfl, -⟩ | ⟨rfl, -⟩ := hphase <;>
      · cases hown
        exact ⟨attempts, pending, heq, by simpa [PeriodicJob.Pending] using hnone⟩
    | grants hphase | refuses hphase =>
      cases hown
      rw [hphase] at hpending
      exact ⟨attempts, pending, heq, by simpa [PeriodicJob.Pending] using hpending⟩
    | acquires hphase =>
      cases hown
      rw [hphase] at hpending
      refine ⟨attempts, (setup.jobs e).startEffects, ?_, by simp [PeriodicJob.Pending]⟩
      rw [PeriodicState.acquired, PeriodicState.beginExecution,
        told_emit _ _ (startEffects_ne_lockLost _), told_setFields, heq,
        show pending = [] from hpending, List.append_nil]
    | skips hphase =>
      cases hown
      rw [hphase] at hpending
      refine ⟨attempts ++ [.skipped], [], ?_, by simp [PeriodicJob.Pending]⟩
      rw [PeriodicState.skip, told_emit _ _ (by simp), told_setFields]
      simp [heq, show pending = [] from hpending, PeriodicJob.attemptEffects]
    | @settles _ rejection hphase =>
      cases hown
      rw [hphase] at hpending
      refine ⟨attempts, (setup.jobs e).settledEffects rejection, ?_, ?_⟩
      · rw [PeriodicState.settle, told_emit _ _ (failureEffects_ne_lockLost _ _), told_setFields,
          heq, show pending = _ from hpending, PeriodicJob.settledEffects, List.append_assoc]
      · rw [PeriodicState.settle_executors_self]
        exact ⟨rejection, rfl, rfl⟩
    | updates hphase =>
      cases hown
      rw [hphase] at hpending
      exact ⟨attempts, pending, heq, by
        rw [PeriodicState.update_executors_self]
        exact hpending⟩
    | @closes _ wasSuccessful hphase =>
      cases hown
      have hsettled : ∃ rejection : Option Bool, rejection.isNone = wasSuccessful ∧
          pending = (setup.jobs e).settledEffects rejection := by
        obtain ⟨hphase, -⟩ | hphase := hphase <;>
        · rw [hphase] at hpending
          exact hpending
      obtain ⟨rejection, rfl, rfl⟩ := hsettled
      refine ⟨attempts ++ [.executed rejection true], [], ?_, by simp [PeriodicJob.Pending]⟩
      rw [PeriodicState.close, told_emit _ _ (finishEffects_ne_lockLost _ _), told_setFields, heq]
      simp [PeriodicJob.attemptEffects]
    | rejects hphase =>
      cases hown
      have htask : s.told e ++ [.taskError] = (attempts.flatMap (setup.jobs e).attemptEffects ++
          pending) ++ [.taskError] := by rw [heq]
      have htold : (s.reject e).told e = s.told e ++ [.taskError] := by
        rw [PeriodicState.reject, told_emit _ _ (by simp), told_setFields]
      obtain hphase | ⟨wasSuccessful, hphase⟩ := hphase
      · refine ⟨attempts ++ [.refused], [], ?_, by simp [PeriodicJob.Pending]⟩
        rw [htold, htask, hpending.eq_nil hphase]
        simp [PeriodicJob.attemptEffects]
      · have hsettled : ∃ rejection : Option Bool, rejection.isNone = wasSuccessful ∧
            pending = (setup.jobs e).settledEffects rejection := by
          obtain hphase | hphase := hphase <;>
          · rw [hphase] at hpending
            exact hpending
        obtain ⟨rejection, -, rfl⟩ := hsettled
        refine ⟨attempts ++ [.executed rejection false], [], ?_, by simp [PeriodicJob.Pending]⟩
        rw [htold, htask]
        simp [PeriodicJob.attemptEffects]
    | refreshes hfields =>
      refine Traced.of_same ⟨attempts, pending, heq, hpending⟩ rfl ?_
      obtain ⟨rfl, rfl⟩ | ⟨k, rfl, rfl⟩ := hfields <;> (cases hown; simp)
    | loses hfields =>
      obtain ⟨rfl, rfl⟩ | ⟨k, rfl, rfl⟩ := hfields <;>
      · cases hown
        exact Traced.of_same ⟨attempts, pending, heq, hpending⟩ (told_emit_lockLost _ _ _) (by simp)
    | disposes | releases =>
      cases hown
      exact Traced.of_same ⟨attempts, pending, heq, hpending⟩ rfl (by simp)
  · exact htraced.of_same (h.told_of_ne hown) (by rw [h.executors_of_ne hown])

/-- **What an executor tells.**  In every run, and with any failures of the lock's requests, an
executor has told one attempt after the other: what it skips is no transaction, and an execution
starts one, which it stops with how it went, except when the lock could not be updated. -/
theorem traced_run {now : ℕ} {store : σ} {events : List (PeriodicEvent ι)}
    (hrun : StepSystem.run (periodicStep setup) (PeriodicState.new now store) events = some t)
    (e : ι) : Traced setup t e := by
  refine StepSystem.invariant_run (C := fun _ _ => True) (I := fun s => Traced setup s e)
    (fun _ _ _ hI _ hstep => traced_step hI (periodicStepped_of_periodicStep hstep)) ?_
    (StepSystem.allSteps_true _ events) hrun
  exact ⟨[], [], rfl, rfl⟩

/-- The one instance's execution fails, and the other's attempt is skipped. -/
def tracedEvents : List (PeriodicEvent Bool) :=
  pairEvents ++ [.settle true (some true), .update true, .close true]

theorem traced_run_pair :
    ∃ t, StepSystem.run (periodicStep pairSetup) (PeriodicState.new 0 fun _ => none) tracedEvents
        = some t ∧ ∀ e, Traced pairSetup t e := by
  obtain ⟨t, ht⟩ := Option.isSome_iff_exists.1 (by decide :
    (StepSystem.run (periodicStep pairSetup) (PeriodicState.new 0 fun _ => none)
      tracedEvents).isSome = true)
  exact ⟨t, ht, traced_run ht⟩

end SharedTsLibs.BackgroundJobs
