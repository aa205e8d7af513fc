import Mathlib.Algebra.Order.BigOperators.Group.Finset
import SharedTsLibs.BackgroundJobs.JobAttempts

/-!
# The queue size barrier

`createJobQueueSizeThrottlingBarrier` delays an attempt while the throttled queue has
`maxQueueJobsInclusive` unfinished jobs or more.  The check is optimistic: Redis counts at
one moment, and the attempts that have passed add their jobs later, whatever the count is
by then.

* `createJobQueueSizeThrottlingBarrier` — what the barrier returns for a count.
* `ThrottledSystem`, `throttleStep` — the slots of the workers, each with its attempt, and the
  throttled queue.
* `pendingJobs` — the jobs that an attempt may still add.
* `mostJobs` — the overflow that the concurrency of the workers allows.
* `bounded_run`, `reaches_mostJobs` — the queue never has more jobs, and can have as many.
* `jobCount_exact` — the sizes that the throttled queue can have, exactly.
-/

namespace SharedTsLibs.BackgroundJobs

open StepSystem

/-! ## The barrier -/

/-- `ChildJobThrottlingBarrierConfig` -/
structure ThrottlingBarrierConfig where
  retryPeriodInMsecs : ℤ
  maxQueueJobsInclusive : ℕ

/-- What the barrier that `createJobQueueSizeThrottlingBarrier` makes returns for a count. -/
def createJobQueueSizeThrottlingBarrier (config : ThrottlingBarrierConfig)
    (throttledQueueJobCount : ℕ) : BarrierResult :=
  if throttledQueueJobCount < config.maxQueueJobsInclusive then .passing
  else .delayed config.retryPeriodInMsecs

/-! ## State -/

/-- An attempt of a job whose processor has the barrier. -/
structure ThrottledAttempt where
  stage : AttemptStage := .barrier
  /-- What Redis has counted for the barrier; the reply may still be on its way. -/
  throttledQueueJobCount : Option ℕ := none
  /-- How many jobs `process` has added to the throttled queue. -/
  added : ℕ := 0

/-- The slots of the workers, `concurrency` for each worker, and how many unfinished jobs
the throttled queue has. -/
structure ThrottledSystem (ι : Type) where
  slots : ι → Option ThrottledAttempt
  jobCount : ℕ

/-- The barrier, and how many jobs one call of `process` adds at most. -/
structure ThrottleConfig where
  barrier : ThrottlingBarrierConfig
  jobsPerAttempt : ℕ

variable {ι : Type} [DecidableEq ι] (config : ThrottleConfig)

namespace ThrottledSystem

/-- No slot has an attempt. -/
def idle (jobCount : ℕ) : ThrottledSystem ι := ⟨fun _ => none, jobCount⟩

def setSlot (s : ThrottledSystem ι) (i : ι) (attempt : Option ThrottledAttempt) :
    ThrottledSystem ι :=
  { s with slots := Function.update s.slots i attempt }

@[simp] theorem jobCount_setSlot (s : ThrottledSystem ι) (i : ι) (slot : Option ThrottledAttempt) :
    (s.setSlot i slot).jobCount = s.jobCount := rfl

@[simp] theorem slots_setSlot_self (s : ThrottledSystem ι) (i : ι)
    (slot : Option ThrottledAttempt) : (s.setSlot i slot).slots i = slot := by
  simp [setSlot]

@[simp] theorem slots_setSlot_of_ne (s : ThrottledSystem ι) {i j : ι}
    (slot : Option ThrottledAttempt) (h : j ≠ i) : (s.setSlot i slot).slots j = s.slots j := by
  simp [setSlot, h]

@[simp] theorem setSlot_setSlot (s : ThrottledSystem ι) (i : ι)
    (slot slot' : Option ThrottledAttempt) :
    (s.setSlot i slot).setSlot i slot' = s.setSlot i slot' := by
  simp [setSlot]

theorem setSlot_same {s : ThrottledSystem ι} {i : ι} {slot : Option ThrottledAttempt}
    (h : s.slots i = slot) : s.setSlot i slot = s := by
  rw [setSlot, ← h, Function.update_eq_self]

end ThrottledSystem

/-! ## Steps -/

inductive ThrottleLabel (ι : Type) where
  /-- A slot takes a job. -/
  | starts (i : ι)
  /-- Redis counts the jobs of the throttled queue for the barrier. -/
  | counts (i : ι)
  /-- What an attempt awaits settles. -/
  | settles (i : ι) (event : AttemptEvent ι)
  /-- `process` adds a job to the throttled queue. -/
  | adds (i : ι)
  /-- A job of the throttled queue completes, or fails for good. -/
  | finishes

/-- Whether the barrier can settle like this; what else an attempt awaits can settle in
any way. -/
def Settles (attempt : ThrottledAttempt) : AttemptEvent ι → Prop
  | .barrierSettled _ (.ok result) =>
    attempt.throttledQueueJobCount.map (createJobQueueSizeThrottlingBarrier config.barrier)
      = some result
  | _ => True

deriving instance DecidableEq for BarrierResult

instance (attempt : ThrottledAttempt) :
    ∀ event : AttemptEvent ι, Decidable (Settles config attempt event)
  | .barrierSettled _ (.ok result) => inferInstanceAs (Decidable (_ = some result))
  | .barrierSettled _ (.error _) | .start .. | .movedToDelayed .. | .processed ..
  | .progressUpdated .. | .addCustomAttributes .. => inferInstanceAs (Decidable True)

/-- The workers, from one `await` of an attempt to the next. -/
def throttleStep (s : ThrottledSystem ι) : ThrottleLabel ι → Option (ThrottledSystem ι)
  | .starts i =>
    match s.slots i with
    | none => some (s.setSlot i (some {}))
    | some _ => none
  | .counts i => do
    let attempt ← s.slots i
    if attempt.stage = .barrier ∧ attempt.throttledQueueJobCount = none then
      some (s.setSlot i (some { attempt with throttledQueueJobCount := some s.jobCount }))
    else none
  | .settles i event => do
    let attempt ← s.slots i
    if event.job = some i ∧ Settles config attempt event then
      (settleStage attempt.stage event).map fun
        | .ok stage => s.setSlot i (some { attempt with stage })
        | .error _ => s.setSlot i none
    else none
  | .adds i => do
    let attempt ← s.slots i
    if attempt.stage = .processing ∧ attempt.added < config.jobsPerAttempt then
      some { s.setSlot i (some { attempt with added := attempt.added + 1 }) with
        jobCount := s.jobCount + 1 }
    else none
  | .finishes => if s.jobCount = 0 then none else some { s with jobCount := s.jobCount - 1 }

/-! ## What a step can do -/

/-- How an attempt can go on: the barrier lets it pass if it has counted few enough jobs,
and no other stage leads to `process`. -/
inductive AttemptContinues (attempt : ThrottledAttempt) : AttemptStage → Prop where
  | passes {count : ℕ} (hstage : attempt.stage = .barrier)
      (hcounted : attempt.throttledQueueJobCount = some count)
      (hfew : count < config.barrier.maxQueueJobsInclusive) :
      AttemptContinues attempt .processing
  | leaves {stage : AttemptStage} (hbarrier : stage ≠ .barrier)
      (hprocessing : stage ≠ .processing) :
      AttemptContinues attempt stage

/-- The steps, one case for each thing that can happen to a slot. -/
inductive ThrottleStepped (s : ThrottledSystem ι) : ThrottledSystem ι → Prop where
  | starts {i : ι} (hnone : s.slots i = none) : ThrottleStepped s (s.setSlot i (some {}))
  | counts {i : ι} {attempt : ThrottledAttempt} (hattempt : s.slots i = some attempt)
      (hstage : attempt.stage = .barrier) (hnot : attempt.throttledQueueJobCount = none) :
      ThrottleStepped s
        (s.setSlot i (some { attempt with throttledQueueJobCount := some s.jobCount }))
  | continues {i : ι} {attempt : ThrottledAttempt} {stage : AttemptStage}
      (hattempt : s.slots i = some attempt) (hcontinues : AttemptContinues config attempt stage) :
      ThrottleStepped s (s.setSlot i (some { attempt with stage }))
  | ends {i : ι} {attempt : ThrottledAttempt} (hattempt : s.slots i = some attempt) :
      ThrottleStepped s (s.setSlot i none)
  | adds {i : ι} {attempt : ThrottledAttempt} (hattempt : s.slots i = some attempt)
      (hstage : attempt.stage = .processing) (hmore : attempt.added < config.jobsPerAttempt) :
      ThrottleStepped s
        { s.setSlot i (some { attempt with added := attempt.added + 1 }) with
          jobCount := s.jobCount + 1 }
  | finishes (hsome : s.jobCount ≠ 0) : ThrottleStepped s { s with jobCount := s.jobCount - 1 }

variable {config} {s s' t : ThrottledSystem ι} {i : ι} {attempt : ThrottledAttempt}

omit [DecidableEq ι] in
/-- Only a barrier that has let an attempt pass leads to `process`. -/
theorem attemptContinues_of_settleStage {event : AttemptEvent ι} {stage : AttemptStage}
    (hsettles : Settles config attempt event)
    (h : settleStage attempt.stage event = some (.ok stage)) :
    AttemptContinues config attempt stage := by
  cases event with
  | start | addCustomAttributes => cases h
  | barrierSettled _ result =>
    simp only [settleStage] at h
    split at h
    · next hstage =>
      cases result with
      | error => cases h
      | ok result =>
        obtain ⟨count, hcounted, hresult⟩ := Option.map_eq_some_iff.1 hsettles
        rw [createJobQueueSizeThrottlingBarrier] at hresult
        split at hresult
        · next hfew =>
          subst hresult
          cases h
          exact .passes hstage hcounted hfew
        · subst hresult
          cases h
          exact .leaves (by simp) (by simp)
    · cases h
  | movedToDelayed _ result | progressUpdated _ result =>
    simp only [settleStage] at h
    split at h
    · cases result <;> cases h
    · cases h
  | processed _ result =>
    simp only [settleStage] at h
    split at h
    · cases result with
      | error => cases h
      | ok =>
        cases h
        exact .leaves (by simp) (by simp)
    · cases h

theorem throttleStepped_of_throttleStep {l : ThrottleLabel ι}
    (h : throttleStep config s l = some s') : ThrottleStepped config s s' := by
  cases l with
  | starts i =>
    simp only [throttleStep] at h
    split at h
    · next hnone => cases h; exact .starts hnone
    · cases h
  | counts i =>
    obtain ⟨attempt, hattempt, h⟩ := Option.bind_eq_some_iff.1 h
    split at h
    · next hcan => cases h; exact .counts hattempt hcan.1 hcan.2
    · cases h
  | settles i event =>
    obtain ⟨attempt, hattempt, h⟩ := Option.bind_eq_some_iff.1 h
    split at h
    · next hcan =>
      obtain ⟨next, hnext, rfl⟩ := Option.map_eq_some_iff.1 h
      cases next with
      | ok stage => exact .continues hattempt (attemptContinues_of_settleStage hcan.2 hnext)
      | error => exact .ends hattempt
    · cases h
  | adds i =>
    obtain ⟨attempt, hattempt, h⟩ := Option.bind_eq_some_iff.1 h
    split at h
    · next hcan => cases h; exact .adds hattempt hcan.1 hcan.2
    · cases h
  | finishes =>
    simp only [throttleStep] at h
    split at h
    · cases h
    · next hsome => cases h; exact .finishes hsome

/-! ## How many jobs the throttled queue can have -/

variable (config) in
/-- How many jobs an attempt may still add, by what its barrier has counted. -/
def pendingJobs : Option ThrottledAttempt → ℕ
  | none => 0
  | some attempt =>
    match attempt.stage, attempt.throttledQueueJobCount with
    | .barrier, some count =>
      if count < config.barrier.maxQueueJobsInclusive then config.jobsPerAttempt - attempt.added
      else 0
    | .processing, _ => config.jobsPerAttempt - attempt.added
    | .barrier, none | .movingToDelayed, _ | .updatingProgress, _ => 0

variable (config) in
/-- One job less than the maximum, and as many as all slots add at a time. -/
def mostJobs (concurrency : ℕ) : ℕ :=
  if config.barrier.maxQueueJobsInclusive = 0 ∨ concurrency * config.jobsPerAttempt = 0 then 0
  else config.barrier.maxQueueJobsInclusive - 1 + concurrency * config.jobsPerAttempt

theorem pendingJobs_le (slot : Option ThrottledAttempt) :
    pendingJobs config slot ≤ config.jobsPerAttempt := by
  unfold pendingJobs
  split
  · exact Nat.zero_le _
  · split
    · split
      · exact Nat.sub_le ..
      · exact Nat.zero_le _
    · exact Nat.sub_le ..
    all_goals exact Nat.zero_le _

/-- An attempt that goes on may not add more than before. -/
theorem pendingJobs_of_continues {stage : AttemptStage}
    (h : AttemptContinues config attempt stage) :
    pendingJobs config (some { attempt with stage }) ≤ pendingJobs config (some attempt) := by
  cases h with
  | passes hstage hcounted hfew => simp [pendingJobs, hstage, hcounted, hfew]
  | leaves hbarrier hprocessing =>
    cases stage with
    | barrier => exact absurd rfl hbarrier
    | processing => exact absurd rfl hprocessing
    | movingToDelayed | updatingProgress => simp [pendingJobs]

theorem pendingJobs_of_adds (hstage : attempt.stage = .processing)
    (hmore : attempt.added < config.jobsPerAttempt) :
    pendingJobs config (some { attempt with added := attempt.added + 1 }) + 1
      = pendingJobs config (some attempt) := by
  simp only [pendingJobs, hstage]
  omega

open ThrottledSystem

section Bounded

variable [Fintype ι]

namespace ThrottledSystem

variable (config) in
/-- The jobs that may still be added. -/
def pending (s : ThrottledSystem ι) : ℕ := ∑ i, pendingJobs config (s.slots i)

variable (config) in
/-- A slot that changes its attempt changes what it may add. -/
theorem pending_setSlot (s : ThrottledSystem ι) (i : ι) (slot : Option ThrottledAttempt) :
    (s.setSlot i slot).pending config + pendingJobs config (s.slots i)
      = s.pending config + pendingJobs config slot := by
  have hothers : ∀ j ∈ Finset.univ.erase i,
      pendingJobs config ((s.setSlot i slot).slots j) = pendingJobs config (s.slots j) := by
    intro j hj
    rw [slots_setSlot_of_ne _ _ (Finset.ne_of_mem_erase hj)]
  rw [pending, pending, ← Finset.add_sum_erase _ _ (Finset.mem_univ i),
    Finset.sum_congr rfl hothers, slots_setSlot_self,
    ← Finset.add_sum_erase _ (fun j => pendingJobs config (s.slots j)) (Finset.mem_univ i)]
  omega

variable (config) in
omit [DecidableEq ι] in
theorem pending_le (s : ThrottledSystem ι) :
    s.pending config ≤ Fintype.card ι * config.jobsPerAttempt := by
  have h := Finset.sum_le_card_nsmul Finset.univ (fun i => pendingJobs config (s.slots i))
    config.jobsPerAttempt fun i _ => pendingJobs_le _
  simpa [pending, Finset.card_univ] using h

end ThrottledSystem

variable (config) in
/-- The throttled queue has room for what may still be added. -/
def HasRoom (s : ThrottledSystem ι) : Prop :=
  s.jobCount + s.pending config ≤ mostJobs config (Fintype.card ι)

omit [DecidableEq ι] in
/-- The barrier lets pass only while the queue has room for all slots. -/
theorem HasRoom.room_for_all (h : HasRoom config s)
    (hfew : s.jobCount < config.barrier.maxQueueJobsInclusive) :
    s.jobCount + Fintype.card ι * config.jobsPerAttempt ≤ mostJobs config (Fintype.card ι) := by
  unfold HasRoom mostJobs at *
  split at h
  · next hnone => rw [if_pos hnone]; omega
  · next hsome => rw [if_neg hsome]; omega

theorem HasRoom.step (hroom : HasRoom config s) (h : ThrottleStepped config s s') :
    HasRoom config s' := by
  cases h with
  | @starts i hnone =>
    have hpending := pending_setSlot config s i (some {})
    have hnew : pendingJobs config (some {}) = 0 := rfl
    unfold HasRoom at hroom ⊢
    change s.jobCount + _ ≤ _
    omega
  | @counts i attempt hattempt hstage hnot =>
    by_cases hfew : s.jobCount < config.barrier.maxQueueJobsInclusive
    · have hall := hroom.room_for_all hfew
      have hpending := pending_le config
        (s.setSlot i (some { attempt with throttledQueueJobCount := some s.jobCount }))
      change s.jobCount + _ ≤ _
      omega
    · have hpending := pending_setSlot config s i
        (some { attempt with throttledQueueJobCount := some s.jobCount })
      have hnone : pendingJobs config
          (some { attempt with throttledQueueJobCount := some s.jobCount }) = 0 := by
        simp [pendingJobs, hstage, hfew]
      unfold HasRoom at hroom
      change s.jobCount + _ ≤ _
      omega
  | @continues i attempt stage hattempt hcontinues =>
    have hpending := pending_setSlot config s i (some { attempt with stage })
    have hless := pendingJobs_of_continues hcontinues
    rw [hattempt] at hpending
    unfold HasRoom at hroom
    change s.jobCount + _ ≤ _
    omega
  | @ends i attempt hattempt =>
    have hpending := pending_setSlot config s i none
    have hnone : pendingJobs config none = 0 := rfl
    unfold HasRoom at hroom
    change s.jobCount + _ ≤ _
    omega
  | @adds i attempt hattempt hstage hmore =>
    have hpending := pending_setSlot config s i
      (some { attempt with added := attempt.added + 1 })
    have hless := pendingJobs_of_adds hstage hmore
    rw [hattempt] at hpending
    unfold HasRoom at hroom
    change s.jobCount + 1 + (s.setSlot i _).pending config ≤ _
    omega
  | finishes hsome =>
    unfold HasRoom at hroom ⊢
    change s.jobCount - 1 + s.pending config ≤ _
    omega

/-- However the attempts overlap, the throttled queue has no more jobs than the slots can
overflow it by. -/
theorem bounded_run {ls : List (ThrottleLabel ι)}
    (hrun : run (throttleStep config) (idle 0) ls = some s) :
    s.jobCount ≤ mostJobs config (Fintype.card ι) := by
  have hidle : HasRoom config (idle 0 : ThrottledSystem ι) := by
    simp [HasRoom, pending, idle, pendingJobs]
  have hroom : HasRoom config s :=
    invariant_run (fun _ _ _ hroom _ hstep => hroom.step (throttleStepped_of_throttleStep hstep))
      hidle (allSteps_true _ ls) hrun
  exact (Nat.le_add_right ..).trans hroom

end Bounded

/-! ## How many it can have -/

/-- The throttled queue may get shorter. -/
theorem reaches_finished (s : ThrottledSystem ι) {n : ℕ} (hn : n ≤ s.jobCount) :
    Reaches (throttleStep config) s { s with jobCount := n } := by
  induction hn using Nat.decreasingInduction with
  | self => exact .refl s
  | of_succ n hn ih =>
    refine ih.trans (.single (l := .finishes) ?_)
    simp [throttleStep]

/-- While the queue is not full, a slot can add a job to it and be free again. -/
theorem reaches_succ (i : ι) {n : ℕ} (hn : n < config.barrier.maxQueueJobsInclusive)
    (hjobs : 0 < config.jobsPerAttempt) :
    Reaches (throttleStep config) (idle n) (idle (n + 1) : ThrottledSystem ι) := by
  refine ⟨[.starts i, .counts i, .settles i (.barrierSettled i (.ok .passing)), .adds i,
    .settles i (.processed i (.error .value))], ?_⟩
  simp [run, throttleStep, idle, setSlot, AttemptEvent.job, Settles, settleStage,
    createJobQueueSizeThrottlingBarrier, hn, hjobs]

variable (config) in
theorem reaches_full (i : ι) {n : ℕ} (hn : n ≤ config.barrier.maxQueueJobsInclusive)
    (hjobs : 0 < config.jobsPerAttempt) :
    Reaches (throttleStep config) (idle 0) (idle n : ThrottledSystem ι) := by
  induction n with
  | zero => exact .refl _
  | succ n ih => exact (ih (by omega)).trans (reaches_succ i hn hjobs)

variable (config) in
/-- Free slots can all have the jobs counted before one of them adds any. -/
theorem reaches_counted (s : ThrottledSystem ι) (slots : Finset ι)
    (hfree : ∀ i ∈ slots, s.slots i = none) :
    ∃ t, Reaches (throttleStep config) s t ∧ t.jobCount = s.jobCount ∧
      (∀ i ∈ slots, t.slots i = some { throttledQueueJobCount := some s.jobCount }) ∧
      ∀ j ∉ slots, t.slots j = s.slots j := by
  induction slots using Finset.induction_on with
  | empty => exact ⟨s, .refl s, rfl, by simp, fun _ _ => rfl⟩
  | insert i slots hi ih =>
    obtain ⟨t, hreaches, hjobs, hcounted, hothers⟩ :=
      ih fun j hj => hfree j (Finset.mem_insert_of_mem hj)
    have hnone : t.slots i = none := (hothers i hi).trans (hfree i (Finset.mem_insert_self ..))
    refine ⟨t.setSlot i (some { throttledQueueJobCount := some t.jobCount }), ?_, hjobs, ?_, ?_⟩
    · refine hreaches.trans ⟨[.starts i, .counts i], ?_⟩
      simp [run, throttleStep, hnone]
    · intro j hj
      by_cases hji : j = i
      · rw [hji, slots_setSlot_self, hjobs]
      · rw [slots_setSlot_of_ne _ _ hji]
        exact hcounted j (Finset.mem_of_mem_insert_of_ne hj hji)
    · intro j hj
      rw [Finset.mem_insert, not_or] at hj
      rw [slots_setSlot_of_ne _ _ hj.1]
      exact hothers j hj.2

/-- An attempt in `process` can add its jobs one after the other. -/
theorem reaches_added (s : ThrottledSystem ι) {i : ι} {count : Option ℕ}
    (hattempt : s.slots i = some ⟨.processing, count, 0⟩) {m : ℕ} (hm : m ≤ config.jobsPerAttempt) :
    Reaches (throttleStep config) s
      { s.setSlot i (some ⟨.processing, count, m⟩) with jobCount := s.jobCount + m } := by
  induction m with
  | zero =>
    rw [setSlot_same hattempt]
    exact .refl s
  | succ m ih =>
    refine (ih (by omega)).trans (.single (l := .adds i) ?_)
    simp [throttleStep, setSlot, Nat.lt_of_succ_le hm, Nat.add_assoc]

/-- Attempts whose barrier has counted few enough jobs can all add as many as they want,
whatever the queue has by then. -/
theorem reaches_overflown (s : ThrottledSystem ι) (slots : Finset ι) {count : ℕ}
    (hfew : count < config.barrier.maxQueueJobsInclusive)
    (hcounted : ∀ i ∈ slots, s.slots i = some { throttledQueueJobCount := some count }) :
    ∃ t, Reaches (throttleStep config) s t ∧
      t.jobCount = s.jobCount + slots.card * config.jobsPerAttempt ∧
      ∀ j ∉ slots, t.slots j = s.slots j := by
  induction slots using Finset.induction_on with
  | empty => exact ⟨s, .refl s, by simp, fun _ _ => rfl⟩
  | insert i slots hi ih =>
    obtain ⟨t, hreaches, hjobs, hothers⟩ :=
      ih fun j hj => hcounted j (Finset.mem_insert_of_mem hj)
    have hattempt := (hothers i hi).trans (hcounted i (Finset.mem_insert_self ..))
    have hpasses : Reaches (throttleStep config) t
        (t.setSlot i (some ⟨.processing, some count, 0⟩)) := by
      refine .single (l := .settles i (.barrierSettled i (.ok .passing))) ?_
      simp [throttleStep, hattempt, AttemptEvent.job, Settles, settleStage,
        createJobQueueSizeThrottlingBarrier, hfew]
    have hadds := reaches_added (t.setSlot i (some ⟨.processing, some count, 0⟩))
      (slots_setSlot_self ..) (le_refl config.jobsPerAttempt)
    refine ⟨_, (hreaches.trans hpasses).trans hadds, ?_, ?_⟩
    · rw [Finset.card_insert_of_notMem hi, Nat.succ_mul, ← Nat.add_assoc, ← hjobs]
      rfl
    · intro j hj
      rw [Finset.mem_insert, not_or] at hj
      rw [setSlot_setSlot, slots_setSlot_of_ne _ _ hj.1]
      exact hothers j hj.2

variable [Fintype ι]

variable (ι config) in
/-- The slots can overflow the throttled queue together. -/
theorem reaches_mostJobs : ∃ s : ThrottledSystem ι, Reaches (throttleStep config) (idle 0) s ∧
    s.jobCount = mostJobs config (Fintype.card ι) := by
  rw [mostJobs]
  split
  · exact ⟨idle 0, .refl _, rfl⟩
  · next hsome =>
    rw [not_or] at hsome
    obtain ⟨hcard, hjobs⟩ := mul_ne_zero_iff.1 hsome.2
    obtain ⟨i⟩ := Fintype.card_pos_iff.1 (Nat.pos_of_ne_zero hcard)
    -- The queue fills up to one job less than the maximum, and all slots count it then.
    have hfills := reaches_full config i
      (Nat.sub_le config.barrier.maxQueueJobsInclusive 1) (Nat.pos_of_ne_zero hjobs)
    obtain ⟨t, hcounts, hcount, hcounted, -⟩ := reaches_counted config
      (idle (config.barrier.maxQueueJobsInclusive - 1) : ThrottledSystem ι) Finset.univ
      fun _ _ => rfl
    obtain ⟨u, hadds, hadded, -⟩ := reaches_overflown t Finset.univ
      (Nat.sub_lt (Nat.pos_of_ne_zero hsome.1) Nat.one_pos) hcounted
    refine ⟨u, (hfills.trans hcounts).trans hadds, ?_⟩
    rw [hadded, hcount, Finset.card_univ]
    rfl

/-- **The throttled queue can have any number of unfinished jobs up to its maximum less one
and what all slots add at a time, and no more.** -/
theorem jobCount_exact (n : ℕ) :
    (∃ ls s, run (throttleStep config) (idle 0 : ThrottledSystem ι) ls = some s ∧
        s.jobCount = n) ↔
      n ≤ mostJobs config (Fintype.card ι) := by
  constructor
  · rintro ⟨ls, s, hrun, rfl⟩
    exact bounded_run hrun
  · intro hn
    obtain ⟨s, hreaches, hjobs⟩ := reaches_mostJobs ι config
    obtain ⟨ls, hrun⟩ := hreaches.trans (reaches_finished s (hn.trans_eq hjobs.symm))
    exact ⟨ls, _, hrun, rfl⟩

/-- One slot that adds one job at a time keeps to the maximum, ten slots do not. -/
example : mostJobs ⟨⟨2000, 5⟩, 1⟩ 1 = 5 ∧ mostJobs ⟨⟨2000, 5⟩, 1⟩ 10 = 14 := by
  decide

end SharedTsLibs.BackgroundJobs
