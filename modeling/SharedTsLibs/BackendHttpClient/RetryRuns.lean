import SharedTsLibs.BackendHttpClient.Retry
import SharedTsLibs.Lib.StepSystem

/-!
# The retry loop as a step system

`withRetry` awaits an attempt, then a delay, or a delay together with the disposal of a
response's body, and the caller's signal may fire at any of these awaits.  One step is the end
of what is awaited, with everything the loop does before it awaits again, or the firing of the
signal.

* `RetryState` — the attempts made, the current one last, and what the loop waits for.
* `step` — what the loop does when it goes on.
* `retryStepped_of_step` — what a step can be; the lemmas about steps are cases of it.
* `RetryInvariant` — every attempt before the current one was retried, as the policy says,
  its body disposed of; the current one is where its phase says.
* `retryInvariant_run` — it holds along every run.
* `answers_run` — the answers of the attempts are those the run has received.
-/

namespace SharedTsLibs.BackendHttpClient

open StepSystem

/-! ## States -/

/-- An attempt: whether the signal had fired when the request function was called, the answer,
the calls of `dump` on its body and whether the body is gone, and the delay asked for. -/
structure Attempt where
  startedAborted : Bool
  answer : Option Answer
  dumps : ℕ
  dumped : Bool
  slept : Option JsNumber

/-- A call of the request function. -/
def Attempt.start (aborted : Bool) : Attempt := ⟨aborted, none, 0, false, none⟩

/-- What a rejection is about: the error of an attempt, the signal in a delay, or the disposal
of a body. -/
inductive RejectReason where
  | attemptError (err : ThrownValue)
  | abortError
  | dumpError

/-- How `withRetry` ends. -/
inductive Settlement where
  | resolved (response : ResponseData)
  | rejected (reason : RejectReason)

/-- What the loop waits for. -/
inductive Phase where
  | attempting
  | sleeping
  | discarding (dumpPending sleepPending : Bool)
  | settled (settlement : Settlement)

/-- The attempts before the current one, the current one, the signal, and the phase. -/
structure RetryState where
  earlier : List Attempt
  current : Attempt
  aborted : Bool
  phase : Phase

/-- All attempts. -/
def RetryState.attempts (s : RetryState) : List Attempt := s.earlier ++ [s.current]

/-- The loop calls the request function for the first time. -/
def RetryState.start : RetryState := ⟨[], Attempt.start false, false, .attempting⟩

/-! ## Steps -/

/-- The end of what is awaited, or the firing of the signal. -/
inductive Label where
  | answers (answer : Answer)
  | dumped
  | dumpRejects
  | slept
  | abort

/-- `isLastAttempt`, before `retryNumber` is increased. -/
def isLastAttempt (config : ResolvedRetryConfig) (retryNumber : ℕ) : Bool :=
  decide (config.maxRetries ≤ .finite retryNumber)

/-- The loop goes around: it calls the request function again. -/
def RetryState.continue (s : RetryState) : RetryState where
  earlier := s.earlier ++ [s.current]
  current := Attempt.start s.aborted
  aborted := s.aborted
  phase := .attempting

/-- The loop is left. -/
def RetryState.settle (s : RetryState) (settlement : Settlement) : RetryState :=
  { s with phase := .settled settlement }

/-- An attempt has thrown. -/
def RetryState.catch (s : RetryState) (config : ResolvedRetryConfig) (err : ThrownValue)
    (delay : JsNumber) : RetryState :=
  if isLastAttempt config s.earlier.length || s.aborted then
    s.settle (.rejected (.attemptError err))
  else if if isTimeout err then !config.retryOnTimeout else !config.retryOnNetworkError then
    s.settle (.rejected (.attemptError err))
  else if 0 < delay then
    { s with current := { s.current with slept := some delay }, phase := .sleeping }
  else s.continue

/-- An attempt has resolved.  A delay that starts after the signal has fired rejects at once. -/
def RetryState.resolve (s : RetryState) (config : ResolvedRetryConfig) (response : ResponseData)
    (delay : JsNumber) : RetryState :=
  if !isLastAttempt config s.earlier.length && decide (response.statusCode ∈ config.statusCodes)
  then
    let s := { s with current := { s.current with dumps := s.current.dumps + 1 } }
    if 0 < delay then
      let s := { s with current := { s.current with slept := some delay } }
      if s.aborted then s.settle (.rejected .abortError)
      else { s with phase := .discarding true true }
    else { s with phase := .discarding true false }
  else s.settle (.resolved response)

/-- The current attempt has its answer. -/
def RetryState.receive (readers : TextReaders) (config : ResolvedRetryConfig) (s : RetryState)
    (answer : Answer) : RetryState :=
  let delay := answer.delay readers config (s.earlier.length + 1)
  let s := { s with current := { s.current with answer := some answer } }
  match answer.outcome with
  | .error err => s.catch config err delay
  | .response response => s.resolve config response delay

/-- The step a label stands for. -/
def step (readers : TextReaders) (config : ResolvedRetryConfig) (s : RetryState) :
    Label → Option RetryState
  | .answers answer =>
    match s.phase with
    | .attempting => some (s.receive readers config answer)
    | _ => none
  | .dumped =>
    let s' := { s with current := { s.current with dumped := true } }
    match s.phase with
    | .discarding true true => some { s' with phase := .discarding false true }
    | .discarding true false => some s'.continue
    | _ => none
  | .dumpRejects =>
    match s.phase with
    | .discarding true _ => some (s.settle (.rejected .dumpError))
    | _ => none
  | .slept =>
    match s.phase with
    | .sleeping => some s.continue
    | .discarding true true => some { s with phase := .discarding true false }
    | .discarding false true => some s.continue
    | _ => none
  | .abort =>
    if s.aborted then none
    else
      let s' := { s with aborted := true }
      match s.phase with
      | .sleeping | .discarding _ true => some (s'.settle (.rejected .abortError))
      | _ => some s'

/-- What a step can be: the phase it is taken in, and the state it leads to. -/
inductive RetryStepped (readers : TextReaders) (config : ResolvedRetryConfig) (s : RetryState) :
    Label → RetryState → Prop
  | answers (answer : Answer) (hphase : s.phase = .attempting) :
      RetryStepped readers config s (.answers answer) (s.receive readers config answer)
  | dumpedBeforeDelay (hphase : s.phase = .discarding true true) :
      RetryStepped readers config s .dumped
        { s with current := { s.current with dumped := true }, phase := .discarding false true }
  | dumpedLast (hphase : s.phase = .discarding true false) :
      RetryStepped readers config s .dumped
        (RetryState.continue { s with current := { s.current with dumped := true } })
  | dumpRejects (sleepPending : Bool) (hphase : s.phase = .discarding true sleepPending) :
      RetryStepped readers config s .dumpRejects (s.settle (.rejected .dumpError))
  | slept (hphase : s.phase = .sleeping) :
      RetryStepped readers config s .slept s.continue
  | sleptBeforeDump (hphase : s.phase = .discarding true true) :
      RetryStepped readers config s .slept { s with phase := .discarding true false }
  | sleptLast (hphase : s.phase = .discarding false true) :
      RetryStepped readers config s .slept s.continue
  | abortsDelay (haborted : s.aborted = false)
      (hphase : s.phase = .sleeping ∨ ∃ dumpPending, s.phase = .discarding dumpPending true) :
      RetryStepped readers config s .abort
        (RetryState.settle { s with aborted := true } (.rejected .abortError))
  | aborts (haborted : s.aborted = false) (hsleeping : s.phase ≠ .sleeping)
      (hdiscarding : ∀ dumpPending, s.phase ≠ .discarding dumpPending true) :
      RetryStepped readers config s .abort { s with aborted := true }

/-- Every step is one of these. -/
theorem retryStepped_of_step {readers : TextReaders} {config : ResolvedRetryConfig}
    {s s' : RetryState} {l : Label} (hstep : step readers config s l = some s') :
    RetryStepped readers config s l s' := by
  cases l with
  | answers answer =>
    rcases hp : s.phase with _ | _ | _ | _ <;> simp only [step, hp, reduceCtorEq] at hstep
    cases hstep
    exact .answers answer hp
  | dumped =>
    rcases hp : s.phase with _ | _ | ⟨_ | _, _ | _⟩ | _ <;>
      simp only [step, hp, reduceCtorEq] at hstep
    · cases hstep
      exact .dumpedLast hp
    · cases hstep
      exact .dumpedBeforeDelay hp
  | dumpRejects =>
    rcases hp : s.phase with _ | _ | ⟨_ | _, _⟩ | _ <;>
      simp only [step, hp, reduceCtorEq] at hstep
    cases hstep
    exact .dumpRejects _ hp
  | slept =>
    rcases hp : s.phase with _ | _ | ⟨_ | _, _ | _⟩ | _ <;>
      simp only [step, hp, reduceCtorEq] at hstep
    · cases hstep
      exact .slept hp
    · cases hstep
      exact .sleptLast hp
    · cases hstep
      exact .sleptBeforeDump hp
  | abort =>
    simp only [step] at hstep
    split_ifs at hstep with haborted
    have hnot : s.aborted = false := eq_false_of_ne_true haborted
    rcases hp : s.phase with _ | _ | ⟨_, _ | _⟩ | _ <;> simp only [hp] at hstep
    · cases hstep
      rw [← hp]
      exact .aborts hnot (by simp [hp]) (by simp [hp])
    · cases hstep
      exact .abortsDelay hnot (.inl hp)
    · cases hstep
      rw [← hp]
      exact .aborts hnot (by simp [hp]) (by simp [hp])
    · cases hstep
      exact .abortsDelay hnot (.inr ⟨_, hp⟩)
    · cases hstep
      rw [← hp]
      exact .aborts hnot (by simp [hp]) (by simp [hp])

/-! ## The invariant -/

section

variable (readers : TextReaders) (config : ResolvedRetryConfig)

/-- The outcome is a response. -/
def Outcome.isResponse : Outcome → Bool
  | .response _ => true
  | .error _ => false

/-- The attempt has an answer that the policy retries, it was not the last one, the body of a
response was disposed of once, and the delay asked for is at most the largest one. -/
structure Attempt.Retried (retryNumber : ℕ) (a : Attempt) : Prop where
  notLast : isLastAttempt config retryNumber = false
  answer : ∃ answer, a.answer = some answer ∧ answer.outcome.retryable config = true ∧
    a.dumps = if answer.outcome.isResponse then 1 else 0
  slept : ∀ ms ∈ a.slept, ms ≤ config.maxDelay

/-- The attempt was answered in this way. -/
def Attempt.Answered (a : Attempt) (outcome : Outcome) : Prop :=
  ∃ answer, a.answer = some answer ∧ answer.outcome = outcome

/-- The attempt was answered by a response. -/
def Attempt.HasResponse (a : Attempt) : Prop := ∃ response, a.Answered (.response response)

/-- The current attempt is where the phase says. -/
def PhaseInvariant (s : RetryState) : Phase → Prop
  | .attempting => ∃ aborted, s.current = Attempt.start aborted
  | .sleeping =>
    s.current.Retried config s.earlier.length ∧ (∃ err, s.current.Answered (.error err)) ∧
      s.aborted = false
  | .discarding dumpPending sleepPending =>
    s.current.Retried config s.earlier.length ∧ s.current.HasResponse ∧
      s.current.dumped = !dumpPending ∧ (sleepPending = true → s.aborted = false)
  | .settled (.resolved response) =>
    s.current.Answered (.response response) ∧ s.current.dumps = 0 ∧ s.current.slept = none ∧
      (isLastAttempt config s.earlier.length = true ∨
        (Outcome.response response).retryable config = false)
  | .settled (.rejected (.attemptError err)) =>
    s.current.Answered (.error err) ∧ s.current.dumps = 0 ∧ s.current.slept = none ∧
      (isLastAttempt config s.earlier.length = true ∨ (Outcome.error err).retryable config = false ∨
        s.aborted = true)
  | .settled (.rejected .abortError) =>
    s.current.Retried config s.earlier.length ∧ s.aborted = true
  | .settled (.rejected .dumpError) =>
    s.current.Retried config s.earlier.length ∧ s.current.HasResponse

/-- Every attempt before the current one was retried, the body of its response gone, and the
current one is where its phase says. -/
structure RetryInvariant (s : RetryState) : Prop where
  earlier : ∀ i (a : Attempt), s.earlier[i]? = some a →
    a.Retried config i ∧ (a.HasResponse → a.dumped = true)
  phase : PhaseInvariant config s s.phase

/-! ## The invariant along a run -/

variable {readers config} {s s' : RetryState} {answer : Answer} {delay : JsNumber}

theorem start_invariant : RetryInvariant config RetryState.start :=
  ⟨fun i a ha => by simp [RetryState.start] at ha, false, rfl⟩

/-- Going around keeps the invariant, when the current attempt is to be retried. -/
theorem continue_invariant
    (hearlier : ∀ i (a : Attempt), s.earlier[i]? = some a →
      a.Retried config i ∧ (a.HasResponse → a.dumped = true))
    (hcurrent : s.current.Retried config s.earlier.length)
    (hdumped : s.current.HasResponse → s.current.dumped = true) :
    RetryInvariant config s.continue := by
  refine ⟨fun i a ha => ?_, s.aborted, rfl⟩
  change (s.earlier ++ [s.current])[i]? = some a at ha
  rcases Nat.lt_or_ge i s.earlier.length with hlt | hge
  · rw [List.getElem?_append_left hlt] at ha
    exact hearlier i a ha
  · rw [List.getElem?_append_right hge, List.getElem?_singleton] at ha
    obtain ⟨hi, rfl⟩ : i - s.earlier.length = 0 ∧ s.current = a := by
      simpa using ha
    have hlength : i = s.earlier.length := by omega
    rw [hlength]
    exact ⟨hcurrent, hdumped⟩

theorem answered_error_not_hasResponse {a : Attempt} {err : ThrownValue}
    (h : a.Answered (.error err)) : ¬ a.HasResponse := by
  obtain ⟨answer, hanswer, houtcome⟩ := h
  rintro ⟨response, answer', hanswer', houtcome'⟩
  cases hanswer.symm.trans hanswer'
  cases houtcome.symm.trans houtcome'

/-- The error branch refuses what the policy does not retry. -/
theorem refuses_error_eq (err : ThrownValue) :
    (if isTimeout err then !config.retryOnTimeout else !config.retryOnNetworkError) =
      !(Outcome.error err).retryable config := by
  show _ = !(if isTimeout err then config.retryOnTimeout else config.retryOnNetworkError)
  cases isTimeout err <;> rfl

/-- An answer that the policy retries, of an attempt that was not the last one, makes the
attempt one to be retried. -/
theorem retried_of_answer {a : Attempt} {retryNumber : ℕ}
    (hlast : ¬ isLastAttempt config retryNumber = true) (hanswer : a.answer = some answer)
    (hretryable : answer.outcome.retryable config = true)
    (hdumps : a.dumps = if answer.outcome.isResponse then 1 else 0)
    (hslept : ∀ ms ∈ a.slept, ms ≤ config.maxDelay) : a.Retried config retryNumber :=
  ⟨eq_false_of_ne_true hlast, ⟨answer, hanswer, hretryable, hdumps⟩, hslept⟩

theorem catch_invariant {err : ThrownValue}
    (hearlier : ∀ i (a : Attempt), s.earlier[i]? = some a →
      a.Retried config i ∧ (a.HasResponse → a.dumped = true))
    (hanswer : s.current.answer = some answer) (houtcome : answer.outcome = .error err)
    (hdumps : s.current.dumps = 0) (hslept : s.current.slept = none)
    (hdelay : 0 < delay → delay ≤ config.maxDelay) :
    RetryInvariant config (s.catch config err delay) := by
  have hanswered : s.current.Answered (.error err) := ⟨answer, hanswer, houtcome⟩
  have hcount : s.current.dumps = if answer.outcome.isResponse then 1 else 0 := by
    rw [hdumps, houtcome]
    rfl
  rw [RetryState.catch, refuses_error_eq, ← houtcome]
  split_ifs with hstop hpolicy hpositive
  · refine ⟨hearlier, hanswered, hdumps, hslept, ?_⟩
    exact (Bool.or_eq_true_iff.1 hstop).imp_right Or.inr
  · refine ⟨hearlier, hanswered, hdumps, hslept, .inr (.inl ?_)⟩
    rw [← houtcome]
    simpa using hpolicy
  · have hnot := not_or.1 (mt Bool.or_eq_true_iff.2 hstop)
    refine ⟨hearlier, retried_of_answer hnot.1 hanswer (by simpa using hpolicy) hcount ?_,
      ⟨err, hanswered⟩, eq_false_of_ne_true hnot.2⟩
    intro ms hms
    cases hms
    exact hdelay hpositive
  · have hnot := not_or.1 (mt Bool.or_eq_true_iff.2 hstop)
    refine continue_invariant hearlier
      (retried_of_answer hnot.1 hanswer (by simpa using hpolicy) hcount ?_) ?_
    · rw [hslept]
      exact nofun
    · exact fun h => absurd h (answered_error_not_hasResponse hanswered)

theorem resolve_invariant {response : ResponseData}
    (hearlier : ∀ i (a : Attempt), s.earlier[i]? = some a →
      a.Retried config i ∧ (a.HasResponse → a.dumped = true))
    (hanswer : s.current.answer = some answer) (houtcome : answer.outcome = .response response)
    (hdumps : s.current.dumps = 0) (hslept : s.current.slept = none)
    (hdumped : s.current.dumped = false) (hdelay : 0 < delay → delay ≤ config.maxDelay) :
    RetryInvariant config (s.resolve config response delay) := by
  have hstatus : answer.outcome.retryable config =
      decide (response.statusCode ∈ config.statusCodes) := by
    rw [houtcome]
    rfl
  rw [RetryState.resolve, ← hstatus]
  have hcount : s.current.dumps + 1 = if answer.outcome.isResponse then 1 else 0 := by
    rw [hdumps, houtcome]
    rfl
  have hmax : 0 < delay → ∀ ms ∈ some delay, ms ≤ config.maxDelay := by
    intro hpositive ms hms
    cases hms
    exact hdelay hpositive
  dsimp only
  split_ifs with hretry hpositive haborted
  · obtain ⟨hlast, hretryable⟩ := Bool.and_eq_true_iff.1 hretry
    have hnot : ¬ isLastAttempt config s.earlier.length = true := by simpa using hlast
    exact ⟨hearlier, retried_of_answer hnot hanswer hretryable hcount (hmax hpositive), haborted⟩
  · obtain ⟨hlast, hretryable⟩ := Bool.and_eq_true_iff.1 hretry
    have hnot : ¬ isLastAttempt config s.earlier.length = true := by simpa using hlast
    exact ⟨hearlier, retried_of_answer hnot hanswer hretryable hcount (hmax hpositive),
      ⟨response, answer, hanswer, houtcome⟩, hdumped, fun _ => eq_false_of_ne_true haborted⟩
  · obtain ⟨hlast, hretryable⟩ := Bool.and_eq_true_iff.1 hretry
    have hnot : ¬ isLastAttempt config s.earlier.length = true := by simpa using hlast
    refine ⟨hearlier, retried_of_answer hnot hanswer hretryable hcount ?_,
      ⟨response, answer, hanswer, houtcome⟩, hdumped, nofun⟩
    show ∀ ms ∈ s.current.slept, ms ≤ config.maxDelay
    rw [hslept]
    exact nofun
  · refine ⟨hearlier, ⟨answer, hanswer, houtcome⟩, hdumps, hslept, ?_⟩
    rw [← houtcome]
    rcases Bool.eq_false_or_eq_true (isLastAttempt config s.earlier.length) with hlast | hlast
    · exact .inl hlast
    · rw [hlast] at hretry
      exact .inr (by simpa using hretry)

theorem receive_invariant (hinvariant : RetryInvariant config s) {aborted : Bool}
    (hcurrent : s.current = Attempt.start aborted) :
    RetryInvariant config (s.receive readers config answer) := by
  have hdelay : 0 < answer.delay readers config (s.earlier.length + 1) →
      answer.delay readers config (s.earlier.length + 1) ≤ config.maxDelay := Answer.delay_le
  unfold RetryState.receive
  cases houtcome : answer.outcome with
  | response response =>
    exact resolve_invariant hinvariant.earlier rfl houtcome (by simp [hcurrent, Attempt.start])
      (by simp [hcurrent, Attempt.start]) (by simp [hcurrent, Attempt.start]) hdelay
  | error err =>
    exact catch_invariant hinvariant.earlier rfl houtcome (by simp [hcurrent, Attempt.start])
      (by simp [hcurrent, Attempt.start]) hdelay

/-- What the invariant says in a phase. -/
theorem RetryInvariant.at {phase : Phase} (hinvariant : RetryInvariant config s)
    (hp : s.phase = phase) : PhaseInvariant config s phase := hp ▸ hinvariant.phase

/-- When a delay is cut short, the attempt was one to be retried. -/
theorem RetryInvariant.retried (hinvariant : RetryInvariant config s)
    (hphase : s.phase = .sleeping ∨ ∃ dumpPending, s.phase = .discarding dumpPending true) :
    s.current.Retried config s.earlier.length := by
  rcases hphase with hp | ⟨dumpPending, hp⟩
  · exact (hinvariant.at hp).1
  · exact (hinvariant.at hp).1

/-- The firing of the signal keeps the invariant, when no delay is awaited. -/
theorem abort_invariant (hinvariant : RetryInvariant config s) (hsleeping : s.phase ≠ .sleeping)
    (hdiscarding : ∀ dumpPending, s.phase ≠ .discarding dumpPending true) :
    RetryInvariant config { s with aborted := true } := by
  refine ⟨hinvariant.earlier, ?_⟩
  show PhaseInvariant config { s with aborted := true } s.phase
  cases hp : s.phase with
  | attempting => exact hinvariant.at hp
  | sleeping => exact absurd hp hsleeping
  | discarding dumpPending sleepPending =>
    obtain ⟨hretried, hresponse, hdumped, -⟩ := hinvariant.at hp
    refine ⟨hretried, hresponse, hdumped, ?_⟩
    rintro rfl
    exact absurd hp (hdiscarding dumpPending)
  | settled settlement =>
    have hsettled := hinvariant.at hp
    rcases settlement with response | (err | _ | _)
    · exact hsettled
    · obtain ⟨hanswered, hdumps, hslept, -⟩ := hsettled
      exact ⟨hanswered, hdumps, hslept, .inr (.inr rfl)⟩
    · exact ⟨hsettled.1, rfl⟩
    · exact hsettled

/-- **A step keeps the invariant.** -/
theorem step_invariant (hinvariant : RetryInvariant config s) (l : Label)
    (hstep : step readers config s l = some s') : RetryInvariant config s' := by
  cases retryStepped_of_step hstep with
  | answers answer hp =>
    obtain ⟨aborted, hcurrent⟩ := hinvariant.at hp
    exact receive_invariant hinvariant hcurrent
  | dumpedBeforeDelay hp =>
    obtain ⟨⟨hlast, hanswer, hslept⟩, hresponse, -, haborted⟩ := hinvariant.at hp
    exact ⟨hinvariant.earlier, ⟨hlast, hanswer, hslept⟩, hresponse, rfl, haborted⟩
  | dumpedLast hp =>
    obtain ⟨⟨hlast, hanswer, hslept⟩, hresponse, -, haborted⟩ := hinvariant.at hp
    exact continue_invariant hinvariant.earlier ⟨hlast, hanswer, hslept⟩ fun _ => rfl
  | dumpRejects sleepPending hp =>
    obtain ⟨hretried, hresponse, -⟩ := hinvariant.at hp
    exact ⟨hinvariant.earlier, hretried, hresponse⟩
  | slept hp =>
    obtain ⟨hretried, ⟨err, hanswered⟩, -⟩ := hinvariant.at hp
    exact continue_invariant hinvariant.earlier hretried
      fun h => absurd h (answered_error_not_hasResponse hanswered)
  | sleptBeforeDump hp =>
    obtain ⟨hretried, hresponse, hdumped, -⟩ := hinvariant.at hp
    exact ⟨hinvariant.earlier, hretried, hresponse, hdumped, nofun⟩
  | sleptLast hp =>
    obtain ⟨hretried, hresponse, hdumped, -⟩ := hinvariant.at hp
    exact continue_invariant hinvariant.earlier hretried fun _ => hdumped
  | abortsDelay haborted hphase =>
    exact ⟨hinvariant.earlier, hinvariant.retried hphase, rfl⟩
  | aborts haborted hsleeping hdiscarding =>
    exact abort_invariant hinvariant hsleeping hdiscarding

/-- It holds along every run. -/
theorem retryInvariant_run {ls : List Label}
    (hrun : run (step readers config) RetryState.start ls = some s) : RetryInvariant config s :=
  invariant_run (fun _ l _ hinvariant _ hstep => step_invariant hinvariant l hstep)
    start_invariant (allSteps_true _ _) hrun

/-! ## Answers -/

/-- The answer a label brings. -/
def Label.answer? : Label → Option Answer
  | .answers answer => some answer
  | .dumped | .dumpRejects | .slept | .abort => none

/-- The answers of the attempts. -/
def RetryState.answers (s : RetryState) : List Answer :=
  s.earlier.filterMap Attempt.answer ++ s.current.answer.toList

theorem answers_continue : s.continue.answers = s.answers := by
  show (s.earlier ++ [s.current]).filterMap Attempt.answer ++ [] = s.answers
  rw [List.append_nil, List.filterMap_append, RetryState.answers]
  cases hanswer : s.current.answer <;> simp [hanswer]

theorem catch_answers {err : ThrownValue} : (s.catch config err delay).answers = s.answers := by
  rw [RetryState.catch, refuses_error_eq]
  split_ifs
  · rfl
  · rfl
  · rfl
  · exact answers_continue

theorem resolve_answers {response : ResponseData} :
    (s.resolve config response delay).answers = s.answers := by
  unfold RetryState.resolve
  dsimp only
  split_ifs <;> rfl

theorem receive_answers {aborted : Bool} (hcurrent : s.current = Attempt.start aborted) :
    (s.receive readers config answer).answers = s.answers ++ [answer] := by
  have hanswered : (s.receive readers config answer).answers =
      RetryState.answers { s with current := { s.current with answer := some answer } } := by
    unfold RetryState.receive
    cases houtcome : answer.outcome with
    | response response => exact resolve_answers
    | error err => exact catch_answers
  rw [hanswered]
  simp [RetryState.answers, hcurrent, Attempt.start]

/-- A step brings the answer of its label, and no other. -/
theorem step_answers (hinvariant : RetryInvariant config s) (l : Label)
    (hstep : step readers config s l = some s') :
    s'.answers = s.answers ++ l.answer?.toList := by
  cases retryStepped_of_step hstep with
  | answers answer hp =>
    obtain ⟨aborted, hcurrent⟩ := hinvariant.at hp
    exact receive_answers hcurrent
  | dumpedLast | slept | sleptLast =>
    rw [answers_continue]
    exact (List.append_nil _).symm
  | dumpedBeforeDelay | dumpRejects | sleptBeforeDump | abortsDelay | aborts =>
    exact (List.append_nil _).symm

/-- The answers of the attempts are those the run has received. -/
theorem answers_run {ls : List Label} (hinvariant : RetryInvariant config s)
    (hrun : run (step readers config) s ls = some s') :
    s'.answers = s.answers ++ ls.filterMap Label.answer? := by
  induction ls generalizing s with
  | nil =>
    cases hrun
    exact (List.append_nil _).symm
  | cons l ls ih =>
    obtain ⟨t, ht, hrun'⟩ := run_cons_eq_some.1 hrun
    rw [ih (step_invariant hinvariant l ht) hrun', step_answers hinvariant l ht,
      List.append_assoc]
    cases hl : l.answer? <;> simp [hl]

end

end SharedTsLibs.BackendHttpClient
