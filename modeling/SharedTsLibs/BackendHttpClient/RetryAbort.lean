import SharedTsLibs.BackendHttpClient.RetryRuns

/-!
# Aborting the retry loop

Once the caller's signal has fired, no further call of the request function is expected.  An
attempt that throws is rethrown then, and a delay rejects; what is left is the disposal of a
body on its own.

* `NeverCallsAborted` — no attempt started after the signal had fired.
* `seesAbort` — the signal does not fire while only a disposal is waited for, and after it has
  fired no response comes that leads to such a disposal.
* `neverCallsAborted_run` — no attempt starts after the signal in a run of such steps.
* `calls_of_not_seesAbort` — after any other step, the end of the disposal starts one.
-/

namespace SharedTsLibs.BackendHttpClient

open StepSystem

section

variable (readers : TextReaders) (config : ResolvedRetryConfig)

/-- For each call of the request function, whether the signal had fired before it. -/
def RetryState.calls (s : RetryState) : List Bool :=
  s.earlier.map Attempt.startedAborted ++ [s.current.startedAborted]

/-- No call was started after the signal had fired. -/
def NeverCallsAborted (s : RetryState) : Prop := true ∉ s.calls

/-- The step leaves the firing of the signal to be noticed. -/
def seesAbort (s : RetryState) : Label → Bool
  | .abort =>
    match s.phase with
    | .discarding true false => false
    | _ => true
  | .answers answer =>
    !(s.aborted && answer.outcome.isResponse && answer.outcome.retryable config &&
      !isLastAttempt config s.earlier.length &&
      !decide (0 < answer.delay readers config (s.earlier.length + 1)))
  | .dumped | .dumpRejects | .slept => true

/-- No call was started after the signal, and after it the loop waits for an attempt or has
been left. -/
structure AbortInvariant (s : RetryState) : Prop where
  calls : NeverCallsAborted s
  phase : s.aborted = true → s.phase = .attempting ∨ ∃ settlement, s.phase = .settled settlement
  awaits : s.phase ≠ .discarding false false

variable {readers config} {s s' : RetryState} {answer : Answer} {delay : JsNumber}

theorem calls_continue : s.continue.calls = s.calls ++ [s.aborted] := by
  simp [RetryState.calls, RetryState.continue, Attempt.start]

/-- Going around before the signal has fired. -/
theorem continue_abortInvariant (hcalls : NeverCallsAborted s) (haborted : s.aborted = false) :
    AbortInvariant s.continue := by
  refine ⟨?_, fun _ => .inl rfl, by simp [RetryState.continue]⟩
  rw [NeverCallsAborted, calls_continue, haborted, List.mem_append, not_or]
  exact ⟨hcalls, by decide⟩

theorem catch_abortInvariant {err : ThrownValue} (hcalls : NeverCallsAborted s) :
    AbortInvariant (s.catch config err delay) := by
  rw [RetryState.catch, refuses_error_eq]
  split_ifs with hstop hpolicy hpositive
  · exact ⟨hcalls, fun _ => .inr ⟨_, rfl⟩, by simp [RetryState.settle]⟩
  · exact ⟨hcalls, fun _ => .inr ⟨_, rfl⟩, by simp [RetryState.settle]⟩
  · have haborted : ¬ s.aborted = true := (not_or.1 (mt Bool.or_eq_true_iff.2 hstop)).2
    exact ⟨hcalls, fun h => absurd h haborted, by simp⟩
  · have haborted : ¬ s.aborted = true := (not_or.1 (mt Bool.or_eq_true_iff.2 hstop)).2
    exact continue_abortInvariant hcalls (eq_false_of_ne_true haborted)

theorem resolve_abortInvariant {response : ResponseData} (hcalls : NeverCallsAborted s)
    (hsees : s.aborted = true → isLastAttempt config s.earlier.length = false →
      response.statusCode ∈ config.statusCodes → 0 < delay) :
    AbortInvariant (s.resolve config response delay) := by
  unfold RetryState.resolve
  dsimp only
  split_ifs with hretry hpositive haborted
  · exact ⟨hcalls, fun _ => .inr ⟨_, rfl⟩, by simp [RetryState.settle]⟩
  · exact ⟨hcalls, fun h => absurd h haborted, by simp⟩
  · obtain ⟨hlast, hstatus⟩ := Bool.and_eq_true_iff.1 hretry
    refine ⟨hcalls, fun h => ?_, by simp⟩
    exact absurd (hsees h (by simpa using hlast) (of_decide_eq_true hstatus)) hpositive
  · exact ⟨hcalls, fun _ => .inr ⟨_, rfl⟩, by simp [RetryState.settle]⟩

/-- **A step that leaves the signal to be noticed starts no call after it.** -/
theorem step_abortInvariant (hinvariant : AbortInvariant s) (l : Label)
    (hsees : seesAbort readers config s l = true) (hstep : step readers config s l = some s') :
    AbortInvariant s' := by
  obtain ⟨hcalls, hphase, hawaits⟩ := hinvariant
  cases retryStepped_of_step hstep with
  | answers answer hp =>
    rw [RetryState.receive]
    cases houtcome : answer.outcome with
    | response response =>
      refine resolve_abortInvariant hcalls fun haborted hlast hstatus => ?_
      change s.aborted = true at haborted
      change isLastAttempt config s.earlier.length = false at hlast
      have hretryable : (Outcome.response response).retryable config = true :=
        decide_eq_true hstatus
      simpa [seesAbort, haborted, hlast, houtcome, hretryable, Outcome.isResponse] using hsees
    | error err => exact catch_abortInvariant hcalls
  | dumpedBeforeDelay hp | sleptBeforeDump hp =>
    have haborted : s.aborted = false := by simpa [hp] using hphase
    exact ⟨hcalls, fun h => absurd h (by simp [haborted]), by simp⟩
  | dumpedLast hp | slept hp | sleptLast hp =>
    have haborted : s.aborted = false := by simpa [hp] using hphase
    exact continue_abortInvariant hcalls haborted
  | dumpRejects | abortsDelay =>
    exact ⟨hcalls, fun _ => .inr ⟨_, rfl⟩, by simp [RetryState.settle]⟩
  | aborts haborted hsleeping hdiscarding =>
    cases hp : s.phase with
    | attempting => exact ⟨hcalls, fun _ => .inl rfl, by simp⟩
    | sleeping => exact absurd hp hsleeping
    | discarding dumpPending sleepPending =>
      rcases dumpPending with _ | _ <;> rcases sleepPending with _ | _
      · exact absurd hp hawaits
      · exact absurd hp (hdiscarding false)
      · simp [seesAbort, hp] at hsees
      · exact absurd hp (hdiscarding true)
    | settled settlement => exact ⟨hcalls, fun _ => .inr ⟨settlement, rfl⟩, by simp⟩

/-! ## The main result -/

theorem start_abortInvariant : AbortInvariant RetryState.start :=
  ⟨by simp [NeverCallsAborted, RetryState.calls, RetryState.start, Attempt.start],
    fun h => absurd h (by decide), by simp [RetryState.start]⟩

theorem abortInvariant_run {ls : List Label}
    (hrun : run (step readers config) RetryState.start ls = some s)
    (hsees : AllSteps (step readers config) (fun s l => seesAbort readers config s l = true)
      RetryState.start ls) : AbortInvariant s :=
  invariant_run (fun _ l _ hinvariant hl hstep => step_abortInvariant hinvariant l hl hstep)
    start_abortInvariant hsees hrun

/-- **In a run that leaves the signal to be noticed, no call of the request function is
started after the signal has fired**, whatever the configuration, the answers and the moment it
fires at. -/
theorem neverCallsAborted_run {ls : List Label}
    (hrun : run (step readers config) RetryState.start ls = some s)
    (hsees : AllSteps (step readers config) (fun s l => seesAbort readers config s l = true)
      RetryState.start ls) : NeverCallsAborted s :=
  (abortInvariant_run hrun hsees).calls

/-- A step that does not leave it to be noticed leads to a disposal awaited on its own, and the
end of the disposal to a call. -/
theorem calls_of_not_seesAbort {l : Label} (hsees : seesAbort readers config s l = false)
    (hstep : step readers config s l = some s') :
    ∃ t, step readers config s' .dumped = some t ∧ ¬ NeverCallsAborted t := by
  have hcall : s'.phase = .discarding true false → s'.aborted = true →
      ∃ t, step readers config s' .dumped = some t ∧ ¬ NeverCallsAborted t := by
    intro hphase haborted
    refine ⟨RetryState.continue { s' with current := { s'.current with dumped := true } },
      by simp only [step, hphase], ?_⟩
    rw [NeverCallsAborted, calls_continue, not_not]
    simp [haborted]
  cases retryStepped_of_step hstep with
  | dumpedBeforeDelay | dumpedLast | dumpRejects | slept | sleptBeforeDump | sleptLast =>
    simp [seesAbort] at hsees
  | abortsDelay haborted hphase =>
    rcases hphase with hp | ⟨_ | _, hp⟩ <;> simp [seesAbort, hp] at hsees
  | aborts haborted hsleeping hdiscarding =>
    have hphase : s.phase = .discarding true false := by
      rcases hp : s.phase with _ | _ | ⟨_ | _, _ | _⟩ | _ <;>
        simp only [seesAbort, hp, reduceCtorEq] at hsees
      rfl
    exact hcall hphase rfl
  | answers answer hp =>
    cases houtcome : answer.outcome with
    | error err => simp [seesAbort, houtcome, Outcome.isResponse] at hsees
    | response response =>
      have hall : s.aborted = true ∧ decide (response.statusCode ∈ config.statusCodes) = true ∧
          isLastAttempt config s.earlier.length = false ∧
          ¬ 0 < answer.delay readers config (s.earlier.length + 1) := by
        simpa [seesAbort, houtcome, Outcome.isResponse, Outcome.retryable, and_assoc] using hsees
      obtain ⟨haborted, hstatus, hlast, hdelay⟩ := hall
      have hreceive : (s.receive readers config answer).phase = .discarding true false ∧
          (s.receive readers config answer).aborted = s.aborted := by
        simp only [RetryState.receive, houtcome, RetryState.resolve, hlast, hstatus, hdelay,
          Bool.not_false, Bool.and_self, if_true, if_false, and_self]
      rw [haborted] at hreceive
      exact hcall hreceive.1 hreceive.2

end

/-! ## Two runs -/

/-- An attempt answered by a server that is not available. -/
def unavailable : Answer := ⟨.response ⟨503, []⟩, 0, 0⟩

/-- The signal that fires in a delay is noticed. -/
theorem abort_in_delay :
    ∃ s, run (step noReaders defaultRetryConfig) RetryState.start
      [.answers unavailable, .dumped, .abort] = some s ∧ NeverCallsAborted s := by
  obtain ⟨s, hrun⟩ := Option.isSome_iff_exists.1
    (by decide +kernel : (run (step noReaders defaultRetryConfig)
      RetryState.start [.answers unavailable, .dumped, .abort]).isSome = true)
  exact ⟨s, hrun, neverCallsAborted_run hrun (by decide +kernel)⟩

/-- When the disposal of a body outlasts the delay, the signal that fires then is not. -/
theorem abort_in_disposal :
    ∃ s, run (step noReaders defaultRetryConfig) RetryState.start
      [.answers unavailable, .slept, .abort, .dumped] = some s ∧ ¬ NeverCallsAborted s := by
  have hcalls : (run (step noReaders defaultRetryConfig) RetryState.start
      [.answers unavailable, .slept, .abort, .dumped]).map RetryState.calls =
        some [false, true] := by decide +kernel
  obtain ⟨s, hrun, hs⟩ := Option.map_eq_some_iff.1 hcalls
  refine ⟨s, hrun, ?_⟩
  rw [NeverCallsAborted, hs]
  decide

end SharedTsLibs.BackendHttpClient
