import SharedTsLibs.Polling.ExponentialBackoffStrategy
import SharedTsLibs.Lib.StepSystem
import Mathlib.Data.List.Range

/-!
# Polling runs

`execute` awaits a poll or a delay, and between two awaits it runs on its own: it calls hooks,
checks the signal, and starts the next poll or the next delay.  The signal may fire at any
moment, also from within a hook, and a hook may throw.

* `PollingState` — where an execution is, and what it has called so far.
* `step` — the end of a poll or of a delay, the firing of the signal, and the stretch that
  runs on its own.
* `pollingStepped_of_step` — what a step can be; the lemmas about steps are cases of it.
* `Protocol` — what is expected of the calls made.
* `protocol_run` — it holds in every state that an execution reaches.
-/

namespace SharedTsLibs.Polling

open StepSystem

/-! ## States -/

/-- `PollResult`. -/
inductive PollResult (T : Type) where
  | complete (value : T)
  | incomplete

/-- `isComplete`. -/
def PollResult.isComplete {T : Type} : PollResult T → Bool
  | .complete _ => true
  | .incomplete => false

/-- A call of a hook. -/
inductive HookCall where
  | onAttempt (attempt : ℕ) (isComplete : Bool)
  | onWait (attempt : ℕ) (waitMs : JsNumber)
  | onSuccess (totalAttempts : JsNumber)
  | onFailure (cause : PollingFailureCause) (attemptsMade : JsNumber)

/-- What a call of a hook does: it may fire the signal, and it may throw. -/
structure HookEffect (E : Type) where
  aborts : Bool
  throws : Option E

/-- How an execution ends: it returns a value, rejects with a `PollingError`, or passes on what
the poll function or a hook has thrown. -/
inductive Outcome (T E : Type) where
  | returned (value : T)
  | failed (error : PollingError)
  | thrown (err : E)

/-- Where an execution is: about to start, awaiting a poll or resumed with its result, awaiting
a delay or resumed when it is over, or when it has rejected, or at its end. -/
inductive Phase (T E : Type) where
  | starting
  | polling
  | polled (result : PollResult T)
  | waiting
  | waited
  | delayRejected
  | settled (outcome : Outcome T E)

/-- An execution: the number of its current attempt, the signal, the calls of the poll function
with the signal at that moment, those that have resolved with their completeness, and the calls
of the hooks. -/
structure PollingState (T E : Type) where
  attempt : ℕ
  aborted : Bool
  polls : List (ℕ × Bool)
  resolved : List (ℕ × Bool)
  hooked : List HookCall
  phase : Phase T E

variable {T E : Type}

/-- Before the execution starts the signal may have fired. -/
def PollingState.start (aborted : Bool) : PollingState T E := ⟨0, aborted, [], [], [], .starting⟩

def PollingState.settle (s : PollingState T E) (outcome : Outcome T E) : PollingState T E :=
  { s with phase := .settled outcome }

/-! ## Stretches without an await -/

/-- A hook is called, and the execution goes on unless the hook throws.  A hook that is not
given does nothing. -/
def callHook (react : HookCall → HookEffect E) (call : HookCall) (s : PollingState T E)
    (next : PollingState T E → PollingState T E) : PollingState T E :=
  let s := { s with hooked := s.hooked ++ [call], aborted := s.aborted || (react call).aborts }
  match (react call).throws with
  | some err => s.settle (.thrown err)
  | none => next s

/-- The execution fails: `onFailure` is called and the error thrown. -/
def fail (react : HookCall → HookEffect E) (error : PollingError) (s : PollingState T E) :
    PollingState T E :=
  callHook react (.onFailure error.failureCause error.attemptsMade) s
    fun s => s.settle (.failed error)

/-- The error of a cancelled execution. -/
def cancelledError (runtime : JsRuntime) (attemptsMade : JsNumber) : PollingError where
  message := "Polling cancelled after " ++ runtime.numberToString attemptsMade ++ " attempts"
  failureCause := .CANCELLED
  attemptsMade := attemptsMade

/-- The error of an execution that has used up its attempts. -/
def timeoutError (runtime : JsRuntime) (maxAttempts : JsNumber) : PollingError where
  message := "Polling timeout after " ++ runtime.numberToString maxAttempts ++ " attempts"
  failureCause := .TIMEOUT
  attemptsMade := maxAttempts

/-- `checkAborted`. -/
def checkAborted (runtime : JsRuntime) (react : HookCall → HookEffect E) (attemptsMade : ℕ)
    (s : PollingState T E) (next : PollingState T E → PollingState T E) : PollingState T E :=
  if s.aborted then fail react (cancelledError runtime (.finite attemptsMade)) s else next s

/-- `pollFn(attempt)` is called and awaited. -/
def poll (attempt : ℕ) (s : PollingState T E) : PollingState T E :=
  { s with attempt := attempt, polls := s.polls ++ [(attempt, s.aborted)], phase := .polling }

/-- The head of the loop, and what follows the loop. -/
def enterAttempt (runtime : JsRuntime) (config : ExponentialBackoffConfig)
    (react : HookCall → HookEffect E) (attempt : ℕ) (s : PollingState T E) : PollingState T E :=
  if .finite attempt ≤ config.maxAttempts then
    checkAborted runtime react (attempt - 1) s (poll attempt)
  else fail react (timeoutError runtime config.maxAttempts) s

/-- `delay`: it rejects what is not a non-negative finite number, and when the signal has
fired. -/
def delay (ms : JsNumber) (s : PollingState T E) : PollingState T E :=
  if delayRefuses ms then { s with phase := .delayRejected }
  else if s.aborted then { s with phase := .delayRejected }
  else { s with phase := .waiting }

/-- `waitBeforeRetry`, up to its await. -/
def waitBeforeRetry (rounding : JsNumber.Rounding) (config : ExponentialBackoffConfig)
    (react : HookCall → HookEffect E) (random : RandomSample) (attempt : ℕ)
    (s : PollingState T E) : PollingState T E :=
  let delayMs := calculateDelay rounding config random (attempt - 1)
  callHook react (.onWait attempt delayMs) s (delay delayMs)

/-- The body of the loop after a poll. -/
def afterPoll (runtime : JsRuntime) (rounding : JsNumber.Rounding)
    (config : ExponentialBackoffConfig) (react : HookCall → HookEffect E)
    (random : RandomSample) (result : PollResult T) (s : PollingState T E) : PollingState T E :=
  callHook react (.onAttempt s.attempt result.isComplete) s fun s =>
    match result with
    | .complete value =>
      callHook react (.onSuccess (.finite s.attempt)) s fun s => s.settle (.returned value)
    | .incomplete =>
      if .finite s.attempt < config.maxAttempts then
        waitBeforeRetry rounding config react random s.attempt s
      else enterAttempt runtime config react (s.attempt + 1) s

/-! ## Steps -/

/-- A poll resolves or throws, a timer ends, the signal fires, or the execution goes on, with
what the hooks do then and the random number drawn. -/
inductive Label (T E : Type) where
  | resolves (result : PollResult T)
  | throws (err : E)
  | timer
  | abort
  | resume (react : HookCall → HookEffect E) (random : RandomSample)

/-- The step a label stands for. -/
def step (runtime : JsRuntime) (rounding : JsNumber.Rounding) (config : ExponentialBackoffConfig)
    (s : PollingState T E) : Label T E → Option (PollingState T E)
  | .resolves result =>
    match s.phase with
    | .polling =>
      some { s with
        resolved := s.resolved ++ [(s.attempt, result.isComplete)], phase := .polled result }
    | _ => none
  | .throws err =>
    match s.phase with
    | .polling => some (s.settle (.thrown err))
    | _ => none
  | .timer =>
    match s.phase with
    | .waiting => some { s with phase := .waited }
    | _ => none
  | .abort =>
    if s.aborted then none
    else
      match s.phase with
      | .waiting => some { s with aborted := true, phase := .delayRejected }
      | _ => some { s with aborted := true }
  | .resume react random =>
    match s.phase with
    | .starting =>
      some (checkAborted runtime react 0 s (enterAttempt runtime config react 1))
    | .polled result => some (afterPoll runtime rounding config react random result s)
    | .waited => some (enterAttempt runtime config react (s.attempt + 1) s)
    | .delayRejected => some (fail react (cancelledError runtime (.finite s.attempt)) s)
    | .polling | .waiting | .settled _ => none

/-- What a step can be: the phase it is taken in, and the state it leads to. -/
inductive PollingStepped (runtime : JsRuntime) (rounding : JsNumber.Rounding)
    (config : ExponentialBackoffConfig) (s : PollingState T E) :
    Label T E → PollingState T E → Prop
  | resolves (result : PollResult T) (hphase : s.phase = .polling) :
      PollingStepped runtime rounding config s (.resolves result)
        { s with
          resolved := s.resolved ++ [(s.attempt, result.isComplete)], phase := .polled result }
  | throws (err : E) (hphase : s.phase = .polling) :
      PollingStepped runtime rounding config s (.throws err) (s.settle (.thrown err))
  | timer (hphase : s.phase = .waiting) :
      PollingStepped runtime rounding config s .timer { s with phase := .waited }
  | abortsDelay (hphase : s.phase = .waiting) :
      PollingStepped runtime rounding config s .abort
        { s with aborted := true, phase := .delayRejected }
  | aborts (hphase : s.phase ≠ .waiting) :
      PollingStepped runtime rounding config s .abort { s with aborted := true }
  | starts (react : HookCall → HookEffect E) (random : RandomSample)
      (hphase : s.phase = .starting) :
      PollingStepped runtime rounding config s (.resume react random)
        (checkAborted runtime react 0 s (enterAttempt runtime config react 1))
  | goesOn (react : HookCall → HookEffect E) (random : RandomSample) (result : PollResult T)
      (hphase : s.phase = .polled result) :
      PollingStepped runtime rounding config s (.resume react random)
        (afterPoll runtime rounding config react random result s)
  | retries (react : HookCall → HookEffect E) (random : RandomSample) (hphase : s.phase = .waited) :
      PollingStepped runtime rounding config s (.resume react random)
        (enterAttempt runtime config react (s.attempt + 1) s)
  | cancels (react : HookCall → HookEffect E) (random : RandomSample)
      (hphase : s.phase = .delayRejected) :
      PollingStepped runtime rounding config s (.resume react random)
        (fail react (cancelledError runtime (.finite s.attempt)) s)

/-- Every step is one of these. -/
theorem pollingStepped_of_step {runtime : JsRuntime} {rounding : JsNumber.Rounding}
    {config : ExponentialBackoffConfig} {s s' : PollingState T E} {l : Label T E}
    (hstep : step runtime rounding config s l = some s') :
    PollingStepped runtime rounding config s l s' := by
  cases l with
  | resolves result =>
    cases hp : s.phase <;> simp only [step, hp, reduceCtorEq] at hstep
    cases hstep
    exact .resolves result hp
  | throws err =>
    cases hp : s.phase <;> simp only [step, hp, reduceCtorEq] at hstep
    cases hstep
    exact .throws err hp
  | timer =>
    cases hp : s.phase <;> simp only [step, hp, reduceCtorEq] at hstep
    cases hstep
    exact .timer hp
  | abort =>
    simp only [step] at hstep
    split_ifs at hstep
    cases hp : s.phase <;> simp only [hp] at hstep
    case waiting =>
      cases hstep
      exact .abortsDelay hp
    all_goals
      cases hstep
      rw [← hp]
      exact .aborts (by simp [hp])
  | resume react random =>
    cases hp : s.phase <;> simp only [step, hp, reduceCtorEq] at hstep
    case starting =>
      cases hstep
      exact .starts react random hp
    case polled result =>
      cases hstep
      exact .goesOn react random result hp
    case waited =>
      cases hstep
      exact .retries react random hp
    case delayRejected =>
      cases hstep
      exact .cancels react random hp

/-! ## What is expected -/

/-- The calls of `onAttempt`, with their arguments. -/
def onAttempts (hooked : List HookCall) : List (ℕ × Bool) :=
  hooked.filterMap fun
    | .onAttempt attempt isComplete => some (attempt, isComplete)
    | .onWait .. | .onSuccess .. | .onFailure .. => none

/-- The attempts reported by the calls of `onSuccess` and `onFailure`. -/
def endings (hooked : List HookCall) : List JsNumber :=
  hooked.filterMap fun
    | .onSuccess totalAttempts => some totalAttempts
    | .onFailure _ attemptsMade => some attemptsMade
    | .onAttempt .. | .onWait .. => none

/-- The polls that have resolved while the execution has not gone on. -/
def PollingState.pending (s : PollingState T E) : List (ℕ × Bool) :=
  match s.phase with
  | .polled result => [(s.attempt, result.isComplete)]
  | _ => []

/-- The signal has fired, or `delay` refuses a delay after some attempt. -/
def Cancellable (rounding : JsNumber.Rounding) (config : ExponentialBackoffConfig) (attempt : ℕ)
    (aborted : Bool) : Prop :=
  aborted = true ∨
    ∃ random, delayRefuses (calculateDelay rounding config random (attempt - 1)) = true

/-- The calls an execution has made so far are as expected. -/
structure Protocol (rounding : JsNumber.Rounding) (config : ExponentialBackoffConfig)
    (s : PollingState T E) : Prop where
  /-- The polls are numbered from 1, one after the other. -/
  numbered : s.polls.map Prod.fst = List.range' 1 s.polls.length
  /-- There are at most `maxAttempts` of them. -/
  bounded : .finite s.polls.length ≤ config.maxAttempts
  /-- None was started after the signal had fired. -/
  notAborted : ∀ p ∈ s.polls, p.2 = false
  /-- `onAttempt` was called once for each poll that has resolved, with its number and
  completeness. -/
  attempts : s.resolved = onAttempts s.hooked ++ s.pending
  /-- A poll with a complete result is the last one. -/
  complete : ∀ attempt, (attempt, true) ∈ s.resolved → attempt = s.polls.length
  /-- At most one of `onSuccess` and `onFailure` was called. -/
  atMostOnce : (endings s.hooked).length ≤ 1
  /-- One of them was, when the execution has ended and nothing was thrown. -/
  once : ∀ outcome, s.phase = .settled outcome → (∀ err, outcome ≠ .thrown err) →
    (endings s.hooked).length = 1
  /-- The attempts reported to them are the polls made. -/
  reported : ∀ attempts ∈ endings s.hooked, attempts = .finite s.polls.length
  /-- So are those reported by the error. -/
  error : ∀ error, s.phase = .settled (.failed error) → error.attemptsMade = .finite s.polls.length
  /-- An execution is cancelled only after the signal has fired, or where a delay is refused. -/
  cancelled : ∀ error, s.phase = .settled (.failed error) → error.failureCause = .CANCELLED →
    Cancellable rounding config s.polls.length s.aborted

/-! ## The invariant -/

/-- The first numbers, each with `false`. -/
def numbered (n : ℕ) : List (ℕ × Bool) := (List.range' 1 n).map fun i => (i, false)

theorem numbered_succ (n : ℕ) : numbered (n + 1) = numbered n ++ [(n + 1, false)] := by
  rw [numbered, List.range'_1_concat, List.map_append, numbered, Nat.add_comm 1]
  rfl

theorem length_numbered (n : ℕ) : (numbered n).length = n := by simp [numbered]

theorem not_mem_numbered (n attempt : ℕ) : (attempt, true) ∉ numbered n := by simp [numbered]

/-- Every poll made has resolved and was incomplete, `onAttempt` was called for each, and the
execution has not ended. -/
structure Between (s : PollingState T E) : Prop where
  resolved : s.resolved = numbered s.attempt
  onAttempts : onAttempts s.hooked = s.resolved
  endings : endings s.hooked = []

/-- The execution has ended. -/
structure Ended (rounding : JsNumber.Rounding) (config : ExponentialBackoffConfig)
    (s : PollingState T E) (outcome : Outcome T E) : Prop where
  onAttempts : onAttempts s.hooked = s.resolved
  complete : ∀ attempt, (attempt, true) ∈ s.resolved → attempt = s.attempt
  atMostOnce : (endings s.hooked).length ≤ 1
  once : (∀ err, outcome ≠ .thrown err) → (endings s.hooked).length = 1
  reported : ∀ attempts ∈ endings s.hooked, attempts = .finite s.attempt
  error : ∀ error, outcome = .failed error → error.attemptsMade = .finite s.attempt ∧
    (error.failureCause = .CANCELLED → Cancellable rounding config s.attempt s.aborted)

/-- What holds in each phase. -/
def PhaseInvariant (rounding : JsNumber.Rounding) (config : ExponentialBackoffConfig)
    (s : PollingState T E) : Phase T E → Prop
  | .starting => Between s ∧ s.attempt = 0
  | .polling =>
    ∃ k, s.attempt = k + 1 ∧ s.resolved = numbered k ∧ onAttempts s.hooked = s.resolved ∧
      endings s.hooked = []
  | .polled result =>
    ∃ k, s.attempt = k + 1 ∧ s.resolved = numbered k ++ [(k + 1, result.isComplete)] ∧
      onAttempts s.hooked = numbered k ∧ endings s.hooked = []
  | .waiting | .waited => Between s ∧ .finite s.attempt < config.maxAttempts
  | .delayRejected => Between s ∧ Cancellable rounding config s.attempt s.aborted
  | .settled outcome => Ended rounding config s outcome

/-- The polls are numbered, none was started after the signal, and the rest is as the phase
says. -/
structure PollInvariant (rounding : JsNumber.Rounding) (config : ExponentialBackoffConfig)
    (s : PollingState T E) : Prop where
  polls : s.polls = numbered s.attempt
  bounded : .finite s.attempt ≤ config.maxAttempts
  phase : PhaseInvariant rounding config s s.phase

/-! ## A stretch keeps the invariant -/

section

variable {config : ExponentialBackoffConfig} {runtime : JsRuntime} {rounding : JsNumber.Rounding}
  {react : HookCall → HookEffect E} {s s' : PollingState T E}

/-- A hook that is called throws, or the execution goes on; it may have fired the signal. -/
theorem callHook_cases {P : PollingState T E → Prop} (call : HookCall)
    (next : PollingState T E → PollingState T E)
    (hthrown : ∀ err aborted, P { s with
      hooked := s.hooked ++ [call], aborted := aborted, phase := .settled (.thrown err) })
    (hnext : ∀ aborted, (s.aborted = true → aborted = true) →
      P (next { s with hooked := s.hooked ++ [call], aborted := aborted })) :
    P (callHook react call s next) := by
  unfold callHook
  dsimp only
  cases hthrows : (react call).throws with
  | some err => exact hthrown err _
  | none => exact hnext _ fun h => by rw [h, Bool.true_or]

theorem between_complete (hresolved : s.resolved = numbered s.attempt) (attempt : ℕ)
    (h : (attempt, true) ∈ s.resolved) : attempt = s.attempt := by
  rw [hresolved] at h
  exact absurd h (not_mem_numbered _ _)

theorem onAttempts_append (hooked : List HookCall) (call : HookCall) :
    onAttempts (hooked ++ [call]) = onAttempts hooked ++ onAttempts [call] :=
  List.filterMap_append

theorem endings_append (hooked : List HookCall) (call : HookCall) :
    endings (hooked ++ [call]) = endings hooked ++ endings [call] :=
  List.filterMap_append

/-- An execution that has called one of `onSuccess` and `onFailure`, with the right number of
attempts, has ended properly. -/
theorem ended_of_endings {outcome : Outcome T E} (hon : onAttempts s.hooked = s.resolved)
    (hcomplete : ∀ attempt, (attempt, true) ∈ s.resolved → attempt = s.attempt)
    (hendings : endings s.hooked = [.finite s.attempt])
    (herror : ∀ error, outcome = .failed error → error.attemptsMade = .finite s.attempt ∧
      (error.failureCause = .CANCELLED → Cancellable rounding config s.attempt s.aborted)) :
    Ended rounding config s outcome := by
  refine ⟨hon, hcomplete, ?_, fun _ => ?_, ?_, herror⟩
  · rw [hendings, List.length_singleton]
  · rw [hendings, List.length_singleton]
  · rw [hendings]
    intro attempts h
    exact List.mem_singleton.1 h

/-- So has one that passes on what was thrown before it called any of them. -/
theorem ended_of_thrown {err : E} (hon : onAttempts s.hooked = s.resolved)
    (hcomplete : ∀ attempt, (attempt, true) ∈ s.resolved → attempt = s.attempt)
    (hendings : endings s.hooked = []) : Ended rounding config s (.thrown err) := by
  refine ⟨hon, hcomplete, ?_, fun h => absurd rfl (h err), ?_, nofun⟩
  · rw [hendings]
    exact Nat.zero_le 1
  · rw [hendings]
    exact nofun

/-- An execution that fails between two polls reports the polls made. -/
theorem fail_invariant {error : PollingError} (hpolls : s.polls = numbered s.attempt)
    (hbounded : .finite s.attempt ≤ config.maxAttempts) (hbetween : Between s)
    (hattempts : error.attemptsMade = .finite s.attempt)
    (hcancelled : error.failureCause = .CANCELLED →
      Cancellable rounding config s.attempt s.aborted) :
    PollInvariant rounding config (fail react error s) := by
  obtain ⟨hresolved, honAttempts, hendings⟩ := hbetween
  have hon : onAttempts (s.hooked ++ [.onFailure error.failureCause error.attemptsMade]) =
      s.resolved := by
    rw [onAttempts_append, honAttempts]
    exact List.append_nil _
  have hend : endings (s.hooked ++ [.onFailure error.failureCause error.attemptsMade]) =
      [.finite s.attempt] := by
    rw [endings_append, hendings, hattempts]
    rfl
  have hcomplete := between_complete hresolved
  refine callHook_cases _ _ (fun err aborted => ?_) fun aborted haborted => ?_
  · exact ⟨hpolls, hbounded, ended_of_endings hon hcomplete hend nofun⟩
  · refine ⟨hpolls, hbounded, ended_of_endings hon hcomplete hend fun error' herror => ?_⟩
    cases herror
    exact ⟨hattempts, fun hcause => (hcancelled hcause).imp_left haborted⟩

/-- The next attempt is started, or the execution is cancelled before it or has timed out. -/
theorem enterAttempt_invariant {k : ℕ} (hk : s.attempt = k) (hpolls : s.polls = numbered k)
    (hbounded : .finite k ≤ config.maxAttempts) (hbetween : Between s)
    (hlast : ¬ .finite (k + 1 : ℕ) ≤ config.maxAttempts → config.maxAttempts = .finite k) :
    PollInvariant rounding config (enterAttempt runtime config react (k + 1) s) := by
  subst hk
  unfold enterAttempt checkAborted
  split_ifs with hnext haborted
  · exact fail_invariant hpolls hbounded hbetween rfl fun _ => .inl haborted
  · refine ⟨?_, hnext, s.attempt, rfl, hbetween.resolved, hbetween.onAttempts, hbetween.endings⟩
    show s.polls ++ [(s.attempt + 1, s.aborted)] = numbered (s.attempt + 1)
    rw [hpolls, numbered_succ, eq_false_of_ne_true haborted]
  · refine fail_invariant hpolls hbounded hbetween (hlast hnext) fun hcause => ?_
    cases hcause

/-- A delay is waited for, unless the signal has fired or it is refused. -/
theorem delay_invariant {random : RandomSample} {k : ℕ} (hk : s.attempt = k)
    (hpolls : s.polls = numbered s.attempt) (hbounded : .finite s.attempt ≤ config.maxAttempts)
    (hbetween : Between s) (hlt : .finite s.attempt < config.maxAttempts) :
    PollInvariant rounding config (delay (calculateDelay rounding config random (k - 1)) s) := by
  subst hk
  obtain ⟨hresolved, honAttempts, hendings⟩ := hbetween
  unfold delay
  split_ifs with hrefused haborted
  · exact ⟨hpolls, hbounded, ⟨hresolved, honAttempts, hendings⟩, .inr ⟨random, hrefused⟩⟩
  · exact ⟨hpolls, hbounded, ⟨hresolved, honAttempts, hendings⟩, .inl haborted⟩
  · exact ⟨hpolls, hbounded, ⟨hresolved, honAttempts, hendings⟩, hlt⟩

/-- A delay is started, unless a hook throws. -/
theorem waitBeforeRetry_invariant {random : RandomSample} {k : ℕ}
    (hk : s.attempt = k) (hpolls : s.polls = numbered s.attempt)
    (hbounded : .finite s.attempt ≤ config.maxAttempts) (hbetween : Between s)
    (hlt : .finite s.attempt < config.maxAttempts) :
    PollInvariant rounding config (waitBeforeRetry rounding config react random k s) := by
  subst hk
  obtain ⟨hresolved, honAttempts, hendings⟩ := hbetween
  have hon : ∀ ms, onAttempts (s.hooked ++ [.onWait s.attempt ms]) = s.resolved := by
    intro ms
    rw [onAttempts_append, honAttempts]
    exact List.append_nil _
  have hend : ∀ ms, endings (s.hooked ++ [.onWait s.attempt ms]) = [] := by
    intro ms
    rw [endings_append, hendings]
    rfl
  refine callHook_cases _ _ (fun err aborted => ?_) fun aborted _ => ?_
  · exact ⟨hpolls, hbounded, ended_of_thrown (hon _) (between_complete hresolved) (hend _)⟩
  · exact delay_invariant rfl hpolls hbounded ⟨hresolved, hon _, hend _⟩ hlt

/-- What follows a poll keeps the invariant. -/
theorem afterPoll_invariant {random : RandomSample} {result : PollResult T}
    {k : ℕ} (hattempt : s.attempt = k + 1)
    (hpolls : s.polls = numbered s.attempt) (hbounded : .finite s.attempt ≤ config.maxAttempts)
    (hresolved : s.resolved = numbered k ++ [(k + 1, result.isComplete)])
    (honAttempts : onAttempts s.hooked = numbered k) (hendings : endings s.hooked = []) :
    PollInvariant rounding config (afterPoll runtime rounding config react random result s) := by
  have hon : onAttempts (s.hooked ++ [.onAttempt s.attempt result.isComplete]) = s.resolved := by
    rw [onAttempts_append, honAttempts, hresolved, hattempt]
    rfl
  have hend : endings (s.hooked ++ [.onAttempt s.attempt result.isComplete]) = [] := by
    rw [endings_append, hendings]
    rfl
  have hcomplete : ∀ attempt, (attempt, true) ∈ s.resolved → attempt = s.attempt := by
    intro attempt h
    rw [hresolved, List.mem_append, List.mem_singleton] at h
    rcases h with h | h
    · exact absurd h (not_mem_numbered _ _)
    · rw [hattempt]
      exact congrArg Prod.fst h
  refine callHook_cases _ _ (fun err aborted => ?_) fun aborted haborted => ?_
  · exact ⟨hpolls, hbounded, ended_of_thrown hon hcomplete hend⟩
  · cases result with
    | complete value =>
      have hon' : onAttempts (s.hooked ++ [.onAttempt s.attempt true] ++
          [.onSuccess (.finite s.attempt)]) = s.resolved := by
        rw [onAttempts_append]
        exact (List.append_nil _).trans hon
      have hend' : endings (s.hooked ++ [.onAttempt s.attempt true] ++
          [.onSuccess (.finite s.attempt)]) = [.finite s.attempt] := by
        rw [endings_append]
        exact congrArg (· ++ [JsNumber.finite s.attempt]) hend
      refine callHook_cases _ _ (fun err aborted' => ?_) fun aborted' _ => ?_
      · exact ⟨hpolls, hbounded, ended_of_endings hon' hcomplete hend' nofun⟩
      · exact ⟨hpolls, hbounded, ended_of_endings hon' hcomplete hend' nofun⟩
    | incomplete =>
      have hall : s.resolved = numbered s.attempt := by
        rw [hresolved, hattempt, numbered_succ]
        rfl
      dsimp only
      split_ifs with hlt
      · apply waitBeforeRetry_invariant
        · rfl
        · exact hpolls
        · exact hbounded
        · exact ⟨hall, hon, hend⟩
        · exact hlt
      · apply enterAttempt_invariant
        · rfl
        · exact hpolls
        · exact hbounded
        · exact ⟨hall, hon, hend⟩
        · exact fun _ => JsNumber.eq_of_le_of_not_lt hbounded hlt

/-! ## The invariant along a run -/

theorem start_invariant (hvalid : validateConfig config = none) (aborted : Bool) :
    PollInvariant rounding config (PollingState.start aborted : PollingState T E) := by
  obtain ⟨n, hn, hmax⟩ := exists_maxAttempts_of_valid hvalid
  refine ⟨rfl, ?_, ⟨rfl, rfl, rfl⟩, rfl⟩
  rw [hmax]
  show JsNumber.finite (0 : ℕ) ≤ .finite n
  exact JsNumber.finite_le_finite.2 (by exact_mod_cast Nat.zero_le n)

/-- What the invariant says in a phase. -/
theorem PollInvariant.at {phase : Phase T E} (hinvariant : PollInvariant rounding config s)
    (hp : s.phase = phase) : PhaseInvariant rounding config s phase := hp ▸ hinvariant.phase

/-- The firing of the signal keeps the invariant, when no delay is awaited. -/
theorem abort_invariant (hinvariant : PollInvariant rounding config s)
    (hwaiting : s.phase ≠ .waiting) :
    PollInvariant rounding config { s with aborted := true } := by
  refine ⟨hinvariant.polls, hinvariant.bounded, ?_⟩
  show PhaseInvariant rounding config { s with aborted := true } s.phase
  cases hp : s.phase with
  | starting =>
    obtain ⟨⟨hresolved, honAttempts, hendings⟩, hzero⟩ := hinvariant.at hp
    exact ⟨⟨hresolved, honAttempts, hendings⟩, hzero⟩
  | polling => exact hinvariant.at hp
  | polled result => exact hinvariant.at hp
  | waiting => exact absurd hp hwaiting
  | waited =>
    obtain ⟨⟨hresolved, honAttempts, hendings⟩, hlt⟩ := hinvariant.at hp
    exact ⟨⟨hresolved, honAttempts, hendings⟩, hlt⟩
  | delayRejected =>
    obtain ⟨⟨hresolved, honAttempts, hendings⟩, -⟩ := hinvariant.at hp
    exact ⟨⟨hresolved, honAttempts, hendings⟩, .inl rfl⟩
  | settled outcome =>
    obtain ⟨honAttempts, hcomplete, hatMostOnce, honce, hreported, herror⟩ := hinvariant.at hp
    exact ⟨honAttempts, hcomplete, hatMostOnce, honce, hreported,
      fun error h => ⟨(herror error h).1, fun _ => .inl rfl⟩⟩

/-- **A step keeps the invariant.** -/
theorem step_invariant (hvalid : validateConfig config = none)
    (hinvariant : PollInvariant rounding config s) (l : Label T E)
    (hstep : step runtime rounding config s l = some s') : PollInvariant rounding config s' := by
  have hpolls := hinvariant.polls
  have hbounded := hinvariant.bounded
  cases pollingStepped_of_step hstep with
  | resolves result hp =>
    obtain ⟨k, hattempt, hresolved, honAttempts, hendings⟩ := hinvariant.at hp
    refine ⟨hpolls, hbounded, k, hattempt, ?_, honAttempts.trans hresolved, hendings⟩
    rw [hresolved, hattempt]
  | throws err hp =>
    obtain ⟨k, hattempt, hresolved, honAttempts, hendings⟩ := hinvariant.at hp
    refine ⟨hpolls, hbounded, ended_of_thrown honAttempts (fun attempt h => ?_) hendings⟩
    change (attempt, true) ∈ s.resolved at h
    rw [hresolved] at h
    exact absurd h (not_mem_numbered _ _)
  | timer hp =>
    obtain ⟨⟨hresolved, honAttempts, hendings⟩, hlt⟩ := hinvariant.at hp
    exact ⟨hpolls, hbounded, ⟨hresolved, honAttempts, hendings⟩, hlt⟩
  | abortsDelay hp =>
    obtain ⟨⟨hresolved, honAttempts, hendings⟩, -⟩ := hinvariant.at hp
    exact ⟨hpolls, hbounded, ⟨hresolved, honAttempts, hendings⟩, .inl rfl⟩
  | aborts hp => exact abort_invariant hinvariant hp
  | starts react random hp =>
    obtain ⟨hbetween, hzero⟩ := hinvariant.at hp
    obtain ⟨n, hn, hmax⟩ := exists_maxAttempts_of_valid hvalid
    unfold checkAborted
    split_ifs with haborted
    · exact fail_invariant hpolls hbounded hbetween (by rw [hzero]; rfl) fun _ => .inl haborted
    · refine enterAttempt_invariant hzero (hzero ▸ hpolls) (hzero ▸ hbounded) hbetween ?_
      intro hrefused
      rw [hmax] at hrefused
      exact absurd (JsNumber.finite_le_finite.2 (by exact_mod_cast hn)) hrefused
  | goesOn react random result hp =>
    obtain ⟨k, hattempt, hresolved, honAttempts, hendings⟩ := hinvariant.at hp
    exact afterPoll_invariant hattempt hpolls hbounded hresolved honAttempts hendings
  | retries react random hp =>
    obtain ⟨hbetween, hlt⟩ := hinvariant.at hp
    refine enterAttempt_invariant rfl hpolls hbounded hbetween fun hrefused => ?_
    exact absurd (next_le_maxAttempts hvalid hlt) hrefused
  | cancels react random hp =>
    obtain ⟨hbetween, hcancellable⟩ := hinvariant.at hp
    exact fail_invariant hpolls hbounded hbetween rfl fun _ => hcancellable

/-- What each phase says of the calls made. -/
theorem calls_of_phase (hphase : PhaseInvariant rounding config s s.phase) :
    s.resolved = onAttempts s.hooked ++ s.pending ∧
      (∀ attempt, (attempt, true) ∈ s.resolved → attempt = s.attempt) ∧
      (endings s.hooked).length ≤ 1 ∧
      ∀ attempts ∈ endings s.hooked, attempts = .finite s.attempt := by
  have hnothing : endings s.hooked = [] → (endings s.hooked).length ≤ 1 ∧
      ∀ attempts ∈ endings s.hooked, attempts = .finite s.attempt := by
    intro h
    rw [h]
    exact ⟨Nat.zero_le 1, nofun⟩
  have hbetween : Between s → s.pending = [] → s.resolved = onAttempts s.hooked ++ s.pending ∧
      (∀ attempt, (attempt, true) ∈ s.resolved → attempt = s.attempt) ∧
      (endings s.hooked).length ≤ 1 ∧
      ∀ attempts ∈ endings s.hooked, attempts = .finite s.attempt := by
    intro h hpending
    exact ⟨by rw [h.onAttempts, hpending, List.append_nil], between_complete h.resolved,
      hnothing h.endings⟩
  have hpending : (∀ result, s.phase ≠ .polled result) → s.pending = [] := by
    intro h
    unfold PollingState.pending
    split
    · exact absurd ‹_› (h _)
    · rfl
  cases hp : s.phase <;> rw [hp] at hphase
  case starting => exact hbetween hphase.1 (hpending (by simp [hp]))
  case waiting => exact hbetween hphase.1 (hpending (by simp [hp]))
  case waited => exact hbetween hphase.1 (hpending (by simp [hp]))
  case delayRejected => exact hbetween hphase.1 (hpending (by simp [hp]))
  case polling =>
    obtain ⟨k, hattempt, hresolved, honAttempts, hendings⟩ := hphase
    refine ⟨by rw [honAttempts, hpending (by simp [hp]), List.append_nil], fun attempt h => ?_,
      hnothing hendings⟩
    rw [hresolved] at h
    exact absurd h (not_mem_numbered _ _)
  case polled result =>
    obtain ⟨k, hattempt, hresolved, honAttempts, hendings⟩ := hphase
    refine ⟨by rw [honAttempts, hresolved, PollingState.pending, hp, hattempt], fun attempt h => ?_,
      hnothing hendings⟩
    rw [hresolved, List.mem_append, List.mem_singleton] at h
    rcases h with h | h
    · exact absurd h (not_mem_numbered _ _)
    · rw [hattempt]
      exact congrArg Prod.fst h
  case settled outcome =>
    exact ⟨by rw [hphase.onAttempts, hpending (by simp [hp]), List.append_nil], hphase.complete,
      hphase.atMostOnce, hphase.reported⟩

/-- What the invariant says of a state is what is expected of it. -/
theorem protocol_of_invariant (hinvariant : PollInvariant rounding config s) :
    Protocol rounding config s := by
  obtain ⟨hpolls, hbounded, hphase⟩ := hinvariant
  have hlength : s.polls.length = s.attempt := by rw [hpolls, length_numbered]
  have hended : ∀ outcome, s.phase = .settled outcome → Ended rounding config s outcome := by
    intro outcome hp
    rw [hp] at hphase
    exact hphase
  have hcalls := calls_of_phase hphase
  refine ⟨?numbered, hlength ▸ hbounded, ?notAborted, hcalls.1, hlength ▸ hcalls.2.1, hcalls.2.2.1,
    fun outcome hp => (hended outcome hp).once, hlength ▸ hcalls.2.2.2,
    fun error hp => hlength ▸ ((hended _ hp).error error rfl).1,
    fun error hp => hlength ▸ ((hended _ hp).error error rfl).2⟩
  case numbered =>
    rw [hlength, hpolls, numbered, List.map_map]
    exact List.map_id _
  case notAborted =>
    rw [hpolls]
    intro p hp
    obtain ⟨i, -, rfl⟩ := List.mem_map.1 hp
    rfl

/-! ## Runs in which nothing is thrown -/

/-- Neither the poll function nor a hook throws in the step. -/
def Label.Quiet : Label T E → Prop
  | .throws _ => False
  | .resume react _ => ∀ call, (react call).throws = none
  | .resolves _ | .timer | .abort => True

/-- The execution has not passed on what was thrown. -/
def NotThrown (s : PollingState T E) : Prop := ∀ err, s.phase ≠ .settled (.thrown err)

/-- A hook that does not throw lets the execution go on. -/
theorem callHook_notThrown (hquiet : ∀ call, (react call).throws = none) (call : HookCall)
    (next : PollingState T E → PollingState T E) (hnext : ∀ t, NotThrown (next t)) :
    NotThrown (callHook react call s next) := by
  unfold callHook
  rw [hquiet call]
  exact hnext _

theorem fail_notThrown (hquiet : ∀ call, (react call).throws = none) (error : PollingError)
    (s : PollingState T E) : NotThrown (fail react error s) :=
  callHook_notThrown hquiet _ _ fun _ => nofun

theorem checkAborted_notThrown (hquiet : ∀ call, (react call).throws = none) {attemptsMade : ℕ}
    {next : PollingState T E → PollingState T E} (hnext : ∀ t, NotThrown (next t)) :
    NotThrown (checkAborted runtime react attemptsMade s next) := by
  unfold checkAborted
  split_ifs
  · exact fail_notThrown hquiet _ _
  · exact hnext s

theorem enterAttempt_notThrown (hquiet : ∀ call, (react call).throws = none) (attempt : ℕ)
    (s : PollingState T E) : NotThrown (enterAttempt runtime config react attempt s) := by
  unfold enterAttempt
  split_ifs
  · exact checkAborted_notThrown hquiet fun _ => nofun
  · exact fail_notThrown hquiet _ _

theorem delay_notThrown (ms : JsNumber) (s : PollingState T E) : NotThrown (delay ms s) := by
  unfold delay
  split_ifs <;> exact nofun

theorem afterPoll_notThrown (hquiet : ∀ call, (react call).throws = none) {random : RandomSample}
    {result : PollResult T} :
    NotThrown (afterPoll runtime rounding config react random result s) := by
  refine callHook_notThrown hquiet _ _ fun t => ?_
  cases result with
  | complete value => exact callHook_notThrown hquiet _ _ fun _ => nofun
  | incomplete =>
    dsimp only
    split_ifs
    · exact callHook_notThrown hquiet _ _ fun _ => delay_notThrown _ _
    · exact enterAttempt_notThrown hquiet _ _

theorem step_notThrown (hs : NotThrown s) {l : Label T E} (hquiet : l.Quiet)
    (hstep : step runtime rounding config s l = some s') : NotThrown s' := by
  cases pollingStepped_of_step hstep with
  | throws => exact absurd hquiet not_false
  | resolves | timer | abortsDelay => exact nofun
  | aborts => exact hs
  | starts =>
    exact checkAborted_notThrown hquiet fun t => enterAttempt_notThrown hquiet _ t
  | goesOn => exact afterPoll_notThrown hquiet
  | retries => exact enterAttempt_notThrown hquiet _ _
  | cancels => exact fail_notThrown hquiet _ _

theorem notThrown_run (hs : NotThrown s) {ls : List (Label T E)} (hquiet : ∀ l ∈ ls, l.Quiet)
    (hrun : run (step runtime rounding config) s ls = some s') : NotThrown s' := by
  induction ls generalizing s with
  | nil =>
    cases hrun
    exact hs
  | cons l ls ih =>
    obtain ⟨t, ht, hrun'⟩ := run_cons_eq_some.1 hrun
    exact ih (step_notThrown hs (hquiet l List.mem_cons_self) ht)
      (fun l' hl' => hquiet l' (List.mem_cons_of_mem _ hl')) hrun'

/-! ## The main result -/

/-- Every state that is reached is as expected. -/
theorem protocol_of_run (hvalid : validateConfig config = none) {aborted : Bool}
    {ls : List (Label T E)}
    (hrun : run (step runtime rounding config) (PollingState.start aborted) ls = some s) :
    Protocol rounding config s :=
  protocol_of_invariant
    (invariant_run (fun _ l _ hinvariant _ hstep => step_invariant hvalid hinvariant l hstep)
      (start_invariant hvalid aborted) (allSteps_true _ _) hrun)

end

/-- Hooks that do nothing. -/
def noEffect : HookCall → HookEffect Unit := fun _ => ⟨false, none⟩

/-- The least number that may be drawn. -/
def RandomSample.zero : RandomSample := ⟨0, le_rfl, zero_lt_one⟩

end SharedTsLibs.Polling
