import SharedTsLibs.Polling.PollingRuns

/-!
# Delays that can be waited for

When the delays of a strategy are between zero and `maxDelayMs`, and what follows for its runs.

* `DelayUsable` — the delay after an attempt is not made of zero times infinity.
* `cancelled_only_if_aborted` — an execution with usable delays is cancelled by the signal only.
* `delayUsable_iff_and_runs` — the delays and the runs of a strategy.
-/

namespace SharedTsLibs.Polling

open StepSystem

variable {T E : Type} {rounding : JsNumber.Rounding}

/-- The initial delay is not zero, or the power that it is multiplied by has not overflown. -/
def DelayUsable (rounding : JsNumber.Rounding) (config : ExponentialBackoffConfig)
    (attemptIndex : ℕ) : Prop :=
  config.initialDelayMs ≠ 0 ∨ growth rounding config attemptIndex ≠ .infinity false

/-- The first delay is usable. -/
theorem delayUsable_zero (config : ExponentialBackoffConfig) : DelayUsable rounding config 0 := by
  right
  have hone : growth rounding config 0 = .finite 1 := rounding.round_one
  rw [hone]
  exact nofun

/-- A usable delay is not refused. -/
theorem not_refused_of_delayUsable {config : ExponentialBackoffConfig}
    (hvalid : validateConfig config = none)
    (hmax : config.maxDelayMs.rounded rounding = config.maxDelayMs) {attemptIndex : ℕ}
    (husable : DelayUsable rounding config attemptIndex) (random : RandomSample) :
    delayRefuses (calculateDelay rounding config random attemptIndex) = false := by
  obtain ⟨hnonneg, hle⟩ := (calculateDelay_bounds_iff hvalid hmax random attemptIndex).2 husable
  exact delayRefuses_eq_false hvalid hnonneg hle

/-- An execution whose delays are usable is cancelled only after the signal has fired. -/
theorem cancelled_only_if_aborted {config : ExponentialBackoffConfig} {s : PollingState T E}
    (hvalid : validateConfig config = none)
    (hmax : config.maxDelayMs.rounded rounding = config.maxDelayMs)
    (hprotocol : Protocol rounding config s)
    (husable : ∀ attemptIndex < s.polls.length, DelayUsable rounding config attemptIndex)
    {error : PollingError} (hphase : s.phase = .settled (.failed error))
    (hcause : error.failureCause = .CANCELLED) : s.aborted = true := by
  rcases hprotocol.cancelled error hphase hcause with haborted | ⟨random, hrefused⟩
  · exact haborted
  · have hlast : DelayUsable rounding config (s.polls.length - 1) := by
      rcases Nat.eq_zero_or_pos s.polls.length with hzero | hpos
      · rw [hzero]
        exact delayUsable_zero config
      · exact husable _ (Nat.sub_lt hpos one_pos)
    rw [not_refused_of_delayUsable hvalid hmax hlast] at hrefused
    cases hrefused

/-- **The delays of a strategy, and its runs.**  A delay is between zero and `maxDelayMs` exactly
when it is usable, and an execution whose delays are usable is cancelled only after the signal
has fired. -/
theorem delayUsable_iff_and_runs (strategy : ExponentialBackoffStrategy)
    (hmax : strategy.config.maxDelayMs.rounded rounding = strategy.config.maxDelayMs) :
    (∀ random attemptIndex,
      (0 ≤ calculateDelay rounding strategy.config random attemptIndex ∧
        calculateDelay rounding strategy.config random attemptIndex ≤
          strategy.config.maxDelayMs) ↔
      DelayUsable rounding strategy.config attemptIndex) ∧
    ∀ (runtime : JsRuntime) (aborted : Bool) (ls : List (Label T E)) (s : PollingState T E),
      run (step runtime rounding strategy.config) (PollingState.start aborted) ls = some s →
      (∀ attemptIndex < s.polls.length, DelayUsable rounding strategy.config attemptIndex) →
      ∀ error, s.phase = .settled (.failed error) → error.failureCause = .CANCELLED →
        s.aborted = true := by
  constructor
  · intro random attemptIndex
    exact calculateDelay_bounds_iff strategy.valid hmax random attemptIndex
  · intro runtime aborted ls s hrun husable error hphase hcause
    exact cancelled_only_if_aborted strategy.valid hmax (protocol_of_run strategy.valid hrun)
      husable hphase hcause

/-- A delay of the standard strategy. -/
theorem delayUsable_standard :
    0 ≤ calculateDelay JsNumber.overflowing STANDARD_EXPONENTIAL_BACKOFF_CONFIG .zero 19 ∧
      calculateDelay JsNumber.overflowing STANDARD_EXPONENTIAL_BACKOFF_CONFIG .zero 19 ≤
        15000 := by
  have hmax : STANDARD_EXPONENTIAL_BACKOFF_CONFIG.maxDelayMs.rounded JsNumber.overflowing =
      STANDARD_EXPONENTIAL_BACKOFF_CONFIG.maxDelayMs := by decide +kernel
  exact ((delayUsable_iff_and_runs (T := ℕ) (E := Unit)
    ⟨STANDARD_EXPONENTIAL_BACKOFF_CONFIG, standard_valid⟩ hmax).1 .zero 19).2
    (.inl (by decide +kernel))

/-! ## Zero times infinity -/

/-- Delays of zero with a multiplier whose square is too large. -/
def idleConfig : ExponentialBackoffConfig where
  initialDelayMs := 0
  maxDelayMs := 1000
  backoffMultiplier := .finite (2 ^ 600)
  maxAttempts := 10
  jitterFactor := some 0

/-- The cause that an execution has failed with while the signal has not fired. -/
def unabortedCause (s : PollingState ℕ Unit) : Option PollingFailureCause :=
  match s.phase with
  | .settled (.failed error) => if s.aborted then none else some error.failureCause
  | _ => none

theorem exists_of_unabortedCause {s : PollingState ℕ Unit} {cause : PollingFailureCause}
    (h : unabortedCause s = some cause) :
    s.aborted = false ∧ ∃ error, s.phase = .settled (.failed error) ∧
      error.failureCause = cause := by
  unfold unabortedCause at h
  split at h
  · next error hphase =>
    split at h
    · cases h
    · next haborted =>
      exact ⟨eq_false_of_ne_true haborted, error, hphase, Option.some_inj.1 h⟩
  · cases h

/-- Three polls that are not complete, and no signal. -/
def idleRun : List (Label ℕ Unit) :=
  [.resume noEffect .zero, .resolves .incomplete, .resume noEffect .zero, .timer,
    .resume noEffect .zero, .resolves .incomplete, .resume noEffect .zero, .timer,
    .resume noEffect .zero, .resolves .incomplete, .resume noEffect .zero,
    .resume noEffect .zero]

/-- The third delay is no number, and the execution is cancelled without a signal. -/
theorem idle_cancelled_unaborted :
    validateConfig idleConfig = none ∧
      ¬ 0 ≤ calculateDelay JsNumber.overflowing idleConfig .zero 2 ∧
      ∃ s, run (step JsRuntime.ascii JsNumber.overflowing idleConfig)
          (PollingState.start false) idleRun = some s ∧ s.aborted = false ∧
        ∃ error, s.phase = .settled (.failed error) ∧ error.failureCause = .CANCELLED := by
  have hvalid : (validateConfig idleConfig).isNone = true := by decide +kernel
  have hcause : ((run (step JsRuntime.ascii JsNumber.overflowing idleConfig)
      (PollingState.start false) idleRun).bind unabortedCause) = some .CANCELLED := by
    decide +kernel
  obtain ⟨s, hrun, hs⟩ := Option.bind_eq_some_iff.1 hcause
  exact ⟨Option.isNone_iff_eq_none.1 hvalid, by decide +kernel, s, hrun,
    exists_of_unabortedCause hs⟩

end SharedTsLibs.Polling
