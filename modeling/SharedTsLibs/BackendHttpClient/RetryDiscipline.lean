import SharedTsLibs.BackendHttpClient.RetryRuns
import Mathlib.Tactic.NormNum

/-!
# The discipline of the retry loop

What is expected of a run in which the signal does not fire, for every configuration and
every sequence of answers.

* `LastPermitted` — the attempt is the last one that `maxRetries` permits.
* `Disciplined` — the attempts made are permitted ones, the loop ends as the policy says, and
  every body but that of the response returned is disposed of once, before the next attempt.
* `KeepsCount` — no attempt that `maxRetries` permits, without permitting a whole further one,
  is retried.
* `disciplined_iff` — every run on a sequence of answers is disciplined exactly when the
  sequence keeps the count: a fractional `maxRetries` is rounded up.
-/

namespace SharedTsLibs.BackendHttpClient

open StepSystem

/-! ## What is expected -/

section

variable (readers : TextReaders) (config : ResolvedRetryConfig)

/-- The attempt is permitted, one of the first `maxRetries + 1`, and the next one is not. -/
def LastPermitted (number : ℕ) : Prop :=
  .finite number ≤ config.maxRetries + 1 ∧ ¬ .finite (number + 1 : ℕ) ≤ config.maxRetries + 1

/-- A run without abort has got here as expected. -/
structure Disciplined (s : RetryState) : Prop where
  /-- The request function was called at most `maxRetries + 1` times. -/
  bounded : .finite s.attempts.length ≤ config.maxRetries + 1
  /-- A response returned is one that the policy does not retry, or the last permitted one. -/
  resolves : ∀ response, s.phase = .settled (.resolved response) →
    s.current.Answered (.response response) ∧
      ((Outcome.response response).retryable config = false ∨
        LastPermitted config s.attempts.length)
  /-- An error of an attempt is rethrown exactly when the policy does not retry it, or the
  attempt was the last permitted one. -/
  rejects : ∀ i (a : Attempt) err, s.attempts[i]? = some a → a.Answered (.error err) →
    (s.phase = .settled (.rejected (.attemptError err)) ∧ i + 1 = s.attempts.length ↔
      (Outcome.error err).retryable config = false ∨ LastPermitted config (i + 1))
  /-- An error rethrown is the one of the last attempt. -/
  rethrows : ∀ err, s.phase = .settled (.rejected (.attemptError err)) →
    s.current.Answered (.error err)
  /-- When an attempt starts, the body of every earlier response was disposed of once and is
  gone. -/
  disposed : ∀ a ∈ s.earlier, a.HasResponse → a.dumps = 1 ∧ a.dumped = true
  /-- The body of a response not returned is disposed of once. -/
  disposes : s.current.HasResponse → (∀ response, s.phase ≠ .settled (.resolved response)) →
    s.current.dumps = 1
  /-- The body of the response returned is not. -/
  returned : ∀ response, s.phase = .settled (.resolved response) → s.current.dumps = 0
  /-- No delay is longer than `maxDelay`. -/
  sleeps : ∀ a ∈ s.attempts, ∀ ms ∈ a.slept, ms ≤ config.maxDelay

/-- The attempt is one more than `maxRetries`, but not a whole one more. -/
def Overruns (number : ℕ) : Prop :=
  config.maxRetries < .finite number ∧ .finite number < config.maxRetries + 1

/-- There is no attempt between `maxRetries` and `maxRetries + 1` whose answer, like those
before it, is retried by the policy. -/
def KeepsCount (answers : List Answer) : Prop :=
  ∀ number, Overruns config number → number ≤ answers.length →
    ∃ answer ∈ answers.take number, answer.outcome.retryable config = false

/-! ## Counting attempts -/

variable {config} {number : ℕ}

theorem isLastAttempt_eq_true_iff :
    isLastAttempt config number = true ↔ config.maxRetries ≤ .finite number := decide_eq_true_iff

theorem isLastAttempt_eq_false_iff :
    isLastAttempt config number = false ↔ ¬ config.maxRetries ≤ .finite number :=
  decide_eq_false_iff_not

/-- With finitely many retries, the notions that count attempts are about rational numbers. -/
theorem counts_of_finite {q : ℚ} (hm : config.maxRetries = .finite q) (number : ℕ) :
    (isLastAttempt config number = true ↔ q ≤ number) ∧
      (.finite number ≤ config.maxRetries + 1 ↔ (number : ℚ) ≤ q + 1) ∧
      (Overruns config number ↔ q < number ∧ (number : ℚ) < q + 1) := by
  rw [isLastAttempt_eq_true_iff, Overruns, hm, JsNumber.ofNat_eq_finite,
    JsNumber.finite_add_finite]
  simp

/-- With infinitely many, no attempt is the last one. -/
theorem counts_of_infinity (hm : config.maxRetries = .infinity false) (number : ℕ) :
    isLastAttempt config number = false ∧ .finite number ≤ config.maxRetries + 1 ∧
      ¬ Overruns config number := by
  rw [isLastAttempt_eq_false_iff, Overruns, hm, JsNumber.ofNat_eq_finite,
    JsNumber.infinity_add_finite]
  simp

variable (hretries : 0 ≤ config.maxRetries)
include hretries

/-- An attempt that follows none, or one that was not the last, is permitted, unless the one
before it overruns. -/
theorem permitted_of_not_overruns
    (hprevious : number = 0 ∨ isLastAttempt config (number - 1) = false)
    (h : ¬ Overruns config number) : .finite (number + 1 : ℕ) ≤ config.maxRetries + 1 := by
  rcases JsNumber.eq_finite_or_infinity_of_nonneg hretries with ⟨q, hq, hm⟩ | hm
  · obtain ⟨-, hpermitted, -⟩ := counts_of_finite hm (number + 1)
    obtain ⟨-, -, hoverruns⟩ := counts_of_finite hm number
    rw [hoverruns, not_and] at h
    rw [hpermitted]
    push_cast
    rcases hprevious with rfl | hprevious
    · push_cast
      linarith
    · have hlast := (counts_of_finite hm (number - 1)).1
      rw [← Bool.not_eq_true, hlast, not_le] at hprevious
      rcases lt_or_ge q number with hlt | hge
      · have hpositive : 0 < number := by
          rcases Nat.eq_zero_or_pos number with h0 | hpos
          · subst h0
            push_cast at hlt
            linarith
          · exact hpos
        have hcast : ((number - 1 : ℕ) : ℚ) = number - 1 := by
          rw [Nat.cast_sub hpositive, Nat.cast_one]
        rw [hcast] at hprevious
        exact absurd (by linarith) (h hlt)
      · linarith
  · exact (counts_of_infinity hm (number + 1)).2.1

/-- The loop's last attempt is the last permitted one, if it is permitted. -/
theorem lastPermitted_of_isLastAttempt (hlast : isLastAttempt config number = true)
    (hpermitted : .finite (number + 1 : ℕ) ≤ config.maxRetries + 1) :
    LastPermitted config (number + 1) := by
  refine ⟨hpermitted, ?_⟩
  rcases JsNumber.eq_finite_or_infinity_of_nonneg hretries with ⟨q, -, hm⟩ | hm
  · rw [(counts_of_finite hm number).1] at hlast
    rw [(counts_of_finite hm (number + 1 + 1)).2.1]
    push_cast
    linarith
  · rw [(counts_of_infinity hm number).1] at hlast
    cases hlast

/-- The last permitted attempt is the loop's last one, or it overruns. -/
theorem isLastAttempt_or_overruns (h : LastPermitted config (number + 1)) :
    isLastAttempt config number = true ∨ Overruns config (number + 1) := by
  obtain ⟨hpermitted, hnext⟩ := h
  rcases JsNumber.eq_finite_or_infinity_of_nonneg hretries with ⟨q, -, hm⟩ | hm
  · rw [(counts_of_finite hm (number + 1)).2.1] at hpermitted
    rw [(counts_of_finite hm (number + 1 + 1)).2.1] at hnext
    rw [(counts_of_finite hm number).1, (counts_of_finite hm (number + 1)).2.2]
    push_cast at hpermitted hnext ⊢
    rcases le_or_gt q number with hle | hlt
    · exact .inl hle
    · exact .inr ⟨by linarith, by linarith⟩
  · exact absurd (counts_of_infinity hm (number + 1 + 1)).2.1 hnext

/-- No attempt before one that overruns is the loop's last one. -/
theorem not_isLastAttempt_of_overruns (h : Overruns config number) {k : ℕ} (hk : k < number) :
    isLastAttempt config k = false := by
  rcases JsNumber.eq_finite_or_infinity_of_nonneg hretries with ⟨q, -, hm⟩ | hm
  · rw [(counts_of_finite hm number).2.2] at h
    rw [← Bool.not_eq_true, (counts_of_finite hm k).1, not_le]
    have hcast : (k : ℚ) + 1 ≤ number := by exact_mod_cast hk
    linarith [h.1, h.2]
  · exact (counts_of_infinity hm k).1

/-- The attempt after one that overruns is not permitted. -/
theorem not_permitted_of_overruns (h : Overruns config number) :
    ¬ .finite (number + 1 : ℕ) ≤ config.maxRetries + 1 := by
  rcases JsNumber.eq_finite_or_infinity_of_nonneg hretries with ⟨q, -, hm⟩ | hm
  · rw [(counts_of_finite hm number).2.2] at h
    rw [(counts_of_finite hm (number + 1)).2.1]
    push_cast
    linarith [h.1]
  · exact absurd h (counts_of_infinity hm number).2.2

omit hretries

/-! ## A sequence that keeps the count -/

variable {s : RetryState} {answers : List Answer}

/-- The answers of the attempts before the current one: one each, all retried. -/
theorem earlier_answers (hinvariant : RetryInvariant config s) :
    (s.earlier.filterMap Attempt.answer).length = s.earlier.length ∧
      ∀ answer ∈ s.earlier.filterMap Attempt.answer, answer.outcome.retryable config = true := by
  have hretried : ∀ a ∈ s.earlier, ∃ i, a.Retried config i := by
    intro a ha
    obtain ⟨i, hi⟩ := List.mem_iff_getElem?.1 ha
    exact ⟨i, (hinvariant.earlier i a hi).1⟩
  constructor
  · refine List.filterMap_length_eq_length.2 fun a ha => ?_
    obtain ⟨i, -, ⟨answer, hanswer, -⟩, -⟩ := hretried a ha
    rw [hanswer]
    rfl
  · intro answer hanswer
    obtain ⟨a, ha, haanswer⟩ := List.mem_filterMap.1 hanswer
    obtain ⟨i, -, ⟨answer', hanswer', hretryable, -⟩, -⟩ := hretried a ha
    cases haanswer.symm.trans hanswer'
    exact hretryable

/-- When all of the first answers are retried, the attempt they lead to does not overrun. -/
theorem not_overruns_of_retryable (hkeeps : KeepsCount config answers)
    (hinitial : s.answers <+: answers) (hlength : number ≤ s.answers.length)
    (hretryable : ∀ answer ∈ s.answers.take number, answer.outcome.retryable config = true) :
    ¬ Overruns config number := by
  intro hoverruns
  obtain ⟨rest, rfl⟩ := hinitial
  obtain ⟨answer, hanswer, hrefused⟩ := hkeeps number hoverruns (by simp; omega)
  rw [List.take_append_of_le_length hlength] at hanswer
  rw [hretryable answer hanswer] at hrefused
  cases hrefused

/-- No attempt before the current one overruns. -/
theorem earlier_not_overruns (hinvariant : RetryInvariant config s)
    (hkeeps : KeepsCount config answers) (hinitial : s.answers <+: answers)
    (hnumber : number ≤ s.earlier.length) : ¬ Overruns config number := by
  obtain ⟨hlength, hretryable⟩ := earlier_answers hinvariant
  refine not_overruns_of_retryable hkeeps hinitial ?_ fun answer hanswer => ?_
  · rw [RetryState.answers, List.length_append, hlength]
    omega
  · rw [RetryState.answers, List.take_append_of_le_length (by omega)] at hanswer
    exact hretryable answer (List.mem_of_mem_take hanswer)

/-- Nor does the current one, when it is to be retried. -/
theorem current_not_overruns (hinvariant : RetryInvariant config s)
    (hkeeps : KeepsCount config answers) (hinitial : s.answers <+: answers)
    (hcurrent : s.current.Retried config s.earlier.length) :
    ¬ Overruns config (s.earlier.length + 1) := by
  obtain ⟨hlength, hretryable⟩ := earlier_answers hinvariant
  obtain ⟨-, ⟨answer, hanswer, hcurrentRetryable, -⟩, -⟩ := hcurrent
  have hanswers : s.answers = s.earlier.filterMap Attempt.answer ++ [answer] := by
    rw [RetryState.answers, hanswer]
    rfl
  refine not_overruns_of_retryable hkeeps hinitial ?_ fun answer' hanswer' => ?_
  · rw [hanswers, List.length_append, hlength]
    simp
  · have hmem := List.mem_of_mem_take hanswer'
    rw [hanswers, List.mem_append, List.mem_singleton] at hmem
    rcases hmem with hmem | rfl
    · exact hretryable answer' hmem
    · exact hcurrentRetryable

theorem Attempt.Retried.hasResponse_iff {a : Attempt} (hretried : a.Retried config number) :
    a.HasResponse ↔ a.dumps = 1 := by
  obtain ⟨-, ⟨answer, hanswer, -, hdumps⟩, -⟩ := hretried
  cases houtcome : answer.outcome with
  | response response =>
    rw [houtcome] at hdumps
    exact iff_of_true ⟨response, answer, hanswer, houtcome⟩ hdumps
  | error err =>
    rw [houtcome] at hdumps
    refine iff_of_false (answered_error_not_hasResponse ⟨answer, hanswer, houtcome⟩) ?_
    simp [hdumps, Outcome.isResponse]

/-- An attempt to be retried is not to be rethrown. -/
theorem Attempt.Retried.not_rethrown (hretries : 0 ≤ config.maxRetries) {a : Attempt}
    {err : ThrownValue} (hretried : a.Retried config number) (hanswered : a.Answered (.error err))
    (hoverruns : ¬ Overruns config (number + 1)) :
    ¬ ((Outcome.error err).retryable config = false ∨ LastPermitted config (number + 1)) := by
  obtain ⟨hlast, ⟨answer, hanswer, hretryable, -⟩, -⟩ := hretried
  obtain ⟨answer', hanswer', houtcome⟩ := hanswered
  cases hanswer.symm.trans hanswer'
  rw [← houtcome, hretryable]
  rintro (hrefused | hpermitted)
  · cases hrefused
  · rcases isLastAttempt_or_overruns hretries hpermitted with hlast' | hoverruns'
    · rw [hlast] at hlast'
      cases hlast'
    · exact hoverruns hoverruns'

/-- Whatever the current attempt waits for, the delay it has asked for is at most the largest
one. -/
theorem current_slept (hinvariant : RetryInvariant config s) :
    ∀ ms ∈ s.current.slept, ms ≤ config.maxDelay := by
  have hphase := hinvariant.phase
  have hnone : s.current.slept = none → ∀ ms ∈ s.current.slept, ms ≤ config.maxDelay := by
    intro h
    rw [h]
    exact nofun
  rcases hp : s.phase with _ | _ | _ | (_ | (_ | _ | _)) <;> rw [hp] at hphase
  · obtain ⟨aborted, hcurrent⟩ := hphase
    exact hnone (by rw [hcurrent]; rfl)
  · exact hphase.1.slept
  · exact hphase.1.slept
  · exact hnone hphase.2.2.1
  · exact hnone hphase.2.2.1
  · exact hphase.1.slept
  · exact hphase.1.slept

/-- What the invariant says of the current attempt, when it has thrown and the signal has not
fired: the error is rethrown, or the attempt is to be retried. -/
theorem current_error (hinvariant : RetryInvariant config s) (haborted : s.aborted = false)
    {err : ThrownValue} (hanswered : s.current.Answered (.error err)) :
    (s.phase = .settled (.rejected (.attemptError err)) ∧
        (isLastAttempt config s.earlier.length = true ∨
          (Outcome.error err).retryable config = false)) ∨
      ((∀ err, s.phase ≠ .settled (.rejected (.attemptError err))) ∧
        s.current.Retried config s.earlier.length) := by
  have hphase := hinvariant.phase
  have hresponse := answered_error_not_hasResponse hanswered
  rcases hp : s.phase with _ | _ | _ | (response | (err' | _ | _)) <;> rw [hp] at hphase
  · obtain ⟨aborted, hcurrent⟩ := hphase
    obtain ⟨answer, hanswer, -⟩ := hanswered
    rw [hcurrent] at hanswer
    cases hanswer
  · exact .inr ⟨nofun, hphase.1⟩
  · exact .inr ⟨nofun, hphase.1⟩
  · exact absurd ⟨response, hphase.1⟩ hresponse
  · obtain ⟨⟨answer', hanswer', houtcome'⟩, -, -, hreason⟩ := hphase
    obtain ⟨answer, hanswer, houtcome⟩ := hanswered
    cases hanswer.symm.trans hanswer'
    cases houtcome.symm.trans houtcome'
    rw [haborted] at hreason
    exact .inl ⟨rfl, hreason.imp_right fun h => h.resolve_right Bool.false_ne_true⟩
  · obtain ⟨-, habort⟩ := hphase
    cases haborted.symm.trans habort
  · exact .inr ⟨nofun, hphase.1⟩

/-- What it says when it has a response that is not returned. -/
theorem current_response (hinvariant : RetryInvariant config s)
    (hresponse : s.current.HasResponse)
    (hphase : ∀ response, s.phase ≠ .settled (.resolved response)) :
    s.current.Retried config s.earlier.length := by
  have hinvariantPhase := hinvariant.phase
  rcases hp : s.phase with _ | _ | _ | (response | (err | _ | _)) <;> rw [hp] at hinvariantPhase
  · obtain ⟨aborted, hcurrent⟩ := hinvariantPhase
    obtain ⟨response, answer, hanswer, -⟩ := hresponse
    rw [hcurrent] at hanswer
    cases hanswer
  · exact hinvariantPhase.1
  · exact hinvariantPhase.1
  · exact absurd hp (hphase response)
  · exact absurd hresponse (answered_error_not_hasResponse hinvariantPhase.1)
  · exact hinvariantPhase.1
  · exact hinvariantPhase.1

/-- A state whose answers are the first of a sequence that keeps the count is as expected. -/
theorem disciplined_of_keepsCount (hretries : 0 ≤ config.maxRetries)
    (hinvariant : RetryInvariant config s) (haborted : s.aborted = false)
    (hkeeps : KeepsCount config answers) (hinitial : s.answers <+: answers) :
    Disciplined config s := by
  have hlength : s.attempts.length = s.earlier.length + 1 := by
    simp [RetryState.attempts]
  have hbounded : .finite (s.earlier.length + 1 : ℕ) ≤ config.maxRetries + 1 := by
    refine permitted_of_not_overruns hretries ?_
      (earlier_not_overruns hinvariant hkeeps hinitial (Nat.le_refl _))
    rcases Nat.eq_zero_or_pos s.earlier.length with hzero | hpos
    · exact .inl hzero
    · have hget := List.getElem?_eq_getElem (l := s.earlier) (by omega : s.earlier.length - 1 < _)
      exact .inr (hinvariant.earlier _ _ hget).1.notLast
  have hearlier : ∀ a ∈ s.earlier, ∃ i, s.earlier[i]? = some a :=
    fun a ha => List.mem_iff_getElem?.1 ha
  refine ⟨hlength ▸ hbounded, ?resolves, ?rejects, ?rethrows, ?disposed, ?disposes, ?returned,
    ?sleeps⟩
  case resolves =>
    intro response hp
    obtain ⟨hanswered, -, -, hreason⟩ :
        PhaseInvariant config s (.settled (.resolved response)) := hp ▸ hinvariant.phase
    refine ⟨hanswered, hreason.symm.imp_right fun hlast => ?_⟩
    rw [hlength]
    exact lastPermitted_of_isLastAttempt hretries hlast hbounded
  case rejects =>
    intro i a err ha hanswered
    rw [RetryState.attempts] at ha
    rcases Nat.lt_or_ge i s.earlier.length with hlt | hge
    · -- an attempt before the current one
      rw [List.getElem?_append_left hlt] at ha
      refine iff_of_false (fun h => by omega) ?_
      exact (hinvariant.earlier i a ha).1.not_rethrown hretries hanswered
        (earlier_not_overruns hinvariant hkeeps hinitial hlt)
    · -- the current one
      rw [List.getElem?_append_right hge, List.getElem?_singleton] at ha
      obtain ⟨hi, rfl⟩ : i - s.earlier.length = 0 ∧ s.current = a := by
        simpa using ha
      obtain rfl : i = s.earlier.length := by omega
      rcases current_error hinvariant haborted hanswered with ⟨hp, hreason⟩ | ⟨hp, hretried⟩
      · refine iff_of_true ⟨hp, hlength.symm⟩ (hreason.symm.imp_right fun hlast => ?_)
        exact lastPermitted_of_isLastAttempt hretries hlast hbounded
      · refine iff_of_false (fun h => hp err h.1) ?_
        exact hretried.not_rethrown hretries hanswered
          (current_not_overruns hinvariant hkeeps hinitial hretried)
  case rethrows =>
    intro err hp
    exact (hp ▸ hinvariant.phase :
      PhaseInvariant config s (.settled (.rejected (.attemptError err)))).1
  case disposed =>
    intro a ha hresponse
    obtain ⟨i, hi⟩ := hearlier a ha
    obtain ⟨hretried, hdumped⟩ := hinvariant.earlier i a hi
    exact ⟨hretried.hasResponse_iff.1 hresponse, hdumped hresponse⟩
  case disposes =>
    intro hresponse hp
    exact (current_response hinvariant hresponse hp).hasResponse_iff.1 hresponse
  case returned =>
    intro response hp
    exact (hp ▸ hinvariant.phase :
      PhaseInvariant config s (.settled (.resolved response))).2.1
  case sleeps =>
    intro a ha
    rcases List.mem_append.1 ha with ha | ha
    · obtain ⟨i, hi⟩ := hearlier a ha
      exact (hinvariant.earlier i a hi).1.slept
    · rw [List.mem_singleton.1 ha]
      exact current_slept hinvariant

/-! ## Runs without abort -/

theorem catch_aborted {err : ThrownValue} {delay : JsNumber} :
    (s.catch config err delay).aborted = s.aborted := by
  rw [RetryState.catch, refuses_error_eq]
  split_ifs <;> rfl

theorem resolve_aborted {response : ResponseData} {delay : JsNumber} :
    (s.resolve config response delay).aborted = s.aborted := by
  unfold RetryState.resolve
  dsimp only
  split_ifs <;> rfl

theorem receive_aborted {readers : TextReaders} {answer : Answer} :
    (s.receive readers config answer).aborted = s.aborted := by
  rw [RetryState.receive]
  cases houtcome : answer.outcome with
  | response response => exact resolve_aborted
  | error err => exact catch_aborted

/-- No step but the firing of the signal makes it fire. -/
theorem step_aborted {readers : TextReaders} {s' : RetryState} {l : Label} (hl : l ≠ .abort)
    (hstep : step readers config s l = some s') : s'.aborted = s.aborted := by
  cases retryStepped_of_step hstep with
  | answers => exact receive_aborted
  | dumpedBeforeDelay | dumpedLast | dumpRejects | slept | sleptBeforeDump | sleptLast => rfl
  | abortsDelay | aborts => exact absurd rfl hl

theorem aborted_run {readers : TextReaders} {t : RetryState} {ls : List Label}
    (hls : Label.abort ∉ ls) (hrun : run (step readers config) s ls = some t) :
    t.aborted = s.aborted := by
  induction ls generalizing s with
  | nil =>
    cases hrun
    rfl
  | cons l ls ih =>
    obtain ⟨u, hu, hrun'⟩ := run_cons_eq_some.1 hrun
    rw [List.mem_cons, not_or] at hls
    rw [ih hls.2 hrun', step_aborted (Ne.symm hls.1) hu]

/-! ## A sequence that does not -/

/-- An answer to be retried: the loop waits for a disposal, for a delay or for both, or it
goes around. -/
theorem receive_of_retryable (readers : TextReaders) {answer : Answer}
    (haborted : s.aborted = false) (hlast : isLastAttempt config s.earlier.length = false)
    (hretryable : answer.outcome.retryable config = true) :
    ∃ current, s.receive readers config answer = ⟨s.earlier, current, false, .sleeping⟩ ∨
      (∃ sleepPending, s.receive readers config answer =
        ⟨s.earlier, current, false, .discarding true sleepPending⟩) ∨
      s.receive readers config answer =
        RetryState.continue ⟨s.earlier, current, false, s.phase⟩ := by
  unfold RetryState.receive
  cases houtcome : answer.outcome with
  | response response =>
    have hstatus : decide (response.statusCode ∈ config.statusCodes) = true := by
      rw [houtcome] at hretryable
      exact hretryable
    simp only [RetryState.resolve, hlast, hstatus, haborted, Bool.not_false, Bool.and_self, if_true,
      Bool.false_eq_true, if_false]
    split_ifs
    · exact ⟨_, .inr (.inl ⟨true, rfl⟩)⟩
    · exact ⟨_, .inr (.inl ⟨false, rfl⟩)⟩
  | error err =>
    rw [houtcome] at hretryable
    simp only [RetryState.catch, refuses_error_eq, hlast, hretryable, haborted, Bool.not_true,
      Bool.or_self, Bool.false_eq_true, if_false]
    split_ifs
    · exact ⟨_, .inl rfl⟩
    · exact ⟨_, .inr (.inr rfl)⟩

/-- An attempt whose answer is to be retried leads to the next one. -/
theorem exists_run_of_retryable (readers : TextReaders) {answer : Answer}
    (hphase : s.phase = .attempting) (haborted : s.aborted = false)
    (hlast : isLastAttempt config s.earlier.length = false)
    (hretryable : answer.outcome.retryable config = true) :
    ∃ ls t, Label.abort ∉ ls ∧ ls.filterMap Label.answer? = [answer] ∧
      run (step readers config) s ls = some t ∧ t.phase = .attempting ∧ t.aborted = false ∧
      t.earlier.length = s.earlier.length + 1 := by
  have hfirst : step readers config s (.answers answer) =
      some (s.receive readers config answer) := by
    simp only [step, hphase]
  have hlength : ∀ a, (s.earlier ++ [a]).length = s.earlier.length + 1 := fun a =>
    List.length_append
  obtain ⟨current, hsleeping | ⟨sleepPending, hdiscarding⟩ | hcontinue⟩ :=
    receive_of_retryable readers haborted hlast hretryable
  · refine ⟨[.answers answer, .slept], RetryState.continue ⟨s.earlier, current, false, .sleeping⟩,
      by simp, rfl, run_cons_eq_some.2 ⟨_, hsleeping ▸ hfirst, rfl⟩, rfl, rfl, hlength current⟩
  · cases sleepPending with
    | true =>
      refine ⟨[.answers answer, .dumped, .slept], RetryState.continue
        ⟨s.earlier, { current with dumped := true }, false, .discarding false true⟩, by simp, rfl,
        run_cons_eq_some.2 ⟨_, hdiscarding ▸ hfirst, rfl⟩, rfl, rfl, hlength _⟩
    | false =>
      refine ⟨[.answers answer, .dumped], RetryState.continue
        ⟨s.earlier, { current with dumped := true }, false, .discarding true false⟩, by simp, rfl,
        run_cons_eq_some.2 ⟨_, hdiscarding ▸ hfirst, rfl⟩, rfl, rfl, hlength _⟩
  · refine ⟨[.answers answer], RetryState.continue ⟨s.earlier, current, false, s.phase⟩,
      by simp, rfl, run_cons_eq_some.2 ⟨_, hcontinue ▸ hfirst, rfl⟩, rfl, rfl, hlength current⟩

/-- Answers to be retried lead to as many further attempts. -/
theorem exists_run_of_all_retryable (readers : TextReaders) (hphase : s.phase = .attempting)
    (haborted : s.aborted = false)
    (hlast : ∀ k < answers.length, isLastAttempt config (s.earlier.length + k) = false)
    (hretryable : ∀ answer ∈ answers, answer.outcome.retryable config = true) :
    ∃ ls t, Label.abort ∉ ls ∧ ls.filterMap Label.answer? = answers ∧
      run (step readers config) s ls = some t ∧
      t.earlier.length = s.earlier.length + answers.length := by
  induction answers generalizing s with
  | nil => exact ⟨[], s, by simp, rfl, rfl, rfl⟩
  | cons answer answers ih =>
    obtain ⟨ls, t, habort, hanswers, hrun, htphase, htaborted, htlength⟩ :=
      exists_run_of_retryable readers hphase haborted (hlast 0 (by simp))
        (hretryable answer List.mem_cons_self)
    have hrest : ∀ k < answers.length, isLastAttempt config (t.earlier.length + k) = false := by
      intro k hk
      rw [htlength, Nat.add_assoc, Nat.add_comm 1]
      exact hlast (k + 1) (by simpa using hk)
    obtain ⟨ls', u, habort', hanswers', hrun', hulength⟩ :=
      ih htphase htaborted hrest fun a ha => hretryable a (List.mem_cons_of_mem _ ha)
    refine ⟨ls ++ ls', u, ?_, ?_, run_append_eq_some.2 ⟨t, hrun, hrun'⟩, ?_⟩
    · rw [List.mem_append]
      exact not_or.2 ⟨habort, habort'⟩
    · rw [List.filterMap_append, hanswers, hanswers']
      rfl
    · rw [hulength, htlength, List.length_cons]
      omega

/-! ## The main result -/

/-- **Every run on a sequence of answers is disciplined exactly when the sequence keeps the
count.**  Where it does not, an attempt is made beyond the `maxRetries + 1` permitted. -/
theorem disciplined_iff (readers : TextReaders) (hretries : 0 ≤ config.maxRetries)
    (answers : List Answer) :
    (∀ ls s, Label.abort ∉ ls → ls.filterMap Label.answer? <+: answers →
        run (step readers config) RetryState.start ls = some s → Disciplined config s) ↔
      KeepsCount config answers := by
  constructor
  · intro hdisciplined number hoverruns hlength
    by_contra hnone
    simp only [not_exists, not_and, Bool.not_eq_false] at hnone
    have htake : (answers.take number).length = number := by
      rw [List.length_take]
      omega
    obtain ⟨ls, t, habort, hanswers, hrun, htlength⟩ :=
      exists_run_of_all_retryable readers (rfl : RetryState.start.phase = .attempting) rfl
        (fun k hk => not_isLastAttempt_of_overruns hretries hoverruns (by
          show 0 + k < number
          omega)) hnone
    have hbounded := (hdisciplined ls t habort (hanswers ▸ List.take_prefix _ _) hrun).bounded
    have hcount : t.attempts.length = number + 1 := by
      rw [RetryState.attempts, List.length_append, htlength, htake]
      simp [RetryState.start]
    rw [hcount] at hbounded
    exact not_permitted_of_overruns hretries hoverruns hbounded
  · intro hkeeps ls s habort hinitial hrun
    have hanswers := answers_run start_invariant hrun
    exact disciplined_of_keepsCount hretries (retryInvariant_run hrun) (aborted_run habort hrun)
      hkeeps (by rw [hanswers]; exact hinitial)

end

/-- A whole number of retries keeps the count, whatever the answers. -/
theorem keepsCount_of_whole {config : ResolvedRetryConfig} {n : ℕ}
    (hm : config.maxRetries = .finite n) (answers : List Answer) : KeepsCount config answers := by
  intro number hoverruns
  obtain ⟨hlt, hgt⟩ := (counts_of_finite hm number).2.2.1 hoverruns
  have hlt' : n < number := by exact_mod_cast hlt
  have hgt' : number < n + 1 := by exact_mod_cast hgt
  omega

/-- So do infinitely many. -/
theorem keepsCount_of_infinity {config : ResolvedRetryConfig}
    (hm : config.maxRetries = .infinity false) (answers : List Answer) :
    KeepsCount config answers :=
  fun number hoverruns => absurd hoverruns (counts_of_infinity hm number).2.2

/-! ## Two configurations -/

/-- An attempt that ends with a network error. -/
def networkError : Answer := ⟨.error (.object (some (.str "SocketError"))), 0, 0⟩

/-- By default, runs through network errors only are as expected. -/
theorem disciplined_default :
    0 ≤ defaultRetryConfig.maxRetries ∧
      ∀ ls s, Label.abort ∉ ls →
        ls.filterMap Label.answer? <+: [networkError, networkError, networkError] →
        run (step noReaders defaultRetryConfig) RetryState.start ls = some s →
        Disciplined defaultRetryConfig s :=
  ⟨by decide, (disciplined_iff noReaders (by decide) _).2 (keepsCount_of_whole (n := 2) rfl _)⟩

/-- Up to two and a half retries. -/
def twoAndAHalfRetries : ResolvedRetryConfig :=
  { defaultRetryConfig with maxRetries := .finite (5 / 2) }

/-- With up to two and a half retries, three network errors are followed by a third retry. -/
theorem twoAndAHalfRetries_not_disciplined :
    0 ≤ twoAndAHalfRetries.maxRetries ∧
      ∃ s, run (step noReaders twoAndAHalfRetries) RetryState.start
          [.answers networkError, .slept, .answers networkError, .slept, .answers networkError,
            .slept] = some s ∧ ¬ Disciplined twoAndAHalfRetries s := by
  refine ⟨by decide +kernel, ?_⟩
  have hcount : (run (step noReaders twoAndAHalfRetries) RetryState.start
      [.answers networkError, .slept, .answers networkError, .slept, .answers networkError,
        .slept]).map (fun s => s.attempts.length) = some 4 := by decide +kernel
  obtain ⟨s, hrun, hlength⟩ := Option.map_eq_some_iff.1 hcount
  refine ⟨s, hrun, fun hdisciplined => ?_⟩
  have hbounded := hdisciplined.bounded
  rw [hlength] at hbounded
  exact absurd hbounded (by decide +kernel)

end SharedTsLibs.BackendHttpClient
