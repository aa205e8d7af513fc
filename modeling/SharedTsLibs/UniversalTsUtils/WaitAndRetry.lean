import SharedTsLibs.Lib.StepSystem
import Mathlib.Data.Nat.Init

/-!
# Waiting for a predicate

`universal-ts-utils`: `waitAndRetry` calls a predicate until its result is truthy, waiting
between the calls, and settles a promise.

* `State`, `step` — the executor, the promise chain of a check and the timer.
* `Fits`, `fits_step` — how many calls there have been, and what they gave.
* `exists_run_to_end` — every run can be continued to its end.
* `budgetKept_iff` — the budget is kept and the promise settles unless the first check and
  all retries are falsy.
-/

namespace SharedTsLibs.UniversalTsUtils.WaitAndRetry

variable {V E : Type}

/-! ## The runs of a call -/

/-- What is to run next. -/
inductive Task (V E : Type) where
  /-- The executor of the promise. -/
  | executor
  /-- `.then(() => predicateFn())` -/
  | call
  /-- `.then((result) => ...)` -/
  | react (result : V)
  /-- `.catch((err) => reject(err))` -/
  | caught (err : E)
  /-- `setTimeout(performCheck, sleepTime)` -/
  | timer
  | nothing

inductive Settlement (V E : Type) where
  | pending
  | resolved (value : V)
  | rejected (err : E)

structure State (V E : Type) where
  retryCount : ℕ
  /-- How often the predicate has been called. -/
  calls : ℕ
  task : Task V E
  settlement : Settlement V E
  /-- What a timer callback has thrown. -/
  uncaught : Option E

def start : State V E := ⟨0, 0, .executor, .pending, none⟩

/-- Who lets the next task run. -/
inductive Turn where
  | caller
  | microtask
  | timer
  deriving DecidableEq

section Step

variable (truthy : V → Bool) (maxRetryCount : ℕ) (predicateFn : ℕ → Except E V)

/-- `performCheck`: the last call is made outside the promise chain. -/
def performCheck (s : State V E) : State V E :=
  if maxRetryCount ≠ 0 ∧ maxRetryCount < s.retryCount then
    match predicateFn s.calls with
    | .ok result =>
      { s with calls := s.calls + 1, task := .nothing, settlement := .resolved result }
    | .error err => { s with calls := s.calls + 1, task := .nothing, uncaught := some err }
  else { s with task := .call }

/-- The next task, when it is its turn; `predicateFn k` is what the call number `k` gives. -/
def step (s : State V E) (turn : Turn) : Option (State V E) :=
  match s.task, turn with
  | .executor, .caller | .timer, .timer => some (performCheck maxRetryCount predicateFn s)
  | .call, .microtask =>
    match predicateFn s.calls with
    | .ok result => some { s with calls := s.calls + 1, task := .react result }
    | .error err => some { s with calls := s.calls + 1, task := .caught err }
  | .react result, .microtask =>
    if truthy result then some { s with task := .nothing, settlement := .resolved result }
    else some { s with retryCount := s.retryCount + 1, task := .timer }
  | .caught err, .microtask => some { s with task := .nothing, settlement := .rejected err }
  | _, _ => none

end Step

/-! ## What has happened -/

section Invariant

variable {truthy : V → Bool} {n : ℕ} {p : ℕ → Except E V}

/-- The call gives a falsy result. -/
def Falsy (truthy : V → Bool) (p : ℕ → Except E V) (k : ℕ) : Prop :=
  ∃ v, p k = .ok v ∧ truthy v = false

/-- How a run has ended after its last call, the call number `k`. -/
inductive Ended (truthy : V → Bool) (n : ℕ) (p : ℕ → Except E V) (k : ℕ) :
    Settlement V E → Option E → Prop
  | truthy {v : V} (hk : k ≤ n) (h : p k = .ok v) (hv : truthy v = true) :
      Ended truthy n p k (.resolved v) none
  | threw {e : E} (hk : k ≤ n) (h : p k = .error e) : Ended truthy n p k (.rejected e) none
  | last {v : V} (hk : k = n + 1) (h : p k = .ok v) : Ended truthy n p k (.resolved v) none
  | lastThrew {e : E} (hk : k = n + 1) (h : p k = .error e) :
      Ended truthy n p k .pending (some e)

/-- The task fits the calls so far: with `k` retries counted, the calls before were falsy. -/
inductive Fits (truthy : V → Bool) (n : ℕ) (p : ℕ → Except E V) : State V E → Prop
  | executor : Fits truthy n p start
  | call {k : ℕ} (hk : k ≤ n) (h : ∀ i < k, Falsy truthy p i) :
      Fits truthy n p ⟨k, k, .call, .pending, none⟩
  | react {k : ℕ} {v : V} (hk : k ≤ n) (h : ∀ i < k, Falsy truthy p i) (hv : p k = .ok v) :
      Fits truthy n p ⟨k, k + 1, .react v, .pending, none⟩
  | caught {k : ℕ} {e : E} (hk : k ≤ n) (h : ∀ i < k, Falsy truthy p i) (he : p k = .error e) :
      Fits truthy n p ⟨k, k + 1, .caught e, .pending, none⟩
  | timer {k : ℕ} (hk : k ≤ n + 1) (h : ∀ i < k, Falsy truthy p i) :
      Fits truthy n p ⟨k, k, .timer, .pending, none⟩
  | ended {k : ℕ} {settlement : Settlement V E} {uncaught : Option E}
      (h : ∀ i < k, Falsy truthy p i) (hend : Ended truthy n p k settlement uncaught) :
      Fits truthy n p ⟨k, k + 1, .nothing, settlement, uncaught⟩

theorem falsy_succ {k : ℕ} (h : ∀ i < k, Falsy truthy p i) (hk : Falsy truthy p k) :
    ∀ i < k + 1, Falsy truthy p i := by
  intro i hi
  rcases Nat.lt_succ_iff_lt_or_eq.1 hi with hi | rfl
  · exact h i hi
  · exact hk

/-- The check when `k` retries have been counted. -/
theorem fits_performCheck (hn : 1 ≤ n) {k : ℕ} (hk : k ≤ n + 1) (h : ∀ i < k, Falsy truthy p i)
    (task : Task V E) : Fits truthy n p (performCheck n p ⟨k, k, task, .pending, none⟩) := by
  unfold performCheck
  by_cases hlast : n < k
  · have hkn : k = n + 1 := by omega
    rw [if_pos ⟨by omega, hlast⟩]
    dsimp only
    cases hcall : p k with
    | ok v => exact .ended h (.last hkn hcall)
    | error e => exact .ended h (.lastThrew hkn hcall)
  · rw [if_neg fun hcondition => hlast hcondition.2]
    exact .call (Nat.not_lt.1 hlast) h

/-- Every step keeps the task in agreement with the calls. -/
theorem fits_step (hn : 1 ≤ n) {s s' : State V E} {turn : Turn} (hs : Fits truthy n p s)
    (hstep : step truthy n p s turn = some s') : Fits truthy n p s' := by
  cases hs with
  | executor =>
    cases turn with
    | caller =>
      cases hstep
      exact fits_performCheck hn (Nat.zero_le _) (fun i hi => absurd hi (Nat.not_lt_zero i)) _
    | microtask => cases hstep
    | timer => cases hstep
  | @call k hk h =>
    cases turn with
    | caller => cases hstep
    | microtask =>
      simp only [step] at hstep
      cases hcall : p k with
      | ok v =>
        rw [hcall] at hstep
        cases hstep
        exact .react hk h hcall
      | error e =>
        rw [hcall] at hstep
        cases hstep
        exact .caught hk h hcall
    | timer => cases hstep
  | @react k v hk h hv =>
    cases turn with
    | caller => cases hstep
    | microtask =>
      simp only [step] at hstep
      cases htruthy : truthy v with
      | true =>
        rw [htruthy] at hstep
        cases hstep
        exact .ended h (.truthy hk hv htruthy)
      | false =>
        rw [htruthy] at hstep
        cases hstep
        exact .timer (Nat.succ_le_succ hk) (falsy_succ h ⟨v, hv, htruthy⟩)
    | timer => cases hstep
  | @caught k e hk h he =>
    cases turn with
    | caller => cases hstep
    | microtask =>
      cases hstep
      exact .ended h (.threw hk he)
    | timer => cases hstep
  | timer hk h =>
    cases turn with
    | caller => cases hstep
    | microtask => cases hstep
    | timer =>
      cases hstep
      exact fits_performCheck hn hk h _
  | ended h hend =>
    cases turn with
    | caller => cases hstep
    | microtask => cases hstep
    | timer => cases hstep

theorem fits_run (hn : 1 ≤ n) {s : State V E} {turns : List Turn}
    (hrun : StepSystem.run (step truthy n p) start turns = some s) : Fits truthy n p s :=
  StepSystem.invariant_run (C := fun _ _ => True) (fun _ _ _ hs _ hstep => fits_step hn hs hstep)
    .executor (StepSystem.allSteps_true _ _) hrun

/-- How far a run is from its end. -/
def remaining (n : ℕ) (s : State V E) : ℕ :=
  4 * (n + 2 - s.retryCount) + match s.task with
    | .executor => 4
    | .timer => 3
    | .call => 2
    | .react _ | .caught _ => 1
    | .nothing => 0

theorem remaining_performCheck (k : ℕ) {task : Task V E}
    (htask : task = .executor ∨ task = .timer) :
    remaining n (performCheck n p ⟨k, k, task, .pending, none⟩)
      < remaining n ⟨k, k, task, .pending, none⟩ := by
  unfold performCheck
  split
  · dsimp only
    cases p k with
    | ok v => rcases htask with rfl | rfl <;> simp only [remaining] <;> omega
    | error e => rcases htask with rfl | rfl <;> simp only [remaining] <;> omega
  · rcases htask with rfl | rfl <;> simp only [remaining] <;> omega

/-- A run that has not ended has a next step, and comes closer to its end. -/
theorem exists_step {s : State V E} (hs : Fits truthy n p s) (htask : s.task ≠ .nothing) :
    ∃ turn s', step truthy n p s turn = some s' ∧ remaining n s' < remaining n s := by
  cases hs with
  | executor =>
    exact ⟨.caller, _, rfl, remaining_performCheck 0 (Or.inl rfl)⟩
  | @call k hk h =>
    cases hcall : p k with
    | ok v =>
      refine ⟨.microtask, ⟨k, k + 1, .react v, .pending, none⟩, by simp only [step, hcall], ?_⟩
      simp only [remaining]
      omega
    | error e =>
      refine ⟨.microtask, ⟨k, k + 1, .caught e, .pending, none⟩, by simp only [step, hcall], ?_⟩
      simp only [remaining]
      omega
  | @react k v hk h hv =>
    cases htruthy : truthy v with
    | true =>
      refine ⟨.microtask, ⟨k, k + 1, .nothing, .resolved v, none⟩, by simp [step, htruthy], ?_⟩
      simp only [remaining]
      omega
    | false =>
      refine ⟨.microtask, ⟨k + 1, k + 1, .timer, .pending, none⟩, by simp [step, htruthy], ?_⟩
      simp only [remaining]
      omega
  | caught hk h he =>
    refine ⟨.microtask, _, rfl, ?_⟩
    simp only [remaining]
    omega
  | timer hk h =>
    exact ⟨.timer, _, rfl, remaining_performCheck _ (Or.inr rfl)⟩
  | ended h hend => exact absurd rfl htask

/-- Every run can be continued to its end. -/
theorem exists_run_to_end (hn : 1 ≤ n) {s : State V E} (hs : Fits truthy n p s) :
    ∃ turns t, StepSystem.run (step truthy n p) s turns = some t ∧ t.task = .nothing := by
  induction hm : remaining n s using Nat.strongRecOn generalizing s with
  | ind m ih =>
    subst hm
    by_cases htask : s.task = .nothing
    · exact ⟨[], s, rfl, htask⟩
    · obtain ⟨turn, s', hstep, hlt⟩ := exists_step hs htask
      obtain ⟨turns, t, hrun, hend⟩ := ih _ hlt (fits_step hn hs hstep) rfl
      exact ⟨turn :: turns, t, StepSystem.run_cons_eq_some.2 ⟨s', hstep, hrun⟩, hend⟩

/-! ## The budget -/

/-- The promise is settled as the last call, the call number `k`, says. -/
def SettledBy (truthy : V → Bool) (n : ℕ) (p : ℕ → Except E V) (s : State V E) (k : ℕ) : Prop :=
  s.calls = k + 1 ∧ match p k with
    | .ok v => (truthy v = true ∨ s.calls = n + 1) ∧ s.settlement = .resolved v
    | .error e => s.settlement = .rejected e

/-- The predicate is called at most `n + 1` times and not again after a truthy result or an
error, and every run leads to an end where the promise is settled as the last call says. -/
structure Disciplined (truthy : V → Bool) (n : ℕ) (p : ℕ → Except E V) : Prop where
  budget : ∀ turns s, StepSystem.run (step truthy n p) start turns = some s → s.calls ≤ n + 1
  stops : ∀ turns s, StepSystem.run (step truthy n p) start turns = some s →
    ∀ k, k + 1 < s.calls → Falsy truthy p k
  settles : ∀ turns s, StepSystem.run (step truthy n p) start turns = some s →
    ∃ turns' t, StepSystem.run (step truthy n p) s turns' = some t ∧ t.task = .nothing ∧
      ∃ k, SettledBy truthy n p t k

/-- Only falsy calls are followed by another one. -/
theorem falsy_of_lt_calls {s : State V E} (hs : Fits truthy n p s) :
    ∀ i, i + 1 < s.calls → Falsy truthy p i := by
  intro i hi
  cases hs with
  | executor => exact absurd hi (Nat.not_lt_zero _)
  | call hk h => exact h i (Nat.lt_of_succ_lt hi)
  | react hk h hv => exact h i (Nat.lt_of_succ_lt_succ hi)
  | caught hk h he => exact h i (Nat.lt_of_succ_lt_succ hi)
  | timer hk h => exact h i (Nat.lt_of_succ_lt hi)
  | ended h hend => exact h i (Nat.lt_of_succ_lt_succ hi)

/-- **When the budget is kept.**  Exactly when one of the first check and the `n` retries is
truthy or throws. -/
theorem budgetKept_iff (hn : 1 ≤ n) :
    Disciplined truthy n p ↔ ∃ k ≤ n, ¬ Falsy truthy p k := by
  constructor
  · intro h
    by_contra hall
    push Not at hall
    have hstart : Fits truthy n p start := .executor
    obtain ⟨turns, t, hrun, htask⟩ := exists_run_to_end hn hstart
    have hbudget := h.budget turns t hrun
    cases fits_run hn hrun with
    | executor => cases htask
    | call => cases htask
    | react => cases htask
    | caught => cases htask
    | timer => cases htask
    | @ended k settlement uncaught hfalsy hend =>
      have hk : k ≤ n := Nat.le_of_succ_le_succ hbudget
      obtain ⟨v, hv, hvfalsy⟩ := hall k hk
      cases hend with
      | truthy _ hcall htruthy =>
        cases hv.symm.trans hcall
        rw [hvfalsy] at htruthy
        cases htruthy
      | threw _ hcall => cases hv.symm.trans hcall
      | last hlast => omega
      | lastThrew hlast => omega
  · rintro ⟨k, hk, hnot⟩
    have hbound : ∀ m, (∀ i < m, Falsy truthy p i) → m ≤ n := by
      intro m hm
      by_contra hlt
      exact hnot (hm k (by omega))
    refine ⟨?_, ?_, ?_⟩
    · intro turns s hrun
      have hcalls := hbound (s.calls - 1) fun i hi =>
        falsy_of_lt_calls (fits_run hn hrun) i (by omega)
      omega
    · intro turns s hrun i hi
      exact falsy_of_lt_calls (fits_run hn hrun) i hi
    · intro turns s hrun
      obtain ⟨turns', t, hrun', htask⟩ := exists_run_to_end hn (fits_run hn hrun)
      have hfits := fits_run hn (StepSystem.run_append_eq_some.2 ⟨s, hrun, hrun'⟩)
      refine ⟨turns', t, hrun', htask, ?_⟩
      cases hfits with
      | executor => cases htask
      | call => cases htask
      | react => cases htask
      | caught => cases htask
      | timer => cases htask
      | @ended m settlement uncaught hfalsy hend =>
        have hm := hbound m hfalsy
        refine ⟨m, rfl, ?_⟩
        cases hend with
        | truthy _ hcall htruthy =>
          rw [hcall]
          exact ⟨Or.inl htruthy, rfl⟩
        | threw _ hcall =>
          rw [hcall]
        | last hlast => omega
        | lastThrew hlast => omega

end Invariant

/-- A falsy result, and then an error: the promise is rejected after two calls. -/
theorem disciplined_error :
    Disciplined id 1 fun k => if k = 0 then .ok false else .error "failed" := by
  refine (budgetKept_iff (Nat.le_refl 1)).2 ⟨1, Nat.le_refl 1, ?_⟩
  rintro ⟨v, hv, -⟩
  cases hv

/-- The turns of two falsy checks and of the last call. -/
def threeChecks : List Turn :=
  [.caller, .microtask, .microtask, .timer, .microtask, .microtask, .timer]

/-- With one retry allowed, a predicate that stays falsy is called three times, and an error
of the third call leaves the promise pending. -/
theorem falsy_not_disciplined :
    (StepSystem.run (step id 1 fun _ => (.ok false : Except String Bool)) start threeChecks).map
        (fun s => s.calls) = some 3 ∧
      ((StepSystem.run (step id 1 fun k => if k = 2 then .error "failed" else .ok false) start
        threeChecks).map fun s => (s.settlement, s.uncaught))
          = some (.pending, some "failed") ∧
      ¬ Disciplined id 1 fun _ => (.ok false : Except String Bool) := by
  refine ⟨rfl, rfl, fun h => ?_⟩
  have hbudget := h.budget threeChecks _ rfl
  revert hbudget
  decide

end SharedTsLibs.UniversalTsUtils.WaitAndRetry
