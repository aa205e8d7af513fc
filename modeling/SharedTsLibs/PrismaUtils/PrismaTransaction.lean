import SharedTsLibs.Lib.JsArithmetic
import SharedTsLibs.Lib.JsValue
import Mathlib.Data.List.Infix
import Mathlib.Tactic.NormNum

/-!
# Transactions with retries

`prismaTransaction` runs a transaction, and runs it again when the error it ended with is
worth another attempt: after a delay that grows with every retry, and with a longer timeout
when the transaction was closed by its timeout.

* `loop` — the retry loop, fed with the outcomes of the attempts.
* `Safe` — what is expected of the attempts made and of the value returned.
* `KeepsTimeout` — the timeout given is at most the largest one, or no retry follows a
  closed transaction.
* `prismaTransaction_safe_iff` — a transaction is safe exactly when that is so: a timeout above
  the largest one is cut down where it should be increased.
-/

namespace SharedTsLibs.PrismaUtils

/-! ## Errors -/

/-- What is read of an `Error`: its `code`, its message and its `meta`. -/
structure ErrorObject where
  code : Option (JsValue Unit)
  message : List Char
  «meta» : Option (JsObject Unit)

/-- A value thrown: an `Error` or anything else. -/
inductive Thrown where
  | error (e : ErrorObject)
  | other

/-- `PRISMA_SERIALIZATION_ERROR`. -/
def PRISMA_SERIALIZATION_ERROR : String := "P2034"

/-- `PRISMA_TRANSACTION_ERROR`. -/
def PRISMA_TRANSACTION_ERROR : String := "P2028"

/-- `PRISMA_SERVER_CLOSED_CONNECTION_ERROR`. -/
def PRISMA_SERVER_CLOSED_CONNECTION_ERROR : String := "P1017"

/-- `COCKROACHDB_RETRY_TRANSACTION_CODE`. -/
def COCKROACHDB_RETRY_TRANSACTION_CODE : String := "40001"

/-- An error of Prisma: its code and the rest of it. -/
structure PrismaClientKnownRequestError where
  code : String
  message : List Char
  «meta» : Option (JsObject Unit)

/-- `isPrismaClientKnownRequestError`, with the error it narrows to. -/
def isPrismaClientKnownRequestError : Thrown → Option PrismaClientKnownRequestError
  | .other => none
  | .error e =>
    match e.code with
    | some (.str code) =>
      if code.toList.head? = some 'P' then some ⟨code, e.message, e.«meta»⟩ else none
    | _ => none

def transactionAlreadyClosed : List Char := "transaction already closed".toList

/-- `isPrismaTransactionClosedError`. -/
def isPrismaTransactionClosedError (runtime : JsRuntime) (error : PrismaClientKnownRequestError) :
    Bool :=
  error.code == PRISMA_TRANSACTION_ERROR &&
    decide (transactionAlreadyClosed <:+: runtime.toLowerCase error.message)

/-- `isCockroachDBRetryTransaction`. -/
def isCockroachDBRetryTransaction (error : PrismaClientKnownRequestError) : Bool :=
  match error.«meta» with
  | none => false
  | some fields =>
    match JsValue.get fields "code" with
    | .str code => code == COCKROACHDB_RETRY_TRANSACTION_CODE
    | _ => false

/-! ## Options -/

/-- `DbDriver`. -/
inductive DbDriver where
  | cockroachDb
  | postgres
  deriving DecidableEq

/-- A member that may be missing, and may be `undefined` where it is not. -/
abbrev OptionalMember := Option (Option JsNumber)

/-- The options the loop reads. -/
structure PrismaTransactionOptions where
  dbDriver : DbDriver
  retriesAllowed : OptionalMember
  baseRetryDelayMs : OptionalMember
  maxRetryDelayMs : OptionalMember
  timeout : OptionalMember
  maxTimeout : OptionalMember

/-- `optionsWithDefaults`. -/
structure OptionsWithDefaults where
  dbDriver : DbDriver
  retriesAllowed : JsNumber
  baseRetryDelayMs : JsNumber
  maxRetryDelayMs : JsNumber
  timeout : JsNumber
  maxTimeout : JsNumber

/-- The member of `{ ...DEFAULT_OPTIONS, ...options }` as a number.  An `undefined` one takes
the place of the default, and is `NaN` to every comparison and operation of the loop. -/
def OptionalMember.spread (member : OptionalMember) (default : JsNumber) : JsNumber :=
  match member with
  | none => default
  | some value => value.getD .nan

/-- `{ ...DEFAULT_OPTIONS, ...options }`. -/
def PrismaTransactionOptions.withDefaults (options : PrismaTransactionOptions) :
    OptionsWithDefaults where
  dbDriver := options.dbDriver
  retriesAllowed := options.retriesAllowed.spread 2
  baseRetryDelayMs := options.baseRetryDelayMs.spread 100
  maxRetryDelayMs := options.maxRetryDelayMs.spread 30000
  timeout := options.timeout.spread 5000
  maxTimeout := options.maxTimeout.spread 30000

/-! ## The loop -/

/-- `Either`: how an attempt ended. -/
inductive Outcome (V : Type) where
  | result (value : V)
  | error (thrown : Thrown)

/-- `isRetryAllowedResult`. -/
inductive IsRetryAllowedResult where
  | no
  | yes
  | increaseTimeout
  deriving DecidableEq

/-- `PrismaCodesToRetry`. -/
def PrismaCodesToRetry : List String :=
  [PRISMA_SERIALIZATION_ERROR, PRISMA_SERVER_CLOSED_CONNECTION_ERROR, PRISMA_TRANSACTION_ERROR]

/-- `isRetryAllowed`; a result without an error has an `undefined` one, which is not an
error of Prisma. -/
def isRetryAllowed {V : Type} (runtime : JsRuntime) (dbDriver : DbDriver) :
    Outcome V → IsRetryAllowedResult
  | .result _ => .no
  | .error thrown =>
    match isPrismaClientKnownRequestError thrown with
    | none => .no
    | some error =>
      if isPrismaTransactionClosedError runtime error then .increaseTimeout
      else if error.code ∈ PrismaCodesToRetry then .yes
      else if dbDriver = .cockroachDb ∧ isCockroachDBRetryTransaction error then .yes
      else .no

/-- `calculateRetryDelay`. -/
def calculateRetryDelay (retries : ℕ) (baseRetryDelayMs maxDelayMs : JsNumber) : JsNumber :=
  min (.finite (2 ^ (retries - 1)) * baseRetryDelayMs) maxDelayMs

/-- An attempt: the delay before it, when it is a retry, the timeout passed to it, and how it
ended, unless it is still running. -/
structure Attempt (V : Type) where
  delay : Option JsNumber
  timeout : JsNumber
  outcome : Option (Outcome V)

/-- The attempts made, and the value returned once the loop is left. -/
structure TransactionRun (V : Type) where
  attempts : List (Attempt V)
  returned : Option (Outcome V)

/-- `result.result`, as a condition takes it. -/
def Outcome.truthy {V : Type} (truthy : V → Bool) : Outcome V → Bool
  | .result value => truthy value
  | .error _ => false

/-- The attempt the loop makes after some retries. -/
def attempt {V : Type} (options : OptionsWithDefaults) (retries : ℕ)
    (outcome : Option (Outcome V)) : Attempt V where
  delay :=
    if retries > 0 then
      some (calculateRetryDelay retries options.baseRetryDelayMs options.maxRetryDelayMs)
    else none
  timeout := options.timeout
  outcome := outcome

/-- The options of the next attempt. -/
def nextOptions (options : OptionsWithDefaults) :
    IsRetryAllowedResult → OptionsWithDefaults
  | .increaseTimeout => { options with timeout := min (options.timeout * 2) options.maxTimeout }
  | .yes | .no => options

/-- The loop.  When the outcomes run out, the attempt it has started is still running. -/
def loop {V : Type} (truthy : V → Bool) (runtime : JsRuntime) :
    OptionsWithDefaults → ℕ → List (Outcome V) → TransactionRun V
  | options, retries, [] => ⟨[attempt options retries none], none⟩
  | options, retries, outcome :: outcomes =>
    if outcome.truthy truthy then ⟨[attempt options retries outcome], outcome⟩
    else
      let retryAllowed := isRetryAllowed runtime options.dbDriver outcome
      if retryAllowed = .no then ⟨[attempt options retries outcome], outcome⟩
      else
        let options' := nextOptions options retryAllowed
        if .finite (retries + 1 : ℕ) ≤ options'.retriesAllowed then
          let rest := loop truthy runtime options' (retries + 1) outcomes
          ⟨attempt options retries outcome :: rest.attempts, rest.returned⟩
        else ⟨[attempt options retries outcome], outcome⟩

/-- `prismaTransaction`. -/
def prismaTransaction {V : Type} (truthy : V → Bool) (runtime : JsRuntime)
    (options : PrismaTransactionOptions) (outcomes : List (Outcome V)) : TransactionRun V :=
  loop truthy runtime options.withDefaults 0 outcomes

/-! ## What is expected -/

section

variable {V : Type} (truthy : V → Bool) (runtime : JsRuntime)

/-- The attempt ended with an error that is worth another attempt. -/
def Retryable (dbDriver : DbDriver) : Outcome V → Prop
  | .result _ => False
  | .error thrown => ∃ error, isPrismaClientKnownRequestError thrown = some error ∧
      (error.code ∈ PrismaCodesToRetry ∨
        dbDriver = .cockroachDb ∧ isCockroachDBRetryTransaction error = true)

/-- The attempt ended because its transaction was closed. -/
def ClosedTransaction : Outcome V → Prop
  | .result _ => False
  | .error thrown => ∃ error, isPrismaClientKnownRequestError thrown = some error ∧
      isPrismaTransactionClosedError runtime error = true

/-- The options given are numbers, none of them negative, and the timeouts are positive. -/
structure Admissible (options : PrismaTransactionOptions) : Prop where
  retriesAllowed : ∀ value ∈ options.retriesAllowed, ∃ retries ∈ value, 0 ≤ retries
  baseRetryDelayMs : ∀ value ∈ options.baseRetryDelayMs, ∃ ms ∈ value, 0 ≤ ms
  maxRetryDelayMs : ∀ value ∈ options.maxRetryDelayMs, ∃ ms ∈ value, 0 ≤ ms
  timeout : ∀ value ∈ options.timeout, ∃ ms ∈ value, 0 < ms
  maxTimeout : ∀ value ∈ options.maxTimeout, ∃ ms ∈ value, 0 < ms

/-- The attempts made for a list of outcomes, and what is returned, are as expected. -/
structure Safe (options : OptionsWithDefaults) (outcomes : List (Outcome V))
    (x : TransactionRun V) : Prop where
  /-- There are at most `retriesAllowed + 1` attempts. -/
  bounded : .finite x.attempts.length ≤ options.retriesAllowed + 1
  /-- No attempt follows one that succeeded. -/
  stops : ∀ a ∈ x.attempts.dropLast, ∀ value, a.outcome ≠ some (.result value)
  /-- An attempt follows one that ended with a retryable error only. -/
  retried : ∀ a ∈ x.attempts.dropLast,
    ∃ outcome, a.outcome = some outcome ∧ Retryable options.dbDriver outcome
  /-- The outcome of the last attempt is returned. -/
  returned : x.returned = x.attempts.getLast?.bind Attempt.outcome
  /-- With an outcome for every attempt allowed, something is returned. -/
  settled : options.retriesAllowed < .finite outcomes.length → x.returned.isSome
  /-- No delay is longer than `maxRetryDelayMs`. -/
  delays : ∀ a ∈ x.attempts, ∀ ms ∈ a.delay, ms ≤ options.maxRetryDelayMs
  /-- No later attempt has a smaller timeout. -/
  timeouts : x.attempts.Pairwise fun a b => a.timeout ≤ b.timeout

/-- A retry follows a closed transaction. -/
def RetriesClosed (options : OptionsWithDefaults) (retries : ℕ) (outcomes : List (Outcome V)) :
    Prop :=
  ∃ before closed after, outcomes = before ++ closed :: after ∧
    (∀ outcome ∈ before, Retryable options.dbDriver outcome) ∧ ClosedTransaction runtime closed ∧
    .finite (retries + before.length + 1 : ℕ) ≤ options.retriesAllowed

/-- The timeout is at most the largest one, or no retry follows a closed transaction. -/
def KeepsTimeout (options : OptionsWithDefaults) (outcomes : List (Outcome V)) : Prop :=
  options.timeout ≤ options.maxTimeout ∨ ¬ RetriesClosed runtime options 0 outcomes

/-! ## One attempt -/

variable {truthy runtime} {options : OptionsWithDefaults} {retries : ℕ} {outcome : Outcome V}
  {outcomes : List (Outcome V)}

theorem ClosedTransaction.retryable {dbDriver : DbDriver} (h : ClosedTransaction runtime outcome) :
    Retryable dbDriver outcome := by
  cases outcome with
  | result value => exact h
  | error thrown =>
    obtain ⟨error, hknown, hclosed⟩ := h
    have hcode : error.code = PRISMA_TRANSACTION_ERROR :=
      eq_of_beq (Bool.and_eq_true_iff.1 hclosed).1
    refine ⟨error, hknown, .inl ?_⟩
    rw [hcode]
    decide

theorem isRetryAllowed_eq_no_iff {dbDriver : DbDriver} :
    isRetryAllowed runtime dbDriver outcome = .no ↔ ¬ Retryable dbDriver outcome := by
  cases outcome with
  | result value => exact iff_of_true rfl not_false
  | error thrown =>
    cases hknown : isPrismaClientKnownRequestError thrown with
    | none => simp [isRetryAllowed, Retryable, hknown]
    | some error =>
      have hclosed : isPrismaTransactionClosedError runtime error = true →
          error.code ∈ PrismaCodesToRetry := by
        intro h
        rw [eq_of_beq (Bool.and_eq_true_iff.1 h).1]
        decide
      simp only [isRetryAllowed, Retryable, hknown, Option.some.injEq, exists_eq_left']
      split_ifs with h1 h2 h3
      · simp [hclosed h1]
      · simp [h2]
      · simp [h3]
      · simp only [true_iff]
        tauto

theorem isRetryAllowed_eq_increaseTimeout_iff {dbDriver : DbDriver} :
    isRetryAllowed runtime dbDriver outcome = .increaseTimeout ↔
      ClosedTransaction runtime outcome := by
  cases outcome with
  | result value => exact iff_of_false nofun not_false
  | error thrown =>
    cases hknown : isPrismaClientKnownRequestError thrown with
    | none => simp [isRetryAllowed, ClosedTransaction, hknown]
    | some error =>
      simp only [isRetryAllowed, ClosedTransaction, hknown, Option.some.injEq, exists_eq_left']
      split_ifs with h1 h2 h3 <;> simp [h1]

theorem Retryable.not_truthy {dbDriver : DbDriver} (h : Retryable dbDriver outcome) :
    outcome.truthy truthy = false := by
  cases outcome with
  | result value => exact absurd h not_false
  | error thrown => rfl

/-! ## One round of the loop -/

variable (truthy runtime options retries outcome outcomes) in
/-- The options of the attempt after one that ended in this way. -/
def optionsAfter : OptionsWithDefaults :=
  nextOptions options (isRetryAllowed runtime options.dbDriver outcome)

@[simp] theorem nextOptions_dbDriver (r : IsRetryAllowedResult) :
    (nextOptions options r).dbDriver = options.dbDriver := by
  cases r <;> rfl

@[simp] theorem nextOptions_retriesAllowed (r : IsRetryAllowedResult) :
    (nextOptions options r).retriesAllowed = options.retriesAllowed := by
  cases r <;> rfl

@[simp] theorem nextOptions_baseRetryDelayMs (r : IsRetryAllowedResult) :
    (nextOptions options r).baseRetryDelayMs = options.baseRetryDelayMs := by
  cases r <;> rfl

@[simp] theorem nextOptions_maxRetryDelayMs (r : IsRetryAllowedResult) :
    (nextOptions options r).maxRetryDelayMs = options.maxRetryDelayMs := by
  cases r <;> rfl

@[simp] theorem nextOptions_maxTimeout (r : IsRetryAllowedResult) :
    (nextOptions options r).maxTimeout = options.maxTimeout := by
  cases r <;> rfl

theorem optionsAfter_of_closed (h : ClosedTransaction runtime outcome) :
    optionsAfter runtime options outcome =
      { options with timeout := min (options.timeout * 2) options.maxTimeout } := by
  rw [optionsAfter, isRetryAllowed_eq_increaseTimeout_iff.2 h, nextOptions]

theorem optionsAfter_of_not_closed (h : ¬ ClosedTransaction runtime outcome) :
    optionsAfter runtime options outcome = options := by
  have hne : isRetryAllowed runtime options.dbDriver outcome ≠ .increaseTimeout :=
    mt isRetryAllowed_eq_increaseTimeout_iff.1 h
  rw [optionsAfter]
  cases hr : isRetryAllowed runtime options.dbDriver outcome with
  | no => rfl
  | yes => rfl
  | increaseTimeout => exact absurd hr hne

/-- The attempt is followed by another one. -/
def Continues (options : OptionsWithDefaults) (retries : ℕ) (outcome : Outcome V) : Prop :=
  Retryable options.dbDriver outcome ∧ .finite (retries + 1 : ℕ) ≤ options.retriesAllowed

theorem loop_cons_of_continues (h : Continues options retries outcome) :
    loop truthy runtime options retries (outcome :: outcomes) =
      ⟨attempt options retries outcome ::
          (loop truthy runtime (optionsAfter runtime options outcome) (retries + 1)
            outcomes).attempts,
        (loop truthy runtime (optionsAfter runtime options outcome) (retries + 1)
          outcomes).returned⟩ := by
  have hno : isRetryAllowed runtime options.dbDriver outcome ≠ .no := by
    rw [Ne, isRetryAllowed_eq_no_iff, not_not]
    exact h.1
  rw [loop, if_neg (by simp [h.1.not_truthy])]
  dsimp only
  rw [if_neg hno, nextOptions_retriesAllowed, if_pos h.2]
  rfl

theorem loop_cons_of_not_continues (h : ¬ Continues options retries outcome) :
    loop truthy runtime options retries (outcome :: outcomes) =
      ⟨[attempt options retries outcome], outcome⟩ := by
  rw [loop]
  dsimp only
  split_ifs with htruthy hno hretries
  · rfl
  · rfl
  · have hretryable : Retryable options.dbDriver outcome := by
      rwa [isRetryAllowed_eq_no_iff, not_not] at hno
    rw [nextOptions_retriesAllowed] at hretries
    exact absurd ⟨hretryable, hretries⟩ h
  · rfl

variable (truthy runtime options retries outcomes)

/-- The loop starts with an attempt that gets the timeout of the options. -/
theorem loop_attempts_head :
    ∃ o rest, (loop truthy runtime options retries outcomes).attempts =
      attempt options retries o :: rest := by
  cases outcomes with
  | nil => exact ⟨none, [], rfl⟩
  | cons outcome outcomes =>
    by_cases h : Continues options retries outcome
    · exact ⟨outcome, _, by rw [loop_cons_of_continues h]⟩
    · exact ⟨outcome, [], by rw [loop_cons_of_not_continues h]⟩

theorem loop_attempts_ne_nil : (loop truthy runtime options retries outcomes).attempts ≠ [] := by
  obtain ⟨o, rest, h⟩ := loop_attempts_head truthy runtime options retries outcomes
  simp [h]

/-! ## The attempts of a run -/

theorem loop_bounded (h : .finite (retries : ℕ) ≤ options.retriesAllowed) :
    .finite (retries + (loop truthy runtime options retries outcomes).attempts.length : ℕ) ≤
      options.retriesAllowed + 1 := by
  induction outcomes generalizing options retries with
  | nil => exact JsNumber.add_one_le_add_one h
  | cons outcome outcomes ih =>
    by_cases hc : Continues options retries outcome
    · rw [loop_cons_of_continues hc]
      have hrest := ih (optionsAfter runtime options outcome) (retries + 1)
        (by simpa [optionsAfter] using hc.2)
      simpa [optionsAfter, add_assoc, add_comm] using hrest
    · rw [loop_cons_of_not_continues hc]
      exact JsNumber.add_one_le_add_one h

/-- Every attempt but the last ended with a retryable error. -/
theorem loop_retried :
    ∀ a ∈ (loop truthy runtime options retries outcomes).attempts.dropLast,
      ∃ outcome, a.outcome = some outcome ∧ Retryable options.dbDriver outcome := by
  induction outcomes generalizing options retries with
  | nil => exact nofun
  | cons outcome outcomes ih =>
    by_cases hc : Continues options retries outcome
    · rw [loop_cons_of_continues hc]
      intro a ha
      rw [List.dropLast_cons_of_ne_nil (loop_attempts_ne_nil _ _ _ _ _), List.mem_cons] at ha
      rcases ha with rfl | ha
      · exact ⟨outcome, rfl, hc.1⟩
      · simpa [optionsAfter] using ih (optionsAfter runtime options outcome) (retries + 1) a ha
    · rw [loop_cons_of_not_continues hc]
      exact nofun

theorem loop_returned :
    (loop truthy runtime options retries outcomes).returned =
      (loop truthy runtime options retries outcomes).attempts.getLast?.bind Attempt.outcome := by
  induction outcomes generalizing options retries with
  | nil => rfl
  | cons outcome outcomes ih =>
    by_cases hc : Continues options retries outcome
    · rw [loop_cons_of_continues hc]
      show (loop truthy runtime (optionsAfter runtime options outcome) (retries + 1)
        outcomes).returned = _
      rw [ih, List.getLast?_cons_of_ne_nil (loop_attempts_ne_nil _ _ _ _ _)]
    · rw [loop_cons_of_not_continues hc]
      rfl

theorem loop_settled (hretries : .finite (retries : ℕ) ≤ options.retriesAllowed)
    (h : options.retriesAllowed < .finite (retries + outcomes.length : ℕ)) :
    (loop truthy runtime options retries outcomes).returned.isSome := by
  induction outcomes generalizing options retries with
  | nil => exact absurd hretries (JsNumber.not_le_of_lt h)
  | cons outcome outcomes ih =>
    by_cases hc : Continues options retries outcome
    · rw [loop_cons_of_continues hc]
      refine ih (optionsAfter runtime options outcome) _ (by simpa [optionsAfter] using hc.2) ?_
      rw [List.length_cons] at h
      rw [optionsAfter, nextOptions_retriesAllowed, Nat.add_assoc, Nat.add_comm 1]
      exact h
    · rw [loop_cons_of_not_continues hc]
      rfl

theorem attempt_delay_le {o : Option (Outcome V)} (hbase : options.baseRetryDelayMs ≠ .nan)
    (hmax : options.maxRetryDelayMs ≠ .nan) :
    ∀ ms ∈ (attempt options retries o).delay, ms ≤ options.maxRetryDelayMs := by
  intro ms hms
  have hdelay : ms = calculateRetryDelay retries options.baseRetryDelayMs
      options.maxRetryDelayMs := by
    by_cases h : retries > 0
    · simp only [attempt, if_pos h, Option.mem_some_iff] at hms
      exact hms.symm
    · simp [attempt, if_neg h] at hms
  rw [hdelay]
  exact JsNumber.min_le_right
    (JsNumber.min_ne_nan (JsNumber.mul_ne_nan (by positivity) hbase) hmax)

theorem loop_delays (hbase : options.baseRetryDelayMs ≠ .nan)
    (hmax : options.maxRetryDelayMs ≠ .nan) :
    ∀ a ∈ (loop truthy runtime options retries outcomes).attempts, ∀ ms ∈ a.delay,
      ms ≤ options.maxRetryDelayMs := by
  induction outcomes generalizing options retries with
  | nil =>
    intro a ha
    rw [List.mem_singleton.1 ha]
    exact attempt_delay_le _ _ hbase hmax
  | cons outcome outcomes ih =>
    by_cases hc : Continues options retries outcome
    · rw [loop_cons_of_continues hc]
      intro a ha
      rcases List.mem_cons.1 ha with rfl | ha
      · exact attempt_delay_le _ _ hbase hmax
      · have hrest := ih (optionsAfter runtime options outcome) _
          (by simpa [optionsAfter] using hbase) (by simpa [optionsAfter] using hmax) a ha
        simpa [optionsAfter] using hrest
    · rw [loop_cons_of_not_continues hc]
      intro a ha
      rw [List.mem_singleton.1 ha]
      exact attempt_delay_le _ _ hbase hmax

/-! ## Timeouts -/

/-- A retry follows a closed transaction when the first attempt is one, or ends with a
retryable error and a retry follows a closed transaction later. -/
theorem retriesClosed_cons_iff :
    RetriesClosed runtime options retries (outcome :: outcomes) ↔
      .finite (retries + 1 : ℕ) ≤ options.retriesAllowed ∧
        (ClosedTransaction runtime outcome ∨ Retryable options.dbDriver outcome ∧
          RetriesClosed runtime options (retries + 1) outcomes) := by
  constructor
  · rintro ⟨before, closed, after, hsplit, hbefore, hclosed, hretries⟩
    have hfirst : JsNumber.finite (retries + 1 : ℕ) ≤ options.retriesAllowed := by
      refine JsNumber.le_trans (JsNumber.finite_le_finite.2 ?_) hretries
      exact_mod_cast (by omega : retries + 1 ≤ retries + before.length + 1)
    refine ⟨hfirst, ?_⟩
    cases before with
    | nil =>
      obtain ⟨rfl, rfl⟩ := List.cons.inj hsplit
      exact .inl hclosed
    | cons o before =>
      obtain ⟨rfl, rfl⟩ := List.cons.inj hsplit
      refine .inr ⟨hbefore _ List.mem_cons_self, before, closed, after, rfl,
        fun o ho => hbefore o (List.mem_cons_of_mem _ ho), hclosed, ?_⟩
      rwa [List.length_cons, ← Nat.add_assoc, Nat.add_right_comm retries] at hretries
  · rintro ⟨hfirst, hclosed | ⟨hretryable, before, closed, after, rfl, hbefore, hclosed, hretries⟩⟩
    · exact ⟨[], outcome, outcomes, rfl, nofun, hclosed, hfirst⟩
    · refine ⟨outcome :: before, closed, after, rfl, ?_, hclosed, ?_⟩
      · intro o ho
        rcases List.mem_cons.1 ho with rfl | ho
        · exact hretryable
        · exact hbefore o ho
      · rwa [List.length_cons, ← Nat.add_assoc, Nat.add_right_comm retries]

theorem retriesClosed_of_not_continues (h : ¬ Continues options retries outcome) :
    ¬ RetriesClosed runtime options retries (outcome :: outcomes) := by
  rw [retriesClosed_cons_iff]
  rintro ⟨hretries, hclosed | ⟨hretryable, -⟩⟩
  · exact h ⟨hclosed.retryable, hretries⟩
  · exact h ⟨hretryable, hretries⟩

/-- When the attempts from the second on have growing timeouts, the first one's fits them
as soon as it fits the next. -/
theorem pairwise_timeout_cons_iff {a b : Attempt V} {rest : List (Attempt V)} :
    (a :: b :: rest).Pairwise (fun a b => a.timeout ≤ b.timeout) ↔
      a.timeout ≤ b.timeout ∧ (b :: rest).Pairwise fun a b => a.timeout ≤ b.timeout := by
  constructor
  · intro h
    exact ⟨(List.pairwise_cons.1 h).1 b List.mem_cons_self, (List.pairwise_cons.1 h).2⟩
  · rintro ⟨hab, h⟩
    refine List.pairwise_cons.2 ⟨fun c hc => ?_, h⟩
    rcases List.mem_cons.1 hc with rfl | hc
    · exact hab
    · exact JsNumber.le_trans hab ((List.pairwise_cons.1 h).1 c hc)

/-- The timeouts of the attempts grow exactly when the first one is at most the largest one,
or no retry follows a closed transaction. -/
theorem loop_timeouts_iff (htimeout : 0 < options.timeout) (hmax : 0 < options.maxTimeout) :
    (loop truthy runtime options retries outcomes).attempts.Pairwise
        (fun a b => a.timeout ≤ b.timeout) ↔
      options.timeout ≤ options.maxTimeout ∨ ¬ RetriesClosed runtime options retries outcomes := by
  induction outcomes generalizing options retries with
  | nil =>
    refine iff_of_true (List.pairwise_singleton _ _) (.inr ?_)
    rintro ⟨before, closed, after, hsplit, -⟩
    simp at hsplit
  | cons outcome outcomes ih =>
    by_cases hc : Continues options retries outcome
    · obtain ⟨o, rest, hrest⟩ := loop_attempts_head truthy runtime
        (optionsAfter runtime options outcome) (retries + 1) outcomes
      rw [loop_cons_of_continues hc]
      show (attempt options retries (some outcome) :: _).Pairwise _ ↔ _
      rw [hrest, pairwise_timeout_cons_iff, ← hrest, retriesClosed_cons_iff]
      show options.timeout ≤ (optionsAfter runtime options outcome).timeout ∧ _ ↔ _
      by_cases hclosed : ClosedTransaction runtime outcome
      · -- the timeout is increased, up to the largest one
        have hafter : optionsAfter runtime options outcome = _ := optionsAfter_of_closed hclosed
        have hcapped : min (options.timeout * 2) options.maxTimeout ≤ options.maxTimeout :=
          JsNumber.min_le_right
            (JsNumber.min_ne_nan (JsNumber.double_ne_nan htimeout)
              (JsNumber.ne_nan_of_lt_right hmax))
        have hpos : 0 < min (options.timeout * 2) options.maxTimeout :=
          JsNumber.min_double_pos htimeout hmax
        rw [ih (optionsAfter runtime options outcome) _ (by rw [hafter]; exact hpos)
          (by rw [hafter]; exact hmax), hafter]
        simp only [hcapped, hclosed, hc.2, true_or, and_true, not_true, or_false]
        constructor
        · exact fun h => JsNumber.le_trans h hcapped
        · exact JsNumber.le_min_double htimeout
      · -- the timeout stays
        rw [optionsAfter_of_not_closed hclosed, ih _ _ htimeout hmax]
        have hself := JsNumber.le_refl (JsNumber.ne_nan_of_lt_right htimeout)
        simp only [hself, hclosed, hc.1, hc.2, true_and, false_or]
    · rw [loop_cons_of_not_continues hc]
      exact iff_of_true (List.pairwise_singleton _ _)
        (.inr (retriesClosed_of_not_continues _ _ _ _ hc))

/-! ## The main result -/

/-- What holds of the default and of the number given holds of the member. -/
theorem OptionalMember.spread_of {P : JsNumber → Prop} {member : OptionalMember}
    {default : JsNumber} (hdefault : P default) (h : ∀ value ∈ member, ∃ n ∈ value, P n) :
    P (member.spread default) := by
  cases member with
  | none => exact hdefault
  | some value =>
    obtain ⟨n, rfl, hn⟩ := h value rfl
    exact hn

theorem Admissible.withDefaults {options : PrismaTransactionOptions} (h : Admissible options) :
    0 ≤ options.withDefaults.retriesAllowed ∧ 0 ≤ options.withDefaults.baseRetryDelayMs ∧
      0 ≤ options.withDefaults.maxRetryDelayMs ∧ 0 < options.withDefaults.timeout ∧
      0 < options.withDefaults.maxTimeout :=
  ⟨OptionalMember.spread_of (by decide) h.retriesAllowed,
    OptionalMember.spread_of (by decide) h.baseRetryDelayMs,
    OptionalMember.spread_of (by decide) h.maxRetryDelayMs,
    OptionalMember.spread_of (by decide) h.timeout,
    OptionalMember.spread_of (by decide) h.maxTimeout⟩

/-- **A transaction is safe exactly when its timeout is at most the largest one, or no retry
follows a closed transaction.**  Otherwise the timeout meant to be increased is cut down to
the largest one; everything else that is expected of the attempts holds of every run. -/
theorem prismaTransaction_safe_iff {options : PrismaTransactionOptions} (h : Admissible options)
    (outcomes : List (Outcome V)) :
    Safe options.withDefaults outcomes (prismaTransaction truthy runtime options outcomes) ↔
      KeepsTimeout runtime options.withDefaults outcomes := by
  obtain ⟨hretries, hbase, hmaxDelay, htimeout, hmax⟩ := h.withDefaults
  have hretried := loop_retried truthy runtime options.withDefaults 0 outcomes
  constructor
  · intro hsafe
    exact (loop_timeouts_iff _ _ _ _ _ htimeout hmax).1 hsafe.timeouts
  · intro hkeeps
    refine ⟨?_, ?_, hretried, loop_returned .., ?_, ?_,
      (loop_timeouts_iff _ _ _ _ _ htimeout hmax).2 hkeeps⟩
    · have hbounded := loop_bounded truthy runtime options.withDefaults 0 outcomes hretries
      rwa [Nat.zero_add] at hbounded
    · intro a ha value hvalue
      obtain ⟨outcome, houtcome, hretryable⟩ := hretried a ha
      cases houtcome.symm.trans hvalue
      exact hretryable
    · intro hlt
      exact loop_settled _ _ _ 0 _ hretries (by rwa [Nat.zero_add])
    · exact loop_delays _ _ _ _ _ (JsNumber.ne_nan_of_le_right hbase)
        (JsNumber.ne_nan_of_le_right hmaxDelay)

end

/-! ## Two runs -/

/-- The error of a transaction that its timeout has closed. -/
def closedError : Thrown :=
  .error ⟨some (.str PRISMA_TRANSACTION_ERROR), "Transaction already closed".toList, none⟩

/-- Options that give nothing but a timeout. -/
def optionsWithTimeout (timeout : JsNumber) : PrismaTransactionOptions :=
  ⟨.postgres, none, none, none, some (some timeout), none⟩

theorem optionsWithTimeout_admissible {timeout : JsNumber} (h : 0 < timeout) :
    Admissible (optionsWithTimeout timeout) := by
  refine ⟨nofun, nofun, nofun, fun value hvalue => ?_, nofun⟩
  cases hvalue
  exact ⟨timeout, rfl, h⟩

/-- With a timeout of ten seconds, a transaction closed twice and then successful is safe. -/
theorem prismaTransaction_tenSeconds :
    Safe (optionsWithTimeout 10000).withDefaults
      [Outcome.error closedError, Outcome.error closedError, Outcome.result 7]
      (prismaTransaction (· != 0) JsRuntime.ascii (optionsWithTimeout 10000)
        [Outcome.error closedError, Outcome.error closedError, Outcome.result 7]) :=
  (prismaTransaction_safe_iff _ _ (optionsWithTimeout_admissible rfl) _).2 (.inl (by decide))

/-- With a timeout of one minute, the retry after a closed transaction gets half of it. -/
theorem prismaTransaction_oneMinute_not_safe :
    Admissible (optionsWithTimeout 60000) ∧
      ¬ Safe (optionsWithTimeout 60000).withDefaults [Outcome.error closedError]
        (prismaTransaction (· != 0) JsRuntime.ascii (optionsWithTimeout 60000)
          [(Outcome.error closedError : Outcome ℕ)]) := by
  refine ⟨optionsWithTimeout_admissible (by decide), fun hsafe => ?_⟩
  have hattempts : (prismaTransaction (· != 0) JsRuntime.ascii (optionsWithTimeout 60000)
      [(Outcome.error closedError : Outcome ℕ)]).attempts.map Attempt.timeout =
        [60000, 30000] := by decide +kernel
  have hpairwise := List.pairwise_map.2 hsafe.timeouts
  rw [hattempts] at hpairwise
  exact absurd hpairwise (by decide)

end SharedTsLibs.PrismaUtils
