import SharedTsLibs.Lib.JsRounding
import SharedTsLibs.Lib.JsValue

/-!
# The retry policy of the HTTP client

What `withRetry` decides with: the configuration and its defaults, which outcomes of an
attempt are worth another one, and the delay before it.

* `resolveRetryConfig` — the configuration with its defaults.
* `computeRetryDelay` — the delay after a response, which may ask for one itself.
* `Answer.retryable` — the policy: which outcomes are retried.
-/

namespace SharedTsLibs.BackendHttpClient

/-! ## Configuration -/

/-- `RetryConfig`. -/
structure RetryConfig where
  maxRetries : Option JsNumber
  statusCodes : Option (List ℚ)
  delay : Option (ℕ → JsNumber)
  maxDelay : Option JsNumber
  maxJitter : Option JsNumber
  respectRetryAfter : Option Bool
  retryOnNetworkError : Option Bool
  retryOnTimeout : Option Bool

/-- `ResolvedRetryConfig`. -/
structure ResolvedRetryConfig where
  maxRetries : JsNumber
  statusCodes : List ℚ
  delay : ℕ → JsNumber
  maxDelay : JsNumber
  maxJitter : JsNumber
  respectRetryAfter : Bool
  retryOnNetworkError : Bool
  retryOnTimeout : Bool

/-- `defaultRetryConfig`. -/
def defaultRetryConfig : ResolvedRetryConfig where
  maxRetries := 2
  statusCodes := [408, 425, 429, 500, 502, 503, 504]
  delay retryNumber := .finite (100 * 2 ^ (retryNumber - 1))
  maxDelay := 30000
  maxJitter := 100
  respectRetryAfter := true
  retryOnNetworkError := true
  retryOnTimeout := true

/-- `resolveRetryConfig`; there is no configuration when `true` is given. -/
def resolveRetryConfig : Option RetryConfig → ResolvedRetryConfig
  | none => defaultRetryConfig
  | some config =>
    { maxRetries := config.maxRetries.getD defaultRetryConfig.maxRetries
      statusCodes := config.statusCodes.getD defaultRetryConfig.statusCodes
      delay := config.delay.getD defaultRetryConfig.delay
      maxDelay := config.maxDelay.getD defaultRetryConfig.maxDelay
      maxJitter := config.maxJitter.getD defaultRetryConfig.maxJitter
      respectRetryAfter := config.respectRetryAfter.getD defaultRetryConfig.respectRetryAfter
      retryOnNetworkError :=
        config.retryOnNetworkError.getD defaultRetryConfig.retryOnNetworkError
      retryOnTimeout := config.retryOnTimeout.getD defaultRetryConfig.retryOnTimeout }

/-! ## Answers of an attempt -/

/-- A header holds one value or several. -/
inductive HeaderValue where
  | one (value : String)
  | many (values : List String)

/-- What is read of a response. -/
structure ResponseData where
  statusCode : ℚ
  headers : List (String × HeaderValue)

/-- A value thrown: an object, with its `name` when it has one, or anything else. -/
inductive ThrownValue where
  | object (name : Option (JsValue Unit))
  | other

/-- How an attempt ends: with a response or by throwing. -/
inductive Outcome where
  | response (response : ResponseData)
  | error (err : ThrownValue)

/-- The outcome of an attempt, with the time it comes at and the random number drawn for the
delay after it. -/
structure Answer where
  outcome : Outcome
  now : ℚ
  random : ℚ

/-- `isTimeout`. -/
def isTimeout : ThrownValue → Bool
  | .object (some (.str name)) => name == "TimeoutError"
  | .object _ | .other => false

/-- The policy: an outcome that is worth another attempt, as long as there is one left. -/
def Outcome.retryable (config : ResolvedRetryConfig) : Outcome → Bool
  | .response data => decide (data.statusCode ∈ config.statusCodes)
  | .error err => if isTimeout err then config.retryOnTimeout else config.retryOnNetworkError

/-! ## Delays -/

/-- What the runtime reads from text, `Number(text)` and `new Date(text).getTime()`, and what it
makes of the exact number of milliseconds. -/
structure TextReaders where
  number : String → JsNumber
  getTime : String → JsNumber
  rounding : JsNumber.Rounding

/-- Readers that make nothing of a text. -/
def noReaders : TextReaders := ⟨fun _ => .nan, fun _ => .nan, JsNumber.overflowing⟩

/-- The value of the header, the first one when there are several. -/
def retryAfterValue (headers : List (String × HeaderValue)) : Option String :=
  match OrderedMap.get? headers "retry-after" with
  | some (.one value) => some value
  | some (.many values) => values.head?
  | none => none

/-- `parseRetryAfterHeader`. -/
def parseRetryAfterHeader (readers : TextReaders) (now : ℚ)
    (headers : List (String × HeaderValue)) : Option JsNumber :=
  match retryAfterValue headers with
  | none => none
  | some retryAfter =>
    if retryAfter = "" then none
    else
      let retrySeconds := readers.number retryAfter
      if retrySeconds ≠ .nan then
        if !retrySeconds.isInteger || retrySeconds < 0 then none
        else some ((retrySeconds * 1000).rounded readers.rounding)
      else
        let retryTime := readers.getTime retryAfter
        if retryTime ≠ .nan then
          let delta := retryTime + .finite (-now)
          if delta < 0 then none else some delta
        else none

/-- `applyJitterAndCap`. -/
def applyJitterAndCap (random : ℚ) (delay : JsNumber) (config : ResolvedRetryConfig) : JsNumber :=
  min (delay + .finite random * config.maxJitter) config.maxDelay

/-- `computeRetryDelay`. -/
def computeRetryDelay (readers : TextReaders) (now random : ℚ) (response : ResponseData)
    (retryNumber : ℕ) (config : ResolvedRetryConfig) : JsNumber :=
  let retryAfterMs :=
    if config.respectRetryAfter then parseRetryAfterHeader readers now response.headers else none
  match retryAfterMs with
  | some retryAfterMs => applyJitterAndCap random retryAfterMs config
  | none => applyJitterAndCap random (config.delay retryNumber) config

/-- The delay before the attempt that follows an answer, the `retryNumber`-th one. -/
def Answer.delay (readers : TextReaders) (config : ResolvedRetryConfig) (retryNumber : ℕ)
    (answer : Answer) : JsNumber :=
  match answer.outcome with
  | .response response =>
    computeRetryDelay readers answer.now answer.random response retryNumber config
  | .error _ => applyJitterAndCap answer.random (config.delay retryNumber) config

variable {readers : TextReaders} {config : ResolvedRetryConfig} {retryNumber : ℕ} {answer : Answer}

theorem applyJitterAndCap_le {random : ℚ} {delay : JsNumber}
    (h : 0 < applyJitterAndCap random delay config) :
    applyJitterAndCap random delay config ≤ config.maxDelay :=
  JsNumber.min_le_right (JsNumber.ne_nan_of_lt_right h)

/-- Every delay is a capped one. -/
theorem Answer.exists_delay_eq :
    ∃ delay, answer.delay readers config retryNumber =
      applyJitterAndCap answer.random delay config := by
  cases houtcome : answer.outcome with
  | response response =>
    simp only [Answer.delay, houtcome, computeRetryDelay]
    split
    · exact ⟨_, rfl⟩
    · exact ⟨_, rfl⟩
  | error err =>
    simp only [Answer.delay, houtcome]
    exact ⟨_, rfl⟩

/-- A delay that is slept is at most the largest one. -/
theorem Answer.delay_le (h : 0 < answer.delay readers config retryNumber) :
    answer.delay readers config retryNumber ≤ config.maxDelay := by
  obtain ⟨delay, hdelay⟩ : ∃ delay, answer.delay readers config retryNumber =
      applyJitterAndCap answer.random delay config := Answer.exists_delay_eq
  rw [hdelay] at h ⊢
  exact applyJitterAndCap_le h

end SharedTsLibs.BackendHttpClient
