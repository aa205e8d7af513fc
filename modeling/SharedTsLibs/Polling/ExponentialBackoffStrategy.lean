import SharedTsLibs.Lib.JsRounding

/-!
# The exponential backoff strategy

The configuration of a polling strategy, its validation, and the delay between two polls.

* `validateConfig` — what the constructor refuses, with its errors.
* `ExponentialBackoffStrategy` — a strategy holds a configuration that was accepted.
* `calculateDelay_bounds_iff` — the delay of a strategy is between zero and `maxDelayMs`,
  whatever the random number drawn, unless zero is multiplied by a power that is infinite.
-/

namespace SharedTsLibs.Polling

/-! ## Errors -/

/-- `PollingFailureCause`. -/
inductive PollingFailureCause where
  | TIMEOUT
  | CANCELLED
  | INVALID_CONFIG
  deriving DecidableEq

/-- `PollingError`. -/
structure PollingError where
  message : String
  failureCause : PollingFailureCause
  attemptsMade : JsNumber

/-! ## Configuration -/

/-- `ExponentialBackoffConfig`. -/
structure ExponentialBackoffConfig where
  initialDelayMs : JsNumber
  maxDelayMs : JsNumber
  backoffMultiplier : JsNumber
  maxAttempts : JsNumber
  jitterFactor : Option JsNumber

/-- The error of a refused configuration. -/
def invalidConfig (message : String) : PollingError := ⟨message, .INVALID_CONFIG, 0⟩

/-- `validateConfig`: the error it throws, if any. -/
def validateConfig (config : ExponentialBackoffConfig) : Option PollingError :=
  if !config.initialDelayMs.isFinite || config.initialDelayMs < 0 then
    some (invalidConfig "initialDelayMs must be a non-negative finite number")
  else if !config.maxDelayMs.isFinite || config.maxDelayMs < 0 then
    some (invalidConfig "maxDelayMs must be a non-negative finite number")
  else if config.maxDelayMs < config.initialDelayMs then
    some (invalidConfig "initialDelayMs must not exceed maxDelayMs")
  else if !config.backoffMultiplier.isFinite || config.backoffMultiplier ≤ 0 then
    some (invalidConfig "backoffMultiplier must be a positive finite number")
  else if !config.maxAttempts.isInteger || config.maxAttempts < 1 then
    some (invalidConfig "maxAttempts must be a positive integer")
  else
    match config.jitterFactor with
    | none => none
    | some jitterFactor =>
      if !jitterFactor.isFinite || jitterFactor < 0 || 1 < jitterFactor then
        some (invalidConfig "jitterFactor must be a finite number between 0 and 1")
      else none

/-- `ExponentialBackoffStrategy`: the constructor has accepted the configuration. -/
structure ExponentialBackoffStrategy where
  config : ExponentialBackoffConfig
  valid : validateConfig config = none

/-- A number drawn by `Math.random()`. -/
structure RandomSample where
  value : ℚ
  nonneg : 0 ≤ value
  lt_one : value < 1

/-- `backoffMultiplier ** attemptIndex`. -/
def growth (rounding : JsNumber.Rounding) (config : ExponentialBackoffConfig) (attemptIndex : ℕ) :
    JsNumber :=
  (config.backoffMultiplier.pow attemptIndex).rounded rounding

/-- `calculateDelay`, every result rounded. -/
def calculateDelay (rounding : JsNumber.Rounding) (config : ExponentialBackoffConfig)
    (random : RandomSample) (attemptIndex : ℕ) : JsNumber :=
  let baseDelay :=
    min ((config.initialDelayMs * growth rounding config attemptIndex).rounded rounding)
      config.maxDelayMs
  let jitterFactor := config.jitterFactor.getD (rounding.round (1 / 5))
  let jitter := ((baseDelay * jitterFactor).rounded rounding *
    rounding.round (random.value - 1 / 2)).rounded rounding
  min config.maxDelayMs (max 0 ((baseDelay + jitter).rounded rounding).round)

/-- What `delay` refuses: `!Number.isFinite(ms) || ms < 0`. -/
def delayRefuses (ms : JsNumber) : Bool := !ms.isFinite || ms < 0

/-- `STANDARD_EXPONENTIAL_BACKOFF_CONFIG`. -/
def STANDARD_EXPONENTIAL_BACKOFF_CONFIG : ExponentialBackoffConfig where
  initialDelayMs := 2000
  maxDelayMs := 15000
  backoffMultiplier := .finite (3 / 2)
  maxAttempts := 20
  jitterFactor := some (.finite (1 / 5))

/-- The standard configuration is accepted. -/
theorem standard_valid : validateConfig STANDARD_EXPONENTIAL_BACKOFF_CONFIG = none := by
  have hchecks : (validateConfig STANDARD_EXPONENTIAL_BACKOFF_CONFIG).isNone = true := by
    decide +kernel
  exact Option.isNone_iff_eq_none.1 hchecks

/-! ## What is accepted -/

variable {config : ExponentialBackoffConfig}

/-- A number that passes a check for finite ones in a range. -/
theorem exists_of_check {a : JsNumber} {outside : Bool} (h : ¬ (!a.isFinite || outside) = true) :
    (∃ q, a = .finite q) ∧ outside = false := by
  cases a with
  | finite q => exact ⟨⟨q, rfl⟩, by simpa [JsNumber.isFinite] using h⟩
  | infinity negative => simp [JsNumber.isFinite] at h
  | nan => simp [JsNumber.isFinite] at h

theorem exists_nat_of_isInteger {a : JsNumber} (h : ¬ (!a.isInteger || decide (a < 1)) = true) :
    ∃ n : ℕ, 1 ≤ n ∧ a = .finite n := by
  have hcheck : a.isInteger = true ∧ ¬ a < 1 := by simpa using h
  have hneg : ¬ a < 0 := fun hlt => hcheck.2 (JsNumber.lt_of_lt_of_le hlt (by decide))
  obtain ⟨n, rfl⟩ := JsNumber.isInteger_and_not_neg_iff.1 ⟨hcheck.1, hneg⟩
  have hone : ¬ (n : ℚ) < 1 := by simpa [JsNumber.ofNat_eq_finite] using hcheck.2
  exact ⟨n, by exact_mod_cast not_lt.1 hone, rfl⟩

/-- The largest number of attempts of an accepted configuration is a positive whole number. -/
theorem exists_maxAttempts_of_valid (h : validateConfig config = none) :
    ∃ n : ℕ, 1 ≤ n ∧ config.maxAttempts = .finite n := by
  unfold validateConfig at h
  split_ifs at h with hinitial hmax hle hmultiplier hattempts
  exact exists_nat_of_isInteger hattempts

/-- The delays and the multiplier of an accepted configuration are finite, in their ranges. -/
theorem exists_of_valid (h : validateConfig config = none) :
    ∃ p q r : ℚ, config.initialDelayMs = .finite p ∧ config.maxDelayMs = .finite q ∧
      config.backoffMultiplier = .finite r ∧ 0 ≤ p ∧ p ≤ q ∧ 0 < r := by
  unfold validateConfig at h
  split_ifs at h with hinitial hmax hle hmultiplier hattempts
  obtain ⟨⟨p, hp⟩, hnonneg⟩ := exists_of_check hinitial
  obtain ⟨⟨q, hq⟩, -⟩ := exists_of_check hmax
  obtain ⟨⟨r, hr⟩, hpos⟩ := exists_of_check hmultiplier
  rw [hp] at hnonneg hle
  rw [hq] at hle
  rw [hr] at hpos
  refine ⟨p, q, r, hp, hq, hr, ?_, ?_, ?_⟩
  · simpa [JsNumber.ofNat_eq_finite] using hnonneg
  · simpa using hle
  · simpa [JsNumber.ofNat_eq_finite] using hpos

/-- The jitter factor of an accepted configuration is between zero and one. -/
theorem exists_jitterFactor_of_valid (rounding : JsNumber.Rounding)
    (h : validateConfig config = none) :
    ∃ j : ℚ, config.jitterFactor.getD (rounding.round (1 / 5)) = .finite j ∧ 0 ≤ j ∧ j ≤ 1 := by
  unfold validateConfig at h
  split_ifs at h with hinitial hmax hle hmultiplier hattempts
  cases hjitter : config.jitterFactor with
  | none =>
    exact JsNumber.Rounding.exists_round_of_nonneg rounding.round_one (by norm_num) (by norm_num)
  | some jitterFactor =>
    rw [hjitter] at h
    have hcheck : ¬ (!jitterFactor.isFinite || (decide (jitterFactor < 0) ||
        decide (1 < jitterFactor))) = true := by
      intro hbad
      rw [← Bool.or_assoc] at hbad
      simp [hbad] at h
    obtain ⟨⟨j, hj⟩, hrange⟩ := exists_of_check hcheck
    rw [hj, Bool.or_eq_false_iff] at hrange
    refine ⟨j, hj, ?_, ?_⟩
    · simpa [JsNumber.ofNat_eq_finite] using hrange.1
    · simpa [JsNumber.ofNat_eq_finite] using hrange.2

/-- The largest number of attempts of an accepted configuration is whole: an attempt below it
may be followed by another. -/
theorem next_le_maxAttempts (h : validateConfig config = none) {attempt : ℕ}
    (hlt : .finite attempt < config.maxAttempts) :
    .finite (attempt + 1 : ℕ) ≤ config.maxAttempts := by
  obtain ⟨n, -, hn⟩ := exists_maxAttempts_of_valid h
  rw [hn, JsNumber.finite_lt_finite] at hlt
  rw [hn, JsNumber.finite_le_finite]
  exact_mod_cast hlt

/-! ## The delay -/

section Delay

variable {rounding : JsNumber.Rounding} {p q : ℚ}

/-- The bounds of a delay hold whatever number they are put on. -/
theorem min_max_bounds {a : JsNumber} (ha : a ≠ .nan) (hq : 0 ≤ q) :
    0 ≤ min (.finite q) (max 0 a) ∧ min (.finite q) (max 0 a) ≤ .finite q := by
  have hmax : max 0 a = .infinity false ∨ ∃ b : ℚ, 0 ≤ b ∧ max 0 a = .finite b := by
    cases a with
    | finite x =>
      rw [JsNumber.ofNat_eq_finite, JsNumber.max_finite]
      exact .inr ⟨_, by simp, rfl⟩
    | infinity negative =>
      cases negative with
      | false => exact .inl rfl
      | true => exact .inr ⟨0, le_rfl, rfl⟩
    | nan => exact absurd rfl ha
  rcases hmax with hmax | ⟨b, hb, hmax⟩
  · rw [hmax, JsNumber.min_of_le JsNumber.finite_le_infinity]
    exact ⟨JsNumber.finite_le_finite.2 (by simpa using hq), JsNumber.finite_le_finite.2 le_rfl⟩
  · rw [hmax, JsNumber.min_finite]
    exact ⟨JsNumber.finite_le_finite.2 (by simpa using le_min hq hb),
      JsNumber.finite_le_finite.2 (min_le_left q b)⟩

/-- Jitter of a delay within a number that the runtime has is no `NaN`. -/
theorem jittered_ne_nan (hq : rounding.round q = .finite q) {b j : ℚ} (hb : 0 ≤ b) (hbq : b ≤ q)
    (hj : 0 ≤ j) (hj1 : j ≤ 1) (random : RandomSample) :
    ((.finite b + ((.finite b * .finite j : JsNumber).rounded rounding *
      rounding.round (random.value - 1 / 2)).rounded rounding : JsNumber).rounded rounding).round ≠
        .nan := by
  obtain ⟨u, hu, hu0, huq⟩ := JsNumber.Rounding.exists_round_of_nonneg hq (mul_nonneg hb hj)
    ((mul_le_of_le_one_right hb hj1).trans hbq)
  obtain ⟨v, hv, hv1⟩ := JsNumber.Rounding.exists_round_of_abs_le rounding.round_one
    (q := random.value - 1 / 2)
    (abs_le.2 ⟨by linarith [random.nonneg], by linarith [random.lt_one]⟩)
  have huv : |u * v| ≤ q := by
    rw [abs_mul, abs_of_nonneg hu0]
    exact (mul_le_of_le_one_right hu0 hv1).trans huq
  obtain ⟨t, ht, -⟩ := JsNumber.Rounding.exists_round_of_abs_le hq huv
  rw [JsNumber.finite_mul_finite, JsNumber.rounded, hu, hv, JsNumber.finite_mul_finite,
    JsNumber.rounded, ht, JsNumber.finite_add_finite, JsNumber.rounded]
  cases hround : rounding.round (b + t) with
  | nan => exact absurd hround (rounding.round_ne_nan _)
  | finite r => exact nofun
  | infinity negative => exact nofun

/-- The delay without jitter, unless it is zero times infinity. -/
theorem exists_baseDelay (hp : 0 ≤ p) (hq : 0 ≤ q) {power : JsNumber} (hpower : 0 ≤ power)
    (h : p ≠ 0 ∨ power ≠ .infinity false) (rounding : JsNumber.Rounding) :
    ∃ b : ℚ, min ((.finite p * power : JsNumber).rounded rounding) (.finite q) = .finite b ∧
      0 ≤ b ∧ b ≤ q := by
  have hproduct : (.finite p * power : JsNumber).rounded rounding = .infinity false ∨
      ∃ x : ℚ, 0 ≤ x ∧ (.finite p * power : JsNumber).rounded rounding = .finite x := by
    rcases JsNumber.eq_finite_or_infinity_of_nonneg hpower with ⟨x, hx, rfl⟩ | rfl
    · have hnonneg := rounding.round_nonneg (mul_nonneg hp hx)
      rcases JsNumber.eq_finite_or_infinity_of_nonneg hnonneg with ⟨y, hy, hround⟩ | hround
      · exact .inr ⟨y, hy, hround⟩
      · exact .inl hround
    · have hne : p ≠ 0 := h.resolve_right fun hpower => hpower rfl
      left
      show ((if p = 0 then .nan else .infinity (false ^^ decide (p < 0)) : JsNumber).rounded
        rounding) = .infinity false
      rw [if_neg hne, decide_eq_false (not_lt.2 hp)]
      rfl
  rcases hproduct with hproduct | ⟨x, hx, hproduct⟩
  · rw [hproduct, JsNumber.min_of_lt rfl]
    exact ⟨q, rfl, hq, le_rfl⟩
  · rw [hproduct, JsNumber.min_finite]
    exact ⟨min x q, rfl, le_min hx hq, min_le_right x q⟩

theorem growth_nonneg (h : validateConfig config = none) (attemptIndex : ℕ) :
    0 ≤ growth rounding config attemptIndex := by
  obtain ⟨p, q, r, -, -, hr, -, -, hpos⟩ := exists_of_valid h
  rw [growth, hr, JsNumber.pow_finite]
  exact rounding.round_nonneg (pow_nonneg hpos.le attemptIndex)

/-- Zero times infinity is no delay. -/
theorem calculateDelay_eq_nan (hinitial : config.initialDelayMs = 0) {attemptIndex : ℕ}
    (hgrowth : growth rounding config attemptIndex = .infinity false) (random : RandomSample) :
    calculateDelay rounding config random attemptIndex = .nan := by
  have hproduct : (0 * .infinity false : JsNumber).rounded rounding = .nan := rfl
  have hmin : min .nan config.maxDelayMs = .nan := by
    show JsNumber.min .nan config.maxDelayMs = .nan
    exact if_pos (.inl rfl)
  have hjittered : ∀ a b : JsNumber, ((.nan + ((.nan * a : JsNumber).rounded rounding *
      b).rounded rounding : JsNumber).rounded rounding).round = .nan := fun _ _ => rfl
  have hmax : max 0 .nan = (.nan : JsNumber) := by
    show JsNumber.max 0 .nan = .nan
    exact if_pos (.inr rfl)
  unfold calculateDelay
  dsimp only
  rw [hinitial, hgrowth, hproduct, hmin, hjittered, hmax]
  show JsNumber.min config.maxDelayMs .nan = .nan
  exact if_pos (.inr rfl)

/-- **The delay of an accepted configuration is between zero and `maxDelayMs` exactly when it is
not made of zero times infinity.** -/
theorem calculateDelay_bounds_iff (h : validateConfig config = none)
    (hmax : config.maxDelayMs.rounded rounding = config.maxDelayMs) (random : RandomSample)
    (attemptIndex : ℕ) :
    (0 ≤ calculateDelay rounding config random attemptIndex ∧
        calculateDelay rounding config random attemptIndex ≤ config.maxDelayMs) ↔
      (config.initialDelayMs ≠ 0 ∨ growth rounding config attemptIndex ≠ .infinity false) := by
  constructor
  · rintro ⟨hnonneg, -⟩
    by_contra hnot
    rw [not_or, not_not, not_not] at hnot
    rw [calculateDelay_eq_nan hnot.1 hnot.2] at hnonneg
    exact JsNumber.not_le_nan hnonneg
  · intro husable
    obtain ⟨p, q, r, hinitial, hq, -, hp, hpq, -⟩ := exists_of_valid h
    obtain ⟨j, hj, hj0, hj1⟩ := exists_jitterFactor_of_valid rounding h
    have hround : rounding.round q = .finite q := by
      rw [hq] at hmax
      exact hmax
    have hzero : p ≠ 0 ∨ growth rounding config attemptIndex ≠ .infinity false := by
      refine husable.imp_left fun hne hpzero => hne ?_
      rw [hinitial, hpzero]
      rfl
    obtain ⟨b, hb, hb0, hbq⟩ := exists_baseDelay hp (hp.trans hpq)
      (growth_nonneg h attemptIndex) hzero rounding
    unfold calculateDelay
    dsimp only
    rw [hinitial, hq, hb, hj]
    exact min_max_bounds (jittered_ne_nan hround hb0 hbq hj0 hj1 random) (hp.trans hpq)

/-- A delay within the bounds is not refused. -/
theorem delayRefuses_eq_false (h : validateConfig config = none) {ms : JsNumber} (hms : 0 ≤ ms)
    (hle : ms ≤ config.maxDelayMs) : delayRefuses ms = false := by
  obtain ⟨p, q, r, -, hq, -, -, -, -⟩ := exists_of_valid h
  rcases JsNumber.eq_finite_or_infinity_of_nonneg hms with ⟨d, hd, rfl⟩ | rfl
  · simpa [delayRefuses, JsNumber.isFinite, JsNumber.ofNat_eq_finite] using hd
  · rw [hq] at hle
    exact absurd hle JsNumber.not_infinity_le_finite

end Delay

end SharedTsLibs.Polling
