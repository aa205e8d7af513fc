import SharedTsLibs.Lib.JsArithmetic

/-!
# Rounding

What the runtime makes of an exact result: a number that it has, or an infinity.

* `Rounding` — the laws of rounding that are relied on: it respects the order and the sign, and
  whole numbers of at most 53 bits are exact.
* `exists_round_of_abs_le` — a result within a number that the runtime has stays within it.
* `rounded` — a result with the special values.
* `overflowing` — exact up to the numbers that become infinite.
-/

namespace JsNumber

/-- `-a`. -/
protected def neg : JsNumber → JsNumber
  | finite q => finite (-q)
  | infinity negative => infinity (!negative)
  | nan => nan

/-- The number that an exact result becomes. -/
structure Rounding where
  round : ℚ → JsNumber
  round_mono : ∀ {p q : ℚ}, p ≤ q → round p ≤ round q
  round_neg : ∀ q : ℚ, round (-q) = (round q).neg
  round_natCast : ∀ {n : ℕ}, n ≤ 2 ^ 53 → round n = finite n

/-- An exact number as a number of the runtime. -/
def rounded (rounding : Rounding) : JsNumber → JsNumber
  | finite q => rounding.round q
  | infinity negative => infinity negative
  | nan => nan

namespace Rounding

variable (rounding : Rounding) {q b : ℚ}

theorem round_zero : rounding.round 0 = finite 0 := by
  have h := rounding.round_natCast (Nat.zero_le (2 ^ 53))
  simpa using h

theorem round_one : rounding.round 1 = finite 1 := by
  have h := rounding.round_natCast (Nat.one_le_two_pow : 1 ≤ 2 ^ 53)
  simpa using h

theorem round_nonneg (h : 0 ≤ q) : 0 ≤ rounding.round q := by
  have hle := rounding.round_mono h
  rwa [rounding.round_zero] at hle

/-- No result becomes `NaN`. -/
theorem round_ne_nan (q : ℚ) : rounding.round q ≠ nan :=
  ne_nan_of_le_left (rounding.round_mono (show q ≤ q from le_rfl))

variable {rounding}

/-- A result within a number that the runtime has stays within it. -/
theorem exists_round_of_abs_le (hb : rounding.round b = finite b) (h : |q| ≤ b) :
    ∃ r : ℚ, rounding.round q = finite r ∧ |r| ≤ b := by
  obtain ⟨hneg, hpos⟩ := abs_le.1 h
  have hlower := rounding.round_mono hneg
  have hupper := rounding.round_mono hpos
  rw [rounding.round_neg, hb] at hlower
  rw [hb] at hupper
  cases hround : rounding.round q with
  | finite r =>
    rw [hround] at hlower hupper
    exact ⟨r, rfl, abs_le.2 ⟨finite_le_finite.1 hlower, finite_le_finite.1 hupper⟩⟩
  | infinity negative =>
    rw [hround] at hlower hupper
    cases negative with
    | false => exact absurd hupper not_infinity_le_finite
    | true => cases hlower
  | nan => exact absurd hround (rounding.round_ne_nan q)

/-- A result between zero and a number that the runtime has stays there. -/
theorem exists_round_of_nonneg (hb : rounding.round b = finite b) (hq : 0 ≤ q) (h : q ≤ b) :
    ∃ r : ℚ, rounding.round q = finite r ∧ 0 ≤ r ∧ r ≤ b := by
  obtain ⟨r, hr, hle⟩ := exists_round_of_abs_le hb ((abs_of_nonneg hq).trans_le h)
  have hnonneg := rounding.round_nonneg hq
  rw [hr] at hnonneg
  exact ⟨r, hr, finite_le_finite.1 hnonneg, (abs_le.1 hle).2⟩

end Rounding

/-! ## Overflow -/

/-- Half a unit above the largest number. -/
def overflowThreshold : ℚ := 2 ^ 1024 - 2 ^ 970

theorem overflowThreshold_pos : 0 < overflowThreshold :=
  sub_pos.2 (pow_lt_pow_right₀ (by norm_num) (by norm_num))

/-- A finite number, or an infinity if it is too large. -/
def overflow (q : ℚ) : JsNumber :=
  if |q| < overflowThreshold then finite q else infinity (decide (q < 0))

theorem overflow_mono {p q : ℚ} (h : p ≤ q) : overflow p ≤ overflow q := by
  unfold overflow
  by_cases hp : |p| < overflowThreshold
  · by_cases hq : |q| < overflowThreshold
    · rw [if_pos hp, if_pos hq]
      exact finite_le_finite.2 h
    · -- the larger number is above the threshold
      have hpos : ¬ q < 0 := by
        intro hneg
        rw [abs_of_neg hneg] at hq
        linarith [(abs_lt.1 hp).1]
      rw [if_pos hp, if_neg hq, decide_eq_false hpos]
      rfl
  · rw [if_neg hp]
    by_cases hneg : p < 0
    · rw [decide_eq_true hneg]
      split <;> rfl
    · -- both numbers are above it
      have hq : ¬ |q| < overflowThreshold := by
        rw [abs_of_nonneg (not_lt.1 hneg)] at hp
        rw [abs_of_nonneg ((not_lt.1 hneg).trans h)]
        linarith
      have hqneg : ¬ q < 0 := fun hqneg => hneg (h.trans_lt hqneg)
      rw [decide_eq_false hneg, if_neg hq, decide_eq_false hqneg]
      rfl

theorem overflow_neg (q : ℚ) : overflow (-q) = (overflow q).neg := by
  unfold overflow
  rw [abs_neg]
  split
  · rfl
  · next hlarge =>
    have hne : q ≠ 0 := by
      rintro rfl
      exact hlarge (by simpa using overflowThreshold_pos)
    show infinity (decide (-q < 0)) = infinity (!decide (q < 0))
    rcases lt_or_gt_of_ne hne with hneg | hpos
    · simp [hneg, hneg.le]
    · simp [hpos, hpos.le]

/-- Exact up to the numbers that become infinite. -/
def overflowing : Rounding where
  round := overflow
  round_mono := overflow_mono
  round_neg := overflow_neg
  round_natCast := by
    intro n hn
    refine if_pos ?_
    rw [abs_of_nonneg (Nat.cast_nonneg n)]
    calc (n : ℚ) ≤ (2 ^ 53 : ℕ) := by exact_mod_cast hn
      _ < overflowThreshold := by decide +kernel

end JsNumber
