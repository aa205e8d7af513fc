import SharedTsLibs.Lib.JsRuntime
import Mathlib.Algebra.Order.Field.Rat
import Mathlib.Tactic.Linarith

/-!
# Arithmetic of the runtime's numbers

Comparison, addition, multiplication, division and `Math.min` of JavaScript, special values
included.  Finite numbers are rationals, so that there is neither rounding nor overflow,
and zero has no sign.

* `le_trans`, `le_or_lt` — the numbers other than `NaN` are in a linear order.
* `le_min`, `min_le_right` — what `Math.min` is for that order.
* `le_min_double` — doubling a positive number up to a bound that it respects.
-/

namespace JsNumber

instance (n : ℕ) : OfNat JsNumber n := ⟨finite n⟩

/-- `a <= b`. -/
def le : JsNumber → JsNumber → Bool
  | finite p, finite q => decide (p ≤ q)
  | finite _, infinity negative => !negative
  | infinity negative, finite _ => negative
  | infinity negative, infinity negative' => negative || !negative'
  | nan, _ | _, nan => false

/-- `a < b`. -/
def lt : JsNumber → JsNumber → Bool
  | finite p, finite q => decide (p < q)
  | finite _, infinity negative => !negative
  | infinity negative, finite _ => negative
  | infinity negative, infinity negative' => negative && !negative'
  | nan, _ | _, nan => false

instance : LE JsNumber := ⟨fun a b => le a b = true⟩

instance : LT JsNumber := ⟨fun a b => lt a b = true⟩

instance (a b : JsNumber) : Decidable (a ≤ b) := inferInstanceAs (Decidable (le a b = true))

instance (a b : JsNumber) : Decidable (a < b) := inferInstanceAs (Decidable (lt a b = true))

/-- `a + b`. -/
protected def add : JsNumber → JsNumber → JsNumber
  | finite p, finite q => finite (p + q)
  | finite _, infinity negative | infinity negative, finite _ => infinity negative
  | infinity negative, infinity negative' =>
    if negative = negative' then infinity negative else nan
  | nan, _ | _, nan => nan

/-- `a * b`. -/
protected def mul : JsNumber → JsNumber → JsNumber
  | finite p, finite q => finite (p * q)
  | finite p, infinity negative | infinity negative, finite p =>
    if p = 0 then nan else infinity (negative ^^ decide (p < 0))
  | infinity negative, infinity negative' => infinity (negative ^^ negative')
  | nan, _ | _, nan => nan

/-- `a / b`. -/
protected def div : JsNumber → JsNumber → JsNumber
  | finite p, finite q =>
    if q ≠ 0 then finite (p / q) else if p = 0 then nan else infinity (decide (p < 0))
  | finite _, infinity _ => finite 0
  | infinity negative, finite q => infinity (negative ^^ decide (q < 0))
  | infinity _, infinity _ => nan
  | nan, _ | _, nan => nan

/-- `Math.min(a, b)`. -/
protected def min (a b : JsNumber) : JsNumber :=
  if a = nan ∨ b = nan then nan else if a ≤ b then a else b

/-- `Math.max(a, b)`. -/
protected def max (a b : JsNumber) : JsNumber :=
  if a = nan ∨ b = nan then nan else if a ≤ b then b else a

/-- `Math.round(a)`: to the closest integer, halves upwards. -/
def round : JsNumber → JsNumber
  | finite q => finite (⌊q + 1 / 2⌋ : ℤ)
  | infinity negative => infinity negative
  | nan => nan

/-- `Math.ceil(a)`. -/
def ceil : JsNumber → JsNumber
  | finite q => finite (⌈q⌉ : ℤ)
  | infinity negative => infinity negative
  | nan => nan

/-- `Number.isFinite(a)`. -/
def isFinite : JsNumber → Bool
  | finite _ => true
  | infinity _ | nan => false

/-- `Number.isInteger(a)`. -/
def isInteger : JsNumber → Bool
  | finite q => q.isInt
  | infinity _ | nan => false

instance : Add JsNumber := ⟨JsNumber.add⟩

instance : Mul JsNumber := ⟨JsNumber.mul⟩

instance : Div JsNumber := ⟨JsNumber.div⟩

instance : Min JsNumber := ⟨JsNumber.min⟩

instance : Max JsNumber := ⟨JsNumber.max⟩

/-- `a ** n`. -/
def pow (a : JsNumber) : ℕ → JsNumber
  | 0 => 1
  | n + 1 => pow a n * a

/-! ## Order -/

variable {a b c : JsNumber} {p q : ℚ}

@[simp] theorem finite_le_finite : finite p ≤ finite q ↔ p ≤ q := decide_eq_true_iff

@[simp] theorem finite_lt_finite : finite p < finite q ↔ p < q := decide_eq_true_iff

@[simp] theorem finite_add_finite : finite p + finite q = finite (p + q) := rfl

@[simp] theorem finite_mul_finite : finite p * finite q = finite (p * q) := rfl

theorem finite_div_finite (h : q ≠ 0) : finite p / finite q = finite (p / q) := if_pos h

theorem ofNat_eq_finite (n : ℕ) : (OfNat.ofNat n : JsNumber) = finite n := rfl

@[simp] theorem not_nan_le : ¬ nan ≤ b := by
  show ¬ le nan b = true
  cases b <;> exact Bool.false_ne_true

@[simp] theorem not_le_nan : ¬ a ≤ nan := by
  show ¬ le a nan = true
  cases a <;> exact Bool.false_ne_true

@[simp] theorem not_nan_lt : ¬ nan < b := by
  show ¬ lt nan b = true
  cases b <;> exact Bool.false_ne_true

@[simp] theorem not_lt_nan : ¬ a < nan := by
  show ¬ lt a nan = true
  cases a <;> exact Bool.false_ne_true

@[simp] theorem finite_le_infinity : finite p ≤ infinity false := rfl

@[simp] theorem not_infinity_le_finite : ¬ infinity false ≤ finite p := nofun

@[simp] theorem not_infinity_lt_finite : ¬ infinity false < finite p := nofun

@[simp] theorem infinity_add_finite {negative : Bool} :
    infinity negative + finite p = infinity negative := rfl

/-- A number that is not negative is finite or infinite. -/
theorem eq_finite_or_infinity_of_nonneg (h : 0 ≤ a) :
    (∃ q, 0 ≤ q ∧ a = finite q) ∨ a = infinity false := by
  change le 0 a = true at h
  cases a with
  | finite q => exact .inl ⟨q, by simpa [le, ofNat_eq_finite] using h, rfl⟩
  | infinity negative =>
    have hpositive : negative = false := by simpa [le, ofNat_eq_finite] using h
    exact .inr (hpositive ▸ rfl)
  | nan => exact absurd h not_le_nan

/-- The whole numbers that are not negative are the natural numbers. -/
theorem isInteger_and_not_neg_iff : a.isInteger = true ∧ ¬ a < 0 ↔ ∃ n : ℕ, a = finite n := by
  cases a with
  | finite q =>
    constructor
    · rintro ⟨hint, hneg⟩
      have hnum : ((q.num : ℤ) : ℚ) = q := Rat.coe_int_num_of_den_eq_one (eq_of_beq hint)
      have hnonneg : 0 ≤ q.num := Rat.num_nonneg.2 (by simpa [ofNat_eq_finite] using hneg)
      refine ⟨q.num.toNat, ?_⟩
      have hcast : ((q.num.toNat : ℕ) : ℚ) = q := by
        rw [← hnum]
        exact_mod_cast Int.toNat_of_nonneg hnonneg
      rw [hcast]
    · rintro ⟨n, hn⟩
      rw [hn]
      exact ⟨rfl, by simp [ofNat_eq_finite]⟩
  | infinity negative => simp [isInteger]
  | nan => simp [isInteger]

theorem ne_nan_of_le_left (h : a ≤ b) : a ≠ nan := by
  rintro rfl
  exact not_nan_le h

theorem ne_nan_of_le_right (h : a ≤ b) : b ≠ nan := by
  rintro rfl
  exact not_le_nan h

theorem ne_nan_of_lt_left (h : a < b) : a ≠ nan := by
  rintro rfl
  exact not_nan_lt h

theorem ne_nan_of_lt_right (h : a < b) : b ≠ nan := by
  rintro rfl
  exact not_lt_nan h

theorem le_refl (h : a ≠ nan) : a ≤ a := by
  show le a a = true
  cases a with
  | finite p => exact decide_eq_true_iff.2 le_rfl
  | infinity negative => cases negative <;> rfl
  | nan => exact absurd rfl h

theorem le_trans (hab : a ≤ b) (hbc : b ≤ c) : a ≤ c := by
  change le a b = true at hab
  change le b c = true at hbc
  show le a c = true
  cases a <;> cases b <;> cases c <;> grind [le]

/-- Of two numbers one is at most the other, or more than it. -/
theorem le_or_lt (ha : a ≠ nan) (hb : b ≠ nan) : a ≤ b ∨ b < a := by
  show le a b = true ∨ lt b a = true
  cases a <;> cases b <;> grind [le, lt]

theorem le_of_lt (h : a < b) : a ≤ b := by
  change lt a b = true at h
  show le a b = true
  cases a <;> cases b <;> grind [le, lt]

theorem not_le_of_lt (h : a < b) : ¬ b ≤ a := by
  change lt a b = true at h
  show ¬ le b a = true
  cases a <;> cases b <;> grind [le, lt]

/-- What is at most a number, and not less than it, is that number. -/
theorem eq_of_le_of_not_lt (hle : a ≤ b) (hlt : ¬ a < b) : b = a := by
  change le a b = true at hle
  change ¬ lt a b = true at hlt
  cases a <;> cases b <;> grind [le, lt]

theorem lt_of_lt_of_le (hab : a < b) (hbc : b ≤ c) : a < c := by
  have hle : a ≤ c := le_trans (le_of_lt hab) hbc
  rcases le_or_lt (ne_nan_of_le_right hle) (ne_nan_of_le_left hle) with hca | hlt
  · exact absurd (le_trans hbc hca) (not_le_of_lt hab)
  · exact hlt

theorem lt_of_le_of_lt (hab : a ≤ b) (hbc : b < c) : a < c := by
  have hle : a ≤ c := le_trans hab (le_of_lt hbc)
  rcases le_or_lt (ne_nan_of_le_right hle) (ne_nan_of_le_left hle) with hca | hlt
  · exact absurd (le_trans hca hab) (not_le_of_lt hbc)
  · exact hlt

theorem le_total (ha : a ≠ nan) (hb : b ≠ nan) : a ≤ b ∨ b ≤ a :=
  (le_or_lt ha hb).imp_right le_of_lt

/-! ## `Math.min` -/

theorem min_of_le (h : a ≤ b) : min a b = a := by
  have hnan : ¬ (a = nan ∨ b = nan) := not_or.2 ⟨ne_nan_of_le_left h, ne_nan_of_le_right h⟩
  show JsNumber.min a b = a
  rw [JsNumber.min, if_neg hnan, if_pos h]

theorem min_of_lt (h : b < a) : min a b = b := by
  have hnan : ¬ (a = nan ∨ b = nan) := not_or.2 ⟨ne_nan_of_lt_right h, ne_nan_of_lt_left h⟩
  show JsNumber.min a b = b
  rw [JsNumber.min, if_neg hnan, if_neg (not_le_of_lt h)]

theorem ne_nan_of_min (h : min a b ≠ nan) : a ≠ nan ∧ b ≠ nan := by
  by_contra hnan
  rw [← not_or, not_not] at hnan
  exact h (if_pos hnan)

/-- `Math.min` is bounded by its second argument, unless it is `NaN`. -/
theorem min_le_right (h : min a b ≠ nan) : min a b ≤ b := by
  obtain ⟨ha, hb⟩ := ne_nan_of_min h
  rcases le_or_lt ha hb with hab | hba
  · rwa [min_of_le hab]
  · rw [min_of_lt hba]
    exact le_refl hb

theorem min_ne_nan (ha : a ≠ nan) (hb : b ≠ nan) : min a b ≠ nan := by
  rcases le_or_lt ha hb with hab | hba
  · rwa [min_of_le hab]
  · rwa [min_of_lt hba]

theorem le_min (ha : c ≤ a) (hb : c ≤ b) : c ≤ min a b := by
  rcases le_or_lt (ne_nan_of_le_right ha) (ne_nan_of_le_right hb) with hab | hba
  · rwa [min_of_le hab]
  · rwa [min_of_lt hba]

@[simp] theorem min_finite : min (finite p) (finite q) = finite (min p q) := by
  rcases Rat.le_total (a := p) (b := q) with h | h
  · rw [min_of_le (finite_le_finite.2 h), min_eq_left h]
  · rcases h.lt_or_eq with hlt | rfl
    · rw [min_of_lt (finite_lt_finite.2 hlt), min_eq_right h]
    · rw [min_of_le (finite_le_finite.2 h), min_self]

@[simp] theorem max_finite : max (finite p) (finite q) = finite (max p q) := by
  have hnan : ¬ (finite p = nan ∨ finite q = nan) := by simp
  show JsNumber.max (finite p) (finite q) = _
  rw [JsNumber.max, if_neg hnan]
  by_cases h : p ≤ q
  · rw [if_pos (finite_le_finite.2 h), max_eq_right h]
  · rw [if_neg (mt finite_le_finite.1 h), max_eq_left (le_of_not_ge h)]

theorem pow_finite (p : ℚ) (n : ℕ) : pow (finite p) n = finite (p ^ n) := by
  induction n with
  | zero => rw [pow, pow_zero]; rfl
  | succ n ih => rw [pow, ih, finite_mul_finite, pow_succ]

/-! ## Growth -/

theorem mul_ne_nan (hp : 0 < p) (ha : a ≠ nan) : finite p * a ≠ nan := by
  show JsNumber.mul (finite p) a ≠ nan
  cases a with
  | finite q => simp [JsNumber.mul]
  | infinity negative => simp [JsNumber.mul, hp.ne']
  | nan => exact absurd rfl ha

theorem le_double (ha : 0 < a) : a ≤ a * 2 := by
  change lt 0 a = true at ha
  show le a (JsNumber.mul a 2) = true
  cases a with
  | finite q =>
    have hq : 0 < q := by simpa [lt, ofNat_eq_finite] using ha
    have hle : q ≤ q * 2 := by linarith
    simpa [le, JsNumber.mul, ofNat_eq_finite] using hle
  | infinity negative =>
    have hpositive : negative = false := by simpa [lt, ofNat_eq_finite] using ha
    subst hpositive
    decide
  | nan => exact absurd ha (by decide)

theorem double_ne_nan (ha : 0 < a) : a * 2 ≠ nan := ne_nan_of_le_right (le_double ha)

theorem min_double_pos (ha : 0 < a) (hb : 0 < b) : 0 < min (a * 2) b := by
  rcases le_or_lt (double_ne_nan ha) (ne_nan_of_lt_right hb) with hle | hlt
  · rw [min_of_le hle]
    exact lt_of_lt_of_le ha (le_double ha)
  · rwa [min_of_lt hlt]

/-- A positive number doubled up to a bound that it respects has not become smaller. -/
theorem le_min_double (ha : 0 < a) (hb : a ≤ b) : a ≤ min (a * 2) b :=
  le_min (le_double ha) hb

theorem add_one_le_add_one {n : ℕ} (h : finite n ≤ a) : finite (n + 1 : ℕ) ≤ a + 1 := by
  change le (finite n) a = true at h
  show le (finite (n + 1 : ℕ)) (JsNumber.add a 1) = true
  cases a with
  | finite q =>
    have hq : (n : ℚ) ≤ q := by simpa [le] using h
    have hle : (n : ℚ) + 1 ≤ q + 1 := by linarith
    simpa [le, JsNumber.add, ofNat_eq_finite] using hle
  | infinity negative =>
    have hpositive : negative = false := by simpa [le] using h
    subst hpositive
    rfl
  | nan => exact absurd h not_le_nan

end JsNumber
