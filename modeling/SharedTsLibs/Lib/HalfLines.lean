import Mathlib.Order.Interval.Set.LinearOrder
import Mathlib.Order.UpperLower.Basic

/-!
# Half-lines

Values of a linear order bounded from one side, by a threshold that is taken in or left out,
and what a list of such bounds leaves of the order.

* `Threshold.above`, `Threshold.below` — the half-lines of a threshold.
* `AtLeast`, `AtMost`, `Contradicts` — when one half-line lies in another, and when two of them
  do not meet, read off their thresholds.
* `HalfLine.inter`, `HalfLine.last` — what all bounds admit, and what the last bound on each
  side admits.
* `last_eq_inter_iff` — when these are the same.
-/

/-- A value, and whether a bound at it takes it in. -/
structure Threshold (α : Type*) where
  value : α
  inclusive : Bool

namespace Threshold

variable {α : Type*} [LinearOrder α]

/-- The half-line from a threshold upwards. -/
def above (t : Threshold α) : Set α := if t.inclusive then Set.Ici t.value else Set.Ioi t.value

/-- The half-line from a threshold downwards. -/
def below (t : Threshold α) : Set α := if t.inclusive then Set.Iic t.value else Set.Iio t.value

/-- As a bound from below, the first threshold is no weaker than the second. -/
def AtLeast (t s : Threshold α) : Prop :=
  s.value < t.value ∨ s.value = t.value ∧ (t.inclusive = true → s.inclusive = true)

/-- As a bound from above, the first threshold is no weaker than the second. -/
def AtMost (t s : Threshold α) : Prop :=
  t.value < s.value ∨ t.value = s.value ∧ (t.inclusive = true → s.inclusive = true)

/-- Nothing is above the first threshold and below the second. -/
def Contradicts (t s : Threshold α) : Prop :=
  s.value < t.value ∨ s.value = t.value ∧ ¬ (t.inclusive = true ∧ s.inclusive = true)

instance (t s : Threshold α) : Decidable (t.AtLeast s) := inferInstanceAs (Decidable (_ ∨ _))

instance (t s : Threshold α) : Decidable (t.AtMost s) := inferInstanceAs (Decidable (_ ∨ _))

instance (t s : Threshold α) : Decidable (t.Contradicts s) := inferInstanceAs (Decidable (_ ∨ _))

theorem isUpperSet_above (t : Threshold α) : IsUpperSet t.above := by
  rw [above]
  split
  · exact isUpperSet_Ici t.value
  · exact isUpperSet_Ioi t.value

theorem isLowerSet_below (t : Threshold α) : IsLowerSet t.below := by
  rw [below]
  split
  · exact isLowerSet_Iic t.value
  · exact isLowerSet_Iio t.value

theorem nonempty_above [NoMaxOrder α] (t : Threshold α) : t.above.Nonempty := by
  obtain ⟨x, hx⟩ := exists_gt t.value
  refine ⟨x, ?_⟩
  rw [above]
  split
  · exact hx.le
  · exact hx

theorem nonempty_below [NoMinOrder α] (t : Threshold α) : t.below.Nonempty := by
  obtain ⟨x, hx⟩ := exists_lt t.value
  refine ⟨x, ?_⟩
  rw [below]
  split
  · exact hx.le
  · exact hx

variable [DenselyOrdered α]

theorem above_subset_iff {t s : Threshold α} : t.above ⊆ s.above ↔ t.AtLeast s := by
  obtain ⟨a, i⟩ := t
  obtain ⟨b, j⟩ := s
  cases i <;> cases j <;>
    simp [above, AtLeast, Set.Ioi_subset_Ici_iff, Set.Ici_subset_Ioi, ← le_iff_lt_or_eq]

theorem below_subset_iff {t s : Threshold α} : t.below ⊆ s.below ↔ t.AtMost s := by
  obtain ⟨a, i⟩ := t
  obtain ⟨b, j⟩ := s
  cases i <;> cases j <;>
    simp [below, AtMost, Set.Iio_subset_Iic_iff, Set.Iic_subset_Iio, ← le_iff_lt_or_eq]

theorem above_inter_below_eq_empty_iff {t s : Threshold α} :
    t.above ∩ s.below = ∅ ↔ t.Contradicts s := by
  obtain ⟨a, i⟩ := t
  obtain ⟨b, j⟩ := s
  cases i <;> cases j <;>
    simp [above, below, Contradicts, Set.Ioi_inter_Iio, Set.Ioi_inter_Iic, Set.Ici_inter_Iio,
      Set.Ici_inter_Iic, Set.Ioo_eq_empty_iff, Set.Ioc_eq_empty_iff, Set.Ico_eq_empty_iff,
      Set.Icc_eq_empty_iff, ← le_iff_lt_or_eq]

end Threshold

/-! ## Lists of bounds -/

/-- A bound from below or from above. -/
inductive HalfLine (α : Type*) where
  | above (t : Threshold α)
  | below (t : Threshold α)

namespace HalfLine

variable {α : Type*} [LinearOrder α]

omit [LinearOrder α] in
def threshold : HalfLine α → Threshold α
  | .above t | .below t => t

/-- The values that a bound admits. -/
def set : HalfLine α → Set α
  | .above t => t.above
  | .below t => t.below

omit [LinearOrder α] in
/-- The thresholds from below, in order. -/
def floors (hs : List (HalfLine α)) : List (Threshold α) :=
  hs.filterMap fun
    | .above t => some t
    | .below _ => none

omit [LinearOrder α] in
/-- The thresholds from above, in order. -/
def ceilings (hs : List (HalfLine α)) : List (Threshold α) :=
  hs.filterMap fun
    | .above _ => none
    | .below t => some t

@[simp] theorem set_above (t : Threshold α) : (above t).set = t.above := rfl

@[simp] theorem set_below (t : Threshold α) : (below t).set = t.below := rfl

omit [LinearOrder α] in
@[simp] theorem floors_nil : floors ([] : List (HalfLine α)) = [] := rfl

omit [LinearOrder α] in
@[simp] theorem ceilings_nil : ceilings ([] : List (HalfLine α)) = [] := rfl

omit [LinearOrder α] in
@[simp] theorem floors_above_cons (t : Threshold α) (hs : List (HalfLine α)) :
    floors (.above t :: hs) = t :: floors hs := rfl

omit [LinearOrder α] in
@[simp] theorem floors_below_cons (t : Threshold α) (hs : List (HalfLine α)) :
    floors (.below t :: hs) = floors hs := rfl

omit [LinearOrder α] in
@[simp] theorem ceilings_above_cons (t : Threshold α) (hs : List (HalfLine α)) :
    ceilings (.above t :: hs) = ceilings hs := rfl

omit [LinearOrder α] in
@[simp] theorem ceilings_below_cons (t : Threshold α) (hs : List (HalfLine α)) :
    ceilings (.below t :: hs) = t :: ceilings hs := rfl

omit [LinearOrder α] in
theorem mem_floors {hs : List (HalfLine α)} {t : Threshold α} :
    t ∈ floors hs ↔ above t ∈ hs := by
  induction hs with
  | nil => simp
  | cons h hs ih => cases h <;> simp [ih]

omit [LinearOrder α] in
theorem mem_ceilings {hs : List (HalfLine α)} {t : Threshold α} :
    t ∈ ceilings hs ↔ below t ∈ hs := by
  induction hs with
  | nil => simp
  | cons h hs ih => cases h <;> simp [ih]

/-- What all bounds admit. -/
def inter (hs : List (HalfLine α)) : Set α := {x | ∀ h ∈ hs, x ∈ h.set}

/-- What an optional bound from below and one from above admit. -/
def between (floor ceiling : Option (Threshold α)) : Set α :=
  {x | ∀ t ∈ floor, x ∈ t.above} ∩ {x | ∀ t ∈ ceiling, x ∈ t.below}

/-- What the last bound on each side admits. -/
def last (hs : List (HalfLine α)) : Set α := between (floors hs).getLast? (ceilings hs).getLast?

/-- The last bounds contradict each other, or each is the strongest of its side. -/
def LastDecide (hs : List (HalfLine α)) : Prop :=
  (∃ t ∈ (floors hs).getLast?, ∃ s ∈ (ceilings hs).getLast?, t.Contradicts s) ∨
    (∀ t ∈ (floors hs).getLast?, ∀ s ∈ floors hs, t.AtLeast s) ∧
      ∀ t ∈ (ceilings hs).getLast?, ∀ s ∈ ceilings hs, t.AtMost s

theorem mem_inter_iff {hs : List (HalfLine α)} {x : α} :
    x ∈ inter hs ↔ (∀ t ∈ floors hs, x ∈ t.above) ∧ ∀ t ∈ ceilings hs, x ∈ t.below := by
  induction hs with
  | nil => simp [inter]
  | cons h hs ih =>
    have hcons : x ∈ inter (h :: hs) ↔ x ∈ h.set ∧ x ∈ inter hs := by simp [inter]
    rw [hcons, ih]
    cases h with
    | above t => simp [and_assoc]
    | below t => simp [and_left_comm]

theorem inter_subset_last (hs : List (HalfLine α)) : inter hs ⊆ last hs := by
  intro x hx
  rw [mem_inter_iff] at hx
  exact ⟨fun t ht => hx.1 t (List.mem_of_getLast? ht), fun t ht =>
    hx.2 t (List.mem_of_getLast? ht)⟩

theorem isUpperSet_floor (floor : Option (Threshold α)) :
    IsUpperSet {x : α | ∀ t ∈ floor, x ∈ t.above} :=
  fun _ _ hle hx t ht => t.isUpperSet_above hle (hx t ht)

theorem isLowerSet_ceiling (ceiling : Option (Threshold α)) :
    IsLowerSet {x : α | ∀ t ∈ ceiling, x ∈ t.below} :=
  fun _ _ hle hx t ht => t.isLowerSet_below hle (hx t ht)

/-- Where a set meets a lower one, it lies in an upper one as soon as what they share does. -/
theorem subset_of_inter_subset {u v l : Set α} (hv : IsUpperSet v) (hl : IsLowerSet l)
    (hmeet : (u ∩ l).Nonempty) (h : u ∩ l ⊆ v) : u ⊆ v := by
  obtain ⟨x, hx⟩ := hmeet
  intro y hy
  cases le_total x y with
  | inl hle => exact hv hle (h hx)
  | inr hle => exact h ⟨hy, hl hle hx.2⟩

theorem subset_of_inter_subset_dual {u v l : Set α} (hv : IsLowerSet v) (hu : IsUpperSet u)
    (hmeet : (u ∩ l).Nonempty) (h : u ∩ l ⊆ v) : l ⊆ v := by
  rw [Set.inter_comm] at hmeet h
  exact subset_of_inter_subset (α := αᵒᵈ) hv.toDual hu.toDual hmeet h

variable [DenselyOrdered α] [NoMinOrder α] [NoMaxOrder α] [Nonempty α]

theorem between_eq_empty_iff {floor ceiling : Option (Threshold α)} :
    between floor ceiling = ∅ ↔ ∃ t ∈ floor, ∃ s ∈ ceiling, t.Contradicts s := by
  cases floor with
  | none =>
    have hmeet : (between (none : Option (Threshold α)) ceiling).Nonempty := by
      cases ceiling with
      | none => exact ⟨Classical.arbitrary α, by simp [between]⟩
      | some s =>
        obtain ⟨x, hx⟩ := s.nonempty_below
        exact ⟨x, by simpa [between] using hx⟩
    simpa using hmeet.ne_empty
  | some t =>
    cases ceiling with
    | none =>
      obtain ⟨x, hx⟩ := t.nonempty_above
      have hmeet : (between (some t) (none : Option (Threshold α))).Nonempty :=
        ⟨x, by simpa [between] using hx⟩
      simpa using hmeet.ne_empty
    | some s =>
      have hinter : between (some t) (some s) = t.above ∩ s.below := by simp [between]
      rw [hinter, Threshold.above_inter_below_eq_empty_iff]
      simp

/-- **The last bounds admit what all bounds admit exactly when they decide.** -/
theorem last_eq_inter_iff {hs : List (HalfLine α)} : last hs = inter hs ↔ LastDecide hs := by
  constructor
  · intro h
    by_cases hmeet : (last hs).Nonempty
    · right
      have hsub : last hs ⊆ inter hs := h.subset
      refine ⟨fun t ht s hs' => ?_, fun t ht s hs' => ?_⟩
      · have hfloor := subset_of_inter_subset s.isUpperSet_above (isLowerSet_ceiling _) hmeet
          fun x hx => (mem_inter_iff.1 (hsub hx)).1 s hs'
        rw [ht] at hfloor
        simpa [Threshold.above_subset_iff] using hfloor
      · have hceiling := subset_of_inter_subset_dual s.isLowerSet_below (isUpperSet_floor _) hmeet
          fun x hx => (mem_inter_iff.1 (hsub hx)).2 s hs'
        rw [ht] at hceiling
        simpa [Threshold.below_subset_iff] using hceiling
    · left
      rw [← between_eq_empty_iff]
      exact Set.not_nonempty_iff_eq_empty.1 hmeet
  · intro h
    apply Set.Subset.antisymm _ (inter_subset_last hs)
    cases h with
    | inl hcontradicts =>
      rw [← between_eq_empty_iff] at hcontradicts
      rw [last, hcontradicts]
      exact Set.empty_subset _
    | inr hstrongest =>
      intro x hx
      rw [mem_inter_iff]
      refine ⟨fun s hs' => ?_, fun s hs' => ?_⟩
      · obtain ⟨t, ht⟩ := Option.isSome_iff_exists.1
          (List.getLast?_isSome.2 (List.ne_nil_of_mem hs'))
        exact Threshold.above_subset_iff.2 (hstrongest.1 t ht s hs') (hx.1 t ht)
      · obtain ⟨t, ht⟩ := Option.isSome_iff_exists.1
          (List.getLast?_isSome.2 (List.ne_nil_of_mem hs'))
        exact Threshold.below_subset_iff.2 (hstrongest.2 t ht s hs') (hx.2 t ht)

end HalfLine
