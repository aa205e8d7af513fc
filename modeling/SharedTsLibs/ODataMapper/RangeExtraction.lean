import SharedTsLibs.ODataMapper.FilterExtractor
import SharedTsLibs.Lib.HalfLines
import Mathlib.Algebra.Order.Field.Rat
import Mathlib.Algebra.Order.Field.Basic

/-!
# Extracted ranges

The bounds that the extractor reads off a conjunction of comparisons with numbers, and the
values that satisfy these comparisons.

* `RangeConjunction` — nested conjunctions of `gt`, `ge`, `lt` and `le` comparisons of a field.
* `RangesExact` — the bounds admit the values that satisfy the filter, and a strict comparison
  is refused where bounds must be inclusive.
* `extractRange_eq` — the extractor keeps the last bound of each side.
* `rangesExact_iff` — this is exact when the last bounds decide, and one of them is strict as
  soon as any comparison is.
-/

namespace SharedTsLibs.ODataMapper

variable {D : Type}

/-! ## Conjunctions -/

/-- A nested conjunction of comparisons that bound one field by numbers. -/
inductive RangeConjunction (field : String) : TransformedFilter D → Prop
  | comparison {operator : ComparisonOperator} {q : ℚ} (hrange : operator ∈ rangeOperators) :
      RangeConjunction field (.comparison field operator (.num q))
  | and {filters : List (TransformedFilter D)}
      (hfilters : ∀ filter ∈ filters, RangeConjunction field filter) :
      RangeConjunction field (.logical .and filters)

/-- Numbers are compared as numbers, and nothing else compares. -/
def numericReading : Reading D where
  eq x y := match x, y with
    | .num p, .num q => p = q
    | _, _ => false
  lt x y := match x, y with
    | .num p, .num q => p < q
    | _, _ => false
  text _ := none
  eq_comm x y := by
    cases x <;> cases y <;> first | rfl | exact decide_eq_decide.2 eq_comm

/-- `gt` and `lt` leave their bound out. -/
def TransformedFilter.isStrict : TransformedFilter D → Bool
  | .comparison _ operator _ => operator = .gt ∨ operator = .lt
  | _ => false

/-! ## What the extractors should do -/

/-- A value is within the bounds that are there. -/
def Range.Admits (range : Range D) (x : ℚ) : Prop :=
  (range.min.isUndefined = true ∨
    (if range.minInclusive = some true then ComparisonOperator.ge else .gt).holds numericReading
      (.num x) range.min = true) ∧
  (range.max.isUndefined = true ∨
    (if range.maxInclusive = some true then ComparisonOperator.le else .lt).holds numericReading
      (.num x) range.max = true)

/-- A value is within the bounds that are there, both of which are inclusive. -/
def InclusiveRange.Admits (range : InclusiveRange D) (x : ℚ) : Prop :=
  (range.min.isUndefined = true ∨
    ComparisonOperator.ge.holds numericReading (.num x) range.min = true) ∧
  (range.max.isUndefined = true ∨
    ComparisonOperator.le.holds numericReading (.num x) range.max = true)

/-- The bounds of a field admit the values that satisfy the filter; with inclusive bounds a
strict comparison is refused, and nothing else.  Where no bounds are returned every value is
admitted. -/
structure RangesExact (field : String) (filter : TransformedFilter D) : Prop where
  range : ∀ (record : Record D) (x : ℚ), record field = .num x →
    ((∀ range ∈ extractRange filter field, range.Admits x) ↔
      filter.holds numericReading record = true)
  refused : (∃ message, extractInclusiveRange filter field = .error message) ↔
    ∃ leaf ∈ flattenFilters filter, leaf.isStrict = true
  inclusiveRange : ∀ result, extractInclusiveRange filter field = .ok result →
    ∀ (record : Record D) (x : ℚ), record field = .num x →
      ((∀ range ∈ result, range.Admits x) ↔ filter.holds numericReading record = true)

/-! ## Bounds -/

/-- The half-line that a comparison with a number describes. -/
def TransformedFilter.halfLine? : TransformedFilter D → Option (HalfLine ℚ)
  | .comparison _ .gt (.num q) => some (.above ⟨q, false⟩)
  | .comparison _ .ge (.num q) => some (.above ⟨q, true⟩)
  | .comparison _ .lt (.num q) => some (.below ⟨q, false⟩)
  | .comparison _ .le (.num q) => some (.below ⟨q, true⟩)
  | _ => none

/-- The bounds of a conjunction, in order. -/
def bounds (filter : TransformedFilter D) : List (HalfLine ℚ) :=
  (flattenFilters filter).filterMap TransformedFilter.halfLine?

/-- A bound is there and strict. -/
def StrictAt (bound : Option (Threshold ℚ)) : Prop := ∃ t ∈ bound, t.inclusive = false

instance (bound : Option (Threshold ℚ)) : Decidable (StrictAt bound) :=
  decidable_of_iff (bound.any fun t => !t.inclusive) (by cases bound <;> simp [StrictAt])

/-- The last bounds decide what all of them admit, and one of them is strict as soon as any
comparison is. -/
structure LastBoundsDecide (filter : TransformedFilter D) : Prop where
  tightest : HalfLine.LastDecide (bounds filter)
  strict : (∃ leaf ∈ flattenFilters filter, leaf.isStrict = true) →
    StrictAt (HalfLine.floors (bounds filter)).getLast? ∨
      StrictAt (HalfLine.ceilings (bounds filter)).getLast?

/-- The leaves of a conjunction are comparisons of its field with numbers. -/
theorem RangeConjunction.leaf {field : String} {filter : TransformedFilter D}
    (h : RangeConjunction field filter) :
    ∀ leaf ∈ flattenFilters filter, ∃ operator ∈ rangeOperators, ∃ q : ℚ,
      leaf = .comparison field operator (.num q) := by
  induction h with
  | comparison hrange =>
    intro leaf hleaf
    simp only [flattenFilters, List.mem_singleton] at hleaf
    exact ⟨_, hrange, _, hleaf⟩
  | and hfilters ih =>
    intro leaf hleaf
    rw [flattenFilters, mem_flattenAll] at hleaf
    obtain ⟨filter, hfilter, hleaf⟩ := hleaf
    exact ih filter hfilter leaf hleaf

/-- A conjunction holds when all its leaves do. -/
theorem RangeConjunction.holds_iff_leaves {field : String} {filter : TransformedFilter D}
    (h : RangeConjunction field filter) {reading : Reading D} {record : Record D} :
    filter.holds reading record = true ↔
      ∀ leaf ∈ flattenFilters filter, leaf.holds reading record = true := by
  induction h with
  | comparison hrange => simp [flattenFilters]
  | and hfilters ih =>
    rw [TransformedFilter.holds, allHold_eq_true_iff, flattenFilters]
    simp only [mem_flattenAll]
    constructor
    · rintro hall leaf ⟨filter, hfilter, hleaf⟩
      exact (ih filter hfilter).1 (hall filter hfilter) leaf hleaf
    · intro hleaves filter hfilter
      exact (ih filter hfilter).2 fun leaf hleaf => hleaves leaf ⟨filter, hfilter, hleaf⟩

section Numbers

variable {x : ℚ} {t : Threshold ℚ}

/-- A bound from below is a comparison with its value. -/
theorem holds_above_iff :
    (if t.inclusive = true then ComparisonOperator.ge else .gt).holds
        (numericReading : Reading D) (.num x) (.num t.value) = true ↔ x ∈ t.above := by
  obtain ⟨q, inclusive⟩ := t
  cases inclusive with
  | false => simp [ComparisonOperator.holds, numericReading, Threshold.above]
  | true =>
    simp [ComparisonOperator.holds, numericReading, Threshold.above, le_iff_lt_or_eq,
      eq_comm (a := x)]

/-- A bound from above is a comparison with its value. -/
theorem holds_below_iff :
    (if t.inclusive = true then ComparisonOperator.le else .lt).holds
        (numericReading : Reading D) (.num x) (.num t.value) = true ↔ x ∈ t.below := by
  obtain ⟨q, inclusive⟩ := t
  cases inclusive with
  | false => simp [ComparisonOperator.holds, numericReading, Threshold.below]
  | true => simp [ComparisonOperator.holds, numericReading, Threshold.below, le_iff_lt_or_eq]

end Numbers

/-- A comparison with a number is its half-line. -/
theorem holds_comparison_iff {field : String} {operator : ComparisonOperator} {q x : ℚ}
    {record : Record D} (hrange : operator ∈ rangeOperators) (hrecord : record field = .num x) :
    (TransformedFilter.comparison field operator (.num q)).holds numericReading record = true ↔
      ∀ h ∈ (TransformedFilter.comparison field operator (.num q : AstValue D)).halfLine?,
        x ∈ h.set := by
  rw [TransformedFilter.holds, hrecord]
  cases operator with
  | eq | ne => simp [rangeOperators] at hrange
  | gt => simpa [TransformedFilter.halfLine?] using holds_above_iff (t := ⟨q, false⟩)
  | ge => simpa [TransformedFilter.halfLine?] using holds_above_iff (t := ⟨q, true⟩)
  | lt => simpa [TransformedFilter.halfLine?] using holds_below_iff (t := ⟨q, false⟩)
  | le => simpa [TransformedFilter.halfLine?] using holds_below_iff (t := ⟨q, true⟩)

theorem RangeConjunction.holds_iff {field : String} {filter : TransformedFilter D}
    (h : RangeConjunction field filter) {record : Record D} {x : ℚ}
    (hrecord : record field = .num x) :
    filter.holds numericReading record = true ↔ x ∈ HalfLine.inter (bounds filter) := by
  rw [h.holds_iff_leaves]
  have hleaf : ∀ leaf ∈ flattenFilters filter, (leaf.holds numericReading record = true ↔
      ∀ h ∈ leaf.halfLine?, x ∈ h.set) := by
    intro leaf hmem
    obtain ⟨operator, hrange, q, rfl⟩ := h.leaf leaf hmem
    exact holds_comparison_iff hrange hrecord
  constructor
  · intro hall half hhalf
    obtain ⟨leaf, hmem, hdescribes⟩ := List.mem_filterMap.1 hhalf
    exact (hleaf leaf hmem).1 (hall leaf hmem) half hdescribes
  · intro hinter leaf hmem
    exact (hleaf leaf hmem).2 fun half hhalf =>
      hinter half (List.mem_filterMap.2 ⟨leaf, hmem, hhalf⟩)

/-! ## What the extractors do -/

/-- The range of an optional bound from below and one from above. -/
def Range.ofBounds (floor ceiling : Option (Threshold ℚ)) : Range D where
  min := floor.elim .undefined fun t => .num t.value
  minInclusive := floor.map (·.inclusive)
  max := ceiling.elim .undefined fun t => .num t.value
  maxInclusive := ceiling.map (·.inclusive)

theorem Range.admits_ofBounds {floor ceiling : Option (Threshold ℚ)} {x : ℚ} :
    (Range.ofBounds floor ceiling : Range D).Admits x ↔ x ∈ HalfLine.between floor ceiling := by
  apply and_congr
  · cases floor with
    | none => simp [Range.ofBounds, AstValue.isUndefined]
    | some t => simpa [Range.ofBounds, AstValue.isUndefined] using holds_above_iff (t := t)
  · cases ceiling with
    | none => simp [Range.ofBounds, AstValue.isUndefined]
    | some t => simpa [Range.ofBounds, AstValue.isUndefined] using holds_below_iff (t := t)

/-- The last of a list, or of what came before it. -/
theorem getLast?_cons_or {α : Type*} {a : α} {l : List α} {o : Option α} :
    (a :: l).getLast?.or o = l.getLast?.or (some a) := by
  rw [List.getLast?_cons]
  cases l.getLast? <;> rfl

/-- The loop keeps the last bound of each side. -/
theorem foldl_setBound {field : String} {leaves : List (TransformedFilter D)}
    (hleaves : ∀ leaf ∈ leaves, ∃ operator ∈ rangeOperators, ∃ q : ℚ,
      leaf = .comparison field operator (.num q)) {floor ceiling : Option (Threshold ℚ)} :
    leaves.foldl Range.setBound (Range.ofBounds floor ceiling) =
      Range.ofBounds
        ((HalfLine.floors (leaves.filterMap TransformedFilter.halfLine?)).getLast?.or floor)
        ((HalfLine.ceilings (leaves.filterMap TransformedFilter.halfLine?)).getLast?.or
          ceiling) := by
  induction leaves generalizing floor ceiling with
  | nil => simp
  | cons leaf leaves ih =>
    rw [List.forall_mem_cons] at hleaves
    obtain ⟨⟨operator, hrange, q, rfl⟩, hleaves⟩ := hleaves
    rw [List.foldl_cons]
    cases operator with
    | eq | ne => simp [rangeOperators] at hrange
    | gt =>
      have hset : Range.setBound (Range.ofBounds floor ceiling)
          (.comparison field .gt (.num q : AstValue D)) =
            Range.ofBounds (some ⟨q, false⟩) ceiling := rfl
      simp [hset, ih hleaves, TransformedFilter.halfLine?, getLast?_cons_or]
    | ge =>
      have hset : Range.setBound (Range.ofBounds floor ceiling)
          (.comparison field .ge (.num q : AstValue D)) =
            Range.ofBounds (some ⟨q, true⟩) ceiling := rfl
      simp [hset, ih hleaves, TransformedFilter.halfLine?, getLast?_cons_or]
    | lt =>
      have hset : Range.setBound (Range.ofBounds floor ceiling)
          (.comparison field .lt (.num q : AstValue D)) =
            Range.ofBounds floor (some ⟨q, false⟩) := rfl
      simp [hset, ih hleaves, TransformedFilter.halfLine?, getLast?_cons_or]
    | le =>
      have hset : Range.setBound (Range.ofBounds floor ceiling)
          (.comparison field .le (.num q : AstValue D)) =
            Range.ofBounds floor (some ⟨q, true⟩) := rfl
      simp [hset, ih hleaves, TransformedFilter.halfLine?, getLast?_cons_or]

/-- The comparisons of a conjunction are all read. -/
theorem RangeConjunction.rangeFilters_eq {field : String} {filter : TransformedFilter D}
    (h : RangeConjunction field filter) :
    (getFiltersForField filter field).filter TransformedFilter.isRange =
      flattenFilters filter := by
  rw [getFiltersForField, List.filter_filter, List.filter_eq_self]
  intro leaf hleaf
  obtain ⟨operator, hrange, q, rfl⟩ := h.leaf leaf hleaf
  simp [TransformedFilter.isRange, TransformedFilter.field?, hrange]

/-- The range of a conjunction is made of its last bounds. -/
theorem RangeConjunction.extractRange_eq {field : String} {filter : TransformedFilter D}
    (h : RangeConjunction field filter) :
    extractRange filter field =
      if (flattenFilters filter).isEmpty then none
      else some (Range.ofBounds (HalfLine.floors (bounds filter)).getLast?
        (HalfLine.ceilings (bounds filter)).getLast?) := by
  have hfold : (flattenFilters filter).foldl Range.setBound (Range.ofBounds none none) = _ :=
    foldl_setBound h.leaf
  rw [Option.or_none, Option.or_none] at hfold
  rw [extractRange, h.rangeFilters_eq, bounds, ← hfold]
  rfl

theorem last_bounds_of_isEmpty {filter : TransformedFilter D}
    (hempty : (flattenFilters filter).isEmpty = true) (x : ℚ) :
    x ∈ HalfLine.last (bounds filter) := by
  rw [bounds, List.isEmpty_iff.1 hempty]
  simp [HalfLine.last, HalfLine.between]

/-- The bounds returned admit what the last bounds do. -/
theorem RangeConjunction.extractRange_admits {field : String} {filter : TransformedFilter D}
    (h : RangeConjunction field filter) {x : ℚ} :
    (∀ range ∈ extractRange filter field, range.Admits x) ↔
      x ∈ HalfLine.last (bounds filter) := by
  rw [h.extractRange_eq]
  split
  · rename_i hempty
    simpa using last_bounds_of_isEmpty hempty x
  · simp only [Option.mem_def, Option.some.injEq, forall_eq']
    exact Range.admits_ofBounds

/-- The check of `extractInclusiveRange`. -/
theorem isRefused_iff {bound : Option (Threshold ℚ)} :
    (!(bound.elim (.undefined : AstValue D) fun t => .num t.value).isUndefined &&
      bound.map (·.inclusive) != some true) = true ↔ StrictAt bound := by
  cases bound with
  | none => simp [AstValue.isUndefined, StrictAt]
  | some t => simp [AstValue.isUndefined, StrictAt]

/-- The inclusive range of an optional bound from below and one from above. -/
def InclusiveRange.ofBounds (floor ceiling : Option (Threshold ℚ)) : InclusiveRange D where
  min := floor.elim .undefined fun t => .num t.value
  max := ceiling.elim .undefined fun t => .num t.value

/-- Bounds neither of which is strict are those that inclusive comparisons describe. -/
theorem InclusiveRange.admits_ofBounds {floor ceiling : Option (Threshold ℚ)} {x : ℚ}
    (hfloor : ¬ StrictAt floor) (hceiling : ¬ StrictAt ceiling) :
    (InclusiveRange.ofBounds floor ceiling : InclusiveRange D).Admits x ↔
      x ∈ HalfLine.between floor ceiling := by
  apply and_congr
  · cases floor with
    | none => simp [InclusiveRange.ofBounds, AstValue.isUndefined]
    | some t =>
      have hinclusive : t.inclusive = true := by simpa [StrictAt] using hfloor
      simpa [InclusiveRange.ofBounds, AstValue.isUndefined, hinclusive] using
        holds_above_iff (D := D) (x := x) (t := t)
  · cases ceiling with
    | none => simp [InclusiveRange.ofBounds, AstValue.isUndefined]
    | some t =>
      have hinclusive : t.inclusive = true := by simpa [StrictAt] using hceiling
      simpa [InclusiveRange.ofBounds, AstValue.isUndefined, hinclusive] using
        holds_below_iff (D := D) (x := x) (t := t)

section Inclusive

variable {field : String} {filter : TransformedFilter D}

/-- A conjunction is refused when one of its last bounds is strict. -/
theorem RangeConjunction.refused_iff (h : RangeConjunction field filter) :
    (∃ message, extractInclusiveRange filter field = .error message) ↔
      StrictAt (HalfLine.floors (bounds filter)).getLast? ∨
        StrictAt (HalfLine.ceilings (bounds filter)).getLast? := by
  rw [extractInclusiveRange, h.extractRange_eq]
  by_cases hempty : (flattenFilters filter).isEmpty = true
  · rw [if_pos hempty]
    simp [bounds, List.isEmpty_iff.1 hempty, StrictAt]
  · rw [if_neg hempty]
    simp only [Range.ofBounds, isRefused_iff]
    split
    · rename_i hfloor
      simp [hfloor]
    · rename_i hfloor
      split
      · rename_i hceiling
        simp [hceiling]
      · rename_i hceiling
        simp [hfloor, hceiling]

/-- What is returned admits what the last bounds do. -/
theorem RangeConjunction.extractInclusiveRange_admits (h : RangeConjunction field filter)
    {result : Option (InclusiveRange D)} (hok : extractInclusiveRange filter field = .ok result)
    {x : ℚ} :
    (∀ range ∈ result, range.Admits x) ↔ x ∈ HalfLine.last (bounds filter) := by
  rw [extractInclusiveRange, h.extractRange_eq] at hok
  by_cases hempty : (flattenFilters filter).isEmpty = true
  · rw [if_pos hempty] at hok
    cases hok
    simpa using last_bounds_of_isEmpty hempty x
  · rw [if_neg hempty] at hok
    simp only [Range.ofBounds, isRefused_iff] at hok
    split at hok
    · cases hok
    · rename_i hfloor
      split at hok
      · cases hok
      · rename_i hceiling
        cases hok
        simp only [Option.mem_def, Option.some.injEq, forall_eq']
        exact InclusiveRange.admits_ofBounds hfloor hceiling

/-- A strict bound is that of a strict comparison. -/
theorem RangeConjunction.exists_isStrict (h : RangeConjunction field filter)
    {half : HalfLine ℚ} (hmem : half ∈ bounds filter)
    (hstrict : half.threshold.inclusive = false) :
    ∃ leaf ∈ flattenFilters filter, leaf.isStrict = true := by
  obtain ⟨leaf, hleaf, hdescribes⟩ := List.mem_filterMap.1 hmem
  obtain ⟨operator, hrange, q, rfl⟩ := h.leaf leaf hleaf
  refine ⟨_, hleaf, ?_⟩
  cases operator with
  | gt | lt => rfl
  | ge | le =>
    cases hdescribes
    exact absurd hstrict (by simp [HalfLine.threshold])
  | eq | ne => simp [TransformedFilter.halfLine?] at hdescribes

theorem RangeConjunction.exists_isStrict_of_last (h : RangeConjunction field filter)
    (hlast : StrictAt (HalfLine.floors (bounds filter)).getLast? ∨
      StrictAt (HalfLine.ceilings (bounds filter)).getLast?) :
    ∃ leaf ∈ flattenFilters filter, leaf.isStrict = true := by
  rcases hlast with ⟨t, ht, hstrict⟩ | ⟨t, ht, hstrict⟩
  · exact h.exists_isStrict (HalfLine.mem_floors.1 (List.mem_of_getLast? ht)) hstrict
  · exact h.exists_isStrict (HalfLine.mem_ceilings.1 (List.mem_of_getLast? ht)) hstrict

/-- **The extractors are exact for a conjunction exactly when its last bounds decide.** -/
theorem rangesExact_iff (h : RangeConjunction field filter) :
    RangesExact field filter ↔ LastBoundsDecide filter := by
  have hexact : HalfLine.LastDecide (bounds filter) ↔
      ∀ x, x ∈ HalfLine.last (bounds filter) ↔ x ∈ HalfLine.inter (bounds filter) := by
    rw [← HalfLine.last_eq_inter_iff, Set.ext_iff]
  constructor
  · intro hranges
    constructor
    · rw [hexact]
      intro x
      let record : Record D := fun _ => .num x
      have hrecord : record field = .num x := rfl
      rw [← h.extractRange_admits, ← h.holds_iff hrecord]
      exact hranges.range record x hrecord
    · intro hstrict
      exact h.refused_iff.1 (hranges.refused.2 hstrict)
  · intro hdecide
    have hlast := hexact.1 hdecide.tightest
    constructor
    · intro record x hrecord
      rw [h.extractRange_admits, hlast, h.holds_iff hrecord]
    · rw [h.refused_iff]
      exact ⟨h.exists_isStrict_of_last, hdecide.strict⟩
    · intro result hok record x hrecord
      rw [h.extractInclusiveRange_admits hok, hlast, h.holds_iff hrecord]

end Inclusive

/-! ## Conjunctions of bounds on a price -/

/-- A comparison of a price. -/
def priceIs (operator : ComparisonOperator) (q : ℚ) : TransformedFilter Unit :=
  .comparison "price" operator (.num q)

/-- `(price ge 100 and price le 500) and price gt 120` -/
def narrowedPrice : TransformedFilter Unit :=
  .logical .and [.logical .and [priceIs .ge 100, priceIs .le 500], priceIs .gt 120]

theorem narrowedPrice_rangesExact : RangesExact "price" narrowedPrice := by
  have hconjunction : RangeConjunction "price" narrowedPrice := by
    refine .and fun filter hfilter => ?_
    rcases List.mem_pair.1 hfilter with rfl | rfl
    · refine .and fun filter hfilter => ?_
      rcases List.mem_pair.1 hfilter with rfl | rfl
      · exact .comparison (by decide)
      · exact .comparison (by decide)
    · exact .comparison (by decide)
  apply (rangesExact_iff hconjunction).2
  exact ⟨.inr (by decide +kernel), fun _ => .inl ⟨_, rfl, rfl⟩⟩

/-- `price gt 5 and price gt 3` -/
def widenedPrice : TransformedFilter Unit := .logical .and [priceIs .gt 5, priceIs .gt 3]

/-- `price gt 100 and price ge 200` -/
def overwrittenPrice : TransformedFilter Unit := .logical .and [priceIs .gt 100, priceIs .ge 200]

/-- The bounds of the first filter admit 4, which does not satisfy it; the strict comparison of
the second is not refused. -/
theorem widenedPrice_not_rangesExact :
    ¬ RangesExact "price" widenedPrice ∧ ¬ RangesExact "price" overwrittenPrice := by
  constructor
  · intro h
    have hadmits : ∀ range ∈ extractRange widenedPrice "price", range.Admits 4 := by
      intro range hrange
      cases hrange
      exact ⟨.inr (by decide +kernel), .inl rfl⟩
    have hholds := (h.range (fun _ => .num 4) 4 rfl).1 hadmits
    exact absurd hholds (by decide +kernel)
  · intro h
    obtain ⟨message, hmessage⟩ := h.refused.2 ⟨priceIs .gt 100, .head _, rfl⟩
    cases hmessage

end SharedTsLibs.ODataMapper
