import SharedTsLibs.ODataMapper.FilterExtractor

/-!
# Extracted field values

The values that the extractor reads off a disjunction of `eq` and `in` conditions on a field,
and the values that satisfy these conditions.

* `ValueDisjunction` — nested disjunctions of `eq` and `in` conditions on a field.
* `FieldValuesExact` — the values returned are those with which a record satisfies the filter.
* `FirstInCovers` — the first `in` condition has the values of all conditions.
* `fieldValuesExact_iff` — the extractor is exact in just that case.
-/

namespace SharedTsLibs.ODataMapper

variable {D : Type}

/-! ## Disjunctions -/

/-- A nested disjunction of `eq` and `in` conditions on one field. -/
inductive ValueDisjunction (field : String) : TransformedFilter D → Prop
  | eq {value : AstValue D} : ValueDisjunction field (.comparison field .eq value)
  | isIn {values : List (AstValue D)} : ValueDisjunction field (.isIn field values)
  | or {filters : List (TransformedFilter D)}
      (hfilters : ∀ filter ∈ filters, ValueDisjunction field filter) :
      ValueDisjunction field (.logical .or filters)

/-- The values that an `eq` or `in` condition allows. -/
def TransformedFilter.allowedValues : TransformedFilter D → List (AstValue D)
  | .comparison _ .eq value => [value]
  | .isIn _ values => values
  | _ => []

/-- The values returned for a field are those with which a record satisfies the filter, however
values are compared. -/
def FieldValuesExact (field : String) (filter : TransformedFilter D) : Prop :=
  ∀ (reading : Reading D) (record : Record D),
    (∃ values, extractFieldValues filter field = some values ∧
      ∃ value ∈ values, reading.eq (record field) value = true) ↔
    filter.holds reading record = true

/-- When there is an `in` condition, the first one has the values of all conditions. -/
def FirstInCovers (filter : TransformedFilter D) : Prop :=
  ∀ values, (flattenFilters filter).findSome? TransformedFilter.inValues? = some values →
    ∀ leaf ∈ flattenFilters filter, leaf.allowedValues ⊆ values

/-! ## Conditions -/

section Disjunction

variable {field : String} {filter : TransformedFilter D}

/-- A leaf is an `eq` or an `in` condition on the field. -/
inductive IsValueCondition (field : String) : TransformedFilter D → Prop
  | eq (value : AstValue D) : IsValueCondition field (.comparison field .eq value)
  | isIn (values : List (AstValue D)) : IsValueCondition field (.isIn field values)

theorem ValueDisjunction.leaf (h : ValueDisjunction field filter) :
    ∀ leaf ∈ flattenFilters filter, IsValueCondition field leaf := by
  induction h with
  | eq =>
    intro leaf hleaf
    simp only [flattenFilters, List.mem_singleton] at hleaf
    exact hleaf ▸ .eq _
  | isIn =>
    intro leaf hleaf
    simp only [flattenFilters, List.mem_singleton] at hleaf
    exact hleaf ▸ .isIn _
  | or hfilters ih =>
    intro leaf hleaf
    rw [flattenFilters, mem_flattenAll] at hleaf
    obtain ⟨filter, hfilter, hleaf⟩ := hleaf
    exact ih filter hfilter leaf hleaf

/-- A condition holds of the values that it allows. -/
theorem IsValueCondition.holds_iff {leaf : TransformedFilter D} (h : IsValueCondition field leaf)
    (reading : Reading D) (record : Record D) :
    leaf.holds reading record = true ↔
      ∃ value ∈ leaf.allowedValues, reading.eq (record field) value = true := by
  cases h with
  | eq value => simp [TransformedFilter.holds, TransformedFilter.allowedValues,
      ComparisonOperator.holds]
  | isIn values => simp [TransformedFilter.holds, TransformedFilter.allowedValues]

/-- A disjunction holds when one of its leaves does. -/
theorem ValueDisjunction.holds_iff_leaves (h : ValueDisjunction field filter)
    (reading : Reading D) (record : Record D) :
    filter.holds reading record = true ↔
      ∃ leaf ∈ flattenFilters filter, leaf.holds reading record = true := by
  induction h with
  | eq => simp [flattenFilters]
  | isIn => simp [flattenFilters]
  | or hfilters ih =>
    rw [TransformedFilter.holds, someHolds_eq_true_iff, flattenFilters]
    simp only [mem_flattenAll]
    constructor
    · rintro ⟨filter, hfilter, hholds⟩
      obtain ⟨leaf, hleaf, hholds⟩ := (ih filter hfilter).1 hholds
      exact ⟨leaf, ⟨filter, hfilter, hleaf⟩, hholds⟩
    · rintro ⟨leaf, ⟨filter, hfilter, hleaf⟩, hholds⟩
      exact ⟨filter, hfilter, (ih filter hfilter).2 ⟨leaf, hleaf, hholds⟩⟩

/-- A record satisfies a disjunction with the values that one of its conditions allows. -/
theorem ValueDisjunction.holds_iff (h : ValueDisjunction field filter)
    (reading : Reading D) (record : Record D) :
    filter.holds reading record = true ↔
      ∃ leaf ∈ flattenFilters filter, ∃ value ∈ leaf.allowedValues,
        reading.eq (record field) value = true := by
  rw [h.holds_iff_leaves]
  constructor
  · rintro ⟨leaf, hleaf, hholds⟩
    exact ⟨leaf, hleaf, ((h.leaf leaf hleaf).holds_iff reading record).1 hholds⟩
  · rintro ⟨leaf, hleaf, hvalue⟩
    exact ⟨leaf, hleaf, ((h.leaf leaf hleaf).holds_iff reading record).2 hvalue⟩

/-! ## What the extractor returns -/

/-- All conditions of a disjunction are on its field. -/
theorem ValueDisjunction.getFiltersForField_eq (h : ValueDisjunction field filter) :
    getFiltersForField filter field = flattenFilters filter := by
  rw [getFiltersForField, List.filter_eq_self]
  intro leaf hleaf
  cases h.leaf leaf hleaf with
  | eq value => simp [TransformedFilter.field?]
  | isIn values => simp [TransformedFilter.field?]

theorem ValueDisjunction.extractInValues_eq (h : ValueDisjunction field filter) :
    extractInValues filter field =
      (flattenFilters filter).findSome? TransformedFilter.inValues? := by
  rw [extractInValues, h.getFiltersForField_eq]

/-- Without an `in` condition, the values of the `eq` conditions are all that is allowed. -/
theorem ValueDisjunction.mem_extractEqualityValues (h : ValueDisjunction field filter)
    (hin : extractInValues filter field = none) {value : AstValue D} :
    value ∈ extractEqualityValues filter field ↔
      ∃ leaf ∈ flattenFilters filter, value ∈ leaf.allowedValues := by
  rw [h.extractInValues_eq, List.findSome?_eq_none_iff] at hin
  rw [extractEqualityValues, h.getFiltersForField_eq, List.mem_filterMap]
  refine exists_congr fun leaf => and_congr_right fun hleaf => ?_
  cases h.leaf leaf hleaf with
  | eq other => simp [TransformedFilter.eqValue?, TransformedFilter.allowedValues, eq_comm]
  | isIn values => cases hin _ hleaf

/-- The extractor returns the values that are allowed, when there is no `in` condition. -/
theorem ValueDisjunction.exact_of_no_in (h : ValueDisjunction field filter)
    (hin : extractInValues filter field = none) : FieldValuesExact field filter := by
  intro reading record
  rw [h.holds_iff, extractFieldValues, hin]
  dsimp only
  split
  · simp only [Option.some.injEq, exists_eq_left', h.mem_extractEqualityValues hin]
    constructor
    · rintro ⟨value, ⟨leaf, hleaf, hvalue⟩, heq⟩
      exact ⟨leaf, hleaf, value, hvalue, heq⟩
    · rintro ⟨leaf, hleaf, value, hvalue, heq⟩
      exact ⟨value, ⟨leaf, hleaf, hvalue⟩, heq⟩
  · rename_i hlength
    have hempty : extractEqualityValues filter field = [] := by simpa using hlength
    constructor
    · rintro ⟨values, hnone, -⟩
      cases hnone
    · rintro ⟨leaf, hleaf, value, hvalue, -⟩
      have hmem := (h.mem_extractEqualityValues hin).2 ⟨leaf, hleaf, hvalue⟩
      simp [hempty] at hmem

/-- An `in` condition allows its values. -/
theorem allowedValues_of_inValues? {leaf : TransformedFilter D} {values : List (AstValue D)}
    (h : leaf.inValues? = some values) : leaf.allowedValues = values := by
  cases leaf <;> cases h
  rfl

/-- With an `in` condition, the extractor is exact when the first one covers all. -/
theorem ValueDisjunction.exact_iff_of_in (h : ValueDisjunction field filter)
    {values : List (AstValue D)} (hin : extractInValues filter field = some values) :
    FieldValuesExact field filter ↔
      ∀ leaf ∈ flattenFilters filter, leaf.allowedValues ⊆ values := by
  have hreturned : extractFieldValues filter field = some values := by
    rw [extractFieldValues, hin]
  rw [FieldValuesExact]
  simp only [hreturned, Option.some.injEq, exists_eq_left', h.holds_iff]
  constructor
  · -- values are told apart by themselves
    intro hexact leaf hleaf value hvalue
    classical
    let identity : Reading D :=
      { eq := fun x y => decide (x = y)
        lt := fun _ _ => false
        text := fun _ => none
        eq_comm := fun x y => decide_eq_decide.2 eq_comm }
    have hholds : ∃ leaf ∈ flattenFilters filter, ∃ other ∈ leaf.allowedValues,
        identity.eq value other = true := ⟨leaf, hleaf, value, hvalue, decide_eq_true rfl⟩
    obtain ⟨other, hother, heq⟩ := (hexact identity fun _ => value).2 hholds
    rwa [of_decide_eq_true heq]
  · intro hcovers reading record
    constructor
    · rintro ⟨value, hvalue, heq⟩
      rw [h.extractInValues_eq] at hin
      obtain ⟨leaf, hleaf, hvalues⟩ := List.exists_of_findSome?_eq_some hin
      exact ⟨leaf, hleaf, value, by rwa [allowedValues_of_inValues? hvalues], heq⟩
    · rintro ⟨leaf, hleaf, value, hvalue, heq⟩
      exact ⟨value, hcovers leaf hleaf hvalue, heq⟩

/-- **Extraction is exact on a disjunction when its first `in` condition, if it has one, has the
values of all its conditions.** -/
theorem fieldValuesExact_iff (h : ValueDisjunction field filter) :
    FieldValuesExact field filter ↔ FirstInCovers filter := by
  rw [FirstInCovers, ← h.extractInValues_eq]
  cases hin : extractInValues filter field with
  | none => simp [h.exact_of_no_in hin]
  | some values => simp [h.exact_iff_of_in hin]

end Disjunction

/-! ## Disjunctions of conditions on a status -/

/-- `status eq 'a' or (status in ('b', 'a') or status eq 'b')` -/
def repeatedStatus : TransformedFilter Unit :=
  .logical .or [.comparison "status" .eq (.str "a"),
    .logical .or [.isIn "status" [.str "b", .str "a"], .comparison "status" .eq (.str "b")]]

theorem repeatedStatus_fieldValuesExact : FieldValuesExact "status" repeatedStatus := by
  have hdisjunction : ValueDisjunction "status" repeatedStatus := by
    refine .or fun filter hfilter => ?_
    rcases List.mem_pair.1 hfilter with rfl | rfl
    · exact .eq
    · refine .or fun filter hfilter => ?_
      rcases List.mem_pair.1 hfilter with rfl | rfl
      · exact .isIn
      · exact .eq
  apply (fieldValuesExact_iff hdisjunction).2
  intro values hvalues leaf hleaf
  cases hvalues
  simp only [repeatedStatus, flattenFilters, flattenAll, List.mem_append, List.mem_singleton,
    List.not_mem_nil, or_false] at hleaf
  rcases hleaf with rfl | rfl | rfl
  · simp [TransformedFilter.allowedValues]
  · simp [TransformedFilter.allowedValues]
  · simp [TransformedFilter.allowedValues]

/-- `status in ('a') or status eq 'b'` -/
def mixedStatus : TransformedFilter Unit :=
  .logical .or [.isIn "status" [.str "a"], .comparison "status" .eq (.str "b")]

/-- The value of the `eq` condition is missed. -/
theorem mixedStatus_not_fieldValuesExact : ¬ FieldValuesExact "status" mixedStatus := by
  intro hexact
  have hholds : mixedStatus.holds textReading (fun _ => .str "b") = true := by decide
  obtain ⟨values, hvalues, value, hvalue, heq⟩ := (hexact textReading fun _ => .str "b").2 hholds
  cases hvalues
  rw [List.mem_singleton.1 hvalue] at heq
  exact absurd heq (by decide)

end SharedTsLibs.ODataMapper
