import SharedTsLibs.ODataMapper.FilterExtractor

/-!
# Views of a filter

The traversals of a filter tree beside `flattenFilters` see the same leaves and the same
conditions.

* `allHold_collectAndFilters`, `someHolds_collectOrFilters` — the operands at the top have the truth
  value of the tree, and none of them is another node of the operator.
* `get?_createFilterMap` — the map holds what `getFiltersForField` returns.
* `filterViewsAgree` — the views agree.
-/

namespace SharedTsLibs.ODataMapper

variable {D : Type}

/-! ## Operands at the top -/

section Operands

variable (reading : Reading D) (record : Record D)

theorem allHold_append (filters filters' : List (TransformedFilter D)) :
    TransformedFilter.allHold reading record (filters ++ filters') =
      (TransformedFilter.allHold reading record filters &&
        TransformedFilter.allHold reading record filters') := by
  induction filters with
  | nil => simp [TransformedFilter.allHold]
  | cons filter filters ih => simp [TransformedFilter.allHold, ih, Bool.and_assoc]

theorem someHolds_append (filters filters' : List (TransformedFilter D)) :
    TransformedFilter.someHolds reading record (filters ++ filters') =
      (TransformedFilter.someHolds reading record filters ||
        TransformedFilter.someHolds reading record filters') := by
  induction filters with
  | nil => simp [TransformedFilter.someHolds]
  | cons filter filters ih => simp [TransformedFilter.someHolds, ih, Bool.or_assoc]

theorem allHold_singleton (filter : TransformedFilter D) :
    TransformedFilter.allHold reading record [filter] = filter.holds reading record := by
  simp [TransformedFilter.allHold]

theorem someHolds_singleton (filter : TransformedFilter D) :
    TransformedFilter.someHolds reading record [filter] = filter.holds reading record := by
  simp [TransformedFilter.someHolds]

mutual

/-- A filter holds when all its conjuncts do. -/
theorem allHold_collectAndFilters : (filter : TransformedFilter D) →
    TransformedFilter.allHold reading record (collectAndFilters filter) =
      filter.holds reading record
  | .logical .and filters => by
    rw [collectAndFilters, TransformedFilter.holds]
    exact allHold_collectAndAll filters
  | .logical .or filters => allHold_singleton reading record (.logical .or filters)
  | .comparison field operator value =>
    allHold_singleton reading record (.comparison field operator value)
  | .isIn field values => allHold_singleton reading record (.isIn field values)
  | .notIn field values => allHold_singleton reading record (.notIn field values)
  | .stringFunction function field value =>
    allHold_singleton reading record (.stringFunction function field value)
  | .not filter => allHold_singleton reading record (.not filter)

theorem allHold_collectAndAll : (filters : List (TransformedFilter D)) →
    TransformedFilter.allHold reading record (collectAndAll filters) =
      TransformedFilter.allHold reading record filters
  | [] => rfl
  | filter :: filters => by
    rw [collectAndAll, allHold_append, allHold_collectAndFilters filter,
      allHold_collectAndAll filters, TransformedFilter.allHold]

end

mutual

/-- A filter holds when one of its disjuncts does. -/
theorem someHolds_collectOrFilters : (filter : TransformedFilter D) →
    TransformedFilter.someHolds reading record (collectOrFilters filter) =
      filter.holds reading record
  | .logical .or filters => by
    rw [collectOrFilters, TransformedFilter.holds]
    exact someHolds_collectOrAll filters
  | .logical .and filters => someHolds_singleton reading record (.logical .and filters)
  | .comparison field operator value =>
    someHolds_singleton reading record (.comparison field operator value)
  | .isIn field values => someHolds_singleton reading record (.isIn field values)
  | .notIn field values => someHolds_singleton reading record (.notIn field values)
  | .stringFunction function field value =>
    someHolds_singleton reading record (.stringFunction function field value)
  | .not filter => someHolds_singleton reading record (.not filter)

theorem someHolds_collectOrAll : (filters : List (TransformedFilter D)) →
    TransformedFilter.someHolds reading record (collectOrAll filters) =
      TransformedFilter.someHolds reading record filters
  | [] => rfl
  | filter :: filters => by
    rw [collectOrAll, someHolds_append, someHolds_collectOrFilters filter,
      someHolds_collectOrAll filters, TransformedFilter.someHolds]

end

end Operands

/-- A node of a logical operator. -/
def TransformedFilter.IsNodeOf (operator : LogicalOperator) (filter : TransformedFilter D) :
    Prop :=
  ∃ filters, filter = .logical operator filters

mutual

/-- No conjunct is a conjunction. -/
theorem not_isNodeOf_and : (filter : TransformedFilter D) →
    ∀ operand ∈ collectAndFilters filter, ¬ operand.IsNodeOf .and
  | .logical .and filters => by
    rw [collectAndFilters]
    exact forall_not_isNodeOf_and filters
  | .logical .or filters => by simp [collectAndFilters, TransformedFilter.IsNodeOf]
  | .comparison _ _ _ => by simp [collectAndFilters, TransformedFilter.IsNodeOf]
  | .isIn _ _ => by simp [collectAndFilters, TransformedFilter.IsNodeOf]
  | .notIn _ _ => by simp [collectAndFilters, TransformedFilter.IsNodeOf]
  | .stringFunction _ _ _ => by simp [collectAndFilters, TransformedFilter.IsNodeOf]
  | .not _ => by simp [collectAndFilters, TransformedFilter.IsNodeOf]

theorem forall_not_isNodeOf_and : (filters : List (TransformedFilter D)) →
    ∀ operand ∈ collectAndAll filters, ¬ operand.IsNodeOf .and
  | [] => by simp [collectAndAll]
  | filter :: filters => by
    intro operand hmem
    rw [collectAndAll, List.mem_append] at hmem
    rcases hmem with hmem | hmem
    · exact not_isNodeOf_and filter operand hmem
    · exact forall_not_isNodeOf_and filters operand hmem

end

mutual

/-- No disjunct is a disjunction. -/
theorem not_isNodeOf_or : (filter : TransformedFilter D) →
    ∀ operand ∈ collectOrFilters filter, ¬ operand.IsNodeOf .or
  | .logical .or filters => by
    rw [collectOrFilters]
    exact forall_not_isNodeOf_or filters
  | .logical .and filters => by simp [collectOrFilters, TransformedFilter.IsNodeOf]
  | .comparison _ _ _ => by simp [collectOrFilters, TransformedFilter.IsNodeOf]
  | .isIn _ _ => by simp [collectOrFilters, TransformedFilter.IsNodeOf]
  | .notIn _ _ => by simp [collectOrFilters, TransformedFilter.IsNodeOf]
  | .stringFunction _ _ _ => by simp [collectOrFilters, TransformedFilter.IsNodeOf]
  | .not _ => by simp [collectOrFilters, TransformedFilter.IsNodeOf]

theorem forall_not_isNodeOf_or : (filters : List (TransformedFilter D)) →
    ∀ operand ∈ collectOrAll filters, ¬ operand.IsNodeOf .or
  | [] => by simp [collectOrAll]
  | filter :: filters => by
    intro operand hmem
    rw [collectOrAll, List.mem_append] at hmem
    rcases hmem with hmem | hmem
    · exact not_isNodeOf_or filter operand hmem
    · exact forall_not_isNodeOf_or filters operand hmem

end

/-! ## The filter map -/

section FilterMap

variable {fieldName : String}

/-- What the map has of a field; a field that is not there has no filters. -/
def filtersAt (filterMap : List (String × List (TransformedFilter D))) (fieldName : String) :
    List (TransformedFilter D) :=
  (OrderedMap.get? filterMap fieldName).getD []

/-- Every field that is there has filters. -/
def NoneEmpty (filterMap : List (String × List (TransformedFilter D))) : Prop :=
  ∀ fieldName filters, OrderedMap.get? filterMap fieldName = some filters → filters ≠ []

variable {filterMap : List (String × List (TransformedFilter D))}

/-- One leaf is added to the filters of its field. -/
theorem filtersAt_addToFilterMap (hname : fieldName ≠ "") (f : TransformedFilter D) :
    filtersAt (addToFilterMap filterMap f) fieldName =
      filtersAt filterMap fieldName ++ if f.field? = some fieldName then [f] else [] := by
  rw [addToFilterMap]
  cases hfield : f.field? with
  | none => simp
  | some field =>
    by_cases hempty : field = ""
    · subst hempty
      simp [hname.symm]
    · simp only [filtersAt, if_neg hempty, OrderedMap.get?_set]
      by_cases hsame : fieldName = field
      · subst hsame
        simp
      · simp [Ne.symm hsame]

theorem noneEmpty_addToFilterMap (h : NoneEmpty filterMap) (f : TransformedFilter D) :
    NoneEmpty (addToFilterMap filterMap f) := by
  intro fieldName filters hget
  rw [addToFilterMap] at hget
  cases hfield : f.field? with
  | none =>
    rw [hfield] at hget
    exact h fieldName filters hget
  | some field =>
    simp only [hfield] at hget
    split at hget
    · exact h fieldName filters hget
    · rw [OrderedMap.get?_set] at hget
      split at hget
      · cases hget
        simp
      · exact h fieldName filters hget

/-- The loop adds the leaves of a field in order. -/
theorem filtersAt_foldl (hname : fieldName ≠ "") (leaves : List (TransformedFilter D)) :
    filtersAt (leaves.foldl addToFilterMap filterMap) fieldName =
      filtersAt filterMap fieldName ++ leaves.filter fun f => f.field? = some fieldName := by
  induction leaves generalizing filterMap with
  | nil => simp
  | cons f leaves ih =>
    rw [List.foldl_cons, ih, filtersAt_addToFilterMap hname, List.filter_cons]
    by_cases hfield : f.field? = some fieldName
    · simp [hfield]
    · simp [hfield]

theorem noneEmpty_foldl (h : NoneEmpty filterMap) (leaves : List (TransformedFilter D)) :
    NoneEmpty (leaves.foldl addToFilterMap filterMap) := by
  induction leaves generalizing filterMap with
  | nil => exact h
  | cons f leaves ih => exact ih (noneEmpty_addToFilterMap h f)

/-- The map has the filters of every field that has any. -/
theorem get?_createFilterMap (filter : TransformedFilter D) (hname : fieldName ≠ "") :
    OrderedMap.get? (createFilterMap filter) fieldName =
      if getFiltersForField filter fieldName = [] then none
      else some (getFiltersForField filter fieldName) := by
  have hfilters : filtersAt (createFilterMap filter) fieldName =
      getFiltersForField filter fieldName := filtersAt_foldl hname (flattenFilters filter)
  have hnonempty : NoneEmpty (createFilterMap filter) :=
    noneEmpty_foldl (fun _ _ h => by cases h) (flattenFilters filter)
  rw [← hfilters]
  unfold filtersAt
  cases hget : OrderedMap.get? (createFilterMap filter) fieldName with
  | none => simp
  | some filters => simp [hnonempty fieldName filters hget]

end FilterMap

/-- A field is filtered when it has filters. -/
theorem mem_filteredFields_iff_ne_nil {filter : TransformedFilter D} {fieldName : String} :
    fieldName ∈ getFilteredFieldNames filter ↔ getFiltersForField filter fieldName ≠ [] := by
  rw [mem_getFilteredFieldNames]
  constructor
  · rintro ⟨leaf, hleaf, hfield⟩
    exact List.ne_nil_of_mem (mem_getFiltersForField.2 ⟨hleaf, hfield⟩)
  · intro hne
    obtain ⟨leaf, hleaf⟩ := List.exists_mem_of_ne_nil _ hne
    exact ⟨leaf, mem_getFiltersForField.1 hleaf⟩

/-! ## All views -/

/-- The operands that a traversal collects for a logical operator: none is another node of the
operator, and together they have the truth value of the filter. -/
structure CollectsOperands (operator : LogicalOperator) (filter : TransformedFilter D)
    (operands : List (TransformedFilter D)) : Prop where
  maximal : ∀ operand ∈ operands, ¬ operand.IsNodeOf operator
  holds : ∀ (reading : Reading D) (record : Record D),
    (TransformedFilter.logical operator operands).holds reading record =
      filter.holds reading record

/-- The views of a field agree: the map has what `getFiltersForField` returns, as a key when
there is any, and the field is then one of the filtered fields. -/
structure FieldViewsAgree (filter : TransformedFilter D) (fieldName : String) : Prop where
  value : ∀ filters, OrderedMap.get? (createFilterMap filter) fieldName = some filters →
    filters = getFiltersForField filter fieldName
  key : fieldName ∈ OrderedMap.keys (createFilterMap filter) ↔
    getFiltersForField filter fieldName ≠ []
  name : getFiltersForField filter fieldName ≠ [] ↔ fieldName ∈ getFilteredFieldNames filter

/-- **The operands at the top are those of the tree, and the views of a field agree.** -/
theorem filterViewsAgree (filter : TransformedFilter D) :
    CollectsOperands .and filter (collectAndFilters filter) ∧
      CollectsOperands .or filter (collectOrFilters filter) ∧
      ∀ fieldName, fieldName ≠ "" → FieldViewsAgree filter fieldName := by
  refine ⟨⟨not_isNodeOf_and filter, ?_⟩, ⟨not_isNodeOf_or filter, ?_⟩, ?_⟩
  · intro reading record
    rw [TransformedFilter.holds, allHold_collectAndFilters]
  · intro reading record
    rw [TransformedFilter.holds, someHolds_collectOrFilters]
  · intro fieldName hname
    have hget := get?_createFilterMap filter hname
    constructor
    · intro filters hfilters
      rw [hget] at hfilters
      split at hfilters
      · cases hfilters
      · cases hfilters
        rfl
    · rw [← OrderedMap.get?_isSome_iff, hget]
      split
      · simp [*]
      · simp [*]
    · exact mem_filteredFields_iff_ne_nil.symm

/-- A field of two conditions, one of them under a negated disjunction. -/
theorem filterViewsAgree_price :
    FieldViewsAgree (D := Unit) (.logical .and [.comparison "price" .ge (.num 1),
      .not (.logical .or [.isIn "status" [.str "a"], .comparison "price" .gt (.num 5)])])
      "price" :=
  (filterViewsAgree _).2.2 "price" (by decide)

end SharedTsLibs.ODataMapper
