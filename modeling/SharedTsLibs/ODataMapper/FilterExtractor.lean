import SharedTsLibs.ODataMapper.Filter

/-!
# The filter extractor

`filterExtractor.ts`: what a transformed filter puts conditions on.

* `flattenFilters` — the leaf filters, in order.
* `getFilteredFieldNames` — the fields they filter.
* `findUnsupportedField` — the first of these that is not supported.
* `collectAndFilters`, `collectOrFilters` — the operands of the operator at the top.
* `createFilterMap` — the leaf filters of each field.
* `extractFieldValues` — the values that `eq` and `in` conditions put on a field.
* `extractRange`, `extractInclusiveRange` — the bounds that comparisons put on a field.
-/

namespace SharedTsLibs.ODataMapper

variable {D : Type}

mutual

/-- The leaf filters of a filter. -/
def flattenFilters : TransformedFilter D → List (TransformedFilter D)
  | .logical _ filters => flattenAll filters
  | .not filter => flattenFilters filter
  | filter => [filter]

/-- `filters.flatMap(flattenFilters)`. -/
def flattenAll : List (TransformedFilter D) → List (TransformedFilter D)
  | [] => []
  | filter :: filters => flattenFilters filter ++ flattenAll filters

end

/-- The field of a leaf filter. -/
def TransformedFilter.field? : TransformedFilter D → Option String
  | .comparison field _ _ => some field
  | .isIn field _ => some field
  | .notIn field _ => some field
  | .stringFunction _ field _ => some field
  | .logical _ _ | .not _ => none

/-- The fields that have filters applied, each once, in the order of their first filters. -/
def getFilteredFieldNames (filter : TransformedFilter D) : List String :=
  ((flattenFilters filter).filterMap TransformedFilter.field?).eraseDups

def findUnsupportedField (filter : TransformedFilter D) (supportedFields : List String) :
    Option String :=
  (getFilteredFieldNames filter).find? fun f => f ∉ supportedFields

/-- The leaf filters of a field. -/
def getFiltersForField (filter : TransformedFilter D) (fieldName : String) :
    List (TransformedFilter D) :=
  (flattenFilters filter).filter fun f => f.field? = some fieldName

mutual

def collectAndFilters : TransformedFilter D → List (TransformedFilter D)
  | .logical .and filters => collectAndAll filters
  | filter => [filter]

/-- `filters.flatMap(collectAndFilters)`. -/
def collectAndAll : List (TransformedFilter D) → List (TransformedFilter D)
  | [] => []
  | filter :: filters => collectAndFilters filter ++ collectAndAll filters

end

mutual

def collectOrFilters : TransformedFilter D → List (TransformedFilter D)
  | .logical .or filters => collectOrAll filters
  | filter => [filter]

/-- `filters.flatMap(collectOrFilters)`. -/
def collectOrAll : List (TransformedFilter D) → List (TransformedFilter D)
  | [] => []
  | filter :: filters => collectOrFilters filter ++ collectOrAll filters

end

/-- The body of the loop of `createFilterMap`; a field whose name is empty is left out. -/
def addToFilterMap (filterMap : List (String × List (TransformedFilter D)))
    (f : TransformedFilter D) : List (String × List (TransformedFilter D)) :=
  match f.field? with
  | some fieldName =>
    if fieldName = "" then filterMap
    else
      OrderedMap.set fieldName ((OrderedMap.get? filterMap fieldName).getD [] ++ [f]) filterMap
  | none => filterMap

def createFilterMap (filter : TransformedFilter D) : List (String × List (TransformedFilter D)) :=
  (flattenFilters filter).foldl addToFilterMap []

/-! ## Values -/

/-- The value of an `eq` comparison. -/
def TransformedFilter.eqValue? : TransformedFilter D → Option (AstValue D)
  | .comparison _ .eq value => some value
  | _ => none

/-- All values that a field is compared with by `eq`. -/
def extractEqualityValues (filter : TransformedFilter D) (fieldName : String) :
    List (AstValue D) :=
  (getFiltersForField filter fieldName).filterMap TransformedFilter.eqValue?

/-- The values of an `in` filter. -/
def TransformedFilter.inValues? : TransformedFilter D → Option (List (AstValue D))
  | .isIn _ values => some values
  | _ => none

/-- The values of the first `in` filter of a field. -/
def extractInValues (filter : TransformedFilter D) (fieldName : String) :
    Option (List (AstValue D)) :=
  (getFiltersForField filter fieldName).findSome? TransformedFilter.inValues?

def extractFieldValues (filter : TransformedFilter D) (fieldName : String) :
    Option (List (AstValue D)) :=
  match extractInValues filter fieldName with
  | some inValues => some inValues
  | none =>
    let eqValues := extractEqualityValues filter fieldName
    if eqValues.length > 0 then some eqValues else none

/-! ## Ranges -/

/-- The operators that bound a field. -/
def rangeOperators : List ComparisonOperator := [.gt, .ge, .lt, .le]

def TransformedFilter.isRange : TransformedFilter D → Bool
  | .comparison _ operator _ => operator ∈ rangeOperators
  | _ => false

/-- The bounds of a field; what is not bounded is `undefined`. -/
structure Range (D : Type) where
  min : AstValue D := .undefined
  minInclusive : Option Bool := none
  max : AstValue D := .undefined
  maxInclusive : Option Bool := none

/-- The body of the loop of `extractRange`. -/
def Range.setBound (result : Range D) : TransformedFilter D → Range D
  | .comparison _ operator value =>
    if operator = .gt ∨ operator = .ge then
      { result with min := value, minInclusive := some (operator = .ge) }
    else if operator = .lt ∨ operator = .le then
      { result with max := value, maxInclusive := some (operator = .le) }
    else result
  | _ => result

def extractRange (filter : TransformedFilter D) (fieldName : String) : Option (Range D) :=
  let rangeFilters := (getFiltersForField filter fieldName).filter TransformedFilter.isRange
  if rangeFilters.isEmpty then none else some (rangeFilters.foldl Range.setBound {})

/-- The bounds of a field, all inclusive. -/
structure InclusiveRange (D : Type) where
  min : AstValue D := .undefined
  max : AstValue D := .undefined

def AstValue.isUndefined : AstValue D → Bool
  | .undefined => true
  | _ => false

def extractInclusiveRange (filter : TransformedFilter D) (fieldName : String) :
    Except String (Option (InclusiveRange D)) :=
  match extractRange filter fieldName with
  | none => .ok none
  | some range =>
    if !range.min.isUndefined && range.minInclusive != some true then
      .error ("Field '" ++ fieldName
        ++ "' uses 'gt' operator, but only 'ge' (inclusive) is supported")
    else if !range.max.isUndefined && range.maxInclusive != some true then
      .error ("Field '" ++ fieldName
        ++ "' uses 'lt' operator, but only 'le' (inclusive) is supported")
    else .ok (some { min := range.min, max := range.max })

/-! ## Leaf filters -/

theorem mem_flattenAll {filters : List (TransformedFilter D)} {leaf : TransformedFilter D} :
    leaf ∈ flattenAll filters ↔ ∃ filter ∈ filters, leaf ∈ flattenFilters filter := by
  induction filters with
  | nil => simp [flattenAll]
  | cons filter filters ih => rw [flattenAll, List.mem_append, ih, List.exists_mem_cons_iff]

theorem mem_getFiltersForField {filter leaf : TransformedFilter D} {fieldName : String} :
    leaf ∈ getFiltersForField filter fieldName ↔
      leaf ∈ flattenFilters filter ∧ leaf.field? = some fieldName := by
  simp [getFiltersForField]

/-! ## Filtered fields -/

theorem mem_getFilteredFieldNames {filter : TransformedFilter D} {name : String} :
    name ∈ getFilteredFieldNames filter ↔
      ∃ leaf ∈ flattenFilters filter, leaf.field? = some name := by
  rw [getFilteredFieldNames, List.mem_eraseDups, List.mem_filterMap]

/-- Nothing is reported exactly when every filtered field is supported. -/
theorem findUnsupportedField_eq_none {filter : TransformedFilter D}
    {supportedFields : List String} :
    findUnsupportedField filter supportedFields = none ↔
      ∀ name ∈ getFilteredFieldNames filter, name ∈ supportedFields := by
  rw [findUnsupportedField, List.find?_eq_none]
  simp

/-- What is reported is a filtered field that is not supported. -/
theorem findUnsupportedField_eq_some {filter : TransformedFilter D} {supportedFields : List String}
    {name : String} (h : findUnsupportedField filter supportedFields = some name) :
    name ∈ getFilteredFieldNames filter ∧ name ∉ supportedFields :=
  ⟨List.mem_of_find?_eq_some h, by simpa using List.find?_some h⟩

end SharedTsLibs.ODataMapper
