import SharedTsLibs.ODataMapper.FieldValues
import SharedTsLibs.ODataMapper.RangeExtraction

/-!
# Extracted constraints as necessary conditions

Extraction reads the leaves of a filter and forgets the negations above them.  What it returns
is a necessary condition when the filter forces the conditions that it was read from.

* `Forces` — a filter that holds, or that fails, makes one of some conditions hold.
* `valueSources`, `lowerSource?`, `upperSource?` — the conditions that extraction returns.
* `ConstraintsNecessary` — every record that satisfies the filter is within what is returned.
* `constraintsNecessary_of_forced` — this is so of the values, and of either bound, when the
  conditions that these are read from are forced.
-/

namespace SharedTsLibs.ODataMapper

variable {D : Type}

/-! ## What extraction should do -/

/-- A value is not below the lower bound, if there is one. -/
def Range.AboveMin (reading : Reading D) (range : Range D) (value : AstValue D) : Prop :=
  range.min.isUndefined = true ∨
    (if range.minInclusive = some true then ComparisonOperator.ge else .gt).holds reading value
      range.min = true

/-- A value is not above the upper bound, if there is one. -/
def Range.BelowMax (reading : Reading D) (range : Range D) (value : AstValue D) : Prop :=
  range.max.isUndefined = true ∨
    (if range.maxInclusive = some true then ComparisonOperator.le else .lt).holds reading value
      range.max = true

section Necessary

variable (field : String) (filter : TransformedFilter D)

/-- Every record that satisfies the filter has one of the values returned. -/
def ValuesNecessary : Prop :=
  ∀ (reading : Reading D) (record : Record D), filter.holds reading record = true →
    ∀ values, extractFieldValues filter field = some values →
      ∃ value ∈ values, reading.eq (record field) value = true

/-- Every record that satisfies the filter is not below the bound returned. -/
def MinNecessary : Prop :=
  ∀ (reading : Reading D) (record : Record D), filter.holds reading record = true →
    ∀ range, extractRange filter field = some range → range.AboveMin reading (record field)

/-- Every record that satisfies the filter is not above the bound returned. -/
def MaxNecessary : Prop :=
  ∀ (reading : Reading D) (record : Record D), filter.holds reading record = true →
    ∀ range, extractRange filter field = some range → range.BelowMax reading (record field)

/-- What is extracted for a field does not exclude a record that satisfies the filter. -/
structure ConstraintsNecessary : Prop where
  values : ValuesNecessary field filter
  min : MinNecessary field filter
  max : MaxNecessary field filter

end Necessary

/-! ## Forced conditions -/

/-- With the sign `true`, a filter that holds makes one of the conditions `P` hold; with the
sign `false`, a filter that fails does. -/
inductive Forces (P : TransformedFilter D → Prop) : Bool → TransformedFilter D → Prop
  | leaf {leaf : TransformedFilter D} (hleaf : P leaf) : Forces P true leaf
  | and {filter : TransformedFilter D} {filters : List (TransformedFilter D)}
      (hmem : filter ∈ filters) (hfilter : Forces P true filter) :
      Forces P true (.logical .and filters)
  | notAnd {filters : List (TransformedFilter D)}
      (hfilters : ∀ filter ∈ filters, Forces P false filter) :
      Forces P false (.logical .and filters)
  | or {filters : List (TransformedFilter D)}
      (hfilters : ∀ filter ∈ filters, Forces P true filter) :
      Forces P true (.logical .or filters)
  | notOr {filter : TransformedFilter D} {filters : List (TransformedFilter D)}
      (hmem : filter ∈ filters) (hfilter : Forces P false filter) :
      Forces P false (.logical .or filters)
  | not {sign : Bool} {filter : TransformedFilter D} (hfilter : Forces P (!sign) filter) :
      Forces P sign (.not filter)

/-- A forced condition holds. -/
theorem Forces.exists_holds {P : TransformedFilter D → Prop} {sign : Bool}
    {filter : TransformedFilter D} (h : Forces P sign filter) (reading : Reading D)
    (record : Record D) (hholds : filter.holds reading record = sign) :
    ∃ leaf, P leaf ∧ leaf.holds reading record = true := by
  induction h with
  | leaf hleaf => exact ⟨_, hleaf, hholds⟩
  | and hmem _ ih =>
    rw [TransformedFilter.holds, allHold_eq_true_iff] at hholds
    exact ih (hholds _ hmem)
  | @notAnd filters _ ih =>
    have hfails : ¬ ∀ filter ∈ filters, filter.holds reading record = true := by
      rw [← allHold_eq_true_iff, ← TransformedFilter.holds, hholds]
      simp
    push Not at hfails
    obtain ⟨filter, hmem, hfilter⟩ := hfails
    exact ih filter hmem (by simpa using hfilter)
  | or _ ih =>
    rw [TransformedFilter.holds, someHolds_eq_true_iff] at hholds
    obtain ⟨filter, hmem, hfilter⟩ := hholds
    exact ih filter hmem hfilter
  | @notOr filter filters hmem _ ih =>
    apply ih
    have hfails : ¬ ∃ filter ∈ filters, filter.holds reading record = true := by
      rw [← someHolds_eq_true_iff, ← TransformedFilter.holds, hholds]
      simp
    rw [← Bool.not_eq_true]
    exact fun hfilter => hfails ⟨filter, hmem, hfilter⟩
  | @not sign filter _ ih =>
    apply ih
    rw [TransformedFilter.holds] at hholds
    rw [← hholds, Bool.not_not]

/-! ## The conditions that are returned -/

/-- `f.type === 'in'` -/
def TransformedFilter.isInFilter : TransformedFilter D → Bool
  | .isIn _ _ => true
  | _ => false

/-- `f.type === 'comparison' && f.operator === 'eq'` -/
def TransformedFilter.isEq : TransformedFilter D → Bool
  | .comparison _ .eq _ => true
  | _ => false

/-- A `gt` or `ge` comparison. -/
def TransformedFilter.isLower : TransformedFilter D → Bool
  | .comparison _ operator _ => operator = .gt ∨ operator = .ge
  | _ => false

/-- A `lt` or `le` comparison. -/
def TransformedFilter.isUpper : TransformedFilter D → Bool
  | .comparison _ operator _ => operator = .lt ∨ operator = .le
  | _ => false

section Sources

variable (filter : TransformedFilter D) (field : String)

/-- The conditions that the values of a field are those of: the first `in` condition, or else
all `eq` conditions. -/
def valueSources : List (TransformedFilter D) :=
  match (getFiltersForField filter field).find? TransformedFilter.isInFilter with
  | some leaf => [leaf]
  | none => (getFiltersForField filter field).filter TransformedFilter.isEq

/-- The comparison that the lower bound of a field is that of, the last one. -/
def lowerSource? : Option (TransformedFilter D) :=
  ((getFiltersForField filter field).filter TransformedFilter.isLower).getLast?

/-- The comparison that the upper bound of a field is that of, the last one. -/
def upperSource? : Option (TransformedFilter D) :=
  ((getFiltersForField filter field).filter TransformedFilter.isUpper).getLast?

/-- A filter that holds forces one of the conditions that the values of a field are those of. -/
def ValuesForced : Prop :=
  valueSources filter field ≠ [] → Forces (· ∈ valueSources filter field) true filter

/-- A filter that holds forces the condition that the lower bound of a field is that of. -/
def MinForced : Prop :=
  ∀ leaf, lowerSource? filter field = some leaf → Forces (· = leaf) true filter

/-- A filter that holds forces the condition that the upper bound of a field is that of. -/
def MaxForced : Prop :=
  ∀ leaf, upperSource? filter field = some leaf → Forces (· = leaf) true filter

end Sources

section Extraction

variable {filter : TransformedFilter D} {field : String} (reading : Reading D)
  (record : Record D)

/-! ### Values -/

theorem findSome?_inValues? (leaves : List (TransformedFilter D)) :
    leaves.findSome? TransformedFilter.inValues? =
      (leaves.find? TransformedFilter.isInFilter).bind TransformedFilter.inValues? := by
  induction leaves with
  | nil => rfl
  | cons leaf leaves ih =>
    rw [List.findSome?_cons, List.find?_cons]
    cases leaf with
    | isIn field values => rfl
    | _ => exact ih

/-- What is returned, by the conditions that are there. -/
theorem extractFieldValues_cases {values : List (AstValue D)}
    (h : extractFieldValues filter field = some values) :
    (valueSources filter field = [.isIn field values]) ∨
      (values ≠ [] ∧ values = extractEqualityValues filter field ∧
        valueSources filter field =
          (getFiltersForField filter field).filter TransformedFilter.isEq) := by
  rw [extractFieldValues, extractInValues, findSome?_inValues?] at h
  rw [valueSources]
  cases hfind : (getFiltersForField filter field).find? TransformedFilter.isInFilter with
  | none =>
    simp only [hfind, Option.bind_none] at h
    split at h
    · rename_i hlength
      cases h
      exact .inr ⟨List.length_pos_iff.1 hlength, rfl, rfl⟩
    · cases h
  | some leaf =>
    left
    have hmem := mem_getFiltersForField.1 (List.mem_of_find?_eq_some hfind)
    have hin := List.find?_some hfind
    cases leaf with
    | isIn other inValues =>
      simp only [hfind, Option.bind_some, TransformedFilter.inValues?, Option.some.injEq] at h
      have hother : other = field := by simpa [TransformedFilter.field?] using hmem.2
      rw [h, hother]
    | _ => cases hin

/-- The value of an `eq` condition. -/
theorem isEq_of_eqValue? {leaf : TransformedFilter D} {value : AstValue D}
    (h : leaf.eqValue? = some value) : leaf.isEq = true := by
  cases leaf with
  | comparison other operator value' =>
    cases operator with
    | eq => rfl
    | _ => cases h
  | _ => cases h

/-- Values are returned when there are conditions for them. -/
theorem valueSources_ne_nil {values : List (AstValue D)}
    (h : extractFieldValues filter field = some values) : valueSources filter field ≠ [] := by
  rcases extractFieldValues_cases h with hin | ⟨hne, hvalues, hsources⟩
  · simp [hin]
  · rw [hsources]
    obtain ⟨value, hvalue⟩ := List.exists_mem_of_ne_nil _ hne
    rw [hvalues, extractEqualityValues, List.mem_filterMap] at hvalue
    obtain ⟨leaf, hleaf, hvalue⟩ := hvalue
    exact List.ne_nil_of_mem (List.mem_filter.2 ⟨hleaf, isEq_of_eqValue? hvalue⟩)

/-- A condition that the values are those of holds of one of them. -/
theorem exists_eq_of_mem_valueSources {values : List (AstValue D)}
    (h : extractFieldValues filter field = some values) {leaf : TransformedFilter D}
    (hleaf : leaf ∈ valueSources filter field) (hholds : leaf.holds reading record = true) :
    ∃ value ∈ values, reading.eq (record field) value = true := by
  rcases extractFieldValues_cases h with hin | ⟨-, rfl, hsources⟩
  · rw [hin, List.mem_singleton] at hleaf
    subst hleaf
    simpa [TransformedFilter.holds] using hholds
  · rw [hsources, List.mem_filter, mem_getFiltersForField] at hleaf
    obtain ⟨⟨hflat, hfield⟩, heq⟩ := hleaf
    cases leaf with
    | comparison other operator value =>
      cases operator with
      | eq =>
        have hother : other = field := by simpa [TransformedFilter.field?] using hfield
        subst hother
        refine ⟨value, ?_, hholds⟩
        exact List.mem_filterMap.2 ⟨_, mem_getFiltersForField.2 ⟨hflat, hfield⟩, rfl⟩
      | _ => cases heq
    | _ => cases heq

/-! ### Bounds -/

section Bounds

variable {leaf : TransformedFilter D} {range : Range D}

/-- A comparison from below that holds puts the value above the bound that it sets. -/
theorem aboveMin_setBound (hlower : leaf.isLower = true) (hfield : leaf.field? = some field)
    (hholds : leaf.holds reading record = true) :
    (range.setBound leaf).AboveMin reading (record field) := by
  cases leaf with
  | comparison other operator value =>
    have hother : other = field := by simpa [TransformedFilter.field?] using hfield
    subst hother
    cases operator with
    | gt | ge => exact .inr hholds
    | _ => cases hlower
  | _ => cases hlower

/-- Other conditions leave the lower bound. -/
theorem aboveMin_setBound_iff (hlower : leaf.isLower = false) {value : AstValue D} :
    (range.setBound leaf).AboveMin reading value ↔ range.AboveMin reading value := by
  cases leaf with
  | comparison other operator bound =>
    cases operator with
    | gt | ge => cases hlower
    | _ => rfl
  | _ => rfl

theorem belowMax_setBound (hupper : leaf.isUpper = true) (hfield : leaf.field? = some field)
    (hholds : leaf.holds reading record = true) :
    (range.setBound leaf).BelowMax reading (record field) := by
  cases leaf with
  | comparison other operator value =>
    have hother : other = field := by simpa [TransformedFilter.field?] using hfield
    subst hother
    cases operator with
    | lt | le => exact .inr hholds
    | _ => cases hupper
  | _ => cases hupper

theorem belowMax_setBound_iff (hupper : leaf.isUpper = false) {value : AstValue D} :
    (range.setBound leaf).BelowMax reading value ↔ range.BelowMax reading value := by
  cases leaf with
  | comparison other operator bound =>
    cases operator with
    | lt | le => cases hupper
    | _ => rfl
  | _ => rfl

end Bounds

variable {leaves : List (TransformedFilter D)}

/-- The loop leaves a value above the lower bound when the last comparison from below holds. -/
theorem aboveMin_foldl (hfield : ∀ leaf ∈ leaves, leaf.field? = some field)
    (hlast : ∀ leaf, (leaves.filter TransformedFilter.isLower).getLast? = some leaf →
      leaf.holds reading record = true) :
    (leaves.foldl Range.setBound {}).AboveMin reading (record field) := by
  induction leaves using List.reverseRecOn with
  | nil => exact .inl rfl
  | append_singleton leaves leaf ih =>
    rw [List.foldl_concat]
    rw [List.filter_append] at hlast
    cases hlower : leaf.isLower with
    | true =>
      apply aboveMin_setBound reading record hlower (hfield leaf (by simp))
      exact hlast leaf (by simp [hlower])
    | false =>
      rw [aboveMin_setBound_iff reading hlower]
      apply ih fun other hmem => hfield other (List.mem_append_left _ hmem)
      simpa [hlower] using hlast

/-- The loop leaves a value below the upper bound when the last comparison from above holds. -/
theorem belowMax_foldl (hfield : ∀ leaf ∈ leaves, leaf.field? = some field)
    (hlast : ∀ leaf, (leaves.filter TransformedFilter.isUpper).getLast? = some leaf →
      leaf.holds reading record = true) :
    (leaves.foldl Range.setBound {}).BelowMax reading (record field) := by
  induction leaves using List.reverseRecOn with
  | nil => exact .inl rfl
  | append_singleton leaves leaf ih =>
    rw [List.foldl_concat]
    rw [List.filter_append] at hlast
    cases hupper : leaf.isUpper with
    | true =>
      apply belowMax_setBound reading record hupper (hfield leaf (by simp))
      exact hlast leaf (by simp [hupper])
    | false =>
      rw [belowMax_setBound_iff reading hupper]
      apply ih fun other hmem => hfield other (List.mem_append_left _ hmem)
      simpa [hupper] using hlast

/-- Comparisons from one side are range comparisons. -/
theorem filter_isRange_filter (leaves : List (TransformedFilter D)) :
    (leaves.filter TransformedFilter.isRange).filter TransformedFilter.isLower =
        leaves.filter TransformedFilter.isLower ∧
      (leaves.filter TransformedFilter.isRange).filter TransformedFilter.isUpper =
        leaves.filter TransformedFilter.isUpper := by
  rw [List.filter_filter, List.filter_filter]
  constructor
  · refine List.filter_congr fun leaf _ => ?_
    cases leaf with
    | comparison field operator value => cases operator <;> rfl
    | _ => rfl
  · refine List.filter_congr fun leaf _ => ?_
    cases leaf with
    | comparison field operator value => cases operator <;> rfl
    | _ => rfl

theorem field?_of_mem_filter {p : TransformedFilter D → Bool} :
    ∀ leaf ∈ (getFiltersForField filter field).filter p, leaf.field? = some field := by
  intro leaf hleaf
  exact (mem_getFiltersForField.1 (List.mem_filter.1 hleaf).1).2

/-- A record is not below the lower bound of a field when the comparison that it is that of
holds. -/
theorem aboveMin_extractRange {range : Range D} (h : extractRange filter field = some range)
    (hlower : ∀ leaf, lowerSource? filter field = some leaf → leaf.holds reading record = true) :
    range.AboveMin reading (record field) := by
  rw [extractRange] at h
  split at h
  · cases h
  · cases h
    apply aboveMin_foldl reading record field?_of_mem_filter
    rwa [(filter_isRange_filter _).1]

theorem belowMax_extractRange {range : Range D} (h : extractRange filter field = some range)
    (hupper : ∀ leaf, upperSource? filter field = some leaf → leaf.holds reading record = true) :
    range.BelowMax reading (record field) := by
  rw [extractRange] at h
  split at h
  · cases h
  · cases h
    apply belowMax_foldl reading record field?_of_mem_filter
    rwa [(filter_isRange_filter _).2]

theorem valuesNecessary_of_forced (h : ValuesForced filter field) :
    ValuesNecessary field filter := by
  intro reading record hholds values hvalues
  obtain ⟨leaf, hleaf, htrue⟩ :=
    (h (valueSources_ne_nil hvalues)).exists_holds reading record hholds
  exact exists_eq_of_mem_valueSources reading record hvalues hleaf htrue

theorem minNecessary_of_forced (h : MinForced filter field) : MinNecessary field filter := by
  intro reading record hholds range hrange
  apply aboveMin_extractRange reading record hrange
  intro leaf hleaf
  obtain ⟨_, rfl, htrue⟩ := (h leaf hleaf).exists_holds reading record hholds
  exact htrue

theorem maxNecessary_of_forced (h : MaxForced filter field) : MaxNecessary field filter := by
  intro reading record hholds range hrange
  apply belowMax_extractRange reading record hrange
  intro leaf hleaf
  obtain ⟨_, rfl, htrue⟩ := (h leaf hleaf).exists_holds reading record hholds
  exact htrue

variable (filter field) in
/-- **What is extracted for a field excludes no matching record when the filter forces the
conditions that it is read from**: its values, its lower bound and its upper bound, each by its
own conditions. -/
theorem constraintsNecessary_of_forced :
    (ValuesForced filter field → ValuesNecessary field filter) ∧
      (MinForced filter field → MinNecessary field filter) ∧
      (MaxForced filter field → MaxNecessary field filter) :=
  ⟨valuesNecessary_of_forced, minNecessary_of_forced, maxNecessary_of_forced⟩

end Extraction

/-! ## Forced and unforced conditions -/

/-- `not (not (price ge 5 and stock in (1))) and not (price eq 7)` -/
def negatedTwice : TransformedFilter Unit :=
  .logical .and [.not (.not (.logical .and [.comparison "price" .ge (.num 5),
    .isIn "stock" [.num 1]])), .not (.comparison "price" .eq (.num 7))]

/-- The bound of the price and the value of the stock are forced; the value of the price is
not, and it excludes the record with price 6. -/
theorem negatedTwice_constraintsNecessary :
    MinNecessary "price" negatedTwice ∧ ValuesNecessary "stock" negatedTwice ∧
      ¬ ValuesNecessary "price" negatedTwice := by
  have hinner : ∀ leaf ∈ [.comparison "price" .ge (.num 5), .isIn "stock" [.num 1]],
      Forces (· = leaf) true negatedTwice := by
    intro leaf hleaf
    exact .and (.head _) (.not (.not (.and hleaf (.leaf rfl))))
  refine ⟨(constraintsNecessary_of_forced negatedTwice "price").2.1 fun leaf hleaf => ?_,
    (constraintsNecessary_of_forced negatedTwice "stock").1 fun _ => ?_, fun h => ?_⟩
  · cases hleaf
    exact hinner _ (.head _)
  · have hsources : valueSources negatedTwice "stock" = [.isIn "stock" [.num 1]] := rfl
    simp only [hsources, List.mem_singleton]
    exact hinner _ (.tail _ (.head _))
  · obtain ⟨value, hvalue, heq⟩ := h numericReading
      (fun field => if field = "price" then .num 6 else .num 1) (by decide +kernel) [.num 7] rfl
    rw [List.mem_singleton.1 hvalue] at heq
    exact absurd heq (by decide +kernel)

/-- `not (status eq 'a')` and `not (price ge 5)`: the value of the first and the bound of the
second exclude the records that satisfy them. -/
theorem negated_not_constraintsNecessary :
    ¬ ConstraintsNecessary "status" (.not (.comparison "status" .eq (.str "a" : AstValue Unit))) ∧
      ¬ ConstraintsNecessary "price"
        (.not (.comparison "price" .ge (.num 5 : AstValue Unit))) := by
  constructor
  · intro h
    obtain ⟨value, hvalue, heq⟩ :=
      h.values textReading (fun _ => .str "b") (by decide) [.str "a"] rfl
    rw [List.mem_singleton.1 hvalue] at heq
    exact absurd heq (by decide)
  · intro h
    rcases h.min numericReading (fun _ => .num 3) (by decide +kernel) _ rfl with hmin | hmin
    · cases hmin
    · exact absurd hmin (by decide +kernel)

end SharedTsLibs.ODataMapper
