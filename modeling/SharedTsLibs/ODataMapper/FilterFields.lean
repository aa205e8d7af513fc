import SharedTsLibs.ODataMapper.FilterTransformer
import SharedTsLibs.ODataMapper.FilterExtractor

/-!
# Allow-listing the fields of a filter

A service allow-lists the fields of a filter by asking `findUnsupportedField` of the
transformed filter.  Here this is compared with the fields of the source AST.

* `fieldPaths` — the fields an AST refers to, wherever they stand in it.
* `filteredPaths` — the fields that its conditions are put on.
* `mem_getFilteredFieldNames_iff` — the transformed filter names the filtered fields.
* `allowListing_sound_iff` — when allow-listing the transformed filter allow-lists the
  source.
-/

namespace SharedTsLibs.ODataMapper

variable {D : Type}

/-! ## The fields of an AST -/

section Paths

variable (platform : Platform D)

mutual

/-- The full paths of the field references of an AST.  The properties of a reference
are part of its path and no references of their own. -/
def fieldPaths : AstValue D → List String
  | .arr items => itemPaths items
  | .obj fields =>
    if isFieldReference (.obj fields) = true then
      getFieldPath platform "/" (.obj fields) :: memberPaths true fields
    else memberPaths false fields
  | _ => []

def itemPaths : List (AstValue D) → List String
  | [] => []
  | item :: items => fieldPaths item ++ itemPaths items

/-- The references in the members of an object, which may itself be on a path. -/
def memberPaths (onPath : Bool) : List (String × AstValue D) → List String
  | [] => []
  | (key, value) :: fields =>
    (if onPath = true ∧ key = "property" then propertyPaths value else fieldPaths value) ++
      memberPaths onPath fields

/-- The references a property holds beside the path it continues. -/
def propertyPaths : AstValue D → List String
  | .arr items => itemPaths items
  | .obj fields => memberPaths true fields
  | _ => []

end

/-- The argument of a string function that is a field, where the other one is bound. -/
def fieldArgument (function : StringFunction) (first second : AstValue D) : Option (AstValue D) :=
  if function = .substringof then
    if isBindReference first = true ∧ isFieldReference second = true then some second
    else if isFieldReference first = true ∧ isBindReference second = true then some first
    else none
  else
    if isFieldReference first = true ∧ isBindReference second = true then some first
    else if isBindReference first = true ∧ isFieldReference second = true then some second
    else none

/-- The field that a condition is put on: the left operand of a comparison, or the right
one when the left is no field, the operand of an `in`, the field of a string function. -/
def conditionField (node : AstValue D) : Option (AstValue D) :=
  match isComparisonNode node with
  | some (_, left, right) =>
    if isFieldReference left = true then some left
    else if isFieldReference right = true then some right
    else none
  | none =>
  match isInNode node with
  | some (field, _) => some field
  | none =>
  match isStringFunctionNode node with
  | some (function, first, second) => fieldArgument function first second
  | none =>
  match isCallNode node with
  | some (method, args) =>
    (stringFunction method).bind fun function =>
      args.elements.bind fun elements =>
        fieldArgument function (elements[0]?.getD .undefined) (elements[1]?.getD .undefined)
  | none => none

mutual

/-- The full paths of the fields that the conditions of an AST are put on. -/
def filteredPaths (node : AstValue D) : List String :=
    match conditionField node with
    | some field => [getFieldPath platform "/" field]
    | none =>
    match node with
    | .arr (head :: operands) =>
      match isLogicalNode head operands with
      | some _ => allFilteredPaths operands
      | none =>
        match isNotNode head, operands with
        | true, [inner] => filteredPaths inner
        | _, _ => []
    | _ => []

def allFilteredPaths : List (AstValue D) → List String
  | [] => []
  | node :: nodes => filteredPaths node ++ allFilteredPaths nodes

end

/-- The fields that an AST refers to without any condition on them, such as the right
operand of a comparison between two fields. -/
def unfilteredPaths (node : AstValue D) : List String :=
  (fieldPaths platform node).filter fun path => path ∉ filteredPaths platform node

end Paths

/-! ## Where fields stand -/

section Fields

variable {platform : Platform D}

theorem mem_itemPaths {items : List (AstValue D)} {path : String} :
    path ∈ itemPaths platform items ↔ ∃ item ∈ items, path ∈ fieldPaths platform item := by
  induction items with
  | nil => simp [itemPaths]
  | cons item items ih => simp [itemPaths, ih]

/-- A field reference refers to its own field. -/
theorem getFieldPath_mem {node : AstValue D} (h : isFieldReference node = true) :
    getFieldPath platform "/" node ∈ fieldPaths platform node := by
  cases node with
  | obj fields =>
    rw [fieldPaths, if_pos h]
    exact List.mem_cons_self
  | _ => exact absurd h (by simp [isFieldReference, AstValue.get])

theorem mem_memberPaths_of_get? {fields : List (String × AstValue D)} {key path : String}
    {value : AstValue D} (onPath : Bool) (hkey : key ≠ "property")
    (hget : OrderedMap.get? fields key = some value) (hpath : path ∈ fieldPaths platform value) :
    path ∈ memberPaths platform onPath fields := by
  induction fields with
  | nil => simp [OrderedMap.get?] at hget
  | cons e fields ih =>
    obtain ⟨key', value'⟩ := e
    rw [memberPaths, List.mem_append]
    by_cases hk : key' = key
    · subst hk
      have hv : value' = value := by simpa [OrderedMap.get?] using hget
      subst hv
      rw [if_neg (fun h => hkey h.2)]
      exact Or.inl hpath
    · refine Or.inr (ih ?_)
      simpa [OrderedMap.get?, hk] using hget

/-- The references in a member of an object are references of the object. -/
theorem mem_fieldPaths_of_get {node : AstValue D} {key path : String} (hkey : key ≠ "property")
    (hpath : path ∈ fieldPaths platform (node.get key)) : path ∈ fieldPaths platform node := by
  cases node with
  | obj fields =>
    cases hget : OrderedMap.get? fields key with
    | none => simp [AstValue.get, hget, fieldPaths] at hpath
    | some value =>
      have hvalue : path ∈ fieldPaths platform value := by
        simpa [AstValue.get, hget] using hpath
      rw [fieldPaths]
      split
      · exact List.mem_cons_of_mem _ (mem_memberPaths_of_get? true hkey hget hvalue)
      · exact mem_memberPaths_of_get? false hkey hget hvalue
  | _ => simp [AstValue.get, fieldPaths] at hpath

/-! ## The guards -/

theorem isComparisonNode_eq_some {node left right : AstValue D} {operator : ComparisonOperator}
    (h : isComparisonNode node = some (operator, left, right)) :
    ∃ head, node = .arr [head, left, right] := by
  unfold isComparisonNode at h
  split at h
  · rename_i head l r
    obtain ⟨op, -, heq⟩ := Option.map_eq_some_iff.1 h
    cases heq
    exact ⟨head, rfl⟩
  · cases h

theorem isInNode_eq_some {node field value : AstValue D}
    (h : isInNode node = some (field, value)) :
    isFieldReference field = true ∧ ∃ head, node = .arr [head, field, value] := by
  unfold isInNode at h
  split at h
  · split at h
    · rename_i hguard
      cases h
      exact ⟨hguard.2, _, rfl⟩
    · cases h
  · cases h

theorem isStringFunctionNode_eq_some {node first second : AstValue D} {function : StringFunction}
    (h : isStringFunctionNode node = some (function, first, second)) :
    ∃ head, node = .arr [head, first, second] := by
  unfold isStringFunctionNode at h
  split at h
  · rename_i head l r
    obtain ⟨op, -, heq⟩ := Option.map_eq_some_iff.1 h
    cases heq
    exact ⟨head, rfl⟩
  · cases h

theorem isCallNode_eq_some {node method args : AstValue D}
    (h : isCallNode node = some (method, args)) :
    ∃ head call, node = .arr [head, call] ∧ args = call.get "args" := by
  unfold isCallNode at h
  split at h
  · split at h
    · cases h
      exact ⟨_, _, rfl, rfl⟩
    · cases h
  · cases h

theorem fieldArgument_eq_some {function : StringFunction} {first second field : AstValue D}
    (h : fieldArgument function first second = some field) :
    isFieldReference field = true ∧ (field = first ∨ field = second) := by
  unfold fieldArgument at h
  split at h <;> split at h
  · rename_i hguard
    cases h
    exact ⟨hguard.2, Or.inr rfl⟩
  · split at h
    · rename_i hguard
      cases h
      exact ⟨hguard.1, Or.inl rfl⟩
    · cases h
  · rename_i hguard
    cases h
    exact ⟨hguard.1, Or.inl rfl⟩
  · split at h
    · rename_i hguard
      cases h
      exact ⟨hguard.2, Or.inr rfl⟩
    · cases h

/-- A field among the elements that a value is destructured into stands in that value. -/
theorem getFieldPath_mem_of_elements {args : AstValue D} {elements : List (AstValue D)} {i : ℕ}
    (hargs : args.elements = some elements)
    (hfield : isFieldReference (elements[i]?.getD .undefined) = true) :
    getFieldPath platform "/" (elements[i]?.getD .undefined) ∈ fieldPaths platform args := by
  cases hi : elements[i]? with
  | none =>
    rw [hi] at hfield
    exact absurd hfield (by simp [isFieldReference, AstValue.get])
  | some item =>
    rw [hi, Option.getD_some] at hfield
    rw [Option.getD_some]
    have hmem : item ∈ elements := List.mem_of_getElem? hi
    cases args with
    | arr items =>
      cases hargs
      rw [fieldPaths, mem_itemPaths]
      exact ⟨item, hmem, getFieldPath_mem hfield⟩
    | str s =>
      cases hargs
      obtain ⟨c, -, rfl⟩ := List.mem_map.1 hmem
      exact absurd hfield (by simp [isFieldReference, AstValue.get])
    | _ => cases hargs

/-- The field a condition is put on stands in its node. -/
theorem conditionField_mem {node field : AstValue D} (h : conditionField node = some field) :
    getFieldPath platform "/" field ∈ fieldPaths platform node := by
  have hin : ∀ {items : List (AstValue D)}, field ∈ items → isFieldReference field = true →
      getFieldPath platform "/" field ∈ fieldPaths platform (.arr items) := by
    intro items hmem hfield
    rw [fieldPaths, mem_itemPaths]
    exact ⟨field, hmem, getFieldPath_mem hfield⟩
  unfold conditionField at h
  split at h
  · rename_i operator left right hnode
    obtain ⟨head, rfl⟩ := isComparisonNode_eq_some hnode
    split at h
    · rename_i hleft
      cases h
      exact hin (by simp) hleft
    · split at h
      · rename_i hright
        cases h
        exact hin (by simp) hright
      · cases h
  split at h
  · rename_i operand value hnode
    obtain ⟨hoperand, head, rfl⟩ := isInNode_eq_some hnode
    cases h
    exact hin (by simp) hoperand
  split at h
  · rename_i function first second hnode
    obtain ⟨head, rfl⟩ := isStringFunctionNode_eq_some hnode
    obtain ⟨hfield, rfl | rfl⟩ := fieldArgument_eq_some h
    · exact hin (by simp) hfield
    · exact hin (by simp) hfield
  split at h
  · rename_i method args hnode
    obtain ⟨head, call, rfl, rfl⟩ := isCallNode_eq_some hnode
    obtain ⟨function, -, hargs⟩ := Option.bind_eq_some_iff.1 h
    obtain ⟨elements, helements, hargument⟩ := Option.bind_eq_some_iff.1 hargs
    have hcall : getFieldPath platform "/" field ∈ fieldPaths platform call := by
      refine mem_fieldPaths_of_get (by decide : "args" ≠ "property") ?_
      obtain ⟨hfield, rfl | rfl⟩ := fieldArgument_eq_some hargument
      · exact getFieldPath_mem_of_elements helements hfield
      · exact getFieldPath_mem_of_elements helements hfield
    rw [fieldPaths, mem_itemPaths]
    exact ⟨call, by simp, hcall⟩
  · cases h

/-! ## What the transformer keeps -/

variable {binds : ODataBinds D}

theorem stringOperands_eq_ok {function : StringFunction} {value field : AstValue D}
    {filter : TransformedFilter D}
    (h : stringOperands platform binds function value field = .ok filter) :
    filter.field? = some (getFieldPath platform "/" field) := by
  obtain ⟨resolved, -, hfilter⟩ := Fallible.bind_eq_ok.1 h
  cases hfilter
  rfl

theorem transformIn_eq_ok {node field value : AstValue D} {filter : TransformedFilter D}
    (h : transformIn platform binds node field value = .ok filter) :
    filter.field? = some (getFieldPath platform "/" field) := by
  unfold transformIn at h
  split at h
  · obtain ⟨values, -, hfilter⟩ := Fallible.bind_eq_ok.1 h
    cases hfilter
    rfl
  · split at h
    · obtain ⟨resolved, -, hresolved⟩ := Fallible.bind_eq_ok.1 h
      split at hresolved
      · obtain ⟨values, -, hfilter⟩ := Fallible.bind_eq_ok.1 hresolved
        cases hfilter
        rfl
      · cases hresolved
        rfl
    · cases h

theorem transformOperands_eq_ok {node first second : AstValue D} {function : StringFunction}
    {filter : TransformedFilter D}
    (h : transformOperands platform binds node function first second = .ok filter) :
    ∃ field, fieldArgument function first second = some field ∧
      filter.field? = some (getFieldPath platform "/" field) := by
  unfold transformOperands at h
  unfold fieldArgument
  split at h
  · rename_i hsub
    rw [if_pos hsub]
    split at h
    · rename_i hguard
      exact ⟨second, if_pos hguard, stringOperands_eq_ok h⟩
    · rename_i hguard
      rw [if_neg hguard]
      split at h
      · rename_i hguard'
        exact ⟨first, if_pos hguard', stringOperands_eq_ok h⟩
      · cases h
  · rename_i hsub
    rw [if_neg hsub]
    split at h
    · rename_i hguard
      exact ⟨first, if_pos hguard, stringOperands_eq_ok h⟩
    · rename_i hguard
      rw [if_neg hguard]
      split at h
      · rename_i hguard'
        exact ⟨second, if_pos hguard', stringOperands_eq_ok h⟩
      · cases h

/-- The three kinds of node that are accepted: a condition on a field, a logical node and
a negation. -/
inductive Accepted (platform : Platform D) (binds : ODataBinds D) (node : AstValue D)
    (filter : TransformedFilter D) : Prop where
  | condition {field : AstValue D} : conditionField node = some field →
      filter.field? = some (getFieldPath platform "/" field) → Accepted platform binds node filter
  | logical {head : AstValue D} {operands : List (AstValue D)} {operator : LogicalOperator}
      {filters : List (TransformedFilter D)} : node = .arr (head :: operands) →
      conditionField node = none → isLogicalNode head operands = some operator →
      transformFilterNodes platform binds operands = .ok filters →
      filter = .logical operator filters → Accepted platform binds node filter
  | not {head inner : AstValue D} {innerFilter : TransformedFilter D} :
      node = .arr [head, inner] → conditionField node = none → isNotNode head = true →
      transformFilterNode platform binds inner = .ok innerFilter → filter = .not innerFilter →
      Accepted platform binds node filter

theorem accepted_of_comparison {node left right : AstValue D} {operator : ComparisonOperator}
    {filter : TransformedFilter D} (hnode : isComparisonNode node = some (operator, left, right))
    (h : transformComparison platform binds node operator left right = .ok filter) :
    Accepted platform binds node filter := by
  unfold transformComparison at h
  split at h
  · rename_i hleft
    obtain ⟨value, -, hfilter⟩ := Fallible.bind_eq_ok.1 h
    cases hfilter
    have hcondition : conditionField node = some left := by
      rw [conditionField, hnode]
      exact if_pos hleft
    exact .condition hcondition rfl
  · rename_i hleft
    split at h
    · rename_i hright
      obtain ⟨value, -, hfilter⟩ := Fallible.bind_eq_ok.1 h
      cases hfilter
      have hcondition : conditionField node = some right := by
        rw [conditionField, hnode]
        exact (if_neg hleft).trans (if_pos hright)
      exact .condition hcondition rfl
    · cases h

theorem accepted_of_call {node method args : AstValue D} {filter : TransformedFilter D}
    (hcomparison : isComparisonNode node = none) (hin : isInNode node = none)
    (hfunction : isStringFunctionNode node = none) (hcall : isCallNode node = some (method, args))
    (h : transformCallFunction platform binds node method args = .ok filter) :
    Accepted platform binds node filter := by
  unfold transformCallFunction at h
  split at h
  · cases h
  · rename_i function hmethod
    split at h
    · cases h
    · rename_i elements helements
      obtain ⟨field, hargument, hfield⟩ := transformOperands_eq_ok h
      refine .condition ?_ hfield
      rw [conditionField, hcomparison, hin, hfunction, hcall]
      show ((stringFunction method).bind fun function => args.elements.bind fun elements =>
        fieldArgument function (elements[0]?.getD .undefined) (elements[1]?.getD .undefined)) = _
      rw [hmethod, Option.bind_some, helements, Option.bind_some]
      exact hargument

theorem accepted_of_transformFilterNode {node : AstValue D} {filter : TransformedFilter D}
    (h : transformFilterNode platform binds node = .ok filter) :
    Accepted platform binds node filter := by
  unfold transformFilterNode at h
  split at h
  · rename_i operator left right hcomparison
    exact accepted_of_comparison hcomparison h
  rename_i hcomparison
  split at h
  · rename_i operand value hin
    refine .condition ?_ (transformIn_eq_ok h)
    rw [conditionField, hcomparison, hin]
  rename_i hin
  split at h
  · rename_i function first second hfunction
    obtain ⟨field, hargument, hfield⟩ := transformOperands_eq_ok h
    refine .condition ?_ hfield
    rw [conditionField, hcomparison, hin, hfunction]
    exact hargument
  rename_i hfunction
  split at h
  · rename_i method args hcall
    exact accepted_of_call hcomparison hin hfunction hcall h
  rename_i hcall
  have hcondition : conditionField node = none := by
    rw [conditionField, hcomparison, hin, hfunction, hcall]
  split at h
  · rename_i head operands
    split at h
    · rename_i operator hlogical
      obtain ⟨filters, hfilters, hfilter⟩ := Fallible.bind_eq_ok.1 h
      cases hfilter
      exact .logical rfl hcondition hlogical hfilters rfl
    · split at h
      · rename_i inner hnot hlogical
        obtain ⟨innerFilter, hinner, hfilter⟩ := Fallible.bind_eq_ok.1 h
        cases hfilter
        exact .not rfl hcondition hnot hinner rfl
      · cases h
  · cases h

/-- The fields that a transformed filter filters. -/
def leafFields (filters : List (TransformedFilter D)) : List String :=
  filters.filterMap TransformedFilter.field?

theorem leafFields_of_field {filter : TransformedFilter D} {name : String}
    (h : filter.field? = some name) : leafFields (flattenFilters filter) = [name] := by
  cases filter with
  | logical | not => cases h
  | comparison | isIn | notIn | stringFunction =>
    cases h
    rfl

theorem filteredPaths_of_condition {node field : AstValue D}
    (h : conditionField node = some field) :
    filteredPaths platform node = [getFieldPath platform "/" field] := by
  unfold filteredPaths
  rw [h]

theorem filteredPaths_logical {head : AstValue D} {operands : List (AstValue D)}
    {operator : LogicalOperator} (h : conditionField (.arr (head :: operands)) = none)
    (hlogical : isLogicalNode head operands = some operator) :
    filteredPaths platform (.arr (head :: operands)) = allFilteredPaths platform operands := by
  conv_lhs => unfold filteredPaths
  simp only [h, hlogical]

theorem filteredPaths_not {head inner : AstValue D}
    (h : conditionField (.arr [head, inner]) = none) (hnot : isNotNode head = true) :
    filteredPaths platform (.arr [head, inner]) = filteredPaths platform inner := by
  have hlogical : isLogicalNode head [inner] = none := rfl
  conv_lhs => unfold filteredPaths
  simp only [h, hlogical, hnot]

mutual

/-- The transformed filter filters the fields that the conditions of the AST are put on,
in their order. -/
theorem leafFields_transformFilterNode {node : AstValue D} {filter : TransformedFilter D}
    (h : transformFilterNode platform binds node = .ok filter) :
    leafFields (flattenFilters filter) = filteredPaths platform node := by
  match accepted_of_transformFilterNode h with
  | .condition hcondition hfield =>
    rw [leafFields_of_field hfield, filteredPaths_of_condition hcondition]
  | .logical hnode hcondition hlogical hfilters hfilter =>
    subst hnode
    subst hfilter
    rw [flattenFilters, filteredPaths_logical hcondition hlogical]
    exact leafFields_transformFilterNodes hfilters
  | .not hnode hcondition hnot hinner hfilter =>
    subst hnode
    subst hfilter
    rw [flattenFilters, filteredPaths_not hcondition hnot]
    exact leafFields_transformFilterNode hinner

theorem leafFields_transformFilterNodes {nodes : List (AstValue D)}
    {filters : List (TransformedFilter D)}
    (h : transformFilterNodes platform binds nodes = .ok filters) :
    leafFields (flattenAll filters) = allFilteredPaths platform nodes := by
  match nodes with
  | [] =>
    cases h
    rfl
  | node :: nodes =>
    obtain ⟨filter, hnode, hrest⟩ := Fallible.bind_eq_ok.1 h
    obtain ⟨rest, hnodes, hfilter⟩ := Fallible.bind_eq_ok.1 hrest
    cases hfilter
    rw [flattenAll, leafFields, List.filterMap_append, allFilteredPaths,
      ← leafFields_transformFilterNode hnode, ← leafFields_transformFilterNodes hnodes]
    rfl

end

mutual

/-- Conditions are put on fields of the AST. -/
theorem filteredPaths_subset (node : AstValue D) :
    filteredPaths platform node ⊆ fieldPaths platform node := by
  intro path hpath
  unfold filteredPaths at hpath
  split at hpath
  · rename_i field hcondition
    rw [List.mem_singleton.1 hpath]
    exact conditionField_mem hcondition
  split at hpath
  · rename_i head operands hcondition
    have hoperands : ∀ {path : String}, path ∈ itemPaths platform operands →
        path ∈ fieldPaths platform (.arr (head :: operands)) := by
      intro path h
      rw [fieldPaths, itemPaths]
      exact List.mem_append_right _ h
    split at hpath
    · exact hoperands (allFilteredPaths_subset operands hpath)
    · split at hpath
      · rename_i inner hnot hlogical
        refine hoperands ?_
        rw [itemPaths]
        exact List.mem_append_left _ (filteredPaths_subset inner hpath)
      · cases hpath
  · cases hpath

theorem allFilteredPaths_subset (nodes : List (AstValue D)) :
    allFilteredPaths platform nodes ⊆ itemPaths platform nodes := by
  intro path hpath
  match nodes with
  | [] => cases hpath
  | node :: nodes =>
    rw [allFilteredPaths, List.mem_append] at hpath
    rw [itemPaths, List.mem_append]
    rcases hpath with h | h
    · exact Or.inl (filteredPaths_subset node h)
    · exact Or.inr (allFilteredPaths_subset nodes h)

end

theorem mem_getFilteredFieldNames_iff {tree : AstValue D} {filter : TransformedFilter D}
    (h : transformFilter platform binds tree = .ok filter) {name : String} :
    name ∈ getFilteredFieldNames filter ↔ name ∈ filteredPaths platform tree := by
  rw [getFilteredFieldNames, List.mem_eraseDups, ← leafFields_transformFilterNode h, leafFields]

end Fields

/-! ## Allow-listing -/

/-- Asking the transformed filter is asking the source: nothing is reported only when every
field of the AST is allowed, and what is reported is a field of it that is not. -/
structure AllowListed (platform : Platform D) (tree : AstValue D) (filter : TransformedFilter D)
    (allowed : List String) : Prop where
  supported : findUnsupportedField filter allowed = none →
    ∀ path ∈ fieldPaths platform tree, path ∈ allowed
  reported : ∀ name, findUnsupportedField filter allowed = some name →
    name ∈ fieldPaths platform tree ∧ name ∉ allowed

/-- **Allow-listing a filter** allow-lists the AST it was made of exactly when some field
that a condition is put on is not allowed, or every field without a condition is. -/
theorem allowListing_sound_iff {platform : Platform D} {binds : ODataBinds D} {tree : AstValue D}
    {filter : TransformedFilter D} (h : transformFilter platform binds tree = .ok filter)
    (allowed : List String) :
    AllowListed platform tree filter allowed ↔
      (∃ path ∈ filteredPaths platform tree, path ∉ allowed) ∨
        ∀ path ∈ unfilteredPaths platform tree, path ∈ allowed := by
  have hnone : findUnsupportedField filter allowed = none ↔
      ∀ path ∈ filteredPaths platform tree, path ∈ allowed := by
    rw [findUnsupportedField_eq_none]
    exact forall_congr' fun name => by rw [mem_getFilteredFieldNames_iff h]
  constructor
  · intro hsound
    by_cases hfiltered : ∃ path ∈ filteredPaths platform tree, path ∉ allowed
    · exact Or.inl hfiltered
    · refine Or.inr fun path hpath => ?_
      push Not at hfiltered
      exact hsound.supported (hnone.2 hfiltered) path (List.mem_filter.1 hpath).1
  · intro hcondition
    refine ⟨fun hreport path hpath => ?_, fun name hname => ?_⟩
    · have hfiltered := hnone.1 hreport
      rcases hcondition with ⟨path', hpath', hnot⟩ | hunfiltered
      · exact absurd (hfiltered path' hpath') hnot
      · by_cases hmem : path ∈ filteredPaths platform tree
        · exact hfiltered path hmem
        · exact hunfiltered path (List.mem_filter.2 ⟨hpath, by simpa using hmem⟩)
    · obtain ⟨hmem, hnot⟩ := findUnsupportedField_eq_some hname
      exact ⟨filteredPaths_subset tree ((mem_getFilteredFieldNames_iff h).1 hmem), hnot⟩

/-! ## Concrete filters -/

/-- A platform with one date. -/
def oneDatePlatform : Platform Unit where
  numberToString q := toString q.num
  dateToString _ := "Thu Jan 01 1970"
  newDate _ := ()

/-- `not (null eq owner)`. -/
def ownedTree : AstValue Unit :=
  .arr [.str "not", .arr [.str "eq", .null, .obj [("name", .str "owner")]]]

theorem ownedTree_allowListed :
    ∃ filter, transformFilter oneDatePlatform { items := [] } ownedTree = .ok filter ∧
      AllowListed oneDatePlatform ownedTree filter ["owner"] := by
  have htree : transformFilter oneDatePlatform { items := [] } ownedTree =
      .ok (.not (.comparison "owner" .eq .null)) := rfl
  exact ⟨_, htree, (allowListing_sound_iff htree _).2 (Or.inr (by decide))⟩

/-- `status eq user/password`. -/
def comparedTree : AstValue Unit :=
  .arr [.str "eq", .obj [("name", .str "status")],
    .obj [("name", .str "user"), ("property", .obj [("name", .str "password")])]]

/-- The right operand of a comparison between two fields passes unseen: nothing is reported
though `user/password` is not allowed. -/
theorem comparedTree_not_allowListed :
    ∃ filter, transformFilter oneDatePlatform { items := [] } comparedTree = .ok filter ∧
      findUnsupportedField filter ["status"] = none ∧
      "user/password" ∈ fieldPaths oneDatePlatform comparedTree ∧
      ¬ AllowListed oneDatePlatform comparedTree filter ["status"] := by
  have hmem : "user/password" ∈ fieldPaths oneDatePlatform comparedTree := by decide
  refine ⟨_, rfl, by decide, hmem, ?_⟩
  intro h
  exact absurd (h.supported (by decide) _ hmem) (by decide)

end SharedTsLibs.ODataMapper
