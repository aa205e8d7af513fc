import SharedTsLibs.ODataMapper.FilterLanguage
import Mathlib.Data.Rat.Cast.Defs

/-!
# What the transformer preserves

An AST that denotes an expression is accepted by the transformer, and the filter it
makes says the same about every record.

* `DenotesPath.getFieldPath_eq`, `DenotesBound.resolveBind_eq` — fields and binds are
  read as they denote.
* `transformFilterNode_comparison` and its like — which function a node goes to.
* `transformFilter_meaning` — the transformed filter has the truth value of the
  expression, where string functions take their arguments by what they are and a
  value stands on the left of an equality only.
-/

namespace SharedTsLibs.ODataMapper

variable {D : Type}

/-! ## Fields and binds -/

theorem AstValue.has_of_get_ne {key : String} {v : AstValue D} (h : v.get key ≠ .undefined) :
    v.has key = true := by
  cases v with
  | obj fields =>
    rw [AstValue.get] at h
    rw [AstValue.has]
    cases hget : OrderedMap.get? fields key with
    | none => rw [hget] at h; exact absurd rfl h
    | some w => rfl
  | _ => exact absurd rfl h

theorem DenotesPath.isFieldReference {node : AstValue D} {path : String}
    (h : DenotesPath node path) : isFieldReference node = true := by
  cases h with
  | name hname _ => simp [ODataMapper.isFieldReference, hname]
  | nested hname _ => simp [ODataMapper.isFieldReference, hname]

theorem DenotesPath.truthy {node : AstValue D} {path : String} (h : DenotesPath node path) :
    node.truthy = true := by
  cases h <;> rfl

/-- `field.property`, as `getFieldPath` reads it. -/
theorem propertyPath_eq (platform : Platform D) (fields : List (String × AstValue D)) :
    propertyPath platform "/" fields =
      if ((AstValue.obj fields).get "property").truthy then
        some (getFieldPath platform "/" ((AstValue.obj fields).get "property"))
      else none := by
  induction fields with
  | nil => rfl
  | cons e fields ih =>
    obtain ⟨key, value⟩ := e
    by_cases hkey : key = "property"
    · have hget : (AstValue.obj ((key, value) :: fields)).get "property" = value := by
        simp [AstValue.get, OrderedMap.get?, hkey]
      rw [propertyPath, if_pos hkey, hget]
    · have hget : (AstValue.obj ((key, value) :: fields)).get "property" =
          (AstValue.obj fields).get "property" := by
        simp [AstValue.get, OrderedMap.get?, hkey]
      rw [propertyPath, if_neg hkey, hget, ih]

theorem DenotesPath.getFieldPath_eq (platform : Platform D) {node : AstValue D} {path : String}
    (h : DenotesPath node path) : getFieldPath platform "/" node = path := by
  induction h with
  | name hname hproperty =>
    rw [getFieldPath, propertyPath_eq, hproperty, hname]
    rfl
  | nested hname hpath ih =>
    rw [getFieldPath, propertyPath_eq, if_pos hpath.truthy, hname, ih]
    rfl

theorem DenotesField.isBindReference {node : AstValue D} {path : String}
    (h : DenotesField node path) : isBindReference node = false := by
  simp [ODataMapper.isBindReference, h.noBind]

section Binds

variable {platform : Platform D} {binds : ODataBinds D}

theorem RefersTo.isBindReference {node bind : AstValue D} (h : RefersTo binds node bind) :
    isBindReference node = true := by
  cases h with
  | index hbind _ _ => simp [ODataMapper.isBindReference, hbind]
  | parameter hbind _ hname _ => simp [ODataMapper.isBindReference, hbind, hname]

theorem RefersTo.isFieldReference {node bind : AstValue D} (h : RefersTo binds node bind) :
    isFieldReference node = false := by
  cases h with
  | index _ hname _ => simp [ODataMapper.isFieldReference, hname]
  | parameter _ hname _ _ => simp [ODataMapper.isFieldReference, hname]

theorem RefersTo.lookup {node bind : AstValue D} (h : RefersTo binds node bind) :
    binds.lookup (node.get "bind") = bind := by
  cases h with
  | index hbind _ hitem =>
    rw [hbind]
    simp [ODataBinds.lookup, hitem]
  | parameter hbind _ _ halias =>
    rw [hbind]
    simp [ODataBinds.lookup, halias]

/-- A reference to a tuple is resolved to the value of the tuple. -/
theorem RefersTo.resolveBind_eq {node : AstValue D} {elements : List (AstValue D)}
    (h : RefersTo binds node (.arr elements)) :
    resolveBind platform binds node = extractBindTupleValue platform (.arr elements) := by
  rw [resolveBind, h.lookup]
  rfl

theorem IsPlainType.bindValue_eq {type : String} (h : IsPlainType type) (v : AstValue D) :
    bindValue platform (.str type) v = v := by
  obtain ⟨hdate, htime, hnull⟩ := h
  unfold bindValue
  split <;> simp_all

theorem TupleValue.isBindTuple {bind v : AstValue D} (h : TupleValue platform bind v) :
    isBindTuple bind = true := by
  cases h with
  | text | real | boolean | duration | null => rfl
  | date _ htype => rcases htype with rfl | rfl <;> rfl
  | dateText _ htype => rcases htype with rfl | rfl <;> rfl

theorem TupleValue.isSingle {bind v : AstValue D} (h : TupleValue platform bind v) :
    IsSingle v := by
  cases h <;> trivial

theorem TupleValue.extract {bind v : AstValue D} (h : TupleValue platform bind v) :
    extractBindTupleValue platform bind = .ok v := by
  cases h with
  | text | real | boolean | duration | null => rfl
  | date _ htype => rcases htype with rfl | rfl <;> rfl
  | dateText _ htype => rcases htype with rfl | rfl <;> rfl

theorem BindValue.isSingle {bind v : AstValue D} (h : BindValue platform bind v) :
    IsSingle v := by
  cases h with
  | tuple h => exact h.isSingle
  | plain _ hv => exact hv

theorem BindValue.exists_elements {bind v : AstValue D} (h : BindValue platform bind v) :
    ∃ elements, bind = .arr elements ∧
      extractBindTupleValue platform (.arr elements) = .ok v := by
  cases h with
  | tuple h =>
    have hv := h.extract
    cases h <;> exact ⟨_, rfl, hv⟩
  | plain htype _ =>
    refine ⟨_, rfl, ?_⟩
    simp [extractBindTupleValue, AstValue.elements, htype.bindValue_eq]

theorem DenotesBound.isBindReference {node v : AstValue D}
    (h : DenotesBound platform binds node v) : isBindReference node = true := by
  obtain ⟨_, href, _⟩ := h
  exact href.isBindReference

theorem DenotesBound.isFieldReference {node v : AstValue D}
    (h : DenotesBound platform binds node v) : isFieldReference node = false := by
  obtain ⟨_, href, _⟩ := h
  exact href.isFieldReference

theorem DenotesBound.isSingle {node v : AstValue D} (h : DenotesBound platform binds node v) :
    IsSingle v := by
  obtain ⟨_, _, hv⟩ := h
  exact hv.isSingle

theorem DenotesBound.resolveBind_eq {node v : AstValue D}
    (h : DenotesBound platform binds node v) : resolveBind platform binds node = .ok v := by
  obtain ⟨bind, href, hv⟩ := h
  obtain ⟨elements, rfl, helements⟩ := hv.exists_elements
  rw [href.resolveBind_eq, helements]

theorem DenotesValue.isFieldReference {node v : AstValue D}
    (h : DenotesValue platform binds node v) : isFieldReference node = false := by
  cases h with
  | bound h => exact h.isFieldReference
  | null | str | num | bool => rfl

theorem DenotesValue.resolveValue_eq {node v : AstValue D}
    (h : DenotesValue platform binds node v) : resolveValue platform binds node = .ok v := by
  cases h with
  | bound h =>
    have hsingle := h.isSingle
    unfold resolveValue
    rw [if_pos h.isBindReference, h.resolveBind_eq]
    cases v with
    | arr items => exact hsingle.elim
    | _ => rfl
  | null | str | num | bool => rfl

/-! ## The nodes of an AST -/

theorem resolveBinds_eq {nodes values : List (AstValue D)}
    (h : List.Forall₂ (DenotesBound platform binds) nodes values) :
    resolveBinds platform binds nodes = .ok values := by
  refine Fallible.mapM_eq_ok (R := DenotesBound platform binds) ?_ h
  intro node v hv
  have hbind := hv.isBindReference
  cases node with
  | undefined | null => cases hbind
  | _ => exact hv.resolveBind_eq

theorem extractBindTupleValues_tuples {tuples values : List (AstValue D)}
    (h : List.Forall₂ (TupleValue platform) tuples values) :
    extractBindTupleValues platform tuples = .ok values := by
  have hvalues := Fallible.mapM_eq_ok (fun _ _ hv => TupleValue.extract hv) h
  cases h with
  | nil => rfl
  | cons hv _ =>
    rw [extractBindTupleValues, List.head?_cons, Option.any_some, if_pos hv.isBindTuple, hvalues]

theorem extractBindTupleValues_values {values : List (AstValue D)} (h : ∀ v ∈ values, IsSingle v) :
    extractBindTupleValues platform values = .ok values := by
  cases values with
  | nil => rfl
  | cons v values =>
    have hv := h v List.mem_cons_self
    have htuple : isBindTuple v = false := by
      cases v with
      | arr items => exact hv.elim
      | _ => rfl
    rw [extractBindTupleValues, List.head?_cons, Option.any_some, htuple, if_neg (by decide)]

/-- A list that a reference refers to is resolved to its elements. -/
theorem transformIn_list {node field ref : AstValue D} {path type : String}
    {items values : List (AstValue D)} (hfield : DenotesField field path)
    (href : RefersTo binds ref (.arr [.str type, .arr items])) (htype : IsPlainType type)
    (hitems : extractBindTupleValues platform items = .ok values) :
    transformIn platform binds node field ref = .ok (.isIn path values) := by
  have hresolve : resolveBind platform binds ref = .ok (.arr items) := by
    rw [href.resolveBind_eq]
    simp [extractBindTupleValue, AstValue.elements, htype.bindValue_eq]
  have hbind := href.isBindReference
  unfold transformIn
  cases ref with
  | arr refs => cases hbind
  | _ => simp [hbind, hresolve, hitems, hfield.path.getFieldPath_eq, bind, Except.bind]

theorem transformIn_eq {node field ref : AstValue D} {path : String} {values : List (AstValue D)}
    (hfield : DenotesField field path) (hvalues : DenotesValues platform binds ref values) :
    transformIn platform binds node field ref = .ok (.isIn path values) := by
  cases hvalues with
  | refs h =>
    simp [transformIn, resolveBinds_eq h, hfield.path.getFieldPath_eq, bind, Except.bind]
  | one h =>
    rename_i v
    have hbind := h.isBindReference
    have hsingle := h.isSingle
    unfold transformIn
    cases ref with
    | arr refs => cases hbind
    | _ =>
      cases v with
      | arr items => exact hsingle.elim
      | _ => simp [hbind, h.resolveBind_eq, hfield.path.getFieldPath_eq, bind, Except.bind]
  | tuples href htype h =>
    exact transformIn_list hfield href htype (extractBindTupleValues_tuples h)
  | values href htype h =>
    exact transformIn_list hfield href htype (extractBindTupleValues_values h)

theorem stringOperands_eq {function : StringFunction} {value field v : AstValue D} {path : String}
    (hvalue : DenotesBound platform binds value v) (hfield : DenotesField field path) :
    stringOperands platform binds function value field =
      .ok (.stringFunction function path (v.toText platform)) := by
  rw [stringOperands, hvalue.resolveBind_eq, hfield.path.getFieldPath_eq]
  rfl

/-- The path and the text of the two arguments of a string function. -/
theorem transformOperands_eq {node first second : AstValue D} {function : StringFunction}
    {x y : Operand D} (h : DenotesArguments platform binds first second x y) :
    ∃ path v, transformOperands platform binds node function first second =
        .ok (.stringFunction function path (v.toText platform)) ∧
      ((x = .field path ∧ y = .value v) ∨ (x = .value v ∧ y = .field path)) := by
  cases h with
  | @fieldFirst v path hfield hvalue =>
    refine ⟨path, v, ?_, Or.inl ⟨rfl, rfl⟩⟩
    simp [transformOperands, hfield.path.isFieldReference, hfield.isBindReference,
      hvalue.isBindReference, hvalue.isFieldReference, stringOperands_eq hvalue hfield]
  | @valueFirst v path hvalue hfield =>
    refine ⟨path, v, ?_, Or.inr ⟨rfl, rfl⟩⟩
    simp [transformOperands, hfield.path.isFieldReference, hfield.isBindReference,
      hvalue.isBindReference, hvalue.isFieldReference, stringOperands_eq hvalue hfield]

theorem transformComparison_left {node left right v : AstValue D} {path : String}
    {operator : ComparisonOperator} (hfield : DenotesField left path)
    (hvalue : DenotesValue platform binds right v) :
    transformComparison platform binds node operator left right =
      .ok (.comparison path operator v) := by
  rw [transformComparison, if_pos hfield.path.isFieldReference, hvalue.resolveValue_eq,
    hfield.path.getFieldPath_eq]
  rfl

/-- The operator stays as it is when the value is on the left. -/
theorem transformComparison_right {node left right v : AstValue D} {path : String}
    {operator : ComparisonOperator} (hvalue : DenotesValue platform binds left v)
    (hfield : DenotesField right path) :
    transformComparison platform binds node operator left right =
      .ok (.comparison path operator v) := by
  have hleft : ¬isFieldReference left = true := by rw [hvalue.isFieldReference]; decide
  rw [transformComparison, if_neg hleft, if_pos hfield.path.isFieldReference,
    hvalue.resolveValue_eq, hfield.path.getFieldPath_eq]
  rfl

/-! ## Dispatch -/

theorem transformFilterNode_comparison (operator : ComparisonOperator) (left right : AstValue D) :
    transformFilterNode platform binds (.arr [.str operator.name, left, right]) =
      transformComparison platform binds (.arr [.str operator.name, left, right]) operator left
        right := by
  cases operator <;> rfl

theorem transformFilterNode_in {name : String} (hname : name = "in" ∨ name = "eqany")
    {field node : AstValue D} (hfield : isFieldReference field = true) :
    transformFilterNode platform binds (.arr [.str name, field, node]) =
      transformIn platform binds (.arr [.str name, field, node]) field node := by
  have hin : isInNode (.arr [.str name, field, node]) = some (field, node) := by
    rw [isInNode, if_pos ⟨hname, hfield⟩]
  have hcomparison : isComparisonNode (.arr [.str name, field, node]) = none := by
    rcases hname with rfl | rfl <;> rfl
  unfold transformFilterNode
  rw [hcomparison, hin]

theorem transformFilterNode_function (function : StringFunction) (first second : AstValue D) :
    transformFilterNode platform binds (.arr [.str function.name, first, second]) =
      transformOperands platform binds (.arr [.str function.name, first, second]) function first
        second := by
  cases function <;> rfl

theorem transformFilterNode_call {function : StringFunction} {call first second : AstValue D}
    (hmethod : call.get "method" = .str function.name)
    (hargs : call.get "args" = .arr [first, second]) :
    transformFilterNode platform binds (.arr [.str "call", call]) =
      transformOperands platform binds (.arr [.str "call", call]) function first second := by
  have hcall : isCallNode (.arr [.str "call", call]) =
      some (.str function.name, .arr [first, second]) := by
    have hhas : (call.has "method" && call.has "args") = true := by
      rw [AstValue.has_of_get_ne (by rw [hmethod]; exact nofun),
        AstValue.has_of_get_ne (by rw [hargs]; exact nofun)]
      rfl
    rw [isCallNode, if_pos hhas, hmethod, hargs]
  have hfunction : stringFunction (.str function.name : AstValue D) = some function := by
    cases function <;> rfl
  have hnode : transformFilterNode platform binds (.arr [.str "call", call]) =
      transformCallFunction platform binds (.arr [.str "call", call]) (.str function.name)
        (.arr [first, second]) := by
    unfold transformFilterNode
    rw [hcall]
    rfl
  rw [hnode, transformCallFunction, hfunction]
  rfl

theorem transformFilterNode_logical (operator : LogicalOperator) {nodes : List (AstValue D)}
    (hnodes : 2 ≤ nodes.length) :
    transformFilterNode platform binds (.arr (.str operator.name :: nodes)) =
      (transformFilterNodes platform binds nodes).bind fun filters =>
        .ok (.logical operator filters) := by
  match nodes, hnodes with
  | [first, second], _ => cases operator <;> rfl
  | first :: second :: third :: nodes, _ => cases operator <;> rfl

theorem transformFilterNode_not (node : AstValue D) :
    transformFilterNode platform binds (.arr [.str "not", node]) =
      (transformFilterNode platform binds node).bind fun filter => .ok (.not filter) := rfl

/-! ## Preservation -/

/-- Equality does not tell its sides apart. -/
theorem holds_comm (reading : Reading D) {operator : ComparisonOperator}
    (h : operator = .eq ∨ operator = .ne) (x y : AstValue D) :
    operator.holds reading x y = operator.holds reading y x := by
  rcases h with rfl | rfl
  · exact reading.eq_comm x y
  · exact congrArg (!·) (reading.eq_comm x y)

/-- A string function in signature order searches the text of the field for the
value. -/
theorem call_meaning (reading : Reading D) (record : Record D) {function : StringFunction}
    (hbinary : function.IsBinary) {x y : Operand D} {path : String} {v : AstValue D}
    (h : (x = .field path ∧ y = .value v) ∨ (x = .value v ∧ y = .field path)) :
    (TransformedFilter.stringFunction function path (v.toText platform)).holds reading record =
      (FilterExpr.call function x y).inSignatureOrder.meaning platform reading record := by
  obtain ⟨hlower, hupper⟩ := hbinary
  have hsub : ∀ t : Option String,
      (t.any fun text => StringFunction.substringof.holdsOf text (v.toText platform)) =
        t.any fun text => StringFunction.substringof.holds (v.toText platform) text := fun t => rfl
  rcases h with ⟨rfl, rfl⟩ | ⟨rfl, rfl⟩ <;> cases function with
  | tolower => exact absurd rfl hlower
  | toupper => exact absurd rfl hupper
  | _ =>
    simp [TransformedFilter.holds, FilterExpr.inSignatureOrder, signatureOrder, FilterExpr.meaning,
      Operand.textOn, StringFunction.holdsOf]

mutual

theorem transformFilterNode_meaning {node : AstValue D} {expr : FilterExpr D}
    (h : Denotes platform binds node expr) (hleft : expr.LeftValuesEquate) :
    ∃ filter, transformFilterNode platform binds node = .ok filter ∧
      ∀ reading record, filter.holds reading record =
        expr.inSignatureOrder.meaning platform reading record := by
  match h with
  | .comparison operator hfield hvalue =>
    refine ⟨_, (transformFilterNode_comparison _ _ _).trans
      (transformComparison_left hfield hvalue), fun reading record => ?_⟩
    simp [TransformedFilter.holds, FilterExpr.inSignatureOrder, FilterExpr.meaning,
      Operand.valueOn]
  | .comparisonLeft operator hvalue hfield =>
    simp only [FilterExpr.LeftValuesEquate] at hleft
    refine ⟨_, (transformFilterNode_comparison _ _ _).trans
      (transformComparison_right hvalue hfield), fun reading record => ?_⟩
    simp [TransformedFilter.holds, FilterExpr.inSignatureOrder, FilterExpr.meaning,
      Operand.valueOn, holds_comm reading hleft]
  | .isIn hname hfield hvalues =>
    refine ⟨_, (transformFilterNode_in hname hfield.path.isFieldReference).trans
      (transformIn_eq hfield hvalues), fun reading record => ?_⟩
    simp [TransformedFilter.holds, FilterExpr.inSignatureOrder, FilterExpr.meaning]
  | .function hbinary hargs =>
    obtain ⟨path, v, heq, horder⟩ := transformOperands_eq hargs
    exact ⟨_, (transformFilterNode_function _ _ _).trans heq, fun reading record =>
      call_meaning reading record hbinary horder⟩
  | .call hbinary hmethod hcall hargs =>
    obtain ⟨path, v, heq, horder⟩ := transformOperands_eq hargs
    exact ⟨_, (transformFilterNode_call hmethod hcall).trans heq, fun reading record =>
      call_meaning reading record hbinary horder⟩
  | .logical operator hnodes hall =>
    obtain ⟨filters, heq, hmeaning⟩ := transformFilterNodes_meaning hall
      (by simpa only [FilterExpr.LeftValuesEquate] using hleft)
    refine ⟨.logical operator filters, ?_, fun reading record => ?_⟩
    · rw [transformFilterNode_logical operator hnodes, heq]
      rfl
    · obtain ⟨hand, hor⟩ := hmeaning reading record
      cases operator with
      | and => simp [TransformedFilter.holds, FilterExpr.inSignatureOrder, FilterExpr.meaning, hand]
      | or => simp [TransformedFilter.holds, FilterExpr.inSignatureOrder, FilterExpr.meaning, hor]
  | .not hnode =>
    obtain ⟨filter, heq, hmeaning⟩ := transformFilterNode_meaning hnode
      (by simpa only [FilterExpr.LeftValuesEquate] using hleft)
    refine ⟨.not filter, ?_, fun reading record => ?_⟩
    · rw [transformFilterNode_not, heq]
      rfl
    · simp [TransformedFilter.holds, FilterExpr.inSignatureOrder, FilterExpr.meaning,
        hmeaning reading record]

theorem transformFilterNodes_meaning {nodes : List (AstValue D)} {operands : List (FilterExpr D)}
    (h : DenotesAll platform binds nodes operands)
    (hleft : FilterExpr.AllLeftValuesEquate operands) :
    ∃ filters, transformFilterNodes platform binds nodes = .ok filters ∧
      ∀ reading record,
        TransformedFilter.allHold reading record filters = FilterExpr.allMean platform reading
            record (FilterExpr.allInSignatureOrder operands) ∧
          TransformedFilter.someHolds reading record filters = FilterExpr.someMean platform reading
            record (FilterExpr.allInSignatureOrder operands) := by
  match h with
  | .nil => exact ⟨[], rfl, fun reading record => ⟨rfl, rfl⟩⟩
  | .cons hnode hnodes =>
    obtain ⟨hl, hls⟩ : _ ∧ _ := hleft
    obtain ⟨filter, heq, hmeaning⟩ := transformFilterNode_meaning hnode hl
    obtain ⟨filters, heqs, hmeanings⟩ := transformFilterNodes_meaning hnodes hls
    refine ⟨filter :: filters, ?_, fun reading record => ?_⟩
    · rw [transformFilterNodes, heq, heqs]
      rfl
    · obtain ⟨hand, hor⟩ := hmeanings reading record
      simp [TransformedFilter.allHold, TransformedFilter.someHolds,
        FilterExpr.allInSignatureOrder, FilterExpr.allMean, FilterExpr.someMean,
        hmeaning reading record, hand, hor]

end

end Binds

/-- **Transforming a filter keeps its meaning**: an AST that denotes an expression is
accepted, and on every record the filter has the truth value of the expression with
the arguments of its string functions in signature order, whatever values are compared
and however texts are read, provided that a value on the left of a comparison is
compared for equality. -/
theorem transformFilter_meaning {platform : Platform D} {binds : ODataBinds D} {tree : AstValue D}
    {expr : FilterExpr D} (h : Denotes platform binds tree expr) (hleft : expr.LeftValuesEquate) :
    ∃ filter, transformFilter platform binds tree = .ok filter ∧
      ∀ reading record, filter.holds reading record =
        expr.inSignatureOrder.meaning platform reading record :=
  transformFilterNode_meaning h hleft

/-! ## Concrete filters -/

/-- A platform with one date. -/
def plainPlatform : Platform Unit where
  numberToString q := toString q.num
  dateToString _ := "Thu Jan 01 1970"
  newDate _ := ()

def fieldNode (name : String) : AstValue Unit := .obj [("name", .str name)]

def bindNode (i : ℕ) : AstValue Unit := .obj [("bind", .num i)]

theorem fieldNode_denotes (name : String) : DenotesField (fieldNode name) name :=
  ⟨.name rfl rfl, rfl⟩

theorem bindNode_denotes {binds : ODataBinds Unit} {i : ℕ} {s : String}
    (h : binds.items[i]? = some (.arr [.str "Text", .str s])) :
    DenotesBound plainPlatform binds (bindNode i) (.str s) :=
  ⟨_, .index rfl rfl h, .tuple (.text s)⟩

/-- `'done' ne status and not contains('draft', title)`, its function in `call` style. -/
def reviewTree : AstValue Unit :=
  .arr [.str "and", .arr [.str "ne", bindNode 0, fieldNode "status"],
    .arr [.str "not", .arr [.str "call", .obj [("method", .str "contains"),
      ("args", .arr [bindNode 1, fieldNode "title"])]]]]

def reviewBinds : ODataBinds Unit :=
  { items := [.arr [.str "Text", .str "done"], .arr [.str "Text", .str "draft"]] }

def reviewExpr : FilterExpr Unit :=
  .logical .and [.comparison .ne (.value (.str "done")) (.field "status"),
    .not (.call .contains (.value (.str "draft")) (.field "title"))]

theorem reviewTree_meaning :
    Denotes plainPlatform reviewBinds reviewTree reviewExpr ∧ reviewExpr.LeftValuesEquate ∧
      ∃ filter, transformFilter plainPlatform reviewBinds reviewTree = .ok filter ∧
        ∀ reading record, filter.holds reading record =
          reviewExpr.inSignatureOrder.meaning plainPlatform reading record := by
  have hne : Denotes plainPlatform reviewBinds (.arr [.str "ne", bindNode 0, fieldNode "status"])
      (.comparison .ne (.value (.str "done")) (.field "status")) :=
    .comparisonLeft .ne (.bound (bindNode_denotes rfl)) (fieldNode_denotes "status")
  have hcontains : Denotes plainPlatform reviewBinds
      (.arr [.str "call", .obj [("method", .str "contains"),
        ("args", .arr [bindNode 1, fieldNode "title"])]])
      (.call .contains (.value (.str "draft")) (.field "title")) :=
    .call ⟨by decide, by decide⟩ rfl rfl
      (.valueFirst (bindNode_denotes rfl) (fieldNode_denotes "title"))
  have htree : Denotes plainPlatform reviewBinds reviewTree reviewExpr :=
    .logical .and (by decide) (.cons hne (.cons (.not hcontains) .nil))
  have hleft : reviewExpr.LeftValuesEquate := ⟨Or.inr rfl, trivial, trivial⟩
  exact ⟨htree, hleft, transformFilter_meaning htree hleft⟩

/-- `substringof(description, 'keyword')`. -/
def keywordTree : AstValue Unit :=
  .arr [.str "substringof", fieldNode "description", bindNode 0]

def keywordBinds : ODataBinds Unit := { items := [.arr [.str "Text", .str "keyword"]] }

def keywordExpr : FilterExpr Unit :=
  .call .substringof (.field "description") (.value (.str "keyword"))

/-- The two arguments of `substringof` do not keep their roles: on a record whose
description is `key`, the source says that it is part of `keyword`, the filter that
`keyword` is part of it. -/
theorem substringof_roles_exchanged :
    Denotes plainPlatform keywordBinds keywordTree keywordExpr ∧
      keywordExpr.meaning plainPlatform textReading (fun _ => .str "key") = true ∧
      ∃ filter, transformFilter plainPlatform keywordBinds keywordTree = .ok filter ∧
        filter.holds textReading (fun _ => .str "key") = false := by
  have hbinary : StringFunction.substringof.IsBinary := ⟨by decide, by decide⟩
  exact ⟨.function hbinary (.fieldFirst (fieldNode_denotes _) (bindNode_denotes rfl)),
    by decide, _, rfl, by decide⟩

end SharedTsLibs.ODataMapper
