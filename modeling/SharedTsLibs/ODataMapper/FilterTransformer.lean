import SharedTsLibs.ODataMapper.Filter
import SharedTsLibs.Lib.Fallible

/-!
# The filter transformer

`bindResolver.ts` and `filterTransformer.ts`: a filter AST of the OData parser, with
the binds of its values, is turned into a high-level filter.  The type guards return
what they narrow a node to.

* `resolveBind`, `extractBindTupleValues` — the values of binds.
* `isFieldReference`, `getFieldPath` — the fields of an AST.
* `transformComparison`, `transformIn`, `transformStringFunction`,
  `transformCallFunction` — one kind of node each.
* `transformFilterNode`, `transformFilter` — a whole AST.
-/

namespace SharedTsLibs.ODataMapper

variable {D : Type}

/-- The errors of the transformer, with what their texts show. -/
inductive TransformError (D : Type) where
  | invalidBindReference (key : AstValue D)
  | unexpectedArray (resolved : AstValue D)
  | cannotResolve (value : AstValue D)
  | unsupportedComparison (node : AstValue D)
  | unsupportedIn (node : AstValue D)
  | unsupportedOperands (function : StringFunction) (node : AstValue D)
  | unsupportedFunction (method : AstValue D)
  | unsupportedNode (node : AstValue D)
  /-- A `TypeError` of the language: a property of nothing, or nothing to destructure. -/
  | typeError

def TransformError.message (platform : Platform D) (stringify : AstValue D → String) :
    TransformError D → String
  | .invalidBindReference key => "Invalid bind reference: " ++ key.toText platform
  | .unexpectedArray resolved => "Unexpected array value in comparison: " ++ stringify resolved
  | .cannotResolve value => "Cannot resolve value: " ++ stringify value
  | .unsupportedComparison node => "Unsupported comparison operands: " ++ stringify node
  | .unsupportedIn node => "Unsupported in operand: " ++ stringify node
  | .unsupportedOperands function node =>
    "Unsupported " ++ function.name ++ " operands: " ++ stringify node
  | .unsupportedFunction method => "Unsupported function: " ++ method.toText platform
  | .unsupportedNode node => "Unsupported filter node: " ++ stringify node
  | .typeError => "TypeError"

/-! ## Binds -/

/-- The binds of an AST: an array that also has parameter aliases as properties. -/
structure ODataBinds (D : Type) where
  items : List (AstValue D)
  aliases : List (String × AstValue D) := []

/-- `binds[key]`, for an index or an alias. -/
def ODataBinds.lookup (binds : ODataBinds D) : AstValue D → AstValue D
  | .num q => if q.den = 1 ∧ 0 ≤ q then binds.items[q.num.toNat]?.getD .undefined else .undefined
  | .str name => (OrderedMap.get? binds.aliases name).getD .undefined
  | _ => .undefined

section Resolver

variable (platform : Platform D) (binds : ODataBinds D)

/-- The `switch` over the type of a bind, in `resolveBind` and again in
`extractBindTupleValue`. -/
def bindValue (type value : AstValue D) : AstValue D :=
  match type with
  | .str "Date" | .str "Date Time" =>
    match value with
    | .date d => .date d
    | value => .date (platform.newDate value)
  | .str "Null" => .null
  | _ => value

/-- `const [type, value] = tuple` and the value it has. -/
def extractBindTupleValue (tuple : AstValue D) : Except (TransformError D) (AstValue D) :=
  match tuple.elements with
  | none => .error .typeError
  | some elements =>
    .ok (bindValue platform (elements[0]?.getD .undefined) (elements[1]?.getD .undefined))

def resolveBind (ref : AstValue D) : Except (TransformError D) (AstValue D) :=
  let key := ref.get "bind"
  let bind := binds.lookup key
  if bind.truthy = false then .error (.invalidBindReference key)
  else extractBindTupleValue platform bind

/-- One of the references of a list; `ref.bind` throws of nothing. -/
def resolveBinds (refs : List (AstValue D)) : Except (TransformError D) (List (AstValue D)) :=
  refs.mapM fun ref =>
    match ref with
    | .undefined | .null => .error .typeError
    | ref => resolveBind platform binds ref

def isBindReference (value : AstValue D) : Bool :=
  match value.get "bind" with
  | .num _ => true
  | .str key => key.toList.head? = some '@'
  | _ => false

def isBindTuple : AstValue D → Bool
  | .arr [.str type, _] =>
    type ∈ ["Text", "Real", "Boolean", "Date", "Date Time", "Null", "Duration"]
  | _ => false

def extractBindTupleValues (tuples : List (AstValue D)) :
    Except (TransformError D) (List (AstValue D)) :=
  if tuples.head?.any isBindTuple then tuples.mapM (extractBindTupleValue platform)
  else .ok tuples

end Resolver

/-! ## Fields -/

def isFieldReference (value : AstValue D) : Bool :=
  match value.get "name" with
  | .str _ => true
  | _ => false

mutual

/-- The full path of a field; a name that is no text is written as one. -/
def getFieldPath (platform : Platform D) (separator : String) : AstValue D → String
  | .obj fields =>
    match propertyPath platform separator fields with
    | some path => ((AstValue.obj fields).get "name").toText platform ++ separator ++ path
    | none => ((AstValue.obj fields).get "name").toText platform
  | _ => "undefined"

/-- The path of `field.property`, if there is one. -/
def propertyPath (platform : Platform D) (separator : String) :
    List (String × AstValue D) → Option String
  | [] => none
  | (key, value) :: fields =>
    if key = "property" then
      if value.truthy then some (getFieldPath platform separator value) else none
    else propertyPath platform separator fields

end

/-! ## Nodes -/

/-- `COMPARISON_OPERATORS`, as the set it is and as the operators in it. -/
def comparisonOperator : AstValue D → Option ComparisonOperator
  | .str s => [.eq, .ne, .gt, .ge, .lt, .le].find? fun op : ComparisonOperator => op.name = s
  | _ => none

/-- `LOGICAL_OPERATORS`. -/
def logicalOperator : AstValue D → Option LogicalOperator
  | .str s => [.and, .or].find? fun op : LogicalOperator => op.name = s
  | _ => none

/-- `STRING_FUNCTIONS`. -/
def stringFunction : AstValue D → Option StringFunction
  | .str s =>
    [.contains, .startswith, .endswith, .substringof, .tolower, .toupper].find?
      fun function : StringFunction => function.name = s
  | _ => none

def isComparisonNode : AstValue D → Option (ComparisonOperator × AstValue D × AstValue D)
  | .arr [head, left, right] => (comparisonOperator head).map (·, left, right)
  | _ => none

def isInNode : AstValue D → Option (AstValue D × AstValue D)
  | .arr [.str head, field, value] =>
    if (head = "in" ∨ head = "eqany") ∧ isFieldReference field = true then some (field, value)
    else none
  | _ => none

def isStringFunctionNode : AstValue D → Option (StringFunction × AstValue D × AstValue D)
  | .arr [head, first, second] => (stringFunction head).map (·, first, second)
  | _ => none

/-- The method and the arguments of a node in `call` style. -/
def isCallNode : AstValue D → Option (AstValue D × AstValue D)
  | .arr [.str "call", call] =>
    if call.has "method" && call.has "args" then some (call.get "method", call.get "args")
    else none
  | _ => none

/-- The operator of a logical node with these operands, two or more. -/
def isLogicalNode (head : AstValue D) (operands : List (AstValue D)) : Option LogicalOperator :=
  if 2 ≤ operands.length then logicalOperator head else none

/-- The head of a negation. -/
def isNotNode : AstValue D → Bool
  | .str "not" => true
  | _ => false

section Transformer

variable (platform : Platform D) (binds : ODataBinds D)

def resolveValue (value : AstValue D) : Except (TransformError D) (AstValue D) :=
  if isBindReference value = true then do
    let resolved ← resolveBind platform binds value
    match resolved with
    | .arr _ => .error (.unexpectedArray resolved)
    | _ => .ok resolved
  else if isFieldReference value = true then .ok (.str (getFieldPath platform "/" value))
  else
    match value with
    | .null | .str _ | .num _ | .bool _ => .ok value
    | _ => .error (.cannotResolve value)

def transformComparison (node : AstValue D) (operator : ComparisonOperator)
    (left right : AstValue D) : Except (TransformError D) (TransformedFilter D) :=
  if isFieldReference left = true then do
    let value ← resolveValue platform binds right
    .ok (.comparison (getFieldPath platform "/" left) operator value)
  else if isFieldReference right = true then do
    let value ← resolveValue platform binds left
    .ok (.comparison (getFieldPath platform "/" right) operator value)
  else .error (.unsupportedComparison node)

def transformIn (node fieldRef valueRef : AstValue D) :
    Except (TransformError D) (TransformedFilter D) := do
  let values ←
    match valueRef with
    | .arr refs => resolveBinds platform binds refs
    | valueRef =>
      if isBindReference valueRef = true then do
        let resolved ← resolveBind platform binds valueRef
        match resolved with
        | .arr tuples => extractBindTupleValues platform tuples
        | resolved => .ok [resolved]
      else .error (.unsupportedIn node)
  .ok (.isIn (getFieldPath platform "/" fieldRef) values)

/-- The field and the value of a string function, from the arguments that refer to
them. -/
def stringOperands (function : StringFunction) (value field : AstValue D) :
    Except (TransformError D) (TransformedFilter D) := do
  let resolved ← resolveBind platform binds value
  .ok (.stringFunction function (getFieldPath platform "/" field) (resolved.toText platform))

/-- The body that `transformStringFunction` and `transformCallFunction` share: both
orders of the arguments are taken, `substringof` trying the value first. -/
def transformOperands (node : AstValue D) (function : StringFunction) (first second : AstValue D) :
    Except (TransformError D) (TransformedFilter D) :=
  if function = .substringof then
    if isBindReference first = true ∧ isFieldReference second = true then
      stringOperands platform binds function first second
    else if isFieldReference first = true ∧ isBindReference second = true then
      stringOperands platform binds function second first
    else .error (.unsupportedOperands function node)
  else
    if isFieldReference first = true ∧ isBindReference second = true then
      stringOperands platform binds function second first
    else if isBindReference first = true ∧ isFieldReference second = true then
      stringOperands platform binds function first second
    else .error (.unsupportedOperands function node)

def transformStringFunction (node : AstValue D) (function : StringFunction)
    (first second : AstValue D) : Except (TransformError D) (TransformedFilter D) :=
  transformOperands platform binds node function first second

def transformCallFunction (node method args : AstValue D) :
    Except (TransformError D) (TransformedFilter D) :=
  match stringFunction method with
  | none => .error (.unsupportedFunction method)
  | some function =>
    match args.elements with
    | none => .error .typeError
    | some elements =>
      transformOperands platform binds node function (elements[0]?.getD .undefined)
        (elements[1]?.getD .undefined)

mutual

def transformFilterNode (node : AstValue D) : Except (TransformError D) (TransformedFilter D) :=
    match isComparisonNode node with
    | some (operator, left, right) => transformComparison platform binds node operator left right
    | none =>
    match isInNode node with
    | some (fieldRef, valueRef) => transformIn platform binds node fieldRef valueRef
    | none =>
    match isStringFunctionNode node with
    | some (function, first, second) =>
      transformStringFunction platform binds node function first second
    | none =>
    match isCallNode node with
    | some (method, args) => transformCallFunction platform binds node method args
    | none =>
    match node with
    | .arr (head :: operands) =>
      match isLogicalNode head operands with
      | some operator => do
        let filters ← transformFilterNodes operands
        .ok (.logical operator filters)
      | none =>
        match isNotNode head, operands with
        | true, [inner] => do
          let filter ← transformFilterNode inner
          .ok (.not filter)
        | _, _ => .error (.unsupportedNode node)
    | node => .error (.unsupportedNode node)

/-- `operands.map(operand => transformFilterNode(operand, …))`. -/
def transformFilterNodes :
    List (AstValue D) → Except (TransformError D) (List (TransformedFilter D))
  | [] => .ok []
  | node :: nodes => do
    let filter ← transformFilterNode node
    let filters ← transformFilterNodes nodes
    .ok (filter :: filters)

end

def transformFilter (tree : AstValue D) : Except (TransformError D) (TransformedFilter D) :=
  transformFilterNode platform binds tree

end Transformer

end SharedTsLibs.ODataMapper
