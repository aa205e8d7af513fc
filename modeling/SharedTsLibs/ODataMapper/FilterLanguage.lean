import SharedTsLibs.ODataMapper.FilterTransformer
import Mathlib.Data.List.Forall2

/-!
# The filter language

What an OData filter says about a record, apart from the transformer: an AST denotes
an expression of the filter language, with the paths of its fields and the values of
its binds, and the expression has a truth value on each record.

* `FilterExpr`, `FilterExpr.meaning` — the expressions and their truth values.
* `FilterExpr.inSignatureOrder`, `FilterExpr.LeftValuesEquate` — the order of the
  arguments of string functions, and values on the left of a comparison.
* `Denotes` — which expression an AST denotes under its binds.
-/

namespace SharedTsLibs.ODataMapper

variable {D : Type}

/-! ## Expressions -/

/-- A field, by its full path, or a value. -/
inductive Operand (D : Type) where
  | field (path : String)
  | value (v : AstValue D)

inductive FilterExpr (D : Type) where
  | comparison (operator : ComparisonOperator) (left right : Operand D)
  | isIn (path : String) (values : List (AstValue D))
  | call (function : StringFunction) (first second : Operand D)
  | logical (operator : LogicalOperator) (operands : List (FilterExpr D))
  | not (operand : FilterExpr D)

def Operand.valueOn (record : Record D) : Operand D → AstValue D
  | .field path => record path
  | .value v => v

/-- The text an operand is searched as or for. -/
def Operand.textOn (platform : Platform D) (reading : Reading D) (record : Record D) :
    Operand D → Option String
  | .field path => reading.text (record path)
  | .value v => some (v.toText platform)

section Meaning

variable (platform : Platform D) (reading : Reading D) (record : Record D)

mutual

/-- The truth value of an expression, with its arguments read in the order they are
written. -/
def FilterExpr.meaning : FilterExpr D → Bool
  | .comparison operator left right =>
    operator.holds reading (left.valueOn record) (right.valueOn record)
  | .isIn path values => values.any fun value => reading.eq (record path) value
  | .call function first second =>
    (first.textOn platform reading record).any fun x =>
      (second.textOn platform reading record).any fun y => function.holds x y
  | .logical .and operands => FilterExpr.allMean operands
  | .logical .or operands => FilterExpr.someMean operands
  | .not operand => !operand.meaning

def FilterExpr.allMean : List (FilterExpr D) → Bool
  | [] => true
  | operand :: operands => operand.meaning && FilterExpr.allMean operands

def FilterExpr.someMean : List (FilterExpr D) → Bool
  | [] => false
  | operand :: operands => operand.meaning || FilterExpr.someMean operands

end

end Meaning

/-- Two arguments in the order of the function's signature: `substringof(value, field)`,
the others `function(field, value)`. -/
def signatureOrder : StringFunction → Operand D → Operand D → Operand D × Operand D
  | .substringof, .field path, .value v => (.value v, .field path)
  | .substringof, first, second => (first, second)
  | _, .value v, .field path => (.field path, .value v)
  | _, first, second => (first, second)

mutual

/-- The expression with the arguments of its string functions in signature order. -/
def FilterExpr.inSignatureOrder : FilterExpr D → FilterExpr D
  | .call function first second =>
    .call function (signatureOrder function first second).1
      (signatureOrder function first second).2
  | .logical operator operands => .logical operator (FilterExpr.allInSignatureOrder operands)
  | .not operand => .not operand.inSignatureOrder
  | expr => expr

def FilterExpr.allInSignatureOrder : List (FilterExpr D) → List (FilterExpr D)
  | [] => []
  | operand :: operands => operand.inSignatureOrder :: FilterExpr.allInSignatureOrder operands

end

mutual

/-- Where a value stands on the left of a comparison, it is compared for equality. -/
def FilterExpr.LeftValuesEquate : FilterExpr D → Prop
  | .comparison operator (.value _) _ => operator = .eq ∨ operator = .ne
  | .logical _ operands => FilterExpr.AllLeftValuesEquate operands
  | .not operand => operand.LeftValuesEquate
  | _ => True

def FilterExpr.AllLeftValuesEquate : List (FilterExpr D) → Prop
  | [] => True
  | operand :: operands => operand.LeftValuesEquate ∧ FilterExpr.AllLeftValuesEquate operands

end

/-! ## What an AST denotes -/

/-- The path of a field reference, through its properties. -/
inductive DenotesPath : AstValue D → String → Prop where
  | name {fields : List (String × AstValue D)} {n : String} :
      (AstValue.obj fields).get "name" = .str n →
      ((AstValue.obj fields).get "property").truthy = false → DenotesPath (.obj fields) n
  | nested {fields : List (String × AstValue D)} {n path : String} :
      (AstValue.obj fields).get "name" = .str n →
      DenotesPath ((AstValue.obj fields).get "property") path →
      DenotesPath (.obj fields) (n ++ "/" ++ path)

/-- A field reference, which is no bind reference. -/
structure DenotesField (node : AstValue D) (path : String) : Prop where
  path : DenotesPath node path
  noBind : node.get "bind" = .undefined

/-- The bind that a bind reference, which is no field reference, refers to. -/
inductive RefersTo (binds : ODataBinds D) : AstValue D → AstValue D → Prop where
  | index {node tuple : AstValue D} {i : ℕ} : node.get "bind" = .num i →
      node.get "name" = .undefined → binds.items[i]? = some tuple → RefersTo binds node tuple
  | parameter {node tuple : AstValue D} {name : String} : node.get "bind" = .str name →
      node.get "name" = .undefined → name.toList.head? = some '@' →
      OrderedMap.get? binds.aliases name = some tuple → RefersTo binds node tuple

section Denotes

variable (platform : Platform D) (binds : ODataBinds D)

/-- The value of a bind of one of the types of OData. -/
inductive TupleValue : AstValue D → AstValue D → Prop where
  | text (s : String) : TupleValue (.arr [.str "Text", .str s]) (.str s)
  | real (q : ℚ) : TupleValue (.arr [.str "Real", .num q]) (.num q)
  | boolean (b : Bool) : TupleValue (.arr [.str "Boolean", .bool b]) (.bool b)
  | duration (s : String) : TupleValue (.arr [.str "Duration", .str s]) (.str s)
  | null (v : AstValue D) : TupleValue (.arr [.str "Null", v]) .null
  | date {type : String} (d : D) : type = "Date" ∨ type = "Date Time" →
      TupleValue (.arr [.str type, .date d]) (.date d)
  | dateText {type : String} (s : String) : type = "Date" ∨ type = "Date Time" →
      TupleValue (.arr [.str type, .str s]) (.date (platform.newDate (.str s)))

/-- Types whose values stand for themselves. -/
def IsPlainType (type : String) : Prop := type ≠ "Date" ∧ type ≠ "Date Time" ∧ type ≠ "Null"

/-- A value that is no list. -/
def IsSingle : AstValue D → Prop
  | .arr _ => False
  | _ => True

/-- The value of a bind: of an OData type, or of a type of its own. -/
inductive BindValue : AstValue D → AstValue D → Prop where
  | tuple {bind v : AstValue D} : TupleValue platform bind v → BindValue bind v
  | plain {type : String} {v : AstValue D} : IsPlainType type → IsSingle v →
      BindValue (.arr [.str type, v]) v

/-- A reference to a bound value. -/
def DenotesBound (node v : AstValue D) : Prop :=
  ∃ bind, RefersTo binds node bind ∧ BindValue platform bind v

/-- A bound value or a literal. -/
inductive DenotesValue : AstValue D → AstValue D → Prop where
  | bound {node v : AstValue D} : DenotesBound platform binds node v → DenotesValue node v
  | null : DenotesValue .null .null
  | str (s : String) : DenotesValue (.str s) (.str s)
  | num (q : ℚ) : DenotesValue (.num q) (.num q)
  | bool (b : Bool) : DenotesValue (.bool b) (.bool b)

/-- The values of an `in`: references to them, one reference, or a reference to a list
of binds or of values. -/
inductive DenotesValues : AstValue D → List (AstValue D) → Prop where
  | refs {nodes values : List (AstValue D)} :
      List.Forall₂ (DenotesBound platform binds) nodes values → DenotesValues (.arr nodes) values
  | one {node v : AstValue D} : DenotesBound platform binds node v → DenotesValues node [v]
  | tuples {node : AstValue D} {type : String} {tuples values : List (AstValue D)} :
      RefersTo binds node (.arr [.str type, .arr tuples]) → IsPlainType type →
      List.Forall₂ (TupleValue platform) tuples values → DenotesValues node values
  | values {node : AstValue D} {type : String} {values : List (AstValue D)} :
      RefersTo binds node (.arr [.str type, .arr values]) → IsPlainType type →
      (∀ v ∈ values, IsSingle v) → DenotesValues node values

/-- The arguments of a string function: a field and a bound value, in either order. -/
inductive DenotesArguments : AstValue D → AstValue D → Operand D → Operand D → Prop where
  | fieldFirst {first second v : AstValue D} {path : String} : DenotesField first path →
      DenotesBound platform binds second v →
      DenotesArguments first second (.field path) (.value v)
  | valueFirst {first second v : AstValue D} {path : String} :
      DenotesBound platform binds first v → DenotesField second path →
      DenotesArguments first second (.value v) (.field path)

/-- The functions of two texts. -/
def StringFunction.IsBinary (function : StringFunction) : Prop :=
  function ≠ .tolower ∧ function ≠ .toupper

mutual

/-- The expression an AST denotes. -/
inductive Denotes : AstValue D → FilterExpr D → Prop where
  | comparison {left right v : AstValue D} {path : String} (operator : ComparisonOperator) :
      DenotesField left path → DenotesValue platform binds right v →
      Denotes (.arr [.str operator.name, left, right])
        (.comparison operator (.field path) (.value v))
  | comparisonLeft {left right v : AstValue D} {path : String} (operator : ComparisonOperator) :
      DenotesValue platform binds left v → DenotesField right path →
      Denotes (.arr [.str operator.name, left, right])
        (.comparison operator (.value v) (.field path))
  | isIn {name path : String} {field node : AstValue D} {values : List (AstValue D)} :
      name = "in" ∨ name = "eqany" → DenotesField field path →
      DenotesValues platform binds node values →
      Denotes (.arr [.str name, field, node]) (.isIn path values)
  | function {function : StringFunction} {first second : AstValue D} {x y : Operand D} :
      function.IsBinary → DenotesArguments platform binds first second x y →
      Denotes (.arr [.str function.name, first, second]) (.call function x y)
  | call {function : StringFunction} {call first second : AstValue D} {x y : Operand D} :
      function.IsBinary → call.get "method" = .str function.name →
      call.get "args" = .arr [first, second] →
      DenotesArguments platform binds first second x y →
      Denotes (.arr [.str "call", call]) (.call function x y)
  | logical {nodes : List (AstValue D)} {operands : List (FilterExpr D)}
      (operator : LogicalOperator) : 2 ≤ nodes.length → DenotesAll nodes operands →
      Denotes (.arr (.str operator.name :: nodes)) (.logical operator operands)
  | not {node : AstValue D} {operand : FilterExpr D} : Denotes node operand →
      Denotes (.arr [.str "not", node]) (.not operand)

inductive DenotesAll : List (AstValue D) → List (FilterExpr D) → Prop where
  | nil : DenotesAll [] []
  | cons {node : AstValue D} {nodes : List (AstValue D)} {operand : FilterExpr D}
      {operands : List (FilterExpr D)} : Denotes node operand → DenotesAll nodes operands →
      DenotesAll (node :: nodes) (operand :: operands)

end

end Denotes

end SharedTsLibs.ODataMapper
