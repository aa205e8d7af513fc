import SharedTsLibs.Lib.OrderedMap
import Mathlib.Data.List.Infix
import Mathlib.Data.Rat.Defs

/-!
# Filters

The values of a filter AST and the filters that the mapper makes of it, from
`types.ts`, with the truth value that a filter has on a record.

* `AstValue` — a JavaScript value in an AST, in its binds or in a record.
* `TransformedFilter` — the high-level filter.
* `TransformedFilter.holds` — a filter on a record, under a `Reading` of the
  values that fields have.
-/

namespace SharedTsLibs.ODataMapper

/-! ## Values -/

/-- A JavaScript value; `D` is the platform's dates. -/
inductive AstValue (D : Type) where
  | undefined
  | null
  | bool (b : Bool)
  | num (q : ℚ)
  | str (s : String)
  | date (d : D)
  | arr (items : List (AstValue D))
  | obj (fields : List (String × AstValue D))

/-- What the platform makes of numbers and of dates. -/
structure Platform (D : Type) where
  numberToString : ℚ → String
  dateToString : D → String
  /-- `new Date(value)`. -/
  newDate : AstValue D → D

namespace AstValue

variable {D : Type}

/-- Property access; what is not there reads `undefined`. -/
def get (key : String) : AstValue D → AstValue D
  | .obj fields => (OrderedMap.get? fields key).getD .undefined
  | _ => .undefined

/-- `key in value`. -/
def has (key : String) : AstValue D → Bool
  | .obj fields => (OrderedMap.get? fields key).isSome
  | _ => false

def truthy : AstValue D → Bool
  | .undefined | .null => false
  | .bool b => b
  | .num q => q != 0
  | .str s => s != ""
  | .date _ | .arr _ | .obj _ => true

/-- The elements that destructuring a value takes; `none` throws. -/
def elements : AstValue D → Option (List (AstValue D))
  | .arr items => some items
  | .str s => some (s.toList.map fun c => .str (toString c))
  | _ => none

mutual

/-- `String(value)`. -/
def toText (platform : Platform D) : AstValue D → String
  | .undefined => "undefined"
  | .null => "null"
  | .bool b => if b then "true" else "false"
  | .num q => platform.numberToString q
  | .str s => s
  | .date d => platform.dateToString d
  | .arr items => ",".intercalate (itemTexts platform items)
  | .obj _ => "[object Object]"

/-- The elements of an array as its `join` writes them. -/
def itemTexts (platform : Platform D) : List (AstValue D) → List String
  | [] => []
  | .undefined :: items | .null :: items => "" :: itemTexts platform items
  | item :: items => toText platform item :: itemTexts platform items

end

end AstValue

/-! ## Filters -/

inductive ComparisonOperator where
  | eq | ne | gt | ge | lt | le
  deriving DecidableEq

inductive LogicalOperator where
  | and | or
  deriving DecidableEq

inductive StringFunction where
  | contains | startswith | endswith | substringof | tolower | toupper
  deriving DecidableEq

def ComparisonOperator.name : ComparisonOperator → String
  | .eq => "eq"
  | .ne => "ne"
  | .gt => "gt"
  | .ge => "ge"
  | .lt => "lt"
  | .le => "le"

def LogicalOperator.name : LogicalOperator → String
  | .and => "and"
  | .or => "or"

def StringFunction.name : StringFunction → String
  | .contains => "contains"
  | .startswith => "startswith"
  | .endswith => "endswith"
  | .substringof => "substringof"
  | .tolower => "tolower"
  | .toupper => "toupper"

/-- A high-level filter; its `type` tag is the constructor. -/
inductive TransformedFilter (D : Type) where
  | comparison (field : String) (operator : ComparisonOperator) (value : AstValue D)
  | isIn (field : String) (values : List (AstValue D))
  | notIn (field : String) (values : List (AstValue D))
  | stringFunction (function : StringFunction) (field : String) (value : String)
  | logical (operator : LogicalOperator) (filters : List (TransformedFilter D))
  | not (filter : TransformedFilter D)

/-! ## Filters on records -/

/-- How the values of fields are compared and what text they are searched as. -/
structure Reading (D : Type) where
  eq : AstValue D → AstValue D → Bool
  lt : AstValue D → AstValue D → Bool
  text : AstValue D → Option String
  eq_comm : ∀ x y, eq x y = eq y x

/-- A reading of texts alone. -/
def textReading : Reading Unit where
  eq x y := match x, y with
    | .str s, .str t => s = t
    | _, _ => false
  lt _ _ := false
  text x := match x with
    | .str s => some s
    | _ => none
  eq_comm x y := by
    cases x <;> cases y <;> first | rfl | exact decide_eq_decide.2 eq_comm

/-- A record, by the full paths of its fields. -/
abbrev Record (D : Type) := String → AstValue D

variable {D : Type}

/-- `x operator y`. -/
def ComparisonOperator.holds (reading : Reading D) (x y : AstValue D) : ComparisonOperator → Bool
  | .eq => reading.eq x y
  | .ne => !reading.eq x y
  | .gt => reading.lt y x
  | .ge => reading.lt y x || reading.eq x y
  | .lt => reading.lt x y
  | .le => reading.lt x y || reading.eq x y

/-- A function of two texts, in the order of its OData signature.  `tolower` and
`toupper` take one text and make no condition. -/
def StringFunction.holds (first second : String) : StringFunction → Bool
  | .contains => decide (second.toList <:+: first.toList)
  | .startswith => decide (second.toList <+: first.toList)
  | .endswith => decide (second.toList <:+ first.toList)
  | .substringof => decide (first.toList <:+: second.toList)
  | .tolower | .toupper => false

/-- The text of the field is searched for the value. -/
def StringFunction.holdsOf (text value : String) : StringFunction → Bool
  | .substringof => StringFunction.substringof.holds value text
  | function => function.holds text value

mutual

def TransformedFilter.holds (reading : Reading D) (record : Record D) : TransformedFilter D → Bool
  | .comparison field operator value => operator.holds reading (record field) value
  | .isIn field values => values.any fun value => reading.eq (record field) value
  | .notIn field values => !values.any fun value => reading.eq (record field) value
  | .stringFunction function field value =>
    (reading.text (record field)).any fun text => function.holdsOf text value
  | .logical .and filters => TransformedFilter.allHold reading record filters
  | .logical .or filters => TransformedFilter.someHolds reading record filters
  | .not filter => !filter.holds reading record

def TransformedFilter.allHold (reading : Reading D) (record : Record D) :
    List (TransformedFilter D) → Bool
  | [] => true
  | filter :: filters =>
    filter.holds reading record && TransformedFilter.allHold reading record filters

def TransformedFilter.someHolds (reading : Reading D) (record : Record D) :
    List (TransformedFilter D) → Bool
  | [] => false
  | filter :: filters =>
    filter.holds reading record || TransformedFilter.someHolds reading record filters

end

variable {reading : Reading D} {record : Record D} {filters : List (TransformedFilter D)}

theorem allHold_eq_true_iff :
    TransformedFilter.allHold reading record filters = true ↔
      ∀ filter ∈ filters, filter.holds reading record = true := by
  induction filters with
  | nil => simp [TransformedFilter.allHold]
  | cons filter filters ih =>
    rw [TransformedFilter.allHold, Bool.and_eq_true, ih, List.forall_mem_cons]

theorem someHolds_eq_true_iff :
    TransformedFilter.someHolds reading record filters = true ↔
      ∃ filter ∈ filters, filter.holds reading record = true := by
  induction filters with
  | nil => simp [TransformedFilter.someHolds]
  | cons filter filters ih =>
    rw [TransformedFilter.someHolds, Bool.or_eq_true, ih, List.exists_mem_cons_iff]

end SharedTsLibs.ODataMapper
