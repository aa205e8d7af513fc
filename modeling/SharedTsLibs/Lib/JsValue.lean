import SharedTsLibs.Lib.OrderedMap
import Mathlib.Data.Rat.Defs

/-!
# JavaScript values

The values a configuration object can hold: primitives, arrays, plain objects,
and functions of one argument of type `P`, which may throw an error of a message.
-/

/-- A JavaScript value whose functions take a `P`. -/
inductive JsValue (P : Type) where
  | undefined
  | null
  | bool (b : Bool)
  | num (q : ℚ)
  | str (s : String)
  | arr (xs : List (JsValue P))
  | obj (fields : List (String × JsValue P))
  | func (f : P → Except String (JsValue P))

/-- A plain object. -/
abbrev JsObject (P : Type) := List (String × JsValue P)

namespace JsValue

variable {P : Type}

/-- Property access on an object; a missing property reads `undefined`. -/
def get (o : JsObject P) (k : String) : JsValue P := (OrderedMap.get? o k).getD .undefined

/-- What a condition makes of a value. -/
def truthy : JsValue P → Bool
  | .undefined | .null => false
  | .bool b => b
  | .num q => q != 0
  | .str s => s != ""
  | .arr _ | .obj _ | .func _ => true

/-- The entries `{ ...v }` copies. -/
def spreadFields : JsValue P → JsObject P
  | .obj fields => fields
  | .arr xs => xs.mapIdx fun i x => (toString i, x)
  | .str s => s.toList.mapIdx fun i c => (toString i, .str (toString c))
  | _ => []

end JsValue
