import SharedTsLibs.Lib.JsRuntime

/-!
# Primitive values

The values of JavaScript that are not objects, how they are compared and tested, and what the
elements of an array are found under.
-/

inductive JsPrimitive where
  | undefined
  | null
  | bool (b : Bool)
  | num (n : JsNumber)
  | str (s : String)
  | symbol (id : ℕ)
  | bigint (n : ℤ)
  deriving DecidableEq

/-- `p === q` -/
def JsPrimitive.strictEqual (p q : JsPrimitive) : Bool := p = q && p ≠ .num .nan

def JsPrimitive.truthy : JsPrimitive → Bool
  | .undefined | .null => false
  | .bool b => b
  | .num (.finite q) => q ≠ 0
  | .num (.infinity _) => true
  | .num .nan => false
  | .str s => s ≠ ""
  | .symbol _ => true
  | .bigint n => n ≠ 0

/-- The elements of an array, which may have holes, under their indices, from an index on. -/
def JsArray.indexed {α : Type*} : ℕ → List (Option α) → List (String × α)
  | _, [] => []
  | n, none :: xs => indexed (n + 1) xs
  | n, some x :: xs => (toString n, x) :: indexed (n + 1) xs

theorem JsArray.mem_of_mem_indexed {α : Type*} {n : ℕ} {xs : List (Option α)} {e : String × α}
    (h : e ∈ indexed n xs) : some e.2 ∈ xs := by
  induction xs generalizing n with
  | nil => cases h
  | cons x? xs ih =>
    cases x? with
    | none => exact List.mem_cons_of_mem none (ih h)
    | some x =>
      rcases List.mem_cons.1 h with rfl | h
      · exact List.mem_cons_self
      · exact List.mem_cons_of_mem (some x) (ih h)
