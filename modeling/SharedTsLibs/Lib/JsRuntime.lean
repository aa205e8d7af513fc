import Mathlib.Data.Rat.Floor

/-!
# Numbers and letter case of the runtime

The numbers of JavaScript with their special values, and what its runtime makes of
numbers and of text.
-/

/-- A number of JavaScript. -/
inductive JsNumber where
  | finite (q : ℚ)
  | infinity (negative : Bool)
  | nan
  deriving DecidableEq

/-- What the runtime writes numbers as, and its mapping to lower case. -/
structure JsRuntime where
  /-- `String(n)`. -/
  numberToString : JsNumber → String
  /-- `toLowerCase`. -/
  toLowerCase : List Char → List Char
  /-- ASCII text without capital letters is in lower case. -/
  toLowerCase_ascii : ∀ s, (∀ c ∈ s, c.toNat < 128 ∧ c.isUpper = false) → toLowerCase s = s

namespace JsRuntime

/-- A runtime for the letters of ASCII and whole numbers. -/
def ascii : JsRuntime where
  numberToString
    | .finite q => toString q.num
    | .infinity negative => if negative then "-Infinity" else "Infinity"
    | .nan => "NaN"
  toLowerCase s := s.map Char.toLower
  toLowerCase_ascii s hs := by
    refine (List.map_congr_left fun c hc => ?_).trans (List.map_id s)
    have hupper : ¬ (c.val ≥ 'A'.val ∧ c.val ≤ 'Z'.val) := of_decide_eq_false (hs c hc).2
    exact dif_neg hupper

end JsRuntime
