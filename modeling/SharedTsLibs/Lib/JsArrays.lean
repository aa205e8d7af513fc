import SharedTsLibs.Lib.JsArithmetic

/-!
# Arrays of the runtime

The arrays of JavaScript as far as a loop that cuts one uses them: `slice`, an array of a given
length, and writing an element.

* `slice_eq` — `slice` from one whole number to a later one.
* `newArray_eq` — a new array has holes only.
* `writeAt_written` — the element behind those that have been written takes the place of a hole.
-/

/-- An array: it has fewer than `2 ** 32` elements. -/
structure JsArray (α : Type*) where
  elements : List α
  length_lt : elements.length < 2 ^ 32

namespace JsArray

variable {α : Type*}

/-! ## `slice` -/

/-- The whole number that is left without the fraction. -/
def truncate (q : ℚ) : ℤ :=
  if 0 ≤ q then ⌊q⌋ else ⌈q⌉

/-- The index that an argument of `slice` is: a negative one counts from the end. -/
def relativeIndex (length : ℕ) : JsNumber → ℕ
  | .finite q =>
    if truncate q < 0 then (length + truncate q).toNat else min (truncate q).toNat length
  | .infinity negative => if negative then 0 else length
  | .nan => 0

/-- `array.slice(start, end)`. -/
def slice (array : JsArray α) (start stop : JsNumber) : List α :=
  let first := relativeIndex array.elements.length start
  (array.elements.drop first).take (relativeIndex array.elements.length stop - first)

theorem truncate_natCast (n : ℕ) : truncate n = n := by
  rw [truncate, if_pos (Nat.cast_nonneg n), Int.floor_natCast]

theorem relativeIndex_natCast (length n : ℕ) : relativeIndex length (.finite n) = min n length := by
  have hnonneg : ¬ (n : ℤ) < 0 := by omega
  rw [relativeIndex, truncate_natCast, if_neg hnonneg, Int.toNat_natCast]

/-- `slice` from one whole number to a later one. -/
theorem slice_eq (array : JsArray α) (n m : ℕ) :
    array.slice (.finite n) (.finite (n + m : ℕ)) = (array.elements.drop n).take m := by
  show ((array.elements.drop _).take _) = _
  rw [relativeIndex_natCast, relativeIndex_natCast]
  rcases Nat.le_total n array.elements.length with hle | hle
  · rw [min_eq_left hle, List.take_eq_take_iff, List.length_drop]
    omega
  · -- nothing is left from there on
    rw [min_eq_right hle, List.drop_length, List.drop_of_length_le hle, List.take_nil,
      List.take_nil]

example : (⟨[1, 2, 3], by decide⟩ : JsArray ℕ).slice (.finite (-2)) (.finite (-1)) = [2] := by
  decide +kernel

/-! ## Elements and holes -/

inductive RangeError where
  | invalidArrayLength
  deriving DecidableEq

/-- `new Array(length)`. -/
def newArray (length : JsNumber) : Except RangeError (List (Option α)) :=
  match length with
  | .finite q =>
    if q.isInt ∧ 0 ≤ q ∧ q < 2 ^ 32 then .ok (List.replicate q.num.toNat none)
    else .error .invalidArrayLength
  | .infinity _ | .nan => .error .invalidArrayLength

/-- `array[index] = value`: behind the end, the array grows. -/
def writeAt (array : List (Option α)) (index : ℕ) (value : α) : List (Option α) :=
  if index < array.length then array.set index (some value)
  else array ++ List.replicate (index - array.length) none ++ [some value]

/-- The elements that have been written, and the holes behind them. -/
def written (values : List α) (holes : ℕ) : List (Option α) :=
  values.map some ++ List.replicate holes none

/-- A new array has holes only. -/
theorem newArray_eq {n : ℕ} (h : n < 2 ^ 32) :
    newArray (.finite n) = .ok (written ([] : List α) n) := by
  refine if_pos ⟨?_, Nat.cast_nonneg n, ?_⟩
  · simp [Rat.isInt]
  · exact_mod_cast h

theorem written_zero (values : List α) : written values 0 = values.map some :=
  List.append_nil _

/-- The next element takes the place of a hole, if there is one. -/
theorem writeAt_written (values : List α) (holes : ℕ) (value : α) :
    writeAt (written values holes) values.length value =
      written (values ++ [value]) (holes - 1) := by
  cases holes with
  | zero => simp [writeAt, written]
  | succ holes => simp [writeAt, written, List.replicate_succ]

end JsArray
