import SharedTsLibs.Lib.OrderedMap
import Mathlib.Data.Rat.Defs

/-!
# JSON values

The values of JSON, with objects as entries in the order they were written.

* `WellFormed` — objects have one value under each key.
* `Same` — structural equality: the order of an object's keys is irrelevant, the order of
  an array's elements is not.
* `same_refl`, `Same.symm` — it is reflexive and symmetric.
-/

inductive JsonValue where
  | null
  | bool (b : Bool)
  | num (q : ℚ)
  | str (s : String)
  | arr (elements : List JsonValue)
  | obj (fields : List (String × JsonValue))

namespace JsonValue

/-- Objects have one value under each key. -/
inductive WellFormed : JsonValue → Prop
  | null : WellFormed null
  | bool (b : Bool) : WellFormed (bool b)
  | num (q : ℚ) : WellFormed (num q)
  | str (s : String) : WellFormed (str s)
  | arr {elements : List JsonValue} (h : ∀ x ∈ elements, WellFormed x) : WellFormed (arr elements)
  | obj {fields : List (String × JsonValue)} (hnodup : (OrderedMap.keys fields).Nodup)
      (h : ∀ e ∈ fields, WellFormed e.2) : WellFormed (obj fields)

/-- Structural equality. -/
inductive Same : JsonValue → JsonValue → Prop
  | null : Same null null
  | bool (b : Bool) : Same (bool b) (bool b)
  | num (q : ℚ) : Same (num q) (num q)
  | str (s : String) : Same (str s) (str s)
  | arr {xs ys : List JsonValue} (hlength : xs.length = ys.length)
      (h : ∀ (i : ℕ) (x y : JsonValue), xs[i]? = some x → ys[i]? = some y → Same x y) :
      Same (arr xs) (arr ys)
  | obj {xs ys : List (String × JsonValue)}
      (hkeys : ∀ k, k ∈ OrderedMap.keys xs ↔ k ∈ OrderedMap.keys ys)
      (h : ∀ (k : String) (x y : JsonValue), OrderedMap.get? xs k = some x →
        OrderedMap.get? ys k = some y → Same x y) :
      Same (obj xs) (obj ys)

theorem mem_of_get? {fields : List (String × JsonValue)} {k : String} {x : JsonValue}
    (h : OrderedMap.get? fields k = some x) : (k, x) ∈ fields := by
  obtain ⟨⟨k', x'⟩, hfind, hx⟩ := Option.map_eq_some_iff.1 h
  have hk : k' = k := by simpa using List.find?_some hfind
  cases hx
  exact hk ▸ List.mem_of_find?_eq_some hfind

/-! ## Parts of a value -/

theorem WellFormed.getElem? {xs : List JsonValue} (h : WellFormed (JsonValue.arr xs)) {i : ℕ}
    {x : JsonValue} (hx : xs[i]? = some x) : WellFormed x := by
  cases h with
  | arr h => exact h x (List.mem_of_getElem? hx)

theorem WellFormed.keys_nodup {fields : List (String × JsonValue)}
    (h : WellFormed (JsonValue.obj fields)) : (OrderedMap.keys fields).Nodup := by
  cases h with
  | obj hnodup h => exact hnodup

theorem WellFormed.get? {fields : List (String × JsonValue)} (h : WellFormed (JsonValue.obj fields))
    {k : String} {x : JsonValue} (hx : OrderedMap.get? fields k = some x) : WellFormed x := by
  cases h with
  | obj hnodup h => exact h (k, x) (mem_of_get? hx)

theorem same_arr_iff {xs ys : List JsonValue} :
    Same (arr xs) (arr ys) ↔ xs.length = ys.length ∧
      ∀ (i : ℕ) (x y : JsonValue), xs[i]? = some x → ys[i]? = some y → Same x y := by
  constructor
  · intro h
    cases h with
    | arr hlength h => exact ⟨hlength, h⟩
  · rintro ⟨hlength, h⟩
    exact .arr hlength h

theorem same_obj_iff {xs ys : List (String × JsonValue)} :
    Same (obj xs) (obj ys) ↔ (∀ k, k ∈ OrderedMap.keys xs ↔ k ∈ OrderedMap.keys ys) ∧
      ∀ (k : String) (x y : JsonValue), OrderedMap.get? xs k = some x →
        OrderedMap.get? ys k = some y → Same x y := by
  constructor
  · intro h
    cases h with
    | obj hkeys h => exact ⟨hkeys, h⟩
  · rintro ⟨hkeys, h⟩
    exact .obj hkeys h

theorem sizeOf_lt_of_get? {fields : List (String × JsonValue)} {k : String} {x : JsonValue}
    (h : OrderedMap.get? fields k = some x) : sizeOf x < sizeOf fields := by
  have hmem := List.sizeOf_lt_of_mem (mem_of_get? h)
  simp only [Prod.mk.sizeOf_spec] at hmem
  omega

theorem sizeOf_lt_of_getElem? {elements : List JsonValue} {i : ℕ} {x : JsonValue}
    (h : elements[i]? = some x) : sizeOf x < sizeOf elements :=
  List.sizeOf_lt_of_mem (List.mem_of_getElem? h)

/-- Induction over a value: what holds of the elements of an array and of the values of an
object holds of the array and of the object. -/
@[elab_as_elim]
theorem value_induction {motive : JsonValue → Prop} (null : motive null)
    (bool : ∀ b, motive (bool b)) (num : ∀ q, motive (num q)) (str : ∀ s, motive (str s))
    (arr : ∀ xs, (∀ (i : ℕ) (x : JsonValue), xs[i]? = some x → motive x) → motive (arr xs))
    (obj : ∀ xs, (∀ (k : String) (x : JsonValue), OrderedMap.get? xs k = some x → motive x) →
      motive (obj xs)) (j : JsonValue) : motive j := by
  match j with
  | .null => exact null
  | .bool b => exact bool b
  | .num q => exact num q
  | .str s => exact str s
  | .arr xs => exact arr xs fun i x hx => value_induction null bool num str arr obj x
  | .obj xs => exact obj xs fun k x hx => value_induction null bool num str arr obj x
termination_by sizeOf j
decreasing_by
  · have hlt := sizeOf_lt_of_getElem? hx
    simp only [JsonValue.arr.sizeOf_spec]
    omega
  · have hlt := sizeOf_lt_of_get? hx
    simp only [JsonValue.obj.sizeOf_spec]
    omega

theorem same_refl (j : JsonValue) : Same j j := by
  induction j using value_induction with
  | null => exact .null
  | bool b => exact .bool b
  | num q => exact .num q
  | str s => exact .str s
  | arr xs ih =>
    refine .arr rfl fun i x y hx hy => ?_
    cases hx.symm.trans hy
    exact ih i x hx
  | obj xs ih =>
    refine .obj (fun _ => Iff.rfl) fun k x y hx hy => ?_
    cases hx.symm.trans hy
    exact ih k x hx

theorem Same.symm {a b : JsonValue} (h : Same a b) : Same b a := by
  induction h with
  | null => exact .null
  | bool b => exact .bool b
  | num q => exact .num q
  | str s => exact .str s
  | arr hlength _ ih => exact .arr hlength.symm fun i x y hx hy => ih i y x hy hx
  | obj hkeys _ ih => exact .obj (fun k => (hkeys k).symm) fun k x y hx hy => ih k y x hy hx

end JsonValue
