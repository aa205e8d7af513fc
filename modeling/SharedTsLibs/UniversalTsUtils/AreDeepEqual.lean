import SharedTsLibs.Lib.JsPrimitive
import SharedTsLibs.Lib.OrderedMap

/-!
# Deep equality

`universal-ts-utils`: `areDeepEqual` compares two values part by part.

* `Value` — values, each array and object with the place it has in memory.
* `areDeepEqual` — the function.
* `Same` — structural equality.
* `Contained`, `Apart` — the second value has what the first has; somewhere they differ.
* `areDeepEqual_iff` — the function decides the first of these.
* `same_iff` — structural equality is the first without the second.
* `Memory` — the values of one program; `decides_iff` — where the function decides structural
  equality.
-/

namespace SharedTsLibs.UniversalTsUtils

/-! ## Values -/

/-- A value built from primitives, arrays and plain objects; arrays and objects are told
apart by their place in memory, and an array may have holes. -/
inductive Value where
  | prim (p : JsPrimitive)
  | arr (place : ℕ) (elements : List (Option Value))
  | obj (place : ℕ) (entries : List (String × Value))

namespace Value

/-- `a === b` -/
def strictEqual : Value → Value → Bool
  | prim p, prim q => p.strictEqual q
  | arr place _, arr place' _ => place = place'
  | obj place _, obj place' _ => place = place'
  | _, _ => false

def truthy : Value → Bool
  | prim p => p.truthy
  | arr _ _ | obj _ _ => true

/-- `xs[i]`: a hole reads `undefined`. -/
def elementAt (xs : List (Option Value)) (i : ℕ) : Value :=
  (xs[i]?.join).getD (prim .undefined)

/-- `Object.entries` -/
def entries : Value → List (String × Value)
  | prim _ => []
  | arr _ xs => JsArray.indexed 0 xs
  | obj _ es => es

/-- `Object.hasOwn(b, k)` and `b[k]`: an array has the property `length` of its own. -/
def own? (k : String) : Value → Option Value
  | prim _ => none
  | arr _ xs =>
    OrderedMap.get? (JsArray.indexed 0 xs ++ [("length", prim (.num (.finite xs.length)))]) k
  | obj _ es => OrderedMap.get? es k

end Value

/-! ## The function -/

mutual

def areDeepEqual (a b : Value) : Bool :=
  if a.strictEqual b then true
  else if !a.truthy || !b.truthy then false
  else
    match a, b with
    | .arr _ xs, .arr _ ys => if xs.length ≠ ys.length then false else everyElement xs ys
    | .arr _ xs, .obj _ _ => everyIndex 0 xs b
    | .obj _ es, .arr _ _ | .obj _ es, .obj _ _ => everyKey es b
    | _, _ => false
termination_by structural a

/-- The loop of `areArraysEqual`: `every` passes over holes. -/
def everyElement : List (Option Value) → List (Option Value) → Bool
  | [], _ => true
  | none :: xs, ys => everyElement xs ys.tail
  | some x :: xs, ys => areDeepEqual x (Value.elementAt ys 0) && everyElement xs ys.tail
termination_by structural xs => xs

/-- The loop over `Object.keys(a)` for an array, from an index on. -/
def everyIndex : ℕ → List (Option Value) → Value → Bool
  | _, [], _ => true
  | n, none :: xs, b => everyIndex (n + 1) xs b
  | n, some x :: xs, b =>
    (match b.own? (toString n) with
      | some y => areDeepEqual x y
      | none => false) && everyIndex (n + 1) xs b

/-- The loop over `Object.keys(a)` for an object. -/
def everyKey : List (String × Value) → Value → Bool
  | [], _ => true
  | (k, x) :: es, b =>
    (match b.own? k with
      | some y => areDeepEqual x y
      | none => false) && everyKey es b

end

/-! ## What is compared -/

/-- Structural equality: primitives by `===`, arrays element by element, with the same holes, and
objects by their keys and the values under them. -/
inductive Same : Value → Value → Prop
  | prim {p q : JsPrimitive} (h : p.strictEqual q = true) : Same (.prim p) (.prim q)
  | arr {place place' : ℕ} {xs ys : List (Option Value)} (hlength : xs.length = ys.length)
      (hholes : ∀ i : ℕ, xs[i]? = some none ↔ ys[i]? = some none)
      (h : ∀ (i : ℕ) (x y : Value), xs[i]? = some (some x) → ys[i]? = some (some y) →
        Same x y) : Same (.arr place xs) (.arr place' ys)
  | obj {place place' : ℕ} {es fs : List (String × Value)}
      (hkeys : ∀ k, k ∈ OrderedMap.keys es ↔ k ∈ OrderedMap.keys fs)
      (h : ∀ (k : String) (x y : Value), OrderedMap.get? es k = some x →
        OrderedMap.get? fs k = some y → Same x y) :
      Same (.obj place es) (.obj place' fs)

/-- Both are arrays. -/
def Value.BothArrays : Value → Value → Prop
  | .arr _ _, .arr _ _ => True
  | _, _ => False

def Value.IsContainer : Value → Prop
  | .prim _ => False
  | .arr _ _ | .obj _ _ => True

theorem Value.isContainer_arr {place : ℕ} {xs : List (Option Value)} :
    (arr place xs).IsContainer := trivial

theorem Value.isContainer_obj {place : ℕ} {es : List (String × Value)} :
    (obj place es).IsContainer := trivial

/-- The second value has what the first has: it is the same primitive or in the same place,
an array as long that reads as much wherever the first has an element, or, when they are not
both arrays, it has a property for each entry that has as much. -/
inductive Contained : Value → Value → Prop
  | identical {a b : Value} (h : a.strictEqual b = true) : Contained a b
  | arr {place place' : ℕ} {xs ys : List (Option Value)} (hlength : xs.length = ys.length)
      (h : ∀ (i : ℕ) (x : Value), xs[i]? = some (some x) →
        Contained x (Value.elementAt ys i)) : Contained (.arr place xs) (.arr place' ys)
  | members {a b : Value} (ha : a.IsContainer) (hb : b.IsContainer) (hnot : ¬ a.BothArrays b)
      (hown : ∀ e ∈ a.entries, (b.own? e.1).isSome = true)
      (h : ∀ (k : String) (x y : Value), (k, x) ∈ a.entries → b.own? k = some y →
        Contained x y) : Contained a b

/-- At some place that both values have, they differ in what no property of the first shows:
one is an array and the other an object, the second has a key that the first has not, one has a
hole where the other has an element, or both are the `NaN` that is equal to nothing. -/
inductive Apart : Value → Value → Prop
  | nan : Apart (.prim (.num .nan)) (.prim (.num .nan))
  | arrayObject {place place' : ℕ} {xs : List (Option Value)} {fs : List (String × Value)} :
      Apart (.arr place xs) (.obj place' fs)
  | objectArray {place place' : ℕ} {es : List (String × Value)} {ys : List (Option Value)} :
      Apart (.obj place es) (.arr place' ys)
  | hole {place place' : ℕ} {xs ys : List (Option Value)} {i : ℕ} {y : Value}
      (hx : xs[i]? = some none) (hy : ys[i]? = some (some y)) :
      Apart (.arr place xs) (.arr place' ys)
  | filled {place place' : ℕ} {xs ys : List (Option Value)} {i : ℕ} {x : Value}
      (hx : xs[i]? = some (some x)) (hy : ys[i]? = some none) :
      Apart (.arr place xs) (.arr place' ys)
  | key {place place' : ℕ} {es fs : List (String × Value)} {k : String}
      (h : k ∉ OrderedMap.keys es) (h' : k ∈ OrderedMap.keys fs) :
      Apart (.obj place es) (.obj place' fs)
  | element {place place' : ℕ} {xs ys : List (Option Value)} {i : ℕ} {x y : Value}
      (hx : xs[i]? = some (some x)) (hy : ys[i]? = some (some y)) (h : Apart x y) :
      Apart (.arr place xs) (.arr place' ys)
  | member {place place' : ℕ} {es fs : List (String × Value)} {k : String} {x y : Value}
      (hx : OrderedMap.get? es k = some x) (hy : OrderedMap.get? fs k = some y) (h : Apart x y) :
      Apart (.obj place es) (.obj place' fs)

/-- The values of one program: the parts of values are values, keys are distinct, and what
is in one place is one array or object. -/
structure Memory where
  Holds : Value → Prop
  element : ∀ {place xs x}, Holds (.arr place xs) → some x ∈ xs → Holds x
  entry : ∀ {place es e}, Holds (.obj place es) → e ∈ es → Holds e.2
  nodup : ∀ {place es}, Holds (.obj place es) → (OrderedMap.keys es).Nodup
  oneArray : ∀ {place xs ys}, Holds (.arr place xs) → Holds (.arr place ys) → xs = ys
  oneObject : ∀ {place es fs}, Holds (.obj place es) → Holds (.obj place fs) → es = fs

namespace Value

theorem sizeOf_lt_of_get? {es : List (String × Value)} {k : String} {x : Value}
    (h : (k, x) ∈ es) : sizeOf x < sizeOf es := by
  have hmem := List.sizeOf_lt_of_mem h
  simp only [Prod.mk.sizeOf_spec] at hmem
  omega

/-- What holds of the elements of an array and of the values of an object holds of the array
and of the object. -/
@[elab_as_elim]
theorem value_induction {motive : Value → Prop} (prim : ∀ p, motive (prim p))
    (arr : ∀ place xs, (∀ x, some x ∈ xs → motive x) → motive (arr place xs))
    (obj : ∀ place es, (∀ k x, (k, x) ∈ es → motive x) → motive (obj place es)) (a : Value) :
    motive a := by
  match a with
  | .prim p => exact prim p
  | .arr place xs => exact arr place xs fun x hx => value_induction prim arr obj x
  | .obj place es => exact obj place es fun k x hx => value_induction prim arr obj x
termination_by sizeOf a
decreasing_by
  · have hlt := List.sizeOf_lt_of_mem hx
    simp only [Option.some.sizeOf_spec] at hlt
    simp only [Value.arr.sizeOf_spec]
    omega
  · have hlt := sizeOf_lt_of_get? hx
    simp only [Value.obj.sizeOf_spec]
    omega

end Value

/-! ## What the function decides -/

theorem elementAt_tail (ys : List (Option Value)) (i : ℕ) :
    Value.elementAt ys.tail i = Value.elementAt ys (i + 1) := by
  rw [Value.elementAt, List.getElem?_tail, Value.elementAt]

theorem elementAt_eq {ys : List (Option Value)} {i : ℕ} {y : Value}
    (h : ys[i]? = some (some y)) : Value.elementAt ys i = y := by
  rw [Value.elementAt, h]
  rfl

theorem everyElement_iff {xs ys : List (Option Value)} : everyElement xs ys = true ↔
    ∀ (i : ℕ) (x : Value), xs[i]? = some (some x) →
      areDeepEqual x (Value.elementAt ys i) = true := by
  induction xs generalizing ys with
  | nil => simp [everyElement]
  | cons x? xs ih =>
    have hrest : (∀ (i : ℕ) (x : Value), xs[i]? = some (some x) →
        areDeepEqual x (Value.elementAt ys (i + 1)) = true) ↔ everyElement xs ys.tail = true := by
      simp only [ih, elementAt_tail]
    cases x? with
    | none =>
      rw [everyElement, ← hrest]
      constructor
      · intro h i x hx
        cases i with
        | zero => cases hx
        | succ i => exact h i x hx
      · exact fun h i => h (i + 1)
    | some x =>
      rw [everyElement, Bool.and_eq_true, ← hrest]
      constructor
      · rintro ⟨hfirst, h⟩ i x' hx'
        cases i with
        | zero =>
          cases hx'
          exact hfirst
        | succ i => exact h i x' hx'
      · exact fun h => ⟨h 0 x rfl, fun i => h (i + 1)⟩

theorem everyKey_iff {es : List (String × Value)} {b : Value} : everyKey es b = true ↔
    ∀ e ∈ es, ∃ y, b.own? e.1 = some y ∧ areDeepEqual e.2 y = true := by
  induction es with
  | nil => simp [everyKey]
  | cons e es ih =>
    obtain ⟨k, x⟩ := e
    rw [everyKey, Bool.and_eq_true, ih, List.forall_mem_cons]
    cases b.own? k with
    | none => simp
    | some y => simp

theorem everyIndex_eq (n : ℕ) (xs : List (Option Value)) (b : Value) :
    everyIndex n xs b = everyKey (JsArray.indexed n xs) b := by
  induction xs generalizing n with
  | nil => rfl
  | cons x? xs ih =>
    cases x? with
    | none => rw [everyIndex, JsArray.indexed, ih]
    | some x => rw [everyIndex, JsArray.indexed, everyKey, ih]

theorem areDeepEqual_prim (p : JsPrimitive) (b : Value) :
    areDeepEqual (.prim p) b = (Value.prim p).strictEqual b := by
  unfold areDeepEqual
  cases hequal : (Value.prim p).strictEqual b with
  | true => rfl
  | false => simp

theorem areDeepEqual_arr_arr (place place' : ℕ) (xs ys : List (Option Value)) :
    areDeepEqual (.arr place xs) (.arr place' ys) = true ↔
      place = place' ∨ xs.length = ys.length ∧ everyElement xs ys = true := by
  rw [areDeepEqual]
  by_cases hplace : place = place'
  · simp [Value.strictEqual, hplace]
  · by_cases hlength : xs.length = ys.length
    · simp [Value.strictEqual, Value.truthy, hplace, hlength]
    · simp [Value.strictEqual, Value.truthy, hplace, hlength]

/-- Values that are not both arrays are compared by the entries of the first. -/
theorem areDeepEqual_members {a b : Value} (ha : a.IsContainer) (hb : b.IsContainer)
    (hnot : ¬ a.BothArrays b) : areDeepEqual a b = true ↔
      a.strictEqual b = true ∨
        ∀ e ∈ a.entries, ∃ y, b.own? e.1 = some y ∧ areDeepEqual e.2 y = true := by
  rw [← everyKey_iff]
  cases a with
  | prim p => exact ha.elim
  | arr place xs =>
    cases b with
    | prim p => exact hb.elim
    | arr place' ys => exact absurd trivial hnot
    | obj place' fs =>
      rw [areDeepEqual]
      simp [Value.strictEqual, Value.truthy, everyIndex_eq, Value.entries]
  | obj place es =>
    cases b with
    | prim p => exact hb.elim
    | arr place' ys =>
      rw [areDeepEqual]
      simp [Value.strictEqual, Value.truthy, Value.entries]
    | obj place' fs =>
      rw [areDeepEqual]
      by_cases hplace : place = place'
      · simp [Value.strictEqual, hplace]
      · simp [Value.strictEqual, Value.truthy, hplace, Value.entries]

theorem contained_prim_iff {p : JsPrimitive} {b : Value} :
    Contained (.prim p) b ↔ (Value.prim p).strictEqual b = true := by
  constructor
  · intro h
    cases h with
    | identical h => exact h
    | members ha => exact ha.elim
  · exact .identical

theorem contained_arr_arr_iff {place place' : ℕ} {xs ys : List (Option Value)} :
    Contained (.arr place xs) (.arr place' ys) ↔ place = place' ∨ xs.length = ys.length ∧
      ∀ (i : ℕ) (x : Value), xs[i]? = some (some x) →
        Contained x (Value.elementAt ys i) := by
  constructor
  · intro h
    cases h with
    | identical h => exact Or.inl (of_decide_eq_true h)
    | arr hlength h => exact Or.inr ⟨hlength, h⟩
    | members _ _ hnot => exact absurd trivial hnot
  · rintro (rfl | ⟨hlength, h⟩)
    · exact .identical (decide_eq_true rfl)
    · exact .arr hlength h

theorem contained_members_iff {a b : Value} (ha : a.IsContainer) (hb : b.IsContainer)
    (hnot : ¬ a.BothArrays b) : Contained a b ↔ a.strictEqual b = true ∨
      ∀ e ∈ a.entries, ∃ y, b.own? e.1 = some y ∧ Contained e.2 y := by
  constructor
  · intro h
    cases h with
    | identical h => exact Or.inl h
    | arr => exact absurd trivial hnot
    | members _ _ _ hown h =>
      right
      intro e he
      obtain ⟨y, hy⟩ := Option.isSome_iff_exists.1 (hown e he)
      exact ⟨y, hy, h e.1 e.2 y he hy⟩
  · rintro (h | h)
    · exact .identical h
    · refine .members ha hb hnot (fun e he => ?_) fun k x y hk hy => ?_
      · obtain ⟨y, hy, -⟩ := h e he
        rw [hy]
        rfl
      · obtain ⟨y', hy', hcontained⟩ := h (k, x) hk
        cases hy.symm.trans hy'
        exact hcontained

theorem not_contained_prim {a : Value} (ha : a.IsContainer) (p : JsPrimitive) :
    ¬ Contained a (.prim p) := by
  intro h
  cases h with
  | identical h =>
    cases a with
    | prim p => exact ha
    | arr place xs => cases h
    | obj place es => cases h
  | members _ hb => exact hb

theorem areDeepEqual_container_prim {a : Value} (ha : a.IsContainer) (p : JsPrimitive) :
    areDeepEqual a (.prim p) = false := by
  cases a with
  | prim p => exact ha.elim
  | arr place xs =>
    unfold areDeepEqual
    simp [Value.strictEqual]
  | obj place es =>
    unfold areDeepEqual
    simp [Value.strictEqual]

/-- The step for values that are not both arrays. -/
theorem members_step {a b : Value} (ha : a.IsContainer) (hnot : ¬ a.BothArrays b)
    (ih : ∀ e ∈ a.entries, ∀ y, areDeepEqual e.2 y = true ↔ Contained e.2 y) :
    areDeepEqual a b = true ↔ Contained a b := by
  by_cases hb : b.IsContainer
  · rw [areDeepEqual_members ha hb hnot, contained_members_iff ha hb hnot]
    exact or_congr_right (forall₂_congr fun e he => exists_congr fun y =>
      and_congr_right fun _ => ih e he y)
  · cases b with
    | prim p =>
      rw [areDeepEqual_container_prim ha]
      exact iff_of_false Bool.false_ne_true (not_contained_prim ha p)
    | arr place ys => exact absurd trivial hb
    | obj place fs => exact absurd trivial hb

/-- The function decides whether the second value has what the first has. -/
theorem areDeepEqual_iff {a b : Value} : areDeepEqual a b = true ↔ Contained a b := by
  induction a using Value.value_induction generalizing b with
  | prim p => rw [areDeepEqual_prim, contained_prim_iff]
  | arr place xs ih =>
    by_cases hboth : (Value.arr place xs).BothArrays b
    · cases b with
      | prim p => exact hboth.elim
      | arr place' ys =>
        rw [areDeepEqual_arr_arr, contained_arr_arr_iff]
        rw [everyElement_iff]
        exact or_congr_right (and_congr_right fun _ => forall₂_congr fun i x =>
          imp_congr_right fun hx => ih x (List.mem_of_getElem? hx))
      | obj place' fs => exact hboth.elim
    · exact members_step (a := .arr place xs) trivial hboth fun e he y =>
        ih e.2 (JsArray.mem_of_mem_indexed he)
  | obj place es ih =>
    exact members_step (a := .obj place es) trivial id fun e he y => ih e.1 e.2 he

/-! ## Structural equality -/

/-- A value of a program that is nowhere `NaN` is structurally equal to itself. -/
theorem same_self {a : Value} (h : ¬ Apart a a) : Same a a := by
  induction a using Value.value_induction with
  | prim p =>
    refine .prim ?_
    have hne : p ≠ .num .nan := by
      rintro rfl
      exact h .nan
    simp [JsPrimitive.strictEqual, hne]
  | arr place xs ih =>
    refine .arr rfl (fun _ => Iff.rfl) fun i x y hx hy => ?_
    cases hx.symm.trans hy
    exact ih x (List.mem_of_getElem? hx) fun hapart => h (.element hx hx hapart)
  | obj place es ih =>
    refine .obj (fun _ => Iff.rfl) fun k x y hx hy => ?_
    cases hx.symm.trans hy
    exact ih k x (OrderedMap.mem_of_get? hx) fun hapart => h (.member hx hx hapart)

theorem Same.not_apart {a b : Value} (h : Same a b) : ¬ Apart a b := by
  induction h with
  | prim h =>
    intro hapart
    cases hapart
    cases h
  | arr hlength hholes _ ih =>
    intro hapart
    cases hapart with
    | hole hx hy => cases hy.symm.trans ((hholes _).1 hx)
    | filled hx hy => cases hx.symm.trans ((hholes _).2 hy)
    | element hx hy hapart => exact ih _ _ _ hx hy hapart
  | obj hkeys _ ih =>
    intro hapart
    cases hapart with
    | key h h' => exact h ((hkeys _).2 h')
    | member hx hy hapart => exact ih _ _ _ hx hy hapart

theorem Same.symm {a b : Value} (h : Same a b) : Same b a := by
  induction h with
  | @prim p q h =>
    refine .prim ?_
    have heq : p = q := by simp_all [JsPrimitive.strictEqual]
    subst heq
    exact h
  | arr hlength hholes _ ih =>
    exact .arr hlength.symm (fun i => (hholes i).symm) fun i x y hx hy => ih i y x hy hx
  | obj hkeys _ ih => exact .obj (fun k => (hkeys k).symm) fun k x y hx hy => ih k y x hy hx

/-- Where the holes are the same there are the same elements. -/
theorem exists_element {xs ys : List (Option Value)} (hlength : xs.length = ys.length)
    (hholes : ∀ i : ℕ, xs[i]? = some none ↔ ys[i]? = some none) {i : ℕ} {x : Value}
    (hx : xs[i]? = some (some x)) : ∃ y, ys[i]? = some (some y) := by
  have hi : i < ys.length := by
    rw [← hlength]
    exact (List.getElem?_eq_some_iff.1 hx).1
  have hy := List.getElem?_eq_getElem hi
  cases hread : ys[i] with
  | none =>
    rw [hread] at hy
    cases hx.symm.trans ((hholes i).2 hy)
  | some y => exact ⟨y, by rw [hy, hread]⟩

theorem Same.trans {a b c : Value} (h : Same a b) (h' : Same b c) : Same a c := by
  induction h generalizing c with
  | @prim p q h =>
    cases h' with
    | prim h' =>
      have heq : p = q := by simp_all [JsPrimitive.strictEqual]
      subst heq
      exact .prim h'
  | arr hlength hholes _ ih =>
    cases h' with
    | arr hlength' hholes' h' =>
      refine .arr (hlength.trans hlength') (fun i => (hholes i).trans (hholes' i)) ?_
      intro i x z hx hz
      obtain ⟨y, hy⟩ := exists_element hlength hholes hx
      exact ih i x y hx hy (h' i y z hy hz)
  | obj hkeys _ ih =>
    cases h' with
    | obj hkeys' h' =>
      refine .obj (fun k => (hkeys k).trans (hkeys' k)) fun k x z hx hz => ?_
      have hmem := (hkeys k).1 (OrderedMap.get?_isSome_iff.1 (Option.isSome_iff_exists.2 ⟨x, hx⟩))
      obtain ⟨y, hy⟩ := Option.isSome_iff_exists.1 (OrderedMap.get?_isSome_iff.2 hmem)
      exact ih k x y hx hy (h' k y z hy hz)

theorem Same.contained (M : Memory) {a b : Value} (h : Same a b) (ha : M.Holds a) :
    Contained a b := by
  induction h with
  | prim h => exact .identical h
  | arr hlength hholes _ ih =>
    refine .arr hlength fun i x hx => ?_
    obtain ⟨y, hy⟩ := exists_element hlength hholes hx
    rw [elementAt_eq hy]
    exact ih i x y hx hy (M.element ha (List.mem_of_getElem? hx))
  | @obj place place' es fs hkeys _ ih =>
    refine .members Value.isContainer_obj Value.isContainer_obj id (fun e he => ?_) ?_
    · refine OrderedMap.get?_isSome_iff.2 ((hkeys e.1).1 ?_)
      exact List.mem_map_of_mem he
    · intro k x y hk hy
      have hx := (OrderedMap.get?_eq_some_iff (M.nodup ha)).2 hk
      exact ih k x y hx hy (M.entry ha hk)

/-- Arrays that are not apart have the same holes. -/
theorem sameHoles {place place' : ℕ} {xs ys : List (Option Value)}
    (hlength : xs.length = ys.length) (hapart : ¬ Apart (.arr place xs) (.arr place' ys))
    (i : ℕ) : xs[i]? = some none ↔ ys[i]? = some none := by
  by_cases hi : i < xs.length
  · have hx := List.getElem?_eq_getElem hi
    have hy := List.getElem?_eq_getElem (hlength ▸ hi)
    rw [hx, hy, Option.some_inj, Option.some_inj]
    cases hxi : xs[i] with
    | none =>
      cases hyi : ys[i] with
      | none => rfl
      | some y => exact absurd (.hole (hxi ▸ hx) (hyi ▸ hy)) hapart
    | some x =>
      cases hyi : ys[i] with
      | none => exact absurd (.filled (hxi ▸ hx) (hyi ▸ hy)) hapart
      | some y => exact iff_of_false nofun nofun
  · rw [List.getElem?_eq_none (Nat.not_lt.1 hi),
      List.getElem?_eq_none (hlength ▸ Nat.not_lt.1 hi)]

theorem same_of_contained (M : Memory) {a b : Value} (h : Contained a b) (hapart : ¬ Apart a b)
    (ha : M.Holds a) (hb : M.Holds b) : Same a b := by
  induction a using Value.value_induction generalizing b with
  | prim p =>
    rw [contained_prim_iff] at h
    cases b with
    | prim q => exact .prim h
    | arr place ys => cases h
    | obj place fs => cases h
  | arr place xs ih =>
    cases b with
    | prim p => exact absurd h (not_contained_prim Value.isContainer_arr p)
    | arr place' ys =>
      rcases contained_arr_arr_iff.1 h with rfl | ⟨hlength, helements⟩
      · cases M.oneArray ha hb
        exact same_self hapart
      · refine .arr hlength (sameHoles hlength hapart) fun i x y hx hy => ?_
        have hcontained := helements i x hx
        rw [elementAt_eq hy] at hcontained
        exact ih x (List.mem_of_getElem? hx) hcontained
          (fun hxy => hapart (.element hx hy hxy)) (M.element ha (List.mem_of_getElem? hx))
          (M.element hb (List.mem_of_getElem? hy))
    | obj place' fs => exact absurd .arrayObject hapart
  | obj place es ih =>
    cases b with
    | prim p => exact absurd h (not_contained_prim Value.isContainer_obj p)
    | arr place' ys => exact absurd .objectArray hapart
    | obj place' fs =>
      have hcases := (contained_members_iff Value.isContainer_obj Value.isContainer_obj id).1 h
      rcases hcases with hplace | hmembers
      · cases of_decide_eq_true hplace
        cases M.oneObject ha hb
        exact same_self hapart
      · refine .obj (fun k => ⟨fun hk => ?_, fun hk => ?_⟩) fun k x y hx hy => ?_
        · obtain ⟨x, hx⟩ := Option.isSome_iff_exists.1 (OrderedMap.get?_isSome_iff.2 hk)
          obtain ⟨y, hy, -⟩ := hmembers (k, x) (OrderedMap.mem_of_get? hx)
          exact OrderedMap.get?_isSome_iff.1 (Option.isSome_iff_exists.2 ⟨y, hy⟩)
        · by_contra hnot
          exact hapart (.key hnot hk)
        · obtain ⟨y', hy', hcontained⟩ := hmembers (k, x) (OrderedMap.mem_of_get? hx)
          cases hy.symm.trans hy'
          exact ih k x (OrderedMap.mem_of_get? hx) hcontained
            (fun hxy => hapart (.member hx hy hxy)) (M.entry ha (OrderedMap.mem_of_get? hx))
            (M.entry hb (OrderedMap.mem_of_get? hy))

/-- A value of a program. -/
abbrev Memory.Val (M : Memory) : Type := { a : Value // M.Holds a }

/-- Structural equality: the second value has what the first has, and they differ nowhere. -/
theorem same_iff {M : Memory} (a b : M.Val) :
    Same a.1 b.1 ↔ Contained a.1 b.1 ∧ ¬ Apart a.1 b.1 :=
  ⟨fun h => ⟨h.contained M a.2, h.not_apart⟩, fun h => same_of_contained M h.1 h.2 a.2 b.2⟩

/-- For these two values the function answers whether they are structurally equal. -/
def Decides (a b : Value) : Prop := areDeepEqual a b = true ↔ Same a b

/-- The second value has everything that the first has, and somewhere they differ. -/
def Overlooked (a b : Value) : Prop := Contained a b ∧ Apart a b

/-- **Where the function decides structural equality.**  Exactly where it overlooks nothing,
and there it is symmetric and transitive. -/
theorem decides_iff (M : Memory) (a b c : M.Val) :
    (Decides a.1 b.1 ↔ ¬ Overlooked a.1 b.1) ∧
      (Decides a.1 b.1 ∧ Decides b.1 a.1 →
        (areDeepEqual a.1 b.1 = true ↔ areDeepEqual b.1 a.1 = true)) ∧
      (Decides a.1 b.1 ∧ Decides b.1 c.1 ∧ Decides a.1 c.1 → areDeepEqual a.1 b.1 = true →
        areDeepEqual b.1 c.1 = true → areDeepEqual a.1 c.1 = true) := by
  refine ⟨?_, ?_, ?_⟩
  · rw [Decides, Overlooked, areDeepEqual_iff, same_iff a b]
    tauto
  · rintro ⟨hab, hba⟩
    have hsymm : Same a.1 b.1 ↔ Same b.1 a.1 := ⟨Same.symm, Same.symm⟩
    exact (Iff.trans hab hsymm).trans (Iff.symm hba)
  · rintro ⟨hab, hbc, hac⟩ heqab heqbc
    exact hac.2 ((hab.1 heqab).trans (hbc.1 heqbc))

/-- `{a: 1}` and `{a: 1, b: 2}`, with their parts. -/
def twoObjects : Memory where
  Holds a := match a with
    | .prim _ => True
    | .arr _ _ => False
    | .obj place es => place = 0 ∧ es = [("a", .prim (.num (.finite 1)))] ∨
        place = 1 ∧ es = [("a", .prim (.num (.finite 1))), ("b", .prim (.num (.finite 2)))]
  element h := h.elim
  entry h he := by
    rcases h with ⟨rfl, rfl⟩ | ⟨rfl, rfl⟩
    · cases List.mem_singleton.1 he
      trivial
    · rcases List.mem_cons.1 he with rfl | he
      · trivial
      · cases List.mem_singleton.1 he
        trivial
  nodup h := by
    rcases h with ⟨rfl, rfl⟩ | ⟨rfl, rfl⟩
    · decide
    · decide
  oneArray h := h.elim
  oneObject h h' := by
    rcases h with ⟨rfl, rfl⟩ | ⟨rfl, rfl⟩
    · rcases h' with ⟨-, rfl⟩ | ⟨hplace, -⟩
      · rfl
      · cases hplace
    · rcases h' with ⟨hplace, -⟩ | ⟨-, rfl⟩
      · cases hplace
      · rfl

def justA : twoObjects.Val :=
  ⟨.obj 0 [("a", .prim (.num (.finite 1)))], Or.inl ⟨rfl, rfl⟩⟩

def aAndB : twoObjects.Val :=
  ⟨.obj 1 [("a", .prim (.num (.finite 1))), ("b", .prim (.num (.finite 2)))], Or.inr ⟨rfl, rfl⟩⟩

/-- The keys of the second value are not looked at, so the answer depends on the order. -/
theorem areDeepEqual_justA_aAndB : areDeepEqual justA.1 aAndB.1 = true ∧
    areDeepEqual aAndB.1 justA.1 = false ∧ ¬ Decides justA.1 aAndB.1 := by
  refine ⟨by decide +kernel, by decide +kernel, fun h => ?_⟩
  have hsame : Same justA.1 aAndB.1 := h.1 (by decide +kernel)
  cases hsame with
  | obj hkeys =>
    have hb := (hkeys "b").2 (by decide)
    revert hb
    decide

end SharedTsLibs.UniversalTsUtils
