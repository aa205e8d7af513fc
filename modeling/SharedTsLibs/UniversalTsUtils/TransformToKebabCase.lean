import SharedTsLibs.Lib.CodeUnits
import SharedTsLibs.Lib.JsPrimitive
import SharedTsLibs.Lib.OrderedMap
import SharedTsLibs.Lib.RegExp

/-!
# Keys in kebab case

`universal-ts-utils`: `transformToKebabCase` rewrites the keys of nested objects.

* `LowerCasing` — what `toLowerCase` does.
* `transformKey`, `transformToKebabCase` — the functions.
* `kebabForm`, `transformKey_eq_kebabForm` — a key with its words apart and in lower case.
* `transformKey_transformKey` — a key in kebab case stays as it is.
* `kebabKeys` — the same value with its keys in kebab case.
* `keysOnly_iff` — only the keys change, and only once, unless there is a `Date` in the value.
-/

namespace SharedTsLibs.UniversalTsUtils

/-! ## Keys -/

/-- `[A-Z]` -/
def isCapital (u : UInt16) : Bool := 0x41 ≤ u && u ≤ 0x5A

/-- `[a-z]` -/
def isSmall (u : UInt16) : Bool := 0x61 ≤ u && u ≤ 0x7A

def hyphen : UInt16 := 0x2D

def underscore : UInt16 := 0x5F

/-- `toLowerCase`: it leaves no capital letter of ASCII, makes no underscore, and changes
nothing the second time. -/
structure LowerCasing where
  toLowerCase : JsString → JsString
  not_capital : ∀ s, ∀ u ∈ toLowerCase s, isCapital u = false
  not_underscore : ∀ s, underscore ∉ s → underscore ∉ toLowerCase s
  idempotent : ∀ s, toLowerCase (toLowerCase s) = toLowerCase s

/-- `([a-z])([A-Z])` -/
def camelFront : JsString → Option JsString
  | u :: v :: _ => if isSmall u && isCapital v then some [u, v] else none
  | _ => none

/-- `([A-Z])([A-Z][a-z])` -/
def abbreviationFront : JsString → Option JsString
  | u :: v :: w :: _ => if isCapital u && isCapital v && isSmall w then some [u, v, w] else none
  | _ => none

/-- `_` -/
def underscoreFront : JsString → Option JsString
  | u :: _ => if u = underscore then some [u] else none
  | [] => none

def camel : RegExp UInt16 where
  front := camelFront
  front_spec s m h := by
    unfold camelFront at h
    split at h
    · split at h
      · cases h
        exact ⟨List.cons_ne_nil _ _, _, rfl⟩
      · cases h
    · cases h

def abbreviation : RegExp UInt16 where
  front := abbreviationFront
  front_spec s m h := by
    unfold abbreviationFront at h
    split at h
    · split at h
      · cases h
        exact ⟨List.cons_ne_nil _ _, _, rfl⟩
      · cases h
    · cases h

def underscores : RegExp UInt16 where
  front := underscoreFront
  front_spec s m h := by
    unfold underscoreFront at h
    split at h
    · split at h
      · cases h
        exact ⟨List.cons_ne_nil _ _, _, rfl⟩
      · cases h
    · cases h

/-- `$1-$2`, where the first group is one unit. -/
def hyphenated : JsString → JsString
  | [] => []
  | u :: s => u :: hyphen :: s

def transformKey (lower : LowerCasing) (key : JsString) : JsString :=
  let key := camel.replace hyphenated key
  let key := abbreviation.replace hyphenated key
  let key := underscores.replace (fun _ => [hyphen]) key
  lower.toLowerCase key

theorem camel_front_of_not_capital {s : JsString} (h : ∀ u ∈ s, isCapital u = false) :
    camel.front s = none := by
  show camelFront s = none
  unfold camelFront
  split
  · rename_i u v rest
    rw [h v (by simp), Bool.and_false]
    rfl
  · rfl

theorem abbreviation_front_of_not_capital {s : JsString} (h : ∀ u ∈ s, isCapital u = false) :
    abbreviation.front s = none := by
  show abbreviationFront s = none
  unfold abbreviationFront
  split
  · rename_i u v w rest
    rw [h u (by simp), Bool.false_and, Bool.false_and]
    rfl
  · rfl

theorem underscores_front_of_not_mem {s : JsString} (h : underscore ∉ s) :
    underscores.front s = none := by
  cases s with
  | nil => rfl
  | cons u s => exact if_neg fun hu => h (by simp [hu])

theorem underscore_not_mem_replace (s : JsString) :
    underscore ∉ underscores.replace (fun _ => [hyphen]) s := by
  intro hmem
  refine RegExp.forall_mem_replace (r := underscores) (P := fun u => u ≠ underscore) ?_ ?_ s
    underscore hmem rfl
  · rintro u s hfront rfl
    cases hfront
  · intro m rest _ u hu
    rw [List.mem_singleton.1 hu]
    decide

theorem transformKey_not_capital (lower : LowerCasing) (key : JsString) :
    ∀ u ∈ transformKey lower key, isCapital u = false :=
  lower.not_capital _

theorem underscore_not_mem_transformKey (lower : LowerCasing) (key : JsString) :
    underscore ∉ transformKey lower key :=
  lower.not_underscore _ (underscore_not_mem_replace _)

/-- A key in kebab case stays as it is. -/
theorem transformKey_transformKey (lower : LowerCasing) (key : JsString) :
    transformKey lower (transformKey lower key) = transformKey lower key := by
  have hcapital := transformKey_not_capital lower key
  have hunderscore := underscore_not_mem_transformKey lower key
  have hcamel : camel.replace hyphenated (transformKey lower key) = transformKey lower key :=
    RegExp.replace_eq_self (fun k => camel_front_of_not_capital fun u hu =>
      hcapital u (List.mem_of_mem_drop hu)) _
  have habbreviation :
      abbreviation.replace hyphenated (transformKey lower key) = transformKey lower key :=
    RegExp.replace_eq_self (fun k => abbreviation_front_of_not_capital fun u hu =>
      hcapital u (List.mem_of_mem_drop hu)) _
  have hnone : underscores.replace (fun _ => [hyphen]) (transformKey lower key)
      = transformKey lower key :=
    RegExp.replace_eq_self (fun k => underscores_front_of_not_mem fun hu =>
      hunderscore (List.mem_of_mem_drop hu)) _
  calc transformKey lower (transformKey lower key)
      = lower.toLowerCase (transformKey lower key) := by
        conv_lhs => rw [transformKey, hcamel, habbreviation, hnone]
    _ = transformKey lower key := lower.idempotent _

/-! ## Kebab form -/

/-- A word begins after the unit: at a capital that follows a small letter, and at the last one
of several capitals before a small letter. -/
def beginsWord (u : UInt16) : JsString → Bool
  | [] => false
  | v :: s => isCapital v && (isSmall u || isCapital u && s.head?.any isSmall)

/-- A text with a hyphen for each underscore, and with one where a word begins. -/
def kebabText : JsString → JsString
  | [] => []
  | u :: s =>
    (if u = underscore then hyphen else u) ::
      (if beginsWord u s then hyphen :: kebabText s else kebabText s)

/-- The kebab form of a key. -/
def kebabForm (lower : LowerCasing) (key : JsString) : JsString :=
  lower.toLowerCase (kebabText key)

theorem isSmall_eq_false {u : UInt16} (h : isCapital u = true) : isSmall u = false := by
  simp only [isCapital, Bool.and_eq_true, decide_eq_true_eq, UInt16.le_iff_toNat_le] at h
  simp only [isSmall, Bool.and_eq_false_iff, decide_eq_false_iff_not, UInt16.le_iff_toNat_le]
  exact .inl fun hle => absurd (hle.trans h.2) (by decide)

theorem isCapital_eq_false {u : UInt16} (h : isSmall u = true) : isCapital u = false := by
  by_contra hu
  rw [isSmall_eq_false (by simpa using hu)] at h
  cases h

/-- Where no match begins inside another one, each has its hyphen behind its first unit. -/
theorem replace_hyphenated {r : RegExp UInt16}
    (hinside : ∀ u m s, r.front (u :: (m ++ s)) = some (u :: m) →
      ∀ k < m.length, r.front ((m ++ s).drop k) = none) (u : UInt16) (s : JsString) :
    r.replace hyphenated (u :: s) = u :: (if (r.front (u :: s)).isSome then
      hyphen :: r.replace hyphenated s else r.replace hyphenated s) := by
  cases hfront : r.front (u :: s) with
  | none => rw [RegExp.replace_of_no_match hfront, Option.isSome_none, if_neg Bool.false_ne_true]
  | some m =>
    obtain ⟨hne, rest, hrest⟩ := r.front_spec _ m hfront
    obtain ⟨v, m, rfl⟩ := List.exists_cons_of_ne_nil hne
    rw [List.cons_append] at hrest
    obtain ⟨rfl, hs⟩ := List.cons.inj hrest
    subst hs
    have hmatch : r.replace hyphenated (u :: (m ++ rest)) = _ :=
      RegExp.replace_of_match (m := u :: m) hfront hyphenated
    rw [hmatch, RegExp.replace_append (hinside u m rest hfront), Option.isSome_some, if_pos rfl]
    rfl

theorem eq_of_camel_front {s m : JsString} (h : camel.front s = some m) :
    ∃ u v rest, s = u :: v :: rest ∧ m = [u, v] ∧ isSmall u = true ∧ isCapital v = true := by
  simp only [camel] at h
  unfold camelFront at h
  split at h
  · next u v rest =>
    split at h
    · next hmatch =>
      cases h
      exact ⟨u, v, rest, rfl, rfl, Bool.and_eq_true_iff.1 hmatch⟩
    · cases h
  · cases h

theorem eq_of_abbreviation_front {s m : JsString} (h : abbreviation.front s = some m) :
    ∃ u v w rest, s = u :: v :: w :: rest ∧ m = [u, v, w] ∧ isCapital u = true ∧
      isCapital v = true ∧ isSmall w = true := by
  simp only [abbreviation] at h
  unfold abbreviationFront at h
  split at h
  · next u v w rest =>
    split at h
    · next hmatch =>
      cases h
      obtain ⟨hcapitals, hw⟩ := Bool.and_eq_true_iff.1 hmatch
      obtain ⟨hu, hv⟩ := Bool.and_eq_true_iff.1 hcapitals
      exact ⟨u, v, w, rest, rfl, rfl, hu, hv, hw⟩
    · cases h
  · cases h

theorem camel_front_eq_none {u : UInt16} (h : isSmall u = false) (s : JsString) :
    camel.front (u :: s) = none := by
  rw [Option.eq_none_iff_forall_ne_some]
  intro m hm
  obtain ⟨u', v, rest, hs, -, hsmall, -⟩ := eq_of_camel_front hm
  cases hs
  rw [h] at hsmall
  cases hsmall

theorem abbreviation_front_eq_none {u : UInt16} (h : isCapital u = false) (s : JsString) :
    abbreviation.front (u :: s) = none := by
  cases hfront : abbreviation.front (u :: s) with
  | none => rfl
  | some m =>
    obtain ⟨u', v, w, rest, hs, -, hu, -⟩ := eq_of_abbreviation_front hfront
    cases hs
    rw [h] at hu
    cases hu

theorem camelFront_isSome (u : UInt16) (s : JsString) :
    (camel.front (u :: s)).isSome = (isSmall u && s.head?.any isCapital) := by
  cases s with
  | nil => simp [camel, camelFront]
  | cons v s =>
    simp only [camel, camelFront]
    split <;> simp_all

theorem abbreviationFront_isSome (u v : UInt16) (s : JsString) :
    (abbreviation.front (u :: v :: s)).isSome =
      (isCapital u && isCapital v && s.head?.any isSmall) := by
  cases s with
  | nil => simp [abbreviation, abbreviationFront]
  | cons w s =>
    simp only [abbreviation, abbreviationFront]
    split <;> simp_all

theorem camel_replace_cons (u : UInt16) (s : JsString) :
    camel.replace hyphenated (u :: s) = u :: (if (camel.front (u :: s)).isSome then
      hyphen :: camel.replace hyphenated s else camel.replace hyphenated s) := by
  refine replace_hyphenated (fun u m s hfront k hk => ?_) u s
  obtain ⟨u', v, rest, -, hm, -, hv⟩ := eq_of_camel_front hfront
  cases hm
  obtain rfl : k = 0 := Nat.lt_one_iff.1 hk
  exact camel_front_eq_none (isSmall_eq_false hv) s

theorem abbreviation_replace_cons (u : UInt16) (s : JsString) :
    abbreviation.replace hyphenated (u :: s) = u :: (if (abbreviation.front (u :: s)).isSome then
      hyphen :: abbreviation.replace hyphenated s else abbreviation.replace hyphenated s) := by
  refine replace_hyphenated (fun u m s hfront k hk => ?_) u s
  obtain ⟨u', v, w, rest, -, hm, -, -, hw⟩ := eq_of_abbreviation_front hfront
  cases hm
  have hplace : k = 0 ∨ k = 1 := by
    rw [List.length_cons, List.length_singleton] at hk
    omega
  have hcapital := isCapital_eq_false hw
  rcases hplace with rfl | rfl
  · cases hnext : abbreviation.front (v :: w :: s) with
    | none => exact hnext
    | some m =>
      obtain ⟨v', w', x, rest, hs, -, -, hsecond, -⟩ := eq_of_abbreviation_front hnext
      cases hs
      rw [hcapital] at hsecond
      cases hsecond
  · exact abbreviation_front_eq_none hcapital s

/-- The new text begins as the old one. -/
theorem head?_camel_replace (s : JsString) : (camel.replace hyphenated s).head? = s.head? := by
  cases s with
  | nil => rfl
  | cons u s => rw [camel_replace_cons, List.head?_cons, List.head?_cons]

/-- The hyphens of the first expression neither make a match of the second nor break one. -/
theorem abbreviationFront_camel_replace (u : UInt16) (s : JsString) :
    (abbreviation.front (u :: camel.replace hyphenated s)).isSome =
      (abbreviation.front (u :: s)).isSome := by
  cases s with
  | nil => rfl
  | cons v s =>
    rw [camel_replace_cons]
    by_cases hv : isCapital v = true
    · rw [camel_front_eq_none (isSmall_eq_false hv), Option.isSome_none,
        if_neg Bool.false_ne_true, abbreviationFront_isSome, abbreviationFront_isSome,
        head?_camel_replace]
    · rw [abbreviationFront_isSome, abbreviationFront_isSome]
      simp [hv]

theorem beginsWord_eq (u : UInt16) (s : JsString) : beginsWord u s =
    ((camel.front (u :: s)).isSome || (abbreviation.front (u :: s)).isSome) := by
  rw [camelFront_isSome]
  cases s with
  | nil =>
    rw [List.head?_nil, Option.any_none, Bool.and_false]
    rfl
  | cons v s =>
    rw [abbreviationFront_isSome, beginsWord, List.head?_cons, Option.any_some]
    cases isCapital v <;> cases isSmall u <;> cases isCapital u <;> rfl

/-- Both expressions together put a hyphen where a word begins. -/
theorem replace_replace_cons (u : UInt16) (s : JsString) :
    abbreviation.replace hyphenated (camel.replace hyphenated (u :: s)) =
      u :: (if beginsWord u s then
        hyphen :: abbreviation.replace hyphenated (camel.replace hyphenated s)
      else abbreviation.replace hyphenated (camel.replace hyphenated s)) := by
  rw [camel_replace_cons, abbreviation_replace_cons, beginsWord_eq]
  by_cases hcamel : (camel.front (u :: s)).isSome = true
  · have hsmall : isSmall u = true := by
      rw [camelFront_isSome, Bool.and_eq_true_iff] at hcamel
      exact hcamel.1
    rw [if_pos hcamel, abbreviation_front_eq_none (isCapital_eq_false hsmall), hcamel,
      abbreviation_replace_cons, abbreviation_front_eq_none (by decide)]
    rfl
  · rw [if_neg hcamel, abbreviationFront_camel_replace, Bool.eq_false_iff.2 hcamel,
      Bool.false_or]

theorem underscores_replace (s : JsString) : underscores.replace (fun _ => [hyphen]) s =
    s.map fun u => if u = underscore then hyphen else u := by
  induction s with
  | nil => rfl
  | cons u s ih =>
    by_cases hu : u = underscore
    · have hfront : underscores.front ([u] ++ s) = some [u] := if_pos hu
      have hreplace := RegExp.replace_of_match hfront fun _ => [hyphen]
      rw [List.singleton_append, ih] at hreplace
      rw [hreplace, List.map_cons, if_pos hu, List.singleton_append]
    · have hfront : underscores.front (u :: s) = none := if_neg hu
      rw [RegExp.replace_of_no_match hfront, ih, List.map_cons, if_neg hu]

/-- **The new key is the kebab form of the key.** -/
theorem transformKey_eq_kebabForm (lower : LowerCasing) :
    transformKey lower = kebabForm lower := by
  have htext : ∀ key, (abbreviation.replace hyphenated (camel.replace hyphenated key)).map
      (fun u => if u = underscore then hyphen else u) = kebabText key := by
    intro key
    induction key with
    | nil => rfl
    | cons u s ih =>
      rw [replace_replace_cons, List.map_cons, kebabText, ← ih]
      by_cases hbegins : beginsWord u s = true
      · rw [if_pos hbegins, if_pos hbegins]
        rfl
      · rw [if_neg hbegins, if_neg hbegins]
  funext key
  rw [transformKey, underscores_replace, htext, kebabForm]

theorem kebabForm_kebabForm (lower : LowerCasing) (key : JsString) :
    kebabForm lower (kebabForm lower key) = kebabForm lower key := by
  rw [← transformKey_eq_kebabForm, transformKey_transformKey]

/-! ## Values -/

/-- A value built from plain objects, arrays, primitives and dates. -/
inductive Nested where
  | prim (p : JsPrimitive)
  | date (time : JsNumber)
  | arr (elements : List Nested)
  | obj (entries : List (JsString × Nested))

namespace Nested

def truthy : Nested → Bool
  | prim p => p.truthy
  | date _ | arr _ | obj _ => true

/-- `typeof value === 'object'`, for a value that is not `null`. -/
def isObject : Nested → Bool
  | prim _ => false
  | date _ | arr _ | obj _ => true

end Nested

mutual

/-- `transformToKebabCase`; `Object.entries` of a date is empty. -/
def transformToKebabCase (lower : LowerCasing) : Nested → Nested
  | .arr xs => .arr (transformElements lower xs)
  | .prim p => .prim p
  | .date _ => .obj []
  | .obj es => .obj (transformEntries lower [] es)

/-- `object.map(transformToKebabCase)` -/
def transformElements (lower : LowerCasing) : List Nested → List Nested
  | [] => []
  | x :: xs => transformToKebabCase lower x :: transformElements lower xs

/-- The loop over `Object.entries(object)`, with the result so far. -/
def transformEntries (lower : LowerCasing) (result : List (JsString × Nested)) :
    List (JsString × Nested) → List (JsString × Nested)
  | [] => result
  | (key, value) :: es =>
    transformEntries lower (OrderedMap.set (transformKey lower key)
      (if value.truthy && value.isObject then transformToKebabCase lower value else value)
      result) es

end

mutual

/-- The value with its keys in kebab case. -/
def kebabKeys (lower : LowerCasing) : Nested → Nested
  | .prim p => .prim p
  | .date time => .date time
  | .arr xs => .arr (kebabElements lower xs)
  | .obj es => .obj (kebabEntries lower es)

def kebabElements (lower : LowerCasing) : List Nested → List Nested
  | [] => []
  | x :: xs => kebabKeys lower x :: kebabElements lower xs

def kebabEntries (lower : LowerCasing) : List (JsString × Nested) → List (JsString × Nested)
  | [] => []
  | (key, value) :: es =>
    (kebabForm lower key, kebabKeys lower value) :: kebabEntries lower es

end

/-- No object in the value has two keys with the same kebab form. -/
inductive DistinctKebab (lower : LowerCasing) : Nested → Prop
  | prim {p : JsPrimitive} : DistinctKebab lower (.prim p)
  | date {time : JsNumber} : DistinctKebab lower (.date time)
  | arr {xs : List Nested} (h : ∀ x ∈ xs, DistinctKebab lower x) : DistinctKebab lower (.arr xs)
  | obj {es : List (JsString × Nested)} (hkeys : (es.map fun e => kebabForm lower e.1).Nodup)
      (h : ∀ e ∈ es, DistinctKebab lower e.2) : DistinctKebab lower (.obj es)

/-- What is said of keys holds of every key in the value. -/
inductive Keyed (P : JsString → Prop) : Nested → Prop
  | prim {p : JsPrimitive} : Keyed P (.prim p)
  | date {time : JsNumber} : Keyed P (.date time)
  | arr {xs : List Nested} (h : ∀ x ∈ xs, Keyed P x) : Keyed P (.arr xs)
  | obj {es : List (JsString × Nested)} (hkeys : ∀ e ∈ es, P e.1) (h : ∀ e ∈ es, Keyed P e.2) :
      Keyed P (.obj es)

/-- There is no date in the value. -/
inductive NoDate : Nested → Prop
  | prim {p : JsPrimitive} : NoDate (.prim p)
  | arr {xs : List Nested} (h : ∀ x ∈ xs, NoDate x) : NoDate (.arr xs)
  | obj {es : List (JsString × Nested)} (h : ∀ e ∈ es, NoDate e.2) : NoDate (.obj es)

section Transform

variable {lower : LowerCasing}

theorem transformElements_eq_map (xs : List Nested) :
    transformElements lower xs = xs.map (transformToKebabCase lower) := by
  induction xs with
  | nil => rfl
  | cons x xs ih => rw [transformElements, ih, List.map_cons]

theorem kebabElements_eq_map (xs : List Nested) :
    kebabElements lower xs = xs.map (kebabKeys lower) := by
  induction xs with
  | nil => rfl
  | cons x xs ih => rw [kebabElements, ih, List.map_cons]

theorem kebabEntries_eq_map (es : List (JsString × Nested)) : kebabEntries lower es
    = es.map fun e => (kebabForm lower e.1, kebabKeys lower e.2) := by
  induction es with
  | nil => rfl
  | cons e es ih =>
    obtain ⟨key, value⟩ := e
    rw [kebabEntries, ih, List.map_cons]

/-- What is written under the new key: a value that is not an object is transformed to
itself. -/
theorem written_eq (value : Nested) :
    (if value.truthy && value.isObject then transformToKebabCase lower value else value)
      = transformToKebabCase lower value := by
  cases value with
  | prim p => rw [transformToKebabCase]; split <;> rfl
  | date time => rfl
  | arr xs => rfl
  | obj es => rfl

/-- When the new keys are distinct, each entry is written at the end. -/
theorem transformEntries_eq {result es : List (JsString × Nested)}
    (h : (OrderedMap.keys result ++ es.map fun e => transformKey lower e.1).Nodup) :
    transformEntries lower result es
      = result ++ es.map fun e => (transformKey lower e.1, transformToKebabCase lower e.2) := by
  induction es generalizing result with
  | nil => rw [transformEntries, List.map_nil, List.append_nil]
  | cons e es ih =>
    obtain ⟨key, value⟩ := e
    have hnew : transformKey lower key ∉ OrderedMap.keys result := by
      intro hmem
      exact (List.nodup_append.1 h).2.2 _ hmem _ (by simp) rfl
    rw [transformEntries, written_eq, OrderedMap.set_of_notMem hnew, ih, List.map_cons,
      List.append_assoc]
    · rfl
    · simpa [OrderedMap.keys] using h

theorem transformToKebabCase_obj {es : List (JsString × Nested)}
    (h : (es.map fun e => kebabForm lower e.1).Nodup) : transformToKebabCase lower (.obj es)
      = .obj (es.map fun e => (kebabForm lower e.1, transformToKebabCase lower e.2)) := by
  rw [← transformKey_eq_kebabForm] at h ⊢
  rw [transformToKebabCase, transformEntries_eq (by simpa [OrderedMap.keys] using h),
    List.nil_append]

theorem kebabKeys_arr (xs : List Nested) :
    kebabKeys lower (.arr xs) = .arr (xs.map (kebabKeys lower)) := by
  rw [kebabKeys, kebabElements_eq_map]

theorem kebabKeys_obj (es : List (JsString × Nested)) : kebabKeys lower (.obj es)
    = .obj (es.map fun e => (kebabForm lower e.1, kebabKeys lower e.2)) := by
  rw [kebabKeys, kebabEntries_eq_map]

/-- The function agrees with the new keys exactly on values without dates. -/
theorem transformToKebabCase_eq_iff {v : Nested} (h : DistinctKebab lower v) :
    transformToKebabCase lower v = kebabKeys lower v ↔ NoDate v := by
  induction h with
  | prim => exact iff_of_true rfl .prim
  | date => exact iff_of_false (fun h => by cases h) fun h => by cases h
  | @arr xs _ ih =>
    rw [transformToKebabCase, transformElements_eq_map, kebabKeys_arr, Nested.arr.injEq,
      List.map_inj_left]
    constructor
    · exact fun h => .arr fun x hx => (ih x hx).1 (h x hx)
    · intro h x hx
      cases h with
      | arr h => exact (ih x hx).2 (h x hx)
  | @obj es hkeys _ ih =>
    rw [transformToKebabCase_obj hkeys, kebabKeys_obj, Nested.obj.injEq, List.map_inj_left]
    constructor
    · exact fun h => .obj fun e he => (ih e he).1 (Prod.ext_iff.1 (h e he)).2
    · intro h e he
      cases h with
      | obj h => rw [(ih e he).2 (h e he)]

theorem distinctKebab_kebabKeys {v : Nested} (h : DistinctKebab lower v) :
    DistinctKebab lower (kebabKeys lower v) := by
  induction h with
  | prim => exact .prim
  | date => exact .date
  | arr _ ih =>
    rw [kebabKeys_arr]
    refine .arr fun y hy => ?_
    obtain ⟨x, hx, rfl⟩ := List.mem_map.1 hy
    exact ih x hx
  | obj hkeys _ ih =>
    rw [kebabKeys_obj]
    refine .obj ?_ fun f hf => ?_
    · simpa [List.map_map, Function.comp_def, kebabForm_kebabForm] using hkeys
    · obtain ⟨e, he, rfl⟩ := List.mem_map.1 hf
      exact ih e he

theorem noDate_kebabKeys {v : Nested} (h : NoDate v) : NoDate (kebabKeys lower v) := by
  induction h with
  | prim => exact .prim
  | arr _ ih =>
    rw [kebabKeys_arr]
    refine .arr fun y hy => ?_
    obtain ⟨x, hx, rfl⟩ := List.mem_map.1 hy
    exact ih x hx
  | obj _ ih =>
    rw [kebabKeys_obj]
    refine .obj fun f hf => ?_
    obtain ⟨e, he, rfl⟩ := List.mem_map.1 hf
    exact ih e he

/-- The new keys have neither a capital letter nor an underscore. -/
theorem keyed_kebabKeys {v : Nested} (h : NoDate v) :
    Keyed (fun key => ∀ u ∈ key, isCapital u = false ∧ u ≠ underscore) (kebabKeys lower v) := by
  induction h with
  | prim => exact .prim
  | arr _ ih =>
    rw [kebabKeys_arr]
    refine .arr fun y hy => ?_
    obtain ⟨x, hx, rfl⟩ := List.mem_map.1 hy
    exact ih x hx
  | obj _ ih =>
    rw [kebabKeys_obj]
    refine .obj (fun f hf => ?_) fun f hf => ?_
    · obtain ⟨e, he, rfl⟩ := List.mem_map.1 hf
      rw [← transformKey_eq_kebabForm]
      intro u hu
      exact ⟨transformKey_not_capital lower e.1 u hu, fun heq =>
        underscore_not_mem_transformKey lower e.1 (heq ▸ hu)⟩
    · obtain ⟨e, he, rfl⟩ := List.mem_map.1 hf
      exact ih e he

/-- Keys in kebab case stay as they are. -/
theorem kebabKeys_kebabKeys {v : Nested} (h : NoDate v) :
    kebabKeys lower (kebabKeys lower v) = kebabKeys lower v := by
  induction h with
  | prim => rfl
  | arr _ ih =>
    rw [kebabKeys_arr, kebabKeys_arr, List.map_map]
    exact congrArg Nested.arr (List.map_congr_left ih)
  | obj _ ih =>
    rw [kebabKeys_obj, kebabKeys_obj, List.map_map]
    refine congrArg Nested.obj (List.map_congr_left fun e he => ?_)
    show (kebabForm lower (kebabForm lower e.1), kebabKeys lower (kebabKeys lower e.2)) = _
    rw [kebabForm_kebabForm, ih e he]

/-- The function changes the keys only, and a second time nothing. -/
structure KeysOnly (lower : LowerCasing) (v : Nested) : Prop where
  keys : transformToKebabCase lower v = kebabKeys lower v
  /-- No new key has a capital letter or an underscore. -/
  kebab : Keyed (fun key => ∀ u ∈ key, isCapital u = false ∧ u ≠ underscore)
    (transformToKebabCase lower v)
  again : transformToKebabCase lower (transformToKebabCase lower v) = transformToKebabCase lower v

/-- **When only the keys change.**  Where no object has two keys with one kebab form, exactly
when there is no date in the value. -/
theorem keysOnly_iff {v : Nested} (h : DistinctKebab lower v) :
    KeysOnly lower v ↔ NoDate v := by
  constructor
  · exact fun hkeys => (transformToKebabCase_eq_iff h).1 hkeys.keys
  · intro hdate
    have heq := (transformToKebabCase_eq_iff h).2 hdate
    refine ⟨heq, heq ▸ keyed_kebabKeys hdate, ?_⟩
    calc transformToKebabCase lower (transformToKebabCase lower v)
        = transformToKebabCase lower (kebabKeys lower v) := by rw [heq]
      _ = kebabKeys lower (kebabKeys lower v) :=
        (transformToKebabCase_eq_iff (distinctKebab_kebabKeys h)).2 (noDate_kebabKeys hdate)
      _ = kebabKeys lower v := kebabKeys_kebabKeys hdate
      _ = transformToKebabCase lower v := heq.symm

end Transform

def lowerUnit (u : UInt16) : UInt16 := if isCapital u then u + 0x20 else u

theorem isCapital_lowerUnit (u : UInt16) : isCapital (lowerUnit u) = false := by
  unfold lowerUnit
  by_cases h : isCapital u = true
  · rw [if_pos h]
    simp [isCapital, UInt16.le_iff_toNat_le, UInt16.toNat_add] at h ⊢
    omega
  · rw [if_neg h]
    simpa using h

theorem lowerUnit_eq_self {u : UInt16} (h : isCapital u = false) : lowerUnit u = u := by
  rw [lowerUnit, h]
  rfl

theorem eq_of_lowerUnit_eq_underscore {u : UInt16} (h : lowerUnit u = underscore) :
    u = underscore := by
  by_cases hu : isCapital u = true
  · have hvalue := congrArg UInt16.toNat h
    rw [lowerUnit, if_pos hu] at hvalue
    simp only [isCapital, Bool.and_eq_true, decide_eq_true_eq, UInt16.le_iff_toNat_le] at hu
    simp [UInt16.toNat_add, underscore] at hvalue hu
    omega
  · rwa [lowerUnit_eq_self (by simpa using hu)] at h

/-- Lower case for the letters of ASCII. -/
def asciiLower : LowerCasing where
  toLowerCase s := s.map lowerUnit
  not_capital s u hu := by
    obtain ⟨v, -, rfl⟩ := List.mem_map.1 hu
    exact isCapital_lowerUnit v
  not_underscore s h hmem := by
    obtain ⟨v, hv, heq⟩ := List.mem_map.1 hmem
    rw [eq_of_lowerUnit_eq_underscore heq] at hv
    exact h hv
  idempotent s := by
    rw [List.map_map]
    exact List.map_congr_left fun u _ => lowerUnit_eq_self (isCapital_lowerUnit u)

/-- `{aB: [null]}` -/
def camelKey : Nested := .obj [([0x61, 0x42], .arr [.prim .null])]

theorem keysOnly_camelKey : KeysOnly asciiLower camelKey := by
  have hdistinct : DistinctKebab asciiLower camelKey := by
    refine .obj (by decide) fun e he => ?_
    rw [List.mem_singleton.1 he]
    refine .arr fun x hx => ?_
    rw [List.mem_singleton.1 hx]
    exact .prim
  refine (keysOnly_iff hdistinct).2 (.obj fun e he => ?_)
  rw [List.mem_singleton.1 he]
  refine .arr fun x hx => ?_
  rw [List.mem_singleton.1 hx]
  exact .prim

/-- `{a: new Date(0)}` -/
def dated : Nested := .obj [([0x61], .date (.finite 0))]

/-- A date is taken for an object and becomes an empty one. -/
theorem dated_not_keysOnly :
    transformToKebabCase asciiLower dated = .obj [([0x61], .obj [])] ∧
      DistinctKebab asciiLower dated ∧ ¬ KeysOnly asciiLower dated := by
  refine ⟨rfl, .obj (by decide) fun e he => ?_, fun h => ?_⟩
  · rw [List.mem_singleton.1 he]
    exact .date
  · have hkeys := h.keys
    rw [dated, kebabKeys_obj] at hkeys
    cases hkeys

end SharedTsLibs.UniversalTsUtils
