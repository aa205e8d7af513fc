import SharedTsLibs.Lib.JsonValue
import SharedTsLibs.Lib.Utf16
import Mathlib.Data.List.Dedup

/-!
# Comparing schema snapshots

`diffSchemaSnapshots.ts`: the differences between two snapshots, each with the path that
leads to it.

* `deepEqual` — equality of the elements of arrays.
* `diffValue`, `diffSchemaSnapshots` — the differences, in the order of their keys.
* `deepEqual_iff`, `diffValue_eq_nil_iff` — both find exactly the structural differences.
* `diffValue_swap` — the differences the other way round.

An object or array that the two snapshots share is not compared by the code; here it is
compared with itself.
-/

namespace SharedTsLibs.DrizzleUtils

/-! ## Paths -/

/-- Keys with dots and blanks stand in brackets. -/
def escapeKey (key : String) : String :=
  if '.' ∈ key.toList ∨ ' ' ∈ key.toList then
    String.ofList (['[', '"'] ++
      key.toList.flatMap (fun c => if c = '"' then ['\\', '"'] else [c]) ++ ['"', ']'])
  else key

def joinPath (path key : String) : String :=
  if path = "" then escapeKey key
  else if (escapeKey key).toList.head? = some '[' then path ++ escapeKey key
  else path ++ "." ++ escapeKey key

/-! ## Equality -/

/-- `a === b`. -/
def strictEqual : JsonValue → JsonValue → Bool
  | .null, .null => true
  | .bool a, .bool b => a == b
  | .num a, .num b => a == b
  | .str a, .str b => a == b
  | _, _ => false

/-- `Object.keys`. -/
abbrev objectKeys (o : List (String × JsonValue)) : List String := OrderedMap.keys o

mutual

def deepEqual (a b : JsonValue) : Bool :=
  if strictEqual a b = true then true
  else
    match a, b with
    | .obj a, .obj b => deepEqualObjects a b
    | .arr a, .arr b => deepEqualArrays a b
    | _, _ => false
termination_by sizeOf a

def deepEqualObjects (a b : List (String × JsonValue)) : Bool :=
  let ak := Utf16.sort (objectKeys a)
  let bk := Utf16.sort (objectKeys b)
  ak.length = bk.length && (List.range ak.length).all fun i =>
    match ak[i]? with
    | none => false
    | some key =>
      bk[i]? = some key &&
        match _ha : OrderedMap.get? a key, OrderedMap.get? b key with
        | some x, some y => deepEqual x y
        | _, _ => false
termination_by sizeOf a
decreasing_by exact JsonValue.sizeOf_lt_of_get? _ha

def deepEqualArrays (a b : List JsonValue) : Bool :=
  a.length = b.length && (List.range a.length).all fun i =>
    match _ha : a[i]?, b[i]? with
    | some x, some y => deepEqual x y
    | _, _ => false
termination_by sizeOf a
decreasing_by exact JsonValue.sizeOf_lt_of_getElem? _ha

end

/-! ## Differences -/

inductive DifferenceKind where
  | added
  | removed
  | changed
  deriving DecidableEq

structure SnapshotDifference where
  path : String
  kind : DifferenceKind
  before : Option JsonValue
  after : Option JsonValue

structure SnapshotDiff where
  equal : Bool
  differences : List SnapshotDifference

/-- Any difference is a change of the whole array. -/
def diffArrays (before after : List JsonValue) (path : String) : List SnapshotDifference :=
  if before.length ≠ after.length ∨ (before.zip after).any (fun v => !deepEqual v.1 v.2) = true then
    [{ path, kind := .changed, before := some (.arr before), after := some (.arr after) }]
  else []

mutual

/-- `none` stands for `undefined`. -/
def diffValue (before after : Option JsonValue) (path : String) : List SnapshotDifference :=
  match before, after with
  | some before, some after =>
    if strictEqual before after = true then []
    else
      match before, after with
      | .obj before, .obj after => diffObjects before after path
      | .arr before, .arr after => diffArrays before after path
      | before, after => [{ path, kind := .changed, before := some before, after := some after }]
  | none, none => []
  | none, some after => [{ path, kind := .added, before := none, after := some after }]
  | some before, none => [{ path, kind := .removed, before := some before, after := none }]
termination_by sizeOf before

def diffObjects (before after : List (String × JsonValue)) (path : String) :
    List SnapshotDifference :=
  (Utf16.sort (objectKeys before ++ objectKeys after).dedup).flatMap fun key =>
    match _hbefore : OrderedMap.get? before key, OrderedMap.get? after key with
    | none, afterVal =>
      [{ path := joinPath path key, kind := .added, before := none, after := afterVal }]
    | some beforeVal, none =>
      [{ path := joinPath path key, kind := .removed, before := some beforeVal, after := none }]
    | some beforeVal, some afterVal =>
      diffValue (some beforeVal) (some afterVal) (joinPath path key)
termination_by 1 + sizeOf before
decreasing_by
  have hlt := JsonValue.sizeOf_lt_of_get? _hbefore
  simp only [Option.some.sizeOf_spec]
  omega

end

def diffSchemaSnapshots (before after : JsonValue) : SnapshotDiff :=
  let differences := diffValue (some before) (some after) ""
  { equal := differences.length = 0, differences }

/-! ## The equality of array elements -/

section Equality

variable {a b : List (String × JsonValue)} {xs ys : List JsonValue}

theorem exists_get? {k : String} (h : k ∈ objectKeys a) : ∃ x, OrderedMap.get? a k = some x :=
  Option.isSome_iff_exists.1 (OrderedMap.get?_isSome_iff.2 h)

theorem mem_keys_of_get? {k : String} {x : JsonValue} (h : OrderedMap.get? a k = some x) :
    k ∈ objectKeys a := by
  rw [objectKeys, ← OrderedMap.get?_isSome_iff, h]
  rfl

/-- The loop over the sorted keys compares every key and the values under it. -/
theorem deepEqualObjects_iff :
    deepEqualObjects a b = true ↔ Utf16.sort (objectKeys a) = Utf16.sort (objectKeys b) ∧
      ∀ k x y, OrderedMap.get? a k = some x → OrderedMap.get? b k = some y →
        deepEqual x y = true := by
  rw [deepEqualObjects]
  simp only [Bool.and_eq_true, decide_eq_true_eq, List.all_eq_true, List.mem_range]
  constructor
  · rintro ⟨hlength, hloop⟩
    have hkeys : Utf16.sort (objectKeys a) = Utf16.sort (objectKeys b) := by
      refine List.ext_getElem hlength fun i hi hi' => ?_
      have hstep := hloop i hi
      rw [List.getElem?_eq_getElem hi] at hstep
      simp only [Bool.and_eq_true, decide_eq_true_eq] at hstep
      rw [List.getElem?_eq_getElem hi'] at hstep
      exact (Option.some.inj hstep.1).symm
    refine ⟨hkeys, fun k x y hx hy => ?_⟩
    obtain ⟨i, hi, hk⟩ := List.mem_iff_getElem.1 (Utf16.mem_sort.2 (mem_keys_of_get? hx))
    have hstep := hloop i hi
    rw [List.getElem?_eq_getElem hi, hk] at hstep
    simp only [Bool.and_eq_true, decide_eq_true_eq] at hstep
    have hvalues := hstep.2
    split at hvalues
    · next x' y' hx' hy' =>
      rw [hx] at hx'
      rw [hy] at hy'
      cases hx'
      cases hy'
      exact hvalues
    · cases hvalues
  · rintro ⟨hkeys, hvalues⟩
    refine ⟨by rw [hkeys], fun i hi => ?_⟩
    have hmem := List.getElem_mem hi
    obtain ⟨x, hx⟩ := exists_get? (Utf16.mem_sort.1 hmem)
    have hmem' : (Utf16.sort (objectKeys a))[i] ∈ Utf16.sort (objectKeys b) := by
      rw [← hkeys]
      exact hmem
    obtain ⟨y, hy⟩ := exists_get? (Utf16.mem_sort.1 hmem')
    rw [List.getElem?_eq_getElem hi]
    simp only [Bool.and_eq_true, decide_eq_true_eq]
    refine ⟨by rw [← hkeys, List.getElem?_eq_getElem hi], ?_⟩
    split
    · next x' y' hx' hy' => exact hvalues _ x' y' hx' hy'
    · next hnone => exact absurd hy (hnone x y hx)

theorem deepEqualArrays_iff :
    deepEqualArrays xs ys = true ↔ xs.length = ys.length ∧
      ∀ (i : ℕ) (x y : JsonValue), xs[i]? = some x → ys[i]? = some y → deepEqual x y = true := by
  rw [deepEqualArrays]
  simp only [Bool.and_eq_true, decide_eq_true_eq, List.all_eq_true, List.mem_range]
  constructor
  · rintro ⟨hlength, hloop⟩
    refine ⟨hlength, fun i x y hx hy => ?_⟩
    have hstep := hloop i (List.getElem?_eq_some_iff.1 hx).1
    split at hstep
    · next x' y' hx' hy' =>
      rw [hx] at hx'
      rw [hy] at hy'
      cases hx'
      cases hy'
      exact hstep
    · cases hstep
  · rintro ⟨hlength, hvalues⟩
    refine ⟨hlength, fun i hi => ?_⟩
    have hx := List.getElem?_eq_getElem hi
    have hy := List.getElem?_eq_getElem (hlength ▸ hi : i < ys.length)
    split
    · next x' y' hx' hy' => exact hvalues i x' y' hx' hy'
    · next hnone => exact absurd hy (hnone _ _ hx)

theorem eq_of_strictEqual {x y : JsonValue} (h : strictEqual x y = true) : x = y := by
  unfold strictEqual at h
  split at h
  · rfl
  · rw [beq_iff_eq.1 h]
  · rw [beq_iff_eq.1 h]
  · rw [beq_iff_eq.1 h]
  · cases h

/-- Two arrays or two objects, which are compared by what they hold. -/
def bothContainers : JsonValue → JsonValue → Bool
  | .arr _, .arr _ => true
  | .obj _, .obj _ => true
  | _, _ => false

theorem bothContainers_comm (x y : JsonValue) : bothContainers x y = bothContainers y x := by
  cases x <;> cases y <;> rfl

/-- Induction over two values at once, along what both of them hold. -/
@[elab_as_elim]
theorem pair_induction {motive : JsonValue → JsonValue → Prop}
    (arr : ∀ xs ys, (∀ (i : ℕ) (x y : JsonValue), xs[i]? = some x → ys[i]? = some y →
      motive x y) → motive (.arr xs) (.arr ys))
    (obj : ∀ xs ys, (∀ (k : String) (x y : JsonValue), OrderedMap.get? xs k = some x →
      OrderedMap.get? ys k = some y → motive x y) → motive (.obj xs) (.obj ys))
    (other : ∀ x y, bothContainers x y = false → motive x y) (x y : JsonValue) : motive x y := by
  induction x using JsonValue.value_induction generalizing y with
  | null => exact other _ _ rfl
  | bool c => exact other _ _ rfl
  | num q => exact other _ _ rfl
  | str t => exact other _ _ rfl
  | arr xs ih =>
    cases y with
    | arr ys => exact arr xs ys fun i x y hx _ => ih i x hx y
    | _ => exact other _ _ rfl
  | obj xs ih =>
    cases y with
    | obj ys => exact obj xs ys fun k x y hx _ => ih k x hx y
    | _ => exact other _ _ rfl

/-- Other values are equal when they are strictly equal. -/
theorem strictEqual_iff_same {x y : JsonValue} (h : bothContainers x y = false) :
    strictEqual x y = true ↔ JsonValue.Same x y := by
  constructor
  · intro heq
    rw [eq_of_strictEqual heq]
    exact JsonValue.same_refl y
  · intro hsame
    cases hsame with
    | null => rfl
    | bool c => exact beq_self_eq_true c
    | num q => exact beq_self_eq_true q
    | str t => exact beq_self_eq_true t
    | arr hlength hvalues => cases h
    | obj hkeys hvalues => cases h

theorem deepEqual_arr (xs ys : List JsonValue) :
    deepEqual (.arr xs) (.arr ys) = deepEqualArrays xs ys := by
  rw [deepEqual.eq_def]
  rfl

theorem deepEqual_obj (a b : List (String × JsonValue)) :
    deepEqual (.obj a) (.obj b) = deepEqualObjects a b := by
  rw [deepEqual.eq_def]
  rfl

theorem deepEqual_of_not_bothContainers {x y : JsonValue} (h : bothContainers x y = false) :
    deepEqual x y = strictEqual x y := by
  rw [deepEqual.eq_def]
  split
  · next hstrict => exact hstrict.symm
  · next hstrict =>
    rw [Bool.not_eq_true] at hstrict
    rw [hstrict]
    split
    · cases h
    · cases h
    · rfl

theorem deepEqual_iff_of_not_bothContainers {x y : JsonValue} (h : bothContainers x y = false) :
    deepEqual x y = true ↔ JsonValue.Same x y := by
  rw [deepEqual_of_not_bothContainers h]
  exact strictEqual_iff_same h

/-- `deepEqual` is structural equality. -/
theorem deepEqual_iff {x y : JsonValue} (hx : x.WellFormed) (hy : y.WellFormed) :
    deepEqual x y = true ↔ JsonValue.Same x y := by
  induction x, y using pair_induction with
  | arr xs ys ih =>
    rw [deepEqual_arr, deepEqualArrays_iff, JsonValue.same_arr_iff]
    have hvalues : ∀ (i : ℕ) (v w : JsonValue), xs[i]? = some v → ys[i]? = some w →
        (deepEqual v w = true ↔ JsonValue.Same v w) := fun i v w hv hw =>
      ih i v w hv hw (hx.getElem? hv) (hy.getElem? hw)
    exact and_congr_right fun _ => forall_congr' fun i => forall_congr' fun v =>
      forall_congr' fun w => imp_congr_right fun hv => imp_congr_right fun hw =>
        hvalues i v w hv hw
  | obj xs ys ih =>
    rw [deepEqual_obj, deepEqualObjects_iff, Utf16.sort_eq_iff hx.keys_nodup hy.keys_nodup,
      JsonValue.same_obj_iff]
    have hvalues : ∀ (k : String) (v w : JsonValue), OrderedMap.get? xs k = some v →
        OrderedMap.get? ys k = some w → (deepEqual v w = true ↔ JsonValue.Same v w) :=
      fun k v w hv hw => ih k v w hv hw (hx.get? hv) (hy.get? hw)
    exact and_congr_right fun _ => forall_congr' fun k => forall_congr' fun v =>
      forall_congr' fun w => imp_congr_right fun hv => imp_congr_right fun hw =>
        hvalues k v w hv hw
  | other x y hother => exact deepEqual_iff_of_not_bothContainers hother

end Equality

/-! ## The differences -/

section Differences

variable {a b : List (String × JsonValue)} {xs ys : List JsonValue} {x y : JsonValue}
  {path : String}

theorem diffValue_arr :
    diffValue (some (.arr xs)) (some (.arr ys)) path = diffArrays xs ys path := by
  rw [diffValue.eq_def]
  rfl

theorem diffValue_obj :
    diffValue (some (.obj a)) (some (.obj b)) path = diffObjects a b path := by
  rw [diffValue.eq_def]
  rfl

theorem diffValue_of_not_bothContainers (h : bothContainers x y = false) :
    diffValue (some x) (some y) path =
      if strictEqual x y = true then []
      else [{ path, kind := .changed, before := some x, after := some y }] := by
  rw [diffValue.eq_def]
  simp only
  split
  · rfl
  · split
    · cases h
    · cases h
    · rfl

/-- What the loop over the keys reports for one of them. -/
def diffKey (before after : List (String × JsonValue)) (path key : String) :
    List SnapshotDifference :=
  match OrderedMap.get? before key, OrderedMap.get? after key with
  | none, afterVal =>
    [{ path := joinPath path key, kind := .added, before := none, after := afterVal }]
  | some beforeVal, none =>
    [{ path := joinPath path key, kind := .removed, before := some beforeVal, after := none }]
  | some beforeVal, some afterVal =>
    diffValue (some beforeVal) (some afterVal) (joinPath path key)

theorem diffObjects_eq :
    diffObjects a b path =
      (Utf16.sort (objectKeys a ++ objectKeys b).dedup).flatMap (diffKey a b path) := by
  rw [diffObjects.eq_def]
  refine List.flatMap_congr fun key _ => ?_
  unfold diffKey
  split
  · next h => simp [h]
  · next h h' => simp [h, h']
  · next h h' => simp [h, h']

theorem diffArrays_eq_nil_iff :
    diffArrays xs ys path = [] ↔ xs.length = ys.length ∧
      ∀ (i : ℕ) (x y : JsonValue), xs[i]? = some x → ys[i]? = some y → deepEqual x y = true := by
  have hzip : ((xs.zip ys).any fun v => !deepEqual v.1 v.2) = false ↔
      ∀ (i : ℕ) (x y : JsonValue), xs[i]? = some x → ys[i]? = some y → deepEqual x y = true := by
    rw [List.any_eq_false]
    constructor
    · intro h i x y hx hy
      have hmem : (x, y) ∈ xs.zip ys := by
        refine List.mem_of_getElem? (i := i) ?_
        rw [List.getElem?_zip_eq_some]
        exact ⟨hx, hy⟩
      simpa using h (x, y) hmem
    · rintro h ⟨x, y⟩ hmem
      obtain ⟨i, hi⟩ := List.mem_iff_getElem?.1 hmem
      obtain ⟨hx, hy⟩ := List.getElem?_zip_eq_some.1 hi
      simp [h i x y hx hy]
  rw [← hzip, diffArrays]
  by_cases hlength : xs.length = ys.length
  · simp [hlength]
  · simp [hlength]

theorem diffValue_eq_nil_of_not_bothContainers (h : bothContainers x y = false) :
    diffValue (some x) (some y) path = [] ↔ JsonValue.Same x y := by
  rw [diffValue_of_not_bothContainers h, ← strictEqual_iff_same h]
  by_cases hstrict : strictEqual x y = true
  · simp [hstrict]
  · simp [hstrict]

/-- Nothing is reported for a key when both objects have it with the same value. -/
theorem diffKey_eq_nil_iff {key : String} :
    diffKey a b path key = [] ↔ ∃ x y, OrderedMap.get? a key = some x ∧
      OrderedMap.get? b key = some y ∧
      diffValue (some x) (some y) (joinPath path key) = [] := by
  unfold diffKey
  cases hx : OrderedMap.get? a key with
  | none => simp
  | some x =>
    cases hy : OrderedMap.get? b key with
    | none => simp
    | some y => simp

theorem mem_unionKeys {key : String} :
    key ∈ Utf16.sort (objectKeys a ++ objectKeys b).dedup ↔
      key ∈ objectKeys a ∨ key ∈ objectKeys b := by
  rw [Utf16.mem_sort, List.mem_dedup, List.mem_append]

/-- **No difference is reported exactly when two values are structurally equal.** -/
theorem diffValue_eq_nil_iff (hx : x.WellFormed) (hy : y.WellFormed) :
    diffValue (some x) (some y) path = [] ↔ JsonValue.Same x y := by
  induction x, y using pair_induction generalizing path with
  | arr xs ys _ =>
    rw [diffValue_arr, diffArrays_eq_nil_iff, ← deepEqualArrays_iff, ← deepEqual_arr]
    exact deepEqual_iff hx hy
  | obj a b ih =>
    rw [diffValue_obj, diffObjects_eq, List.flatMap_eq_nil_iff, JsonValue.same_obj_iff]
    constructor
    · intro h
      have hboth : ∀ key, key ∈ objectKeys a ∨ key ∈ objectKeys b →
          ∃ x y, OrderedMap.get? a key = some x ∧ OrderedMap.get? b key = some y ∧
            diffValue (some x) (some y) (joinPath path key) = [] := fun key hkey =>
        diffKey_eq_nil_iff.1 (h key (mem_unionKeys.2 hkey))
      refine ⟨fun key => ⟨fun hkey => ?_, fun hkey => ?_⟩, fun key v w hv hw => ?_⟩
      · obtain ⟨v, w, -, hw, -⟩ := hboth key (Or.inl hkey)
        exact mem_keys_of_get? hw
      · obtain ⟨v, w, hv, -, -⟩ := hboth key (Or.inr hkey)
        exact mem_keys_of_get? hv
      · obtain ⟨v', w', hv', hw', hnil⟩ := hboth key (Or.inl (mem_keys_of_get? hv))
        cases hv.symm.trans hv'
        cases hw.symm.trans hw'
        exact (ih key v w hv hw (hx.get? hv) (hy.get? hw)).1 hnil
    · rintro ⟨hkeys, hvalues⟩ key hkey
      have hleft : key ∈ objectKeys a := (mem_unionKeys.1 hkey).elim id (hkeys key).2
      obtain ⟨v, hv⟩ := exists_get? hleft
      obtain ⟨w, hw⟩ := exists_get? ((hkeys key).1 hleft)
      have hsame := hvalues key v w hv hw
      have hnil : diffValue (some v) (some w) (joinPath path key) = [] :=
        (ih key v w hv hw (hx.get? hv) (hy.get? hw)).2 hsame
      exact diffKey_eq_nil_iff.2 ⟨v, w, hv, hw, hnil⟩
  | other x y hother => exact diffValue_eq_nil_of_not_bothContainers hother

/-! ## The other way round -/

def DifferenceKind.swap : DifferenceKind → DifferenceKind
  | .added => .removed
  | .removed => .added
  | .changed => .changed

/-- The difference seen from the other side. -/
def SnapshotDifference.swap (d : SnapshotDifference) : SnapshotDifference :=
  { path := d.path, kind := d.kind.swap, before := d.after, after := d.before }

theorem strictEqual_comm (x y : JsonValue) : strictEqual x y = strictEqual y x := by
  rw [Bool.eq_iff_iff]
  constructor
  · intro h
    cases eq_of_strictEqual h
    exact h
  · intro h
    cases eq_of_strictEqual h
    exact h

theorem diffValue_swap_of_not_bothContainers (h : bothContainers x y = false) :
    diffValue (some y) (some x) path = (diffValue (some x) (some y) path).map .swap := by
  have h' : bothContainers y x = false := (bothContainers_comm y x).trans h
  rw [diffValue_of_not_bothContainers h, diffValue_of_not_bothContainers h', strictEqual_comm]
  by_cases hstrict : strictEqual x y = true
  · simp [hstrict]
  · simp [hstrict, SnapshotDifference.swap, DifferenceKind.swap]

theorem diffKey_swap {key : String} (hkey : key ∈ objectKeys a ∨ key ∈ objectKeys b)
    (hvalues : ∀ x y, OrderedMap.get? a key = some x → OrderedMap.get? b key = some y →
      diffValue (some y) (some x) (joinPath path key) =
        (diffValue (some x) (some y) (joinPath path key)).map .swap) :
    diffKey b a path key = (diffKey a b path key).map .swap := by
  unfold diffKey
  cases hx : OrderedMap.get? a key with
  | none =>
    cases hy : OrderedMap.get? b key with
    | none =>
      rw [← OrderedMap.get?_isSome_iff, ← OrderedMap.get?_isSome_iff, hx, hy] at hkey
      simp at hkey
    | some y => rfl
  | some x =>
    cases hy : OrderedMap.get? b key with
    | none => rfl
    | some y => exact hvalues x y hx hy

theorem diffArrays_swap (hx : (JsonValue.arr xs).WellFormed) (hy : (JsonValue.arr ys).WellFormed) :
    diffArrays ys xs path = (diffArrays xs ys path).map .swap := by
  have hnil : diffArrays ys xs path = [] ↔ diffArrays xs ys path = [] := by
    rw [← diffValue_arr, ← diffValue_arr, diffValue_eq_nil_iff hy hx, diffValue_eq_nil_iff hx hy]
    exact ⟨fun h => h.symm, fun h => h.symm⟩
  unfold diffArrays at hnil ⊢
  split at hnil
  · split at hnil
    · next h h' =>
      rw [if_pos h, if_pos h']
      rfl
    · simp at hnil
  · split at hnil
    · simp at hnil
    · next h h' =>
      rw [if_neg h, if_neg h']
      rfl

/-- **The differences the other way round**: the same paths in the same order, with what was
added removed, and the values exchanged. -/
theorem diffValue_swap (hx : x.WellFormed) (hy : y.WellFormed) :
    diffValue (some y) (some x) path = (diffValue (some x) (some y) path).map .swap := by
  induction x, y using pair_induction generalizing path with
  | arr xs ys _ =>
    rw [diffValue_arr, diffValue_arr]
    exact diffArrays_swap hx hy
  | obj a b ih =>
    have hkeys : Utf16.sort (objectKeys b ++ objectKeys a).dedup =
        Utf16.sort (objectKeys a ++ objectKeys b).dedup := by
      rw [Utf16.sort_eq_iff (List.nodup_dedup _) (List.nodup_dedup _)]
      intro key
      rw [List.mem_dedup, List.mem_dedup, List.mem_append, List.mem_append, or_comm]
    rw [diffValue_obj, diffValue_obj, diffObjects_eq, diffObjects_eq, hkeys, List.map_flatMap]
    refine List.flatMap_congr fun key hkey => ?_
    exact diffKey_swap (mem_unionKeys.1 hkey) fun v w hv hw =>
      ih key v w hv hw (hx.get? hv) (hy.get? hw)
  | other x y hother => exact diffValue_swap_of_not_bothContainers hother

end Differences

/-! ## Snapshots -/

/-- A snapshot is a JSON value. -/
abbrev SchemaSnapshot := { snapshot : JsonValue // snapshot.WellFormed }

/-- **The comparison of snapshots is exact and symmetric.** -/
theorem diffSchemaSnapshots_exact (before after : SchemaSnapshot) :
    ((diffSchemaSnapshots before after).equal = true ↔ JsonValue.Same before after) ∧
      (diffSchemaSnapshots after before).differences =
        (diffSchemaSnapshots before after).differences.map .swap := by
  constructor
  · have hnil : diffValue (some before.1) (some after.1) "" = [] ↔
        JsonValue.Same before.1 after.1 := diffValue_eq_nil_iff before.2 after.2
    rw [← hnil]
    simp [diffSchemaSnapshots]
  · exact diffValue_swap before.2 after.2

end SharedTsLibs.DrizzleUtils
