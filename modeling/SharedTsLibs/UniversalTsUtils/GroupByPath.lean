import SharedTsLibs.Lib.JsPrimitive
import SharedTsLibs.UniversalTsUtils.GroupBy

/-!
# Grouping by a path

`universal-ts-utils`: `groupByPath` follows a dotted path into each item and groups the items
by what stands at its end.

* `PathValue`, `Objects` — nested values, and what is inherited.
* `followPath`, `getKeyBySelector`, `groupByPath` — the function.
* `Walk` — the values that a path leads to through own and inherited properties.
* `followPath_spec` — the loop throws where a walk meets what is not an object, or an accessor
  that throws.
* `pathLaw_iff` — the items are grouped by their own properties unless a walk meets one of these,
  or reaches a key through an inherited property, or the key is inherited.
-/

namespace SharedTsLibs.UniversalTsUtils

/-! ## Nested values -/

/-- A nested value; an array may have holes, and `other` is any object that is neither an array nor
a plain object. -/
inductive PathValue (O : Type) where
  | prim (p : JsPrimitive)
  | arr (elements : List (Option (PathValue O)))
  | obj (entries : List (String × PathValue O))
  | other (o : O)

/-- The properties of other objects, where reading one may throw, and those that arrays and plain
objects inherit. -/
structure Objects (O : Type) where
  own : O → String → Option (Except Thrown (PathValue O))
  inherited : O → String → Option (Except Thrown (PathValue O))
  arrayPrototype : String → Option (PathValue O)
  objectPrototype : String → Option (PathValue O)
  objectPrototype_isSome : ∀ name,
    (objectPrototype name).isSome ↔ name ∈ PlainObject.inheritedNames

namespace PathValue

variable {O : Type} (env : Objects O)

def IsObject : PathValue O → Prop
  | prim _ => False
  | arr _ | obj _ | other _ => True

instance : DecidablePred (IsObject (O := O))
  | prim _ => inferInstanceAs (Decidable False)
  | arr _ | obj _ | other _ => inferInstanceAs (Decidable True)

/-- An own property: an array has its elements and its length. -/
def own? : PathValue O → String → Option (Except Thrown (PathValue O))
  | prim _, _ => none
  | arr xs, name =>
    (OrderedMap.get? (JsArray.indexed 0 xs ++ [("length", prim (.num (.finite xs.length)))])
      name).map .ok
  | obj es, name => (OrderedMap.get? es name).map .ok
  | other o, name => env.own o name

def inherited? : PathValue O → String → Option (Except Thrown (PathValue O))
  | prim _, _ => none
  | arr _, name => (env.arrayPrototype name).map .ok
  | obj _, name => (env.objectPrototype name).map .ok
  | other o, name => env.inherited o name

/-- `name in v`, and `v[name]`, for an object `v`. -/
def property? (v : PathValue O) (name : String) : Option (Except Thrown (PathValue O)) :=
  (v.own? env name).or (v.inherited? env name)

/-- `typeof` is `string`, `number` or `symbol`. -/
def recordKey? : PathValue O → Option RecordKey
  | prim (.str s) => some (.str s)
  | prim (.num n) => some (.num n)
  | prim (.symbol id) => some (.symbol id)
  | _ => none

end PathValue

/-! ## The function -/

section Functions

variable {O : Type} (rt : JsRuntime) (env : Objects O)

/-- The loop of `getKeyBySelector`: `in` throws on what is not an object, and a property that
is not there breaks the loop. -/
def followPath : List String → PathValue O → Except Thrown (PathValue O)
  | [], result => .ok result
  | treeProp :: tree, result =>
    if result.IsObject then
      match result.property? env treeProp with
      | some (.ok next) => followPath tree next
      | some (.error e) => .error e
      | none => .ok result
    else .error .typeError

/-- `selector.split('.')` -/
def splitPath (selector : String) : List String :=
  (selector.toList.splitOn '.').map String.ofList

def getKeyBySelector (item : PathValue O) (selector : String) :
    Except Thrown (Option RecordKey) :=
  (followPath env (splitPath selector) item).map PathValue.recordKey?

def groupByPath (array : List (PathValue O)) (selector : String) :
    Except Thrown (Groups (List (PathValue O))) :=
  groupWith (fun item => (getKeyBySelector env item selector).map fun key? =>
    key?.map (RecordKey.toPropertyKey rt)) array

end Functions

/-! ## Walks -/

section Walks

variable {O : Type} {env : Objects O}

/-- A path leads from a value to another with some segments left, through own and inherited
properties. -/
inductive Walk (env : Objects O) : List String → PathValue O → List String → PathValue O → Prop
  | here {path : List String} {v : PathValue O} : Walk env path v path v
  | step {name : String} {path rest : List String} {v w u : PathValue O}
      (hv : v.property? env name = some (.ok w)) (h : Walk env path w rest u) :
      Walk env (name :: path) v rest u

/-- The value at the end of a path through own properties. -/
def ownPath (env : Objects O) : List String → PathValue O → Option (PathValue O)
  | [], v => some v
  | name :: path, v => ((v.own? env name).bind Except.toOption).bind (ownPath env path)

theorem walk_cons_iff {name : String} {path rest : List String} {v u : PathValue O} :
    Walk env (name :: path) v rest u ↔ (rest = name :: path ∧ u = v) ∨
      ∃ w, v.property? env name = some (.ok w) ∧ Walk env path w rest u := by
  constructor
  · intro h
    cases h with
    | here => exact Or.inl ⟨rfl, rfl⟩
    | step hv h => exact Or.inr ⟨_, hv, h⟩
  · rintro (⟨rfl, rfl⟩ | ⟨w, hv, h⟩)
    · exact .here
    · exact .step hv h

/-- A walk over the whole path ends where it ends. -/
theorem Walk.unique {path : List String} {v u w : PathValue O} (h : Walk env path v [] u)
    (h' : Walk env path v [] w) : u = w := by
  induction path generalizing v with
  | nil =>
    cases h
    cases h'
    rfl
  | cons name path ih =>
    rcases walk_cons_iff.1 h with ⟨hnil, -⟩ | ⟨x, hx, h⟩
    · cases hnil
    · rcases walk_cons_iff.1 h' with ⟨hnil, -⟩ | ⟨y, hy, h'⟩
      · cases hnil
      · cases hx.symm.trans hy
        exact ih h h'

theorem walk_of_ownPath {path : List String} {v u : PathValue O}
    (h : ownPath env path v = some u) : Walk env path v [] u := by
  induction path generalizing v with
  | nil =>
    cases h
    exact .here
  | cons name path ih =>
    obtain ⟨w, hw, h⟩ := Option.bind_eq_some_iff.1 h
    obtain ⟨found, hfound, hok⟩ := Option.bind_eq_some_iff.1 hw
    cases found with
    | error e => cases hok
    | ok w' =>
      cases hok
      refine .step ?_ (ih h)
      rw [PathValue.property?, hfound]
      rfl

/-- On every walk from the value, what is met before the end of the path is an object, and the
next property of it is read without an error. -/
def Readable (env : Objects O) (path : List String) (v : PathValue O) : Prop :=
  ∀ name rest u, Walk env path v (name :: rest) u →
    u.IsObject ∧ ∀ e, u.property? env name ≠ some (.error e)

theorem readable_cons_iff {name : String} {path : List String} {v : PathValue O} :
    Readable env (name :: path) v ↔
      (v.IsObject ∧ ∀ e, v.property? env name ≠ some (.error e)) ∧
        ∀ w, v.property? env name = some (.ok w) → Readable env path w := by
  constructor
  · intro h
    exact ⟨h _ _ v .here, fun w hw _ _ u hu => h _ _ u (.step hw hu)⟩
  · rintro ⟨hv, h⟩ next rest u hu
    rcases walk_cons_iff.1 hu with ⟨hrest, rfl⟩ | ⟨w, hw, hu⟩
    · cases hrest
      exact hv
    · exact h w hw next rest u hu

variable (env) in
/-- The loop throws when the walk meets what is not an object, or an accessor that throws; else
it returns what stands at the end of the path, or an object where the path is lost. -/
theorem followPath_spec (path : List String) (v : PathValue O) :
    (¬ Readable env path v ∧ ∃ e, followPath env path v = .error e) ∨
      Readable env path v ∧ ∃ w, followPath env path v = .ok w ∧
        (Walk env path v [] w ∨ w.IsObject ∧ ∀ u, ¬ Walk env path v [] u) := by
  induction path generalizing v with
  | nil =>
    refine Or.inr ⟨fun name rest u hu => ?_, v, rfl, Or.inl .here⟩
    cases hu
  | cons name path ih =>
    rw [readable_cons_iff, followPath]
    by_cases hv : v.IsObject
    · rw [if_pos hv]
      cases hw : v.property? env name with
      | none =>
        refine Or.inr ⟨⟨⟨hv, nofun⟩, nofun⟩, v, rfl, Or.inr ⟨hv, fun u hu => ?_⟩⟩
        rcases walk_cons_iff.1 hu with ⟨hnil, -⟩ | ⟨w, hw', -⟩
        · cases hnil
        · rw [hw] at hw'
          cases hw'
      | some found =>
        cases found with
        | error e => exact Or.inl ⟨fun h => h.1.2 e rfl, e, rfl⟩
        | ok w =>
          rcases ih w with ⟨hreadable, herror⟩ | ⟨hreadable, u, hok, hend⟩
          · exact Or.inl ⟨fun h => hreadable (h.2 w rfl), herror⟩
          · refine Or.inr ⟨⟨⟨hv, nofun⟩, fun w' hw' => ?_⟩, u, hok, ?_⟩
            · cases hw'
              exact hreadable
            · rcases hend with hend | ⟨hu, hlost⟩
              · exact Or.inl (.step hw hend)
              · refine Or.inr ⟨hu, fun u' hu' => ?_⟩
                rcases walk_cons_iff.1 hu' with ⟨hnil, -⟩ | ⟨w', hw', hu'⟩
                · cases hnil
                · rw [hw] at hw'
                  cases hw'
                  exact hlost u' hu'
    · rw [if_neg hv]
      exact Or.inl ⟨fun h => hv h.1.1, _, rfl⟩

end Walks

/-! ## Groups by own properties -/

section Law

variable {O : Type} (rt : JsRuntime) (env : Objects O) (selector : String)

/-- The key that an item has at the end of the path through own properties. -/
def ownKey (item : PathValue O) : Option PropertyKey :=
  ((ownPath env (splitPath selector) item).bind PathValue.recordKey?).map
    (RecordKey.toPropertyKey rt)

/-- The function returns the groups of the items by their own keys. -/
def PathLaw (array : List (PathValue O)) : Prop :=
  ∃ groups, groupByPath rt env array selector = .ok groups ∧
    ∀ key, OrderedMap.get? groups key
      = groupOf (array.filter fun item => ownKey rt env selector item = some key)

/-- What the walk meets before the end of the path is an object that can be read, and a key at the
end is reached through own properties only and is not inherited. -/
structure Resolvable (item : PathValue O) : Prop where
  readable : Readable env (splitPath selector) item
  own : ∀ u key, Walk env (splitPath selector) item [] u → u.recordKey? = some key →
    ownPath env (splitPath selector) item = some u ∧ ¬ (key.toPropertyKey rt).IsInherited

theorem recordKey?_of_isObject {u : PathValue O} (h : u.IsObject) : u.recordKey? = none := by
  cases u with
  | prim p => exact h.elim
  | arr xs => rfl
  | obj es => rfl
  | other o => rfl

/-- The key that the function takes for an item. -/
def takenKey (item : PathValue O) : Except Thrown (Option PropertyKey) :=
  (getKeyBySelector env item selector).map fun key? => key?.map (RecordKey.toPropertyKey rt)

/-- A resolvable item is grouped by its own key. -/
theorem takenKey_eq {item : PathValue O} (h : Resolvable rt env selector item) :
    takenKey rt env selector item = .ok (ownKey rt env selector item) := by
  rcases followPath_spec env (splitPath selector) item with
    ⟨hreadable, -⟩ | ⟨-, w, hok, hend⟩
  · exact absurd h.readable hreadable
  · have hkey : w.recordKey? = (ownPath env (splitPath selector) item).bind
        PathValue.recordKey? := by
      cases hown : ownPath env (splitPath selector) item with
      | some u =>
        have hwalk := walk_of_ownPath hown
        rcases hend with hend | ⟨-, hlost⟩
        · rw [hend.unique hwalk]
          rfl
        · exact absurd hwalk (hlost u)
      | none =>
        rcases hend with hend | ⟨hobject, -⟩
        · cases hrecord : w.recordKey? with
          | none => rfl
          | some key =>
            rw [(h.own w key hend hrecord).1] at hown
            cases hown
        · rw [recordKey?_of_isObject hobject]
          rfl
    rw [takenKey, getKeyBySelector, hok, ownKey, ← hkey]
    rfl

theorem not_isInherited_ownKey {item : PathValue O} (h : Resolvable rt env selector item) :
    ∀ key ∈ ownKey rt env selector item, ¬ key.IsInherited := by
  intro key hkey
  obtain ⟨record, hrecord, rfl⟩ := Option.map_eq_some_iff.1 hkey
  obtain ⟨u, hu, hrecord⟩ := Option.bind_eq_some_iff.1 hrecord
  exact (h.own u record (walk_of_ownPath hu) hrecord).2

theorem groupOf_injective {l l' : List (PathValue O)} (h : groupOf l = groupOf l') : l = l' := by
  unfold groupOf at h
  split at h
  · split at h
    · simp [*]
    · cases h
  · split at h
    · cases h
    · exact Option.some.inj h

/-- An item is resolvable when it is grouped, and by its own key. -/
theorem resolvable_of_takenKey {item : PathValue O}
    (hgroupable : Groupable (takenKey rt env selector item))
    (hown : ∀ key, takenKey rt env selector item = .ok (some key) →
      ownKey rt env selector item = some key) : Resolvable rt env selector item := by
  obtain ⟨key?, hkey?, hnot⟩ := hgroupable
  rcases followPath_spec env (splitPath selector) item with
    ⟨-, e, herror⟩ | ⟨hreadable, w, hok, hend⟩
  · rw [takenKey, getKeyBySelector, herror] at hkey?
    cases hkey?
  · refine ⟨hreadable, fun u key hu hkey => ?_⟩
    rcases hend with hend | ⟨-, hlost⟩
    · obtain rfl := hend.unique hu
      have htaken : takenKey rt env selector item = .ok (some (key.toPropertyKey rt)) := by
        rw [takenKey, getKeyBySelector, hok]
        simp [Except.map, hkey]
      obtain ⟨record, hrecord, -⟩ := Option.map_eq_some_iff.1 (hown _ htaken)
      obtain ⟨u, hu', -⟩ := Option.bind_eq_some_iff.1 hrecord
      rw [hend.unique (walk_of_ownPath hu')]
      refine ⟨hu', hnot _ ?_⟩
      rw [htaken] at hkey?
      cases hkey?
      rfl
    · exact absurd hu (hlost u)

/-- **When items are grouped by their own properties.**  Exactly when every item is
resolvable. -/
theorem pathLaw_iff (array : List (PathValue O)) :
    PathLaw rt env selector array ↔ ∀ item ∈ array, Resolvable rt env selector item := by
  have hspec := groupWith_spec (takenKey rt env selector) array
  have hfilter : ∀ key item,
      item ∈ array.filter (fun item => ownKey rt env selector item = some key) ↔
        item ∈ array ∧ ownKey rt env selector item = some key := by
    intro key item
    rw [List.mem_filter, decide_eq_true_eq]
  constructor
  · rintro ⟨groups, hok, hgroups⟩ item hitem
    rcases hspec with ⟨groups', hok', hgroupable, hgroups'⟩ | ⟨⟨e, herror⟩, -⟩
    · cases hok.symm.trans hok'
      refine resolvable_of_takenKey rt env selector (hgroupable item hitem) fun key hkey => ?_
      have hsame := groupOf_injective ((hgroups' key).symm.trans (hgroups key))
      have hmem := mem_withKey.2 ⟨hitem, hkey⟩
      rw [hsame, hfilter] at hmem
      exact hmem.2
    · cases hok.symm.trans herror
  · intro h
    rcases hspec with ⟨groups, hok, -, hgroups⟩ | ⟨-, item, hitem, hnot⟩
    · refine ⟨groups, hok, fun key => ?_⟩
      rw [hgroups]
      congr 1
      refine List.filter_congr fun item hitem => ?_
      rw [takenKey_eq rt env selector (h item hitem)]
      cases ownKey rt env selector item with
      | none => simp
      | some key' => simp
    · refine absurd ⟨_, takenKey_eq rt env selector (h item hitem), ?_⟩ hnot
      exact not_isInherited_ownKey rt env selector (h item hitem)

end Law

/-- The name of the function that plain objects inherit under a name. -/
def functionName : String → Option String
  | "constructor" => some "Object"
  | "__proto__" => none
  | name => some name

/-- Plain objects inherit functions that have a name and whose caller cannot be read, and their
prototype. -/
def functionsOnly : Objects String where
  own name key :=
    if key = "name" then (functionName name).map fun s => .ok (.prim (.str s)) else none
  inherited name key :=
    if key = "caller" ∧ (functionName name).isSome then some (.error .accessor) else none
  arrayPrototype _ := none
  objectPrototype name := if name ∈ PlainObject.inheritedNames then some (.other name) else none
  objectPrototype_isSome name := by
    by_cases h : name ∈ PlainObject.inheritedNames <;> simp [h]

/-- A path through `null` throws, and a path through an inherited function is followed. -/
theorem null_not_pathLaw :
    groupByPath .ascii functionsOnly [.obj [("a", .prim .null)]] "a.b" = .error .typeError ∧
      groupByPath .ascii functionsOnly [.obj []] "constructor.name"
        = .ok [(.name "Object", [.obj []])] ∧
      ¬ PathLaw .ascii functionsOnly "a.b" [.obj [("a", .prim .null)]] := by
  refine ⟨rfl, rfl, ?_⟩
  rintro ⟨groups, hok, -⟩
  cases hok

end SharedTsLibs.UniversalTsUtils
