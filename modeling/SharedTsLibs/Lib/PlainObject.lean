import SharedTsLibs.Lib.OrderedMap

/-!
# Plain objects

An object literal of JavaScript used as a record: entries under distinct keys, in the
order `Object.entries` gives them.  Reading a property finds an entry, or else one of
the properties that every plain object inherits.

* `own?`, `access` — an entry, and what reading a property finds.
* `own?_eq_some_iff` — an object holds one value under a key.
* `empty`, `assign`, `modify` — `{}`, and an entry written or changed in place.
* `access_eq_own_iff`, `access_eq_inherited_iff` — where reading a property finds what.
-/

/-- An object literal: entries under distinct keys. -/
structure PlainObject (α : Type*) where
  entries : List (String × α)
  nodup : (OrderedMap.keys entries).Nodup

/-- What reading a property of an object finds. -/
inductive Property (α : Type*) where
  | own (value : α)
  /-- A property of `Object.prototype`. -/
  | inherited
  | absent

namespace PlainObject

variable {α : Type*}

/-- The names of the properties that every plain object inherits. -/
def inheritedNames : List String :=
  ["constructor", "__defineGetter__", "__defineSetter__", "hasOwnProperty", "__lookupGetter__",
    "__lookupSetter__", "isPrototypeOf", "propertyIsEnumerable", "toString", "valueOf",
    "__proto__", "toLocaleString"]

/-- `Object.keys`. -/
def keys (o : PlainObject α) : List String := OrderedMap.keys o.entries

/-- The entry under a key. -/
def own? (o : PlainObject α) (key : String) : Option α := OrderedMap.get? o.entries key

/-- `o[key]`. -/
def access (o : PlainObject α) (key : String) : Property α :=
  match o.own? key with
  | some value => .own value
  | none => if key ∈ inheritedNames then .inherited else .absent

theorem own?_isSome_iff {o : PlainObject α} {key : String} :
    (o.own? key).isSome ↔ key ∈ o.keys := OrderedMap.get?_isSome_iff

theorem own?_eq_none_iff {o : PlainObject α} {key : String} :
    o.own? key = none ↔ key ∉ o.keys := OrderedMap.get?_eq_none_iff

/-- An object holds one value under a key. -/
theorem own?_eq_some_iff {o : PlainObject α} {key : String} {value : α} :
    o.own? key = some value ↔ (key, value) ∈ o.entries := OrderedMap.get?_eq_some_iff o.nodup

/-- Reading a property finds the entry, where there is one. -/
theorem access_eq_own_iff {o : PlainObject α} {key : String} {value : α} :
    o.access key = .own value ↔ o.own? key = some value := by
  unfold access
  cases o.own? key with
  | some v => simp
  | none =>
    simp only [reduceCtorEq, iff_false]
    split <;> simp

/-- What an object inherits is read only where it has no entry. -/
theorem access_eq_inherited_iff {o : PlainObject α} {key : String} :
    o.access key = .inherited ↔ o.own? key = none ∧ key ∈ inheritedNames := by
  unfold access
  cases o.own? key with
  | some v => simp
  | none =>
    by_cases hkey : key ∈ inheritedNames
    · simp [hkey]
    · simp [hkey]

/-! ## Writing -/

/-- `{}` -/
def empty : PlainObject α := ⟨[], .nil⟩

/-- `o[key] = value` for an object as the value: under `__proto__` no entry is written. -/
def assign (o : PlainObject α) (key : String) (value : α) : PlainObject α :=
  if key = "__proto__" then o
  else ⟨OrderedMap.set key value o.entries, OrderedMap.nodup_keys_set o.nodup⟩

/-- The value of an entry is changed in place. -/
def modify (o : PlainObject α) (key : String) (f : α → α) : PlainObject α where
  entries := o.entries.map fun e => if e.1 = key then (e.1, f e.2) else e
  nodup := by
    have hkeys : OrderedMap.keys (o.entries.map fun e => if e.1 = key then (e.1, f e.2) else e) =
        OrderedMap.keys o.entries := by
      rw [OrderedMap.keys, List.map_map]
      refine List.map_congr_left fun e _ => ?_
      dsimp only [Function.comp_apply]
      split <;> rfl
    rw [hkeys]
    exact o.nodup

@[simp] theorem own?_empty (key : String) : (empty : PlainObject α).own? key = none := rfl

theorem own?_assign {o : PlainObject α} {key key' : String} {value : α} :
    (o.assign key value).own? key' =
      if key = key' ∧ key ≠ "__proto__" then some value else o.own? key' := by
  unfold assign
  by_cases hproto : key = "__proto__"
  · simp [hproto]
  · rw [if_neg hproto]
    show OrderedMap.get? (OrderedMap.set key value o.entries) key' = _
    rw [OrderedMap.get?_set]
    simp [hproto, own?]

/-- The prototype is no property, whatever is assigned. -/
theorem own?_assign_eq {o : PlainObject α} {key key' : String} {value : α} :
    (o.assign key value).own? key' =
      if key = key' ∧ key' ≠ "__proto__" then some value else o.own? key' := by
  rw [own?_assign]
  by_cases hkey : key = key'
  · rw [hkey]
  · rw [if_neg fun h => hkey h.1, if_neg fun h => hkey h.1]

theorem own?_modify {o : PlainObject α} {key key' : String} {f : α → α} :
    (o.modify key f).own? key' = if key = key' then (o.own? key').map f else o.own? key' := by
  obtain ⟨entries, hnodup⟩ := o
  show OrderedMap.get? (entries.map fun e => if e.1 = key then (e.1, f e.2) else e) key' =
    if key = key' then (OrderedMap.get? entries key').map f else OrderedMap.get? entries key'
  clear hnodup
  induction entries with
  | nil => simp [OrderedMap.get?]
  | cons e entries ih =>
    rw [List.map_cons, OrderedMap.get?_cons, OrderedMap.get?_cons, ih]
    by_cases hkey : e.1 = key
    · rw [if_pos hkey]
      by_cases hsame : key = key'
      · simp [hkey, hsame]
      · simp [hkey, hsame]
    · rw [if_neg hkey]
      by_cases hsame : key = key'
      · subst hsame
        simp [hkey]
      · simp [hsame]

end PlainObject
