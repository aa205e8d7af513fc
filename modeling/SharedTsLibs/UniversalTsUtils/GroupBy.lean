import SharedTsLibs.Lib.Fallible
import SharedTsLibs.Lib.JsDatum
import SharedTsLibs.Lib.JsRuntime
import Mathlib.Data.List.Induction

/-!
# Grouping by a property

`universal-ts-utils`: `groupBy` and `groupByUnique` gather items in an ordinary object, under
the value that a property of the item has.

* `PropertyKey`, `Groups` — the keys and the object that the items are gathered in.
* `groupWith`, `groupBy`, `groupByUnique` — the functions.
* `groupWith_spec` — what the loop has gathered, or at which item it throws.
* `partition_iff` — the groups are a partition unless a key is the name of an inherited
  property.
-/

namespace SharedTsLibs.UniversalTsUtils

/-! ## Keys and the object of the groups -/

/-- `RecordKeyType`; a symbol is told apart by its identity. -/
inductive RecordKey where
  | str (s : String)
  | num (n : JsNumber)
  | symbol (id : ℕ)
  deriving DecidableEq

/-- What a property is found under. -/
inductive PropertyKey where
  | name (s : String)
  | symbol (id : ℕ)
  deriving DecidableEq

def RecordKey.toPropertyKey (rt : JsRuntime) : RecordKey → PropertyKey
  | str s => .name s
  | num n => .name (rt.numberToString n)
  | symbol id => .symbol id

/-- The key is the name of a property that every plain object inherits. -/
def PropertyKey.IsInherited : PropertyKey → Prop
  | name s => s ∈ PlainObject.inheritedNames
  | symbol _ => False

instance : DecidablePred PropertyKey.IsInherited
  | .name s => inferInstanceAs (Decidable (s ∈ PlainObject.inheritedNames))
  | .symbol _ => inferInstanceAs (Decidable False)

/-- The own properties of the object that items are gathered in. -/
abbrev Groups (α : Type) := List (PropertyKey × α)

/-- `acc[key]`: none of the inherited properties is `undefined`. -/
def Groups.access {α : Type} (acc : Groups α) (key : PropertyKey) : Property α :=
  match OrderedMap.get? acc key with
  | some value => .own value
  | none => if key.IsInherited then .inherited else .absent

inductive Thrown where
  /-- A `TypeError`: what is called is not a function, or what is searched is not an object. -/
  | typeError
  /-- What an accessor of a property throws. -/
  | accessor
  | duplicatedItem (selector key : RecordKey)
  deriving DecidableEq

/-- `toString` of a key. -/
def RecordKey.text (rt : JsRuntime) (symbolText : ℕ → String) : RecordKey → String
  | str s => s
  | num n => rt.numberToString n
  | symbol id => symbolText id

/-- The message of the error that the code throws itself. -/
def Thrown.message (rt : JsRuntime) (symbolText : ℕ → String) : Thrown → Option String
  | typeError | accessor => none
  | duplicatedItem selector key =>
    some ("Duplicated item for selector " ++ selector.text rt symbolText ++ " with value "
      ++ key.text rt symbolText)

/-! ## The functions -/

section Functions

variable {T : Type}

/-- `if (!acc[key]) acc[key] = []`, and then `acc[key].push(item)`: an inherited property has
no method `push`. -/
def addToGroup (acc : Groups (List T)) (key : PropertyKey) (item : T) :
    Except Thrown (Groups (List T)) :=
  match acc.access key with
  | .own group => .ok (OrderedMap.set key (group ++ [item]) acc)
  | .inherited => .error .typeError
  | .absent => .ok (OrderedMap.set key [item] acc)

/-- The loop of `groupBy` and `groupByPath`, for what gives an item's key. -/
def groupWith (keyOf : T → Except Thrown (Option PropertyKey)) (array : List T) :
    Except Thrown (Groups (List T)) :=
  array.foldlM (fun acc item => do
    match ← keyOf item with
    | none => pure acc
    | some key => addToGroup acc key item) []

/-- The key of an item, unless the value is `undefined` or `null`. -/
def keyOfValue (rt : JsRuntime) : JsDatum RecordKey → Option PropertyKey
  | .undefined | .null => none
  | .given key => some (key.toPropertyKey rt)

variable (rt : JsRuntime) (property : T → RecordKey → JsDatum RecordKey)

/-- `groupBy`, with `item[selector]` as the function `property`. -/
def groupBy (array : List T) (selector : RecordKey) : Except Thrown (Groups (List T)) :=
  groupWith (fun item => .ok (keyOfValue rt (property item selector))) array

/-- One item of `groupByUnique`. -/
def addUnique (selector : RecordKey) (acc : Groups T) (item : T) : Except Thrown (Groups T) :=
  match property item selector with
  | .undefined | .null => .ok acc
  | .given key =>
    match acc.access (key.toPropertyKey rt) with
    | .own _ | .inherited => .error (.duplicatedItem selector key)
    | .absent => .ok (OrderedMap.set (key.toPropertyKey rt) item acc)

def groupByUnique (array : List T) (selector : RecordKey) : Except Thrown (Groups T) :=
  array.foldlM (addUnique rt property selector) []

end Functions

/-! ## What the loop gathers -/

section Loop

variable {T : Type} {keyOf : T → Except Thrown (Option PropertyKey)}

/-- A group, unless it would be empty. -/
def groupOf (items : List T) : Option (List T) := if items = [] then none else some items

theorem groupOf_concat (items : List T) (item : T) :
    groupOf (items ++ [item]) = some ((groupOf items).getD [] ++ [item]) := by
  cases items with
  | nil => simp [groupOf]
  | cons first items => simp [groupOf]

/-- The item has a key that is not inherited, or none. -/
def Groupable (key? : Except Thrown (Option PropertyKey)) : Prop :=
  ∃ key?', key? = .ok key?' ∧ ∀ key ∈ key?', ¬ key.IsInherited

/-- The items whose key is this one. -/
def withKey (keyOf : T → Except Thrown (Option PropertyKey)) (key : PropertyKey)
    (array : List T) : List T :=
  array.filter fun item => match keyOf item with
    | .ok (some key') => key' = key
    | _ => false

theorem groupWith_concat (array : List T) (item : T) :
    groupWith keyOf (array ++ [item]) = (groupWith keyOf array >>= fun acc =>
      keyOf item >>= fun key? => match key? with
        | none => pure acc
        | some key => addToGroup acc key item) := by
  rw [groupWith, List.foldlM_append, ← groupWith]
  congr 1
  funext acc
  rw [List.foldlM_cons]
  exact bind_pure _

theorem withKey_concat_of_eq {item : T} {key : PropertyKey} (h : keyOf item = .ok (some key))
    (array : List T) : withKey keyOf key (array ++ [item]) = withKey keyOf key array ++ [item] := by
  simp [withKey, List.filter_append, h]

theorem mem_withKey {item : T} {key : PropertyKey} {array : List T} :
    item ∈ withKey keyOf key array ↔ item ∈ array ∧ keyOf item = .ok (some key) := by
  rw [withKey, List.mem_filter]
  refine and_congr_right fun _ => ?_
  split
  · simp_all
  · rename_i hne
    exact iff_of_false Bool.false_ne_true fun h => hne key h

theorem withKey_concat_of_ne {item : T} {key : PropertyKey}
    (h : keyOf item ≠ .ok (some key)) (array : List T) :
    withKey keyOf key (array ++ [item]) = withKey keyOf key array := by
  have hlast : withKey keyOf key [item] = [] := by
    rw [List.eq_nil_iff_forall_not_mem]
    intro item' hitem'
    obtain ⟨hmem, hkey⟩ := mem_withKey.1 hitem'
    rw [List.mem_singleton.1 hmem] at hkey
    exact h hkey
  rw [withKey] at hlast
  rw [withKey, List.filter_append, hlast, List.append_nil, withKey]

/-- One more item with a key joins the group of its key, or makes one, unless the key is
inherited. -/
theorem addToGroup_spec {groups : Groups (List T)} {array : List T} {item : T}
    {key : PropertyKey} (hitem : keyOf item = .ok (some key))
    (hgroupable : ∀ item ∈ array, Groupable (keyOf item))
    (hgroups : ∀ key, OrderedMap.get? groups key = groupOf (withKey keyOf key array)) :
    if key.IsInherited then addToGroup groups key item = .error .typeError
    else ∃ groups', addToGroup groups key item = .ok groups' ∧
      ∀ key, OrderedMap.get? groups' key = groupOf (withKey keyOf key (array ++ [item])) := by
  have hset : ∀ group, groupOf (withKey keyOf key array ++ [item]) = some group → ∀ key',
      OrderedMap.get? (OrderedMap.set key group groups) key'
        = groupOf (withKey keyOf key' (array ++ [item])) := by
    intro group hgroup key'
    rw [OrderedMap.get?_set]
    split
    · rename_i hkey
      rw [← hkey, withKey_concat_of_eq hitem, hgroup]
    · rename_i hkey
      rw [withKey_concat_of_ne _ array, hgroups]
      rintro heq
      rw [hitem] at heq
      cases heq
      exact hkey rfl
  have hconcat := groupOf_concat (withKey keyOf key array) item
  rw [← hgroups key] at hconcat
  unfold addToGroup Groups.access
  cases hown : OrderedMap.get? groups key with
  | some group =>
    have hnot : ¬ key.IsInherited := by
      have hne : withKey keyOf key array ≠ [] := by
        intro hnil
        rw [hgroups, hnil] at hown
        cases hown
      obtain ⟨first, hfirst⟩ := List.exists_mem_of_ne_nil _ hne
      obtain ⟨hmem, hkey⟩ := mem_withKey.1 hfirst
      obtain ⟨key?, heq, hnot⟩ := hgroupable first hmem
      rw [hkey] at heq
      cases heq
      exact hnot key rfl
    rw [hown] at hconcat
    rw [if_neg hnot]
    exact ⟨_, rfl, hset _ hconcat⟩
  | none =>
    rw [hown] at hconcat
    by_cases hinherited : key.IsInherited
    · simp [hinherited]
    · simp only [hinherited, if_false]
      exact ⟨_, rfl, hset _ hconcat⟩

variable (keyOf) in
/-- When every item has a key that is not inherited, or none, the loop returns the groups;
else it throws. -/
theorem groupWith_spec (array : List T) :
    (∃ groups, groupWith keyOf array = .ok groups ∧ (∀ item ∈ array, Groupable (keyOf item)) ∧
      ∀ key, OrderedMap.get? groups key = groupOf (withKey keyOf key array)) ∨
    (∃ e, groupWith keyOf array = .error e) ∧ ∃ item ∈ array, ¬ Groupable (keyOf item) := by
  induction array using List.reverseRecOn with
  | nil =>
    exact Or.inl ⟨[], rfl, fun item hitem => absurd hitem List.not_mem_nil, fun key => rfl⟩
  | append_singleton array item ih =>
    rw [groupWith_concat]
    rcases ih with ⟨groups, hok, hgroupable, hgroups⟩ | ⟨⟨e, herror⟩, first, hfirst, hnot⟩
    · rw [hok]
      have hall : Groupable (keyOf item) →
          ∀ item' ∈ array ++ [item], Groupable (keyOf item') := by
        intro h item' hitem'
        rcases List.mem_append.1 hitem' with hitem' | hitem'
        · exact hgroupable item' hitem'
        · rw [List.mem_singleton.1 hitem']
          exact h
      cases hitem : keyOf item with
      | error e =>
        right
        refine ⟨⟨e, rfl⟩, item, by simp, ?_⟩
        rintro ⟨key?, heq, -⟩
        rw [hitem] at heq
        cases heq
      | ok key? =>
        cases key? with
        | none =>
          refine Or.inl ⟨groups, rfl, hall ⟨none, hitem, fun key hkey => by cases hkey⟩, ?_⟩
          intro key
          rw [hgroups, withKey_concat_of_ne]
          rw [hitem]
          simp
        | some key =>
          have hadd := addToGroup_spec hitem hgroupable hgroups
          split at hadd
          · rename_i hinherited
            refine Or.inr ⟨⟨_, hadd⟩, item, by simp, ?_⟩
            rintro ⟨key?, heq, hnot⟩
            rw [hitem] at heq
            cases heq
            exact hnot key rfl hinherited
          · rename_i hinherited
            obtain ⟨groups', hok', hgroups'⟩ := hadd
            refine Or.inl ⟨groups', hok', hall ⟨some key, hitem, ?_⟩, hgroups'⟩
            intro key' hkey'
            cases hkey'
            exact hinherited
    · rw [herror]
      exact Or.inr ⟨⟨e, rfl⟩, first, List.mem_append_left _ hfirst, hnot⟩

end Loop

/-! ## Partition by a property -/

section Partition

variable {T : Type} (rt : JsRuntime) (property : T → RecordKey → JsDatum RecordKey)
  (selector : RecordKey)

/-- The key of an item, if it has one. -/
def itemKey (item : T) : Option PropertyKey := keyOfValue rt (property item selector)

theorem groupByUnique_concat (array : List T) (item : T) :
    groupByUnique rt property (array ++ [item]) selector
      = (groupByUnique rt property array selector >>= fun acc =>
        addUnique rt property selector acc item) := by
  rw [groupByUnique, List.foldlM_append, ← groupByUnique]
  congr 1
  funext acc
  rw [List.foldlM_cons]
  exact bind_pure _

theorem addUnique_of_none {item : T} (h : itemKey rt property selector item = none)
    (acc : Groups T) : addUnique rt property selector acc item = .ok acc := by
  unfold itemKey keyOfValue at h
  unfold addUnique
  split at h
  · rfl
  · rfl
  · cases h

theorem addUnique_of_some {item : T} {key : PropertyKey}
    (h : itemKey rt property selector item = some key) :
    ∃ e, ∀ acc, addUnique rt property selector acc item = match Groups.access acc key with
      | .own _ | .inherited => .error e
      | .absent => .ok (OrderedMap.set key item acc) := by
  unfold itemKey keyOfValue at h
  unfold addUnique
  split at h
  · cases h
  · cases h
  · cases h
    exact ⟨_, fun acc => rfl⟩

/-- Without inherited keys the loop throws at the first item whose key was there before, and
else maps each key to its item. -/
theorem groupByUnique_spec {array : List T}
    (h : ∀ item ∈ array, ∀ key ∈ itemKey rt property selector item, ¬ key.IsInherited) :
    (∃ groups, groupByUnique rt property array selector = .ok groups ∧
      (array.filterMap (itemKey rt property selector)).Nodup ∧
      ∀ key item, OrderedMap.get? groups key = some item ↔
        item ∈ array ∧ itemKey rt property selector item = some key) ∨
    (∃ e, groupByUnique rt property array selector = .error e) ∧
      ¬ (array.filterMap (itemKey rt property selector)).Nodup := by
  induction array using List.reverseRecOn with
  | nil => exact Or.inl ⟨[], rfl, .nil, fun key item => by simp [OrderedMap.get?]⟩
  | append_singleton array item ih =>
    rw [groupByUnique_concat]
    have hitem := h item (by simp)
    have hearlier := ih fun item' hitem' => h item' (List.mem_append_left _ hitem')
    cases hkey : itemKey rt property selector item with
    | none =>
      have hkeys : (array ++ [item]).filterMap (itemKey rt property selector)
          = array.filterMap (itemKey rt property selector) := by
        simp [List.filterMap_append, hkey]
      have hmem : ∀ key item', (item' ∈ array ++ [item] ∧
          itemKey rt property selector item' = some key) ↔
            (item' ∈ array ∧ itemKey rt property selector item' = some key) := by
        intro key item'
        rw [List.mem_append, List.mem_singleton]
        refine and_congr_left fun hkey' => or_iff_left ?_
        rintro rfl
        rw [hkey] at hkey'
        cases hkey'
      simp only [addUnique_of_none rt property selector hkey, hkeys, hmem]
      rcases hearlier with ⟨groups, hok, hnodup, hgroups⟩ | ⟨⟨e, herror⟩, hnodup⟩
      · exact Or.inl ⟨groups, by rw [hok]; rfl, hnodup, hgroups⟩
      · exact Or.inr ⟨⟨e, by rw [herror]; rfl⟩, hnodup⟩
    | some key =>
      obtain ⟨e, hadd⟩ := addUnique_of_some rt property selector hkey
      have hkeys : (array ++ [item]).filterMap (itemKey rt property selector)
          = array.filterMap (itemKey rt property selector) ++ [key] := by
        simp [List.filterMap_append, hkey]
      rw [hkeys]
      rcases hearlier with ⟨groups, hok, hnodup, hgroups⟩ | ⟨⟨e', herror⟩, hnodup⟩
      · rw [hok]
        cases hown : OrderedMap.get? groups key with
        | some first =>
          -- an earlier item has the key
          obtain ⟨hfirst, hfirstkey⟩ := (hgroups key first).1 hown
          refine Or.inr ⟨⟨e, ?_⟩, ?_⟩
          · show addUnique rt property selector groups item = .error e
            rw [hadd, Groups.access, hown]
          · intro hall
            have hmem := List.mem_filterMap.2 ⟨first, hfirst, hfirstkey⟩
            exact (List.nodup_append.1 hall).2.2 key hmem key (by simp) rfl
        | none =>
          have hnew : key ∉ array.filterMap (itemKey rt property selector) := by
            intro hmem
            obtain ⟨first, hfirst⟩ := List.mem_filterMap.1 hmem
            rw [(hgroups key first).2 hfirst] at hown
            cases hown
          refine Or.inl ⟨OrderedMap.set key item groups, ?_, ?_, ?_⟩
          · show addUnique rt property selector groups item = _
            rw [hadd, Groups.access, hown, if_neg (hitem key hkey)]
          · refine List.nodup_append.2 ⟨hnodup, List.pairwise_singleton _ key, ?_⟩
            rintro a ha b hb rfl
            rw [List.mem_singleton.1 hb] at ha
            exact hnew ha
          · intro key' item'
            rw [OrderedMap.get?_set, List.mem_append, List.mem_singleton]
            split
            · rename_i heq
              subst heq
              constructor
              · intro h
                cases h
                exact ⟨Or.inr rfl, hkey⟩
              · rintro ⟨hmem | rfl, hkey'⟩
                · exact absurd (List.mem_filterMap.2 ⟨item', hmem, hkey'⟩) hnew
                · rfl
            · rename_i hne
              rw [hgroups]
              refine and_congr_left fun hkey' => (or_iff_left ?_).symm
              rintro rfl
              rw [hkey] at hkey'
              cases hkey'
              exact hne rfl
      · rw [herror]
        exact Or.inr ⟨⟨e', rfl⟩, fun hall => hnodup (List.nodup_append.1 hall).1⟩

/-- What `groupByUnique` has found under a key is an item with that key, which no object
inherits. -/
theorem mem_of_get?_groupByUnique {array : List T} {groups : Groups T}
    (h : groupByUnique rt property array selector = .ok groups) {key : PropertyKey} {item : T}
    (hget : OrderedMap.get? groups key = some item) :
    item ∈ array ∧ itemKey rt property selector item = some key ∧ ¬ key.IsInherited := by
  induction array using List.reverseRecOn generalizing groups with
  | nil =>
    cases h
    cases hget
  | append_singleton array last ih =>
    rw [groupByUnique_concat] at h
    obtain ⟨acc, hacc, hlast⟩ := Fallible.bind_eq_ok.1 h
    have hearlier : OrderedMap.get? acc key = some item →
        item ∈ array ++ [last] ∧ itemKey rt property selector item = some key ∧
          ¬ key.IsInherited :=
      fun hacc' => (ih hacc hacc').imp_left fun hmem => List.mem_append_left _ hmem
    cases hkey : itemKey rt property selector last with
    | none =>
      rw [addUnique_of_none rt property selector hkey] at hlast
      cases hlast
      exact hearlier hget
    | some lastKey =>
      obtain ⟨e, hadd⟩ := addUnique_of_some rt property selector hkey
      rw [hadd] at hlast
      split at hlast
      · cases hlast
      · cases hlast
      · rename_i habsent
        cases hlast
        rw [OrderedMap.get?_set] at hget
        split at hget
        · rename_i heq
          cases hget
          subst heq
          refine ⟨List.mem_append_right _ (List.mem_singleton_self _), hkey, fun hinherited => ?_⟩
          rw [Groups.access] at habsent
          split at habsent
          · cases habsent
          · rw [if_pos hinherited] at habsent
            cases habsent
        · exact hearlier hget

/-- `groupBy` gathers under each key the items that have it, in their order; `groupByUnique`
throws when two items have one key, and else maps each key to its item. -/
structure PartitionLaw (array : List T) : Prop where
  groups : ∃ groups, groupBy rt property array selector = .ok groups ∧
    ∀ key, OrderedMap.get? groups key
      = groupOf (array.filter fun item => itemKey rt property selector item = some key)
  throws : (∃ e, groupByUnique rt property array selector = .error e) ↔
    ¬ (array.filterMap (itemKey rt property selector)).Nodup
  unique : ∀ groups, groupByUnique rt property array selector = .ok groups →
    ∀ key item, OrderedMap.get? groups key = some item ↔
      item ∈ array ∧ itemKey rt property selector item = some key

theorem withKey_eq_filter (array : List T) (key : PropertyKey) :
    withKey (fun item => .ok (itemKey rt property selector item)) key array
      = array.filter fun item => itemKey rt property selector item = some key := by
  refine List.filter_congr fun item _ => ?_
  dsimp only
  cases itemKey rt property selector item with
  | none => simp
  | some key' => simp

/-- **When grouping is a partition.**  Exactly when no key is the name of a property that
the object of the groups inherits. -/
theorem partition_iff (array : List T) : PartitionLaw rt property selector array ↔
    ∀ item ∈ array, ∀ key ∈ itemKey rt property selector item, ¬ key.IsInherited := by
  have hspec := groupWith_spec (fun item => .ok (itemKey rt property selector item)) array
  constructor
  · intro h item hitem key hkey
    obtain ⟨groups, hok, -⟩ := h.groups
    rcases hspec with ⟨-, -, hgroupable, -⟩ | ⟨⟨e, herror⟩, -⟩
    · obtain ⟨key?, heq, hnot⟩ := hgroupable item hitem
      cases heq
      exact hnot key hkey
    · cases hok.symm.trans herror
  · intro h
    have hunique := groupByUnique_spec rt property selector h
    refine ⟨?_, ?_, ?_⟩
    · rcases hspec with ⟨groups, hok, -, hgroups⟩ | ⟨-, item, hitem, hnot⟩
      · refine ⟨groups, hok, fun key => ?_⟩
        rw [hgroups, withKey_eq_filter]
      · exact absurd ⟨_, rfl, h item hitem⟩ hnot
    · rcases hunique with ⟨groups, hok, hnodup, -⟩ | ⟨herror, hnodup⟩
      · rw [hok]
        exact iff_of_false (fun ⟨e, he⟩ => by cases he) (not_not.2 hnodup)
      · exact iff_of_true herror hnodup
    · intro groups hgroups
      rcases hunique with ⟨groups', hok, -, hspec⟩ | ⟨⟨e, herror⟩, -⟩
      · cases hok.symm.trans hgroups
        exact hspec
      · cases herror.symm.trans hgroups

end Partition

/-- A single item whose value is the name of an inherited property: `groupBy` calls a method
that is not there, and `groupByUnique` reports a second item. -/
theorem constructor_not_partition :
    groupBy .ascii (fun item _ => .given item) [.str "constructor"] (.str "name")
        = .error .typeError ∧
      groupByUnique .ascii (fun item _ => .given item) [.str "constructor"] (.str "name")
        = .error (.duplicatedItem (.str "name") (.str "constructor")) ∧
      ¬ PartitionLaw .ascii (fun item _ => .given item) (.str "name") [.str "constructor"] := by
  refine ⟨rfl, rfl, fun h => ?_⟩
  obtain ⟨groups, hok, -⟩ := h.groups
  cases hok

end SharedTsLibs.UniversalTsUtils
