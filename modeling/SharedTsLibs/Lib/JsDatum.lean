import SharedTsLibs.Lib.PlainObject
import Mathlib.Data.List.Perm.Subperm

/-!
# Records of values

Plain objects whose values may be `undefined` or `null`, as the columns of a database row
are handed around.

* `JsDatum` — a value, `null` or `undefined`.
* `PlainObject.read` — what reading a property gives, inherited properties included.
* `PlainObject.definedKeys` — the keys whose value is not `undefined`.
* `read_isDefined_iff` — a property reads as defined when it has a value or is inherited.
* `mem_keys_iff_of_read` — as many keys, all of them read as defined: the same keys.
-/

inductive JsDatum (V : Type*) where
  | undefined
  | null
  | given (v : V)

def JsDatum.isDefined {V : Type*} : JsDatum V → Bool
  | .undefined => false
  | .null | .given _ => true

namespace PlainObject

variable {V : Type*}

/-- `o[key]`; `prototype` holds the values of the inherited properties. -/
def read (prototype : String → V) (o : PlainObject (JsDatum V)) (key : String) : JsDatum V :=
  match o.access key with
  | .own value => value
  | .inherited => .given (prototype key)
  | .absent => .undefined

/-- The value under a key is not `undefined`. -/
def IsDefinedAt (o : PlainObject (JsDatum V)) (key : String) : Prop :=
  (o.own? key).any JsDatum.isDefined = true

instance (o : PlainObject (JsDatum V)) : DecidablePred o.IsDefinedAt := fun key =>
  inferInstanceAs (Decidable ((o.own? key).any JsDatum.isDefined = true))

/-- The keys whose value is not `undefined`. -/
def definedKeys (o : PlainObject (JsDatum V)) : List String := o.keys.filter (o.IsDefinedAt ·)

theorem keys_nodup {α : Type*} (o : PlainObject α) : o.keys.Nodup := o.nodup

theorem definedKeys_nodup (o : PlainObject (JsDatum V)) : o.definedKeys.Nodup :=
  o.keys_nodup.filter _

variable {o : PlainObject (JsDatum V)} {key : String} {prototype : String → V}

theorem IsDefinedAt.mem_keys (h : o.IsDefinedAt key) : key ∈ o.keys := by
  rw [← own?_isSome_iff]
  unfold IsDefinedAt at h
  cases hown : o.own? key with
  | none => simp [hown] at h
  | some value => rfl

theorem mem_definedKeys : key ∈ o.definedKeys ↔ o.IsDefinedAt key := by
  rw [definedKeys, List.mem_filter, decide_eq_true_eq]
  exact ⟨And.right, fun h => ⟨h.mem_keys, h⟩⟩

theorem read_of_own? {value : JsDatum V} (h : o.own? key = some value) :
    o.read prototype key = value := by
  rw [read, access_eq_own_iff.2 h]

/-- A property that is not inherited reads as the entry under its key. -/
theorem read_eq_own? (h : key ∈ inheritedNames → key ∈ o.keys) :
    o.read prototype key = (o.own? key).getD .undefined := by
  cases hown : o.own? key with
  | some value => exact read_of_own? hown
  | none =>
    have habsent : key ∉ o.keys := own?_eq_none_iff.1 hown
    have hinherited : key ∉ inheritedNames := fun hkey => habsent (h hkey)
    simp [read, access, hown, hinherited]

/-- A property reads as defined when it has a defined value, or is inherited and has none of
its own. -/
theorem read_isDefined_iff :
    (o.read prototype key).isDefined = true ↔
      o.IsDefinedAt key ∨ key ∉ o.keys ∧ key ∈ inheritedNames := by
  rw [← own?_eq_none_iff]
  unfold read access IsDefinedAt
  cases hown : o.own? key with
  | some value => simp
  | none =>
    by_cases hkey : key ∈ inheritedNames
    · simp [hkey, JsDatum.isDefined]
    · simp [hkey, JsDatum.isDefined]

/-- Of two lists without repetitions and of one length, one holds all of the other: they
hold the same. -/
theorem mem_iff_of_subset_of_length {keys keys' : List String} (hnodup : keys.Nodup)
    (hsubset : keys ⊆ keys') (hlength : keys'.length ≤ keys.length) (key : String) :
    key ∈ keys' ↔ key ∈ keys :=
  ((List.subperm_of_subset hnodup hsubset).perm_of_length_le hlength).mem_iff.symm

/-- An object in which some keys all read as defined, none of them by inheritance, and that
has as many keys: those are its keys. -/
theorem mem_keys_iff_of_read {keys : List String} (hnodup : keys.Nodup)
    (hread : ∀ key ∈ keys, (o.read prototype key).isDefined = true)
    (hown : ∀ key ∈ keys, key ∈ inheritedNames → key ∈ o.keys)
    (hlength : keys.length = o.keys.length) (key : String) : key ∈ o.keys ↔ key ∈ keys := by
  have hsubset : keys ⊆ o.keys := by
    intro key hkey
    rcases read_isDefined_iff.1 (hread key hkey) with hdefined | ⟨-, hinherited⟩
    · exact hdefined.mem_keys
    · exact hown key hkey hinherited
  exact mem_iff_of_subset_of_length hnodup hsubset (Nat.le_of_eq hlength.symm) key

end PlainObject
