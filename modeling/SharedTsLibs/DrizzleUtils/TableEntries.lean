import SharedTsLibs.DrizzleUtils.SnapshotSchema
import SharedTsLibs.Lib.Fallible

/-!
# Entries written to tables

The loops that load keys and indexes into a snapshot: an entry names a schema, a table and the
name that it is written under, and it is written if the snapshot has the table.

* `applyEntry`, `applyEntries` — one entry, and all of them.
* `exists_applyEntries` — entries of tables that are there are all written.
* `applyEntries_keep`, `applyEntries_look` — what a table has afterwards.
-/

namespace SharedTsLibs.DrizzleUtils

variable {ε β : Type} (place : ε → String × String × String) (primary : ε → Bool)
  (change : ε → TableSnapshot → TableSnapshot)

/-- An entry changes the table of its place. -/
def applyEntry (schemas : Schemas) (entry : ε) : Option Schemas :=
  updateTable schemas (place entry).1 (place entry).2.1 (primary entry) (change entry)

def applyEntries (schemas : Schemas) (entries : List ε) : Option Schemas :=
  entries.foldlM (applyEntry place primary change) schemas

variable {place primary change} {schemas result : Schemas} {entries : List ε}

/-- A table stays in the snapshot. -/
theorem isSome_of_applyEntry {entry : ε} (h : applyEntry place primary change schemas entry =
    some result) (schema tableName : String) :
    (result.table? schema tableName).isSome = (schemas.table? schema tableName).isSome := by
  rw [table?_of_updateTable h]
  split
  · exact Option.isSome_map
  · rfl

theorem isSome_of_applyEntries (h : applyEntries place primary change schemas entries =
    some result) (schema tableName : String) :
    (result.table? schema tableName).isSome = (schemas.table? schema tableName).isSome := by
  induction entries generalizing schemas with
  | nil =>
    cases h
    rfl
  | cons entry entries ih =>
    rw [applyEntries, List.foldlM_cons] at h
    obtain ⟨next, hnext, h⟩ := Option.bind_eq_some_iff.1 h
    rw [ih h, isSome_of_applyEntry hnext]

/-- Entries whose tables are there are all written. -/
theorem exists_applyEntries (h : ∀ entry ∈ entries,
    (schemas.table? (place entry).1 (place entry).2.1).isSome) :
    ∃ result, applyEntries place primary change schemas entries = some result := by
  induction entries generalizing schemas with
  | nil => exact ⟨schemas, rfl⟩
  | cons entry entries ih =>
    rw [List.forall_mem_cons] at h
    obtain ⟨table, htable⟩ := Option.isSome_iff_exists.1 h.1
    have hstep : applyEntry place primary change schemas entry = some _ :=
      updateTable_of_table? htable (primary entry) (change entry)
    rw [applyEntries, List.foldlM_cons, hstep]
    refine ih fun other hmem => ?_
    rw [isSome_of_applyEntry hstep]
    exact h.2 other hmem

/-- Entries whose names are not inherited raise no error. -/
theorem exists_applyEntries_of_names (h : ∀ entry ∈ entries,
    (place entry).1 ∉ PlainObject.inheritedNames ∧ (place entry).2.1 ∉ PlainObject.inheritedNames)
    (schemas : Schemas) :
    ∃ result, applyEntries place primary change schemas entries = some result :=
  Fallible.exists_foldlM (fun entry hmem schemas =>
    exists_updateTable (h entry hmem).1 (h entry hmem).2 schemas _ _) schemas

/-- What entries do not change is kept. -/
theorem applyEntries_keep {γ : Type} (keep : TableSnapshot → γ)
    (h : applyEntries place primary change schemas entries = some result)
    (hkeep : ∀ entry table, keep (change entry table) = keep table) {schema tableName : String}
    {table : TableSnapshot}
    (htable : schemas.table? schema tableName = some table) :
    ∃ table', result.table? schema tableName = some table' ∧ keep table' = keep table := by
  induction entries generalizing schemas table with
  | nil =>
    cases h
    exact ⟨table, htable, rfl⟩
  | cons entry entries ih =>
    rw [applyEntries, List.foldlM_cons] at h
    obtain ⟨next, hnext, h⟩ := Option.bind_eq_some_iff.1 h
    have htable' := table?_of_updateTable hnext schema tableName
    rw [htable] at htable'
    split at htable'
    · obtain ⟨table', hresult, hsame⟩ := ih h htable'
      exact ⟨table', hresult, hsame.trans (hkeep entry table)⟩
    · exact ih h htable'

/-- A table has the entries that were written to it, each under its name. -/
theorem applyEntries_look (look : TableSnapshot → String → Option β) (value : ε → Option β)
    (h : applyEntries place primary change schemas entries = some result)
    (hplaces : entries.Pairwise fun entry entry' => place entry ≠ place entry')
    (hlook : ∀ entry table name, look (change entry table) name =
      if (place entry).2.2 = name ∧ name ≠ "__proto__" then (value entry).or (look table name)
      else look table name)
    {schema tableName : String} {table : TableSnapshot}
    (htable : schemas.table? schema tableName = some table) :
    ∃ table', result.table? schema tableName = some table' ∧ ∀ name, look table' name =
      if name = "__proto__" then look table name
      else ((entries.find? fun entry => place entry = (schema, tableName, name)).bind value).or
        (look table name) := by
  induction entries generalizing schemas table with
  | nil =>
    cases h
    exact ⟨table, htable, fun name => by simp⟩
  | cons entry entries ih =>
    rw [List.pairwise_cons] at hplaces
    rw [applyEntries, List.foldlM_cons] at h
    obtain ⟨next, hnext, h⟩ := Option.bind_eq_some_iff.1 h
    have htable' := table?_of_updateTable hnext schema tableName
    rw [htable] at htable'
    split at htable'
    · next hsame =>
      obtain ⟨table', hresult, hlooks⟩ := ih h hplaces.2 htable'
      refine ⟨table', hresult, fun name => ?_⟩
      rw [hlooks, hlook]
      by_cases hproto : name = "__proto__"
      · simp [hproto]
      · by_cases hname : (place entry).2.2 = name
        · have hplace : place entry = (schema, tableName, name) := by
            rw [← hsame.1, ← hsame.2, ← hname]
          have hnone : entries.find? (fun other => place other = (schema, tableName, name)) =
              none := by
            rw [List.find?_eq_none]
            intro other hmem
            have hne := hplaces.1 other hmem
            rw [hplace] at hne
            simpa using Ne.symm hne
          simp [hproto, hplace, hnone]
        · have hplace : place entry ≠ (schema, tableName, name) := by
            intro hplace
            rw [hplace] at hname
            exact hname rfl
          simp [hproto, hname, hplace]
    · next hother =>
      obtain ⟨table', hresult, hlooks⟩ := ih h hplaces.2 htable'
      refine ⟨table', hresult, fun name => ?_⟩
      have hplace : place entry ≠ (schema, tableName, name) := by
        intro hplace
        rw [hplace] at hother
        exact hother ⟨rfl, rfl⟩
      rw [hlooks]
      simp [hplace]

/-- Entries that all write a value. -/
theorem applyEntries_look_map (look : TableSnapshot → String → Option β) (value : ε → β)
    (h : applyEntries place primary change schemas entries = some result)
    (hplaces : entries.Pairwise fun entry entry' => place entry ≠ place entry')
    (hlook : ∀ entry table name, look (change entry table) name =
      if (place entry).2.2 = name ∧ name ≠ "__proto__" then some (value entry)
      else look table name)
    {schema tableName : String} {table : TableSnapshot}
    (htable : schemas.table? schema tableName = some table) :
    ∃ table', result.table? schema tableName = some table' ∧ ∀ name, look table' name =
      if name = "__proto__" then look table name
      else ((entries.find? fun entry => place entry = (schema, tableName, name)).map value).or
        (look table name) := by
  obtain ⟨table', hresult, hlooks⟩ := applyEntries_look look (fun entry => some (value entry)) h
    hplaces (fun entry table name => by rw [hlook, Option.some_or]) htable
  refine ⟨table', hresult, fun name => ?_⟩
  rw [hlooks, Option.map_eq_bind]
  rfl

/-- The entry of a place is found where entries have places of their own. -/
theorem find?_place (hnodup : (entries.map place).Nodup) {entry : ε} (hmem : entry ∈ entries) :
    (entries.find? fun other => place other = place entry) = some entry := by
  induction entries with
  | nil => cases hmem
  | cons first entries ih =>
    rw [List.map_cons, List.nodup_cons] at hnodup
    rcases List.mem_cons.1 hmem with rfl | hmem
    · exact List.find?_cons_of_pos (decide_eq_true rfl)
    · have hne : place first ≠ place entry := fun hsame =>
        hnodup.1 (hsame ▸ List.mem_map_of_mem hmem)
      rw [List.find?_cons_of_neg (by simpa using hne), ih hnodup.2 hmem]

end SharedTsLibs.DrizzleUtils
