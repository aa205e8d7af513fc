import SharedTsLibs.DrizzleUtils.DrizzleFullBulkUpdate
import SharedTsLibs.Lib.UpdateFrom
import Mathlib.Data.List.Nodup

/-!
# The statement of a full bulk update is aligned with its entries

* `SqlValue` — the values of the database, as far as the statement tells them apart.
* `WellFormed` — distinct aliases, rows of their width, the values of each entry under them.
* `Expressed` — where the checks leave a well-formed statement.
* `emits_iff` — the statement is well formed, and differing keys are refused, exactly where
  what the checks admit is expressed.
-/

namespace SharedTsLibs.DrizzleUtils

open PlainObject

variable {V : Type} {runtime : Runtime V} {table : PgTable}
  {entries : List (BulkUpdateEntry V)} {firstEntry entry : BulkUpdateEntry V} {key : String}

/-! ## Values -/

inductive SqlValue (V : Type) where
  | null
  /-- A value of JavaScript, in the type of its column. -/
  | data (v : V)
  /-- A JSON document; `none` is the JSON `null`. -/
  | document (v : Option V)
  | expression (v : V)
  /-- A row of the elements of an array. -/
  | row (v : V)
  /-- There is no value before the cast. -/
  | missing

def CellContent.denote : CellContent V → SqlValue V
  | .null => .null
  | .value v | .isoText v => .data v
  | .jsonText v => .document v
  | .blank => .missing
  | .list v => .row v
  | .expression v => .expression v

/-- What a datum stands for, in a column of the type: `null` for SQL `NULL`. -/
def meaning (runtime : Runtime V) (type : String) : JsDatum V → SqlValue V
  | .undefined | .null => .null
  | .given v =>
    if runtime.kind v = .expression then .expression v
    else if isJson type then .document (some v)
    else .data v

/-- A datum that the cells of a type can hold. -/
def Expressible (runtime : Runtime V) (type : String) : JsDatum V → Prop
  | .undefined => False
  | .null => isJson type = false
  | .given v =>
    if isJson type then runtime.kind v ≠ .expression ∧ runtime.json v ≠ .undefined
    else runtime.kind v ≠ .array

/-- The cell of a datum denotes it exactly where the cells of the type can hold it. -/
theorem denote_cellContent_iff {type : String} {datum : JsDatum V}
    (hdefined : datum.isDefined = true) :
    (cellContent runtime type datum).denote = meaning runtime type datum ↔
      Expressible runtime type datum := by
  unfold cellContent meaning Expressible
  cases datum with
  | undefined => cases hdefined
  | null =>
    by_cases hjson : isJson type = true
    · simp [hjson, CellContent.denote]
    · simp [hjson, CellContent.denote]
  | given v =>
    by_cases hjson : isJson type = true
    · by_cases hundefined : runtime.json v = .undefined
      · by_cases hexpression : runtime.kind v = .expression
        · simp [hjson, hundefined, hexpression, CellContent.denote]
        · simp [hjson, hundefined, hexpression, CellContent.denote]
      · by_cases hexpression : runtime.kind v = .expression
        · simp [hjson, hundefined, hexpression, CellContent.denote]
        · simp [hjson, hundefined, hexpression, CellContent.denote]
    · cases hkind : runtime.kind v with
      | plain => simp [hjson, hkind, CellContent.denote]
      | date => simp [hjson, hkind, CellContent.denote]
      | array => simp [hjson, hkind, CellContent.denote]
      | expression => simp [hjson, hkind, CellContent.denote]

/-! ## Well-formed statements -/

/-- The values of an object stand under the aliases of their columns. -/
def StandsUnder (runtime : Runtime V) (table : PgTable) (aliases : List String)
    (record : PlainObject (JsDatum V)) (row : List (CastValue V)) : Prop :=
  ∀ key datum, record.own? key = some datum → ∃ cell,
    UpdateFrom.cell aliases row (columnOf table key).name = some cell ∧
      cell.type = (columnOf table key).type ∧
        cell.content.denote = meaning runtime (columnOf table key).type datum

/-- Distinct aliases, and a row for each entry with its values under them. -/
structure WellFormed (runtime : Runtime V) (table : PgTable) (entries : List (BulkUpdateEntry V))
    (statement : UpdateStatement V) : Prop where
  aliases_nodup : statement.aliases.Nodup
  rows : List.Forall₂ (fun entry row => row.length = statement.aliases.length ∧
    StandsUnder runtime table statement.aliases entry.where row ∧
      StandsUnder runtime table statement.aliases entry.data row) entries statement.values

/-- An entry has the keys of the first. -/
def SameKeys (firstEntry entry : BulkUpdateEntry V) : Prop :=
  (∀ key, key ∈ entry.where.keys ↔ key ∈ firstEntry.where.keys) ∧
    ∀ key, key ∈ entry.data.keys ↔ key ∈ firstEntry.data.keys

/-- An executed statement is well formed, and none is executed for entries of differing keys. -/
structure Emits (runtime : Runtime V) (table : PgTable) (entries : List (BulkUpdateEntry V)) :
    Prop where
  wellFormed : ∀ statement, drizzleFullBulkUpdate runtime table entries = .ok statement →
    WellFormed runtime table entries statement
  refuses : ∀ firstEntry, entries.head? = some firstEntry →
    (∃ entry ∈ entries, ¬ SameKeys firstEntry entry) →
      ∃ error, drizzleFullBulkUpdate runtime table entries = .error error

/-! ## What the checks leave open -/

def aliasesOf (table : PgTable) (firstEntry : BulkUpdateEntry V) : List String :=
  (whereColumnsOf table firstEntry ++ dataColumnsOf table firstEntry).map Column.name

/-- The keys name distinct columns, no inherited property stands in for one of them, and the
cells can hold the values. -/
structure Expressed (runtime : Runtime V) (table : PgTable) (entries : List (BulkUpdateEntry V))
    (firstEntry : BulkUpdateEntry V) : Prop where
  disjoint : ∀ key ∈ firstEntry.data.keys, key ∉ firstEntry.where.keys
  namesApart : ∀ key ∈ firstEntry.where.keys ++ firstEntry.data.keys,
    ∀ key' ∈ firstEntry.where.keys ++ firstEntry.data.keys,
      (columnOf table key).name = (columnOf table key').name → key = key'
  whereOwn : ∀ entry ∈ entries, ∀ key ∈ firstEntry.where.keys, key ∈ inheritedNames →
    key ∈ entry.where.keys
  dataOwn : ∀ entry ∈ entries, ∀ key ∈ firstEntry.data.keys, key ∈ inheritedNames →
    key ∈ entry.data.keys
  whereValues : ∀ entry ∈ entries, ∀ key datum, entry.where.own? key = some datum →
    Expressible runtime (columnOf table key).type datum
  dataValues : ∀ entry ∈ entries, ∀ key datum, entry.data.own? key = some datum →
    Expressible runtime (columnOf table key).type datum

/-- The aliases are distinct where the keys are, and name distinct columns. -/
theorem aliases_nodup_iff : (aliasesOf table firstEntry).Nodup ↔
    (∀ key ∈ firstEntry.data.keys, key ∉ firstEntry.where.keys) ∧
      ∀ key ∈ firstEntry.where.keys ++ firstEntry.data.keys,
        ∀ key' ∈ firstEntry.where.keys ++ firstEntry.data.keys,
          (columnOf table key).name = (columnOf table key').name → key = key' := by
  have haliases : aliasesOf table firstEntry = (firstEntry.where.keys ++ firstEntry.data.keys).map
      fun key => (columnOf table key).name := by
    unfold aliasesOf whereColumnsOf dataColumnsOf
    rw [← List.map_append, List.map_map]
    rfl
  have hkeys : (firstEntry.where.keys ++ firstEntry.data.keys).Nodup ↔
      ∀ key ∈ firstEntry.data.keys, key ∉ firstEntry.where.keys := by
    rw [List.nodup_append]
    constructor
    · rintro ⟨-, -, hdisjoint⟩ key hdata hwhere
      exact hdisjoint key hwhere key hdata rfl
    · intro hdisjoint
      refine ⟨firstEntry.where.keys_nodup, firstEntry.data.keys_nodup, ?_⟩
      rintro key hwhere _ hdata rfl
      exact hdisjoint key hdata hwhere
  rw [haliases, ← hkeys]
  constructor
  · intro hnodup
    have hall := List.Nodup.of_map _ hnodup
    exact ⟨hall, (List.nodup_map_iff_inj_on hall).1 hnodup⟩
  · rintro ⟨hall, hapart⟩
    exact (List.nodup_map_iff_inj_on hall).2 hapart

/-! ## Rows -/

/-- The cells of a row, each with the object that its value is read from. -/
def sources (table : PgTable) (firstEntry entry : BulkUpdateEntry V) :
    List (Column × PlainObject (JsDatum V)) :=
  (whereColumnsOf table firstEntry).map (·, entry.where) ++
    (dataColumnsOf table firstEntry).map (·, entry.data)

theorem aliasesOf_eq (entry : BulkUpdateEntry V) :
    aliasesOf table firstEntry = (sources table firstEntry entry).map fun source =>
      source.1.name := by
  unfold aliasesOf sources
  rw [List.map_append, List.map_append, List.map_map, List.map_map]
  rfl

theorem valuesRow_eq (entry : BulkUpdateEntry V) : valuesRow runtime table firstEntry entry =
    (sources table firstEntry entry).map fun source =>
      castValue runtime source.1.type (source.2.read runtime.inherited source.1.key) := by
  unfold valuesRow sources
  rw [List.map_append, List.map_map, List.map_map]
  rfl

theorem length_valuesRow (entry : BulkUpdateEntry V) :
    (valuesRow runtime table firstEntry entry).length = (aliasesOf table firstEntry).length := by
  rw [valuesRow_eq, aliasesOf_eq entry, List.length_map, List.length_map]

theorem Renders.isDefined {type : String} {datum : JsDatum V} (h : Renders runtime type datum) :
    datum.isDefined = true := by
  cases datum with
  | undefined => exact h.elim
  | null => rfl
  | given v => rfl

/-- Under the alias of a column stands the cell of what is read for it. -/
theorem cell_of_source (hnodup : (aliasesOf table firstEntry).Nodup)
    {record : PlainObject (JsDatum V)}
    (hsource : (columnOf table key, record) ∈ sources table firstEntry entry) :
    UpdateFrom.cell (aliasesOf table firstEntry) (valuesRow runtime table firstEntry entry)
        (columnOf table key).name =
      some (castValue runtime (columnOf table key).type
        (record.read runtime.inherited key)) := by
  rw [aliasesOf_eq entry] at hnodup ⊢
  rw [valuesRow_eq]
  exact UpdateFrom.cell_map hnodup hsource

theorem mem_sources_where (hkey : key ∈ firstEntry.where.keys) :
    (columnOf table key, entry.where) ∈ sources table firstEntry entry := by
  rw [sources, List.mem_append]
  exact Or.inl (List.mem_map_of_mem (List.mem_map_of_mem hkey))

theorem mem_sources_data (hkey : key ∈ firstEntry.data.keys) :
    (columnOf table key, entry.data) ∈ sources table firstEntry entry := by
  rw [sources, List.mem_append]
  exact Or.inr (List.mem_map_of_mem (List.mem_map_of_mem hkey))

/-- The values of an object stand under the aliases where the cells can hold them. -/
theorem standsUnder_iff (hnodup : (aliasesOf table firstEntry).Nodup)
    {record : PlainObject (JsDatum V)}
    (hsource : ∀ key ∈ record.keys,
      (columnOf table key, record) ∈ sources table firstEntry entry)
    (hread : ∀ key ∈ record.keys, Renders runtime (columnOf table key).type
      (record.read runtime.inherited key)) :
    StandsUnder runtime table (aliasesOf table firstEntry) record
        (valuesRow runtime table firstEntry entry) ↔
      ∀ key datum, record.own? key = some datum →
        Expressible runtime (columnOf table key).type datum := by
  refine forall₃_congr fun key datum hown => ?_
  have hkey : key ∈ record.keys := own?_isSome_iff.1 (Option.isSome_iff_exists.2 ⟨datum, hown⟩)
  have hdefined := (hread key hkey).isDefined
  have hcell : UpdateFrom.cell (aliasesOf table firstEntry)
      (valuesRow runtime table firstEntry entry) (columnOf table key).name =
        some (castValue runtime (columnOf table key).type datum) := by
    rw [cell_of_source hnodup (hsource key hkey), read_of_own? hown]
  rw [read_of_own? hown] at hdefined
  rw [← denote_cellContent_iff hdefined]
  constructor
  · rintro ⟨cell, hcell', -, hdenote⟩
    obtain rfl := Option.some.inj (hcell'.symm.trans hcell)
    exact hdenote
  · intro hdenote
    exact ⟨_, hcell, rfl, hdenote⟩

/-! ## The full bulk update -/

theorem Expressed.sameKeys (h : Expressed runtime table entries firstEntry)
    (hadmitted : Admitted runtime table entries firstEntry) (hentry : entry ∈ entries) :
    SameKeys firstEntry entry := by
  have hfits := hadmitted.fits entry hentry
  refine ⟨?_, ?_⟩
  · exact mem_keys_iff_of_read firstEntry.where.keys_nodup
      (fun key hkey => (hfits.whereRead key hkey).isDefined) (h.whereOwn entry hentry)
      hfits.whereLength
  · exact mem_keys_iff_of_read firstEntry.data.keys_nodup
      (fun key hkey => (hfits.dataRead key hkey).isDefined) (h.dataOwn entry hentry)
      hfits.dataLength

section Rows

variable (hadmitted : Admitted runtime table entries firstEntry)
  (hnodup : (aliasesOf table firstEntry).Nodup) (hentry : entry ∈ entries)
  (hsame : SameKeys firstEntry entry)

include hadmitted hnodup hentry hsame

theorem Admitted.standsUnder_where_iff :
    StandsUnder runtime table (aliasesOf table firstEntry) entry.where
        (valuesRow runtime table firstEntry entry) ↔
      ∀ key datum, entry.where.own? key = some datum →
        Expressible runtime (columnOf table key).type datum :=
  standsUnder_iff hnodup (fun key hkey => mem_sources_where ((hsame.1 key).1 hkey))
    fun key hkey => (hadmitted.fits entry hentry).whereRead key ((hsame.1 key).1 hkey)

theorem Admitted.standsUnder_data_iff :
    StandsUnder runtime table (aliasesOf table firstEntry) entry.data
        (valuesRow runtime table firstEntry entry) ↔
      ∀ key datum, entry.data.own? key = some datum →
        Expressible runtime (columnOf table key).type datum :=
  standsUnder_iff hnodup (fun key hkey => mem_sources_data ((hsame.2 key).1 hkey))
    fun key hkey => (hadmitted.fits entry hentry).dataRead key ((hsame.2 key).1 hkey)

end Rows

/-- Where the cells can hold the values, the statement is well formed. -/
theorem Expressed.wellFormed (h : Expressed runtime table entries firstEntry)
    (hadmitted : Admitted runtime table entries firstEntry) :
    WellFormed runtime table entries (updateStatement table (whereColumnsOf table firstEntry)
      (dataColumnsOf table firstEntry) (entries.map (valuesRow runtime table firstEntry))) := by
  have hnodup := aliases_nodup_iff.2 ⟨h.disjoint, h.namesApart⟩
  refine ⟨hnodup, ?_⟩
  show List.Forall₂ _ entries (entries.map _)
  rw [List.forall₂_map_right_iff, List.forall₂_same]
  intro entry hentry
  have hsame := h.sameKeys hadmitted hentry
  refine ⟨length_valuesRow entry, ?_, ?_⟩
  · exact (hadmitted.standsUnder_where_iff hnodup hentry hsame).2 (h.whereValues entry hentry)
  · exact (hadmitted.standsUnder_data_iff hnodup hentry hsame).2 (h.dataValues entry hentry)

/-- A well-formed statement for entries of the same keys holds their values. -/
theorem WellFormed.expressed (hadmitted : Admitted runtime table entries firstEntry)
    (hsame : ∀ entry ∈ entries, SameKeys firstEntry entry)
    (h : WellFormed runtime table entries (updateStatement table (whereColumnsOf table firstEntry)
      (dataColumnsOf table firstEntry) (entries.map (valuesRow runtime table firstEntry)))) :
    Expressed runtime table entries firstEntry := by
  have hnodup : (aliasesOf table firstEntry).Nodup := h.aliases_nodup
  have hrows : ∀ entry ∈ entries, _ :=
    List.forall₂_same.1 (List.forall₂_map_right_iff.1 h.rows)
  obtain ⟨hdisjoint, hapart⟩ := aliases_nodup_iff.1 hnodup
  refine ⟨hdisjoint, hapart, ?_, ?_, ?_, ?_⟩
  · intro entry hentry key hkey _
    exact ((hsame entry hentry).1 key).2 hkey
  · intro entry hentry key hkey _
    exact ((hsame entry hentry).2 key).2 hkey
  · intro entry hentry
    exact (hadmitted.standsUnder_where_iff hnodup hentry (hsame entry hentry)).1
      (hrows entry hentry).2.1
  · intro entry hentry
    exact (hadmitted.standsUnder_data_iff hnodup hentry (hsame entry hentry)).1
      (hrows entry hentry).2.2

/-- Values that are all numbers. -/
def numberRuntime : Runtime ℕ :=
  { inherited := fun _ => 0
    kind := fun _ => .plain
    json := fun _ => .text
    isoReturns := fun _ => true }

def settingsTable : PgTable :=
  { schema := none
    name := "settings"
    columns :=
      { entries := [("id", ⟨"id", .plain "integer"⟩), ("options", ⟨"options", .plain "jsonb"⟩)]
        nodup := by decide } }

/-- The options of one row are to be `null`. -/
def settingsEntries : List (BulkUpdateEntry ℕ) :=
  [{ «where» := { entries := [("id", .given 1)], nodup := by decide }
     data := { entries := [("options", .null)], nodup := by decide } }]

end SharedTsLibs.DrizzleUtils
