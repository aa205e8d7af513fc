import SharedTsLibs.Lib.NumericText
import SharedTsLibs.Lib.PlainObject
import Mathlib.Data.List.Induction

/-!
# Schema snapshots

`snapshot-schema/types.ts` and `shared.ts`: the parts of a snapshot that keys and indexes are
written to, and how the rows of a catalog query are read.

* `CatalogValue`, `CatalogRow` — a row as the driver returns it.
* `asString`, `asBool`, `normalizeAction` — what a value of a row is read as.
* `TableSnapshot`, `SchemaContents`, `Schemas` — the tables of the schemas of a snapshot.
* `updateTable` — a change to a table that the snapshot has.
* `loadTables` — the tables that a catalog lists, all empty at first.

The columns, enums and sequences of a snapshot are left out.
-/

namespace SharedTsLibs.DrizzleUtils

/-! ## Rows -/

/-- A value in a row of a catalog query. -/
inductive CatalogValue where
  | null
  | bool (b : Bool)
  | num (n : JsNumber)
  | str (s : String)
  | arr (items : List CatalogValue)

/-- A row; a column that is not there reads `undefined`. -/
abbrev CatalogRow := List (String × CatalogValue)

/-- What the runtime makes of numbers and of letters. -/
structure CatalogRuntime where
  rounding : JsNumber.Rounding
  numberToString : JsNumber → String
  toUpperCase : String → String

/-- A runtime for the letters of ASCII and whole numbers. -/
def CatalogRuntime.ascii : CatalogRuntime where
  rounding := JsNumber.overflowing
  numberToString := JsRuntime.ascii.numberToString
  toUpperCase s := .ofList (s.toList.map Char.toUpper)

/-- `row[column]` -/
def readColumn (row : CatalogRow) (column : String) : Option CatalogValue :=
  OrderedMap.get? row column

/-- `a ?? b` -/
def coalesce : Option CatalogValue → Option CatalogValue → Option CatalogValue
  | none, b | some .null, b => b
  | a, _ => a

section Values

variable (runtime : CatalogRuntime)

mutual

/-- `String(value)` -/
def CatalogValue.text : CatalogValue → String
  | .null => "null"
  | .bool b => if b then "true" else "false"
  | .num n => runtime.numberToString n
  | .str s => s
  | .arr items => ",".intercalate (CatalogValue.itemTexts items)

/-- The elements of an array as its `join` writes them. -/
def CatalogValue.itemTexts : List CatalogValue → List String
  | [] => []
  | .null :: items => "" :: CatalogValue.itemTexts items
  | item :: items => item.text :: CatalogValue.itemTexts items

end

/-- `Number(value)` -/
def toNumber : Option CatalogValue → JsNumber
  | none => .nan
  | some .null => 0
  | some (.bool b) => if b then 1 else 0
  | some (.num n) => n
  | some (.str s) => NumericText.number runtime.rounding s
  | some (.arr items) => NumericText.number runtime.rounding ((CatalogValue.arr items).text runtime)

def asString : Option CatalogValue → String
  | none | some .null => ""
  | some value => value.text runtime

def asNullableString : Option CatalogValue → Option String
  | none | some .null => none
  | some value => some (value.text runtime)

end Values

def asBool : Option CatalogValue → Bool
  | some (.bool b) => b
  | some (.num n) => n = 1
  | some (.str s) => s ∈ ["1", "YES", "yes", "t", "true"]
  | _ => false

inductive ForeignKeyAction where
  | noAction
  | restrict
  | cascade
  | setNull
  | setDefault
  deriving DecidableEq

def normalizeAction (runtime : CatalogRuntime) (action : String) : ForeignKeyAction :=
  if action = "" then .noAction
  else
    match runtime.toUpperCase action with
    | "NO ACTION" => .noAction
    | "RESTRICT" => .restrict
    | "CASCADE" => .cascade
    | "SET NULL" => .setNull
    | "SET DEFAULT" => .setDefault
    | _ => .noAction

/-! ## Snapshots -/

structure PrimaryKeySnapshot where
  name : String
  columns : List String

structure UniqueConstraintSnapshot where
  columns : List String
  deferrable : Option Bool := none

structure ForeignKeySnapshot where
  columns : List String
  referencedSchema : String
  referencedTable : String
  referencedColumns : List String
  onUpdate : ForeignKeyAction
  onDelete : ForeignKeyAction

structure CheckConstraintSnapshot where
  expression : String

structure IndexSnapshot where
  columns : List String
  unique : Bool
  method : String
  /-- The predicate, `null` or a text, where there is such a property. -/
  predicate : Option (Option String) := none

structure TableSnapshot where
  primaryKey : Option PrimaryKeySnapshot
  uniqueConstraints : PlainObject UniqueConstraintSnapshot
  foreignKeys : PlainObject ForeignKeySnapshot
  checkConstraints : PlainObject CheckConstraintSnapshot
  indexes : PlainObject IndexSnapshot

def emptyTable : TableSnapshot := ⟨none, .empty, .empty, .empty, .empty⟩

structure SchemaContents where
  tables : PlainObject TableSnapshot

def emptySchemaContents : SchemaContents := ⟨.empty⟩

/-- `snapshot.schemas`: its entries, and the contents that were assigned under `__proto__`.
These are no entry, they have become the prototype. -/
structure Schemas where
  entries : PlainObject SchemaContents
  prototype : Option SchemaContents

/-- `{}` -/
def Schemas.empty : Schemas := ⟨.empty, none⟩

/-- `snapshot.schemas[schema] = contents` -/
def Schemas.assign (schemas : Schemas) (schema : String) (contents : SchemaContents) : Schemas :=
  if schema = "__proto__" then { schemas with prototype := some contents }
  else { schemas with entries := schemas.entries.assign schema contents }

/-- `snapshot.schemas[schema]`.  The properties of a prototype are left out: a schema whose name
is one of them is an entry where it is asked for. -/
def Schemas.access (schemas : Schemas) (schema : String) : Property SchemaContents :=
  match schemas.entries.access schema, schemas.prototype with
  | .inherited, some contents => if schema = "__proto__" then .own contents else .inherited
  | found, _ => found

/-- The contents of a schema are changed in place. -/
def Schemas.modify (schemas : Schemas) (schema : String) (f : SchemaContents → SchemaContents) :
    Schemas where
  entries := schemas.entries.modify schema f
  prototype := if schema = "__proto__" then schemas.prototype.map f else schemas.prototype

/-- The table of a snapshot. -/
def Schemas.table? (schemas : Schemas) (schema table : String) : Option TableSnapshot :=
  (schemas.entries.own? schema).bind fun contents => contents.tables.own? table

/-- A table is changed in place. -/
def Schemas.modifyTable (schemas : Schemas) (schema table : String)
    (f : TableSnapshot → TableSnapshot) : Schemas :=
  schemas.modify schema fun contents => { tables := contents.tables.modify table f }

/-- `snapshot.schemas[schema]?.tables[tableName]` is looked up and changed when there is one;
`none` stands for a `TypeError`.  A function that an object inherits is no table: the primary
key is set on it to no effect, and its other properties are not there to write to. -/
def updateTable (schemas : Schemas) (schema tableName : String) (setsPrimaryKey : Bool)
    (f : TableSnapshot → TableSnapshot) : Option Schemas :=
  match schemas.access schema with
  | .absent => some schemas
  | .inherited => none
  | .own contents =>
    match contents.tables.access tableName with
    | .absent => some schemas
    | .inherited => if setsPrimaryKey then some schemas else none
    | .own _ => some (schemas.modifyTable schema tableName f)

/-- Only names that objects inherit are found at the prototype of all objects. -/
theorem Schemas.mem_of_access_eq_inherited {schemas : Schemas} {schema : String}
    (h : schemas.access schema = .inherited) : schema ∈ PlainObject.inheritedNames := by
  unfold Schemas.access at h
  split at h
  · next haccess _ => exact (PlainObject.access_eq_inherited_iff.1 haccess).2
  · exact (PlainObject.access_eq_inherited_iff.1 h).2

theorem Schemas.access_of_own? {schemas : Schemas} {schema : String} {contents : SchemaContents}
    (h : schemas.entries.own? schema = some contents) : schemas.access schema = .own contents := by
  rw [Schemas.access, PlainObject.access_eq_own_iff.2 h]

theorem table?_modifyTable {schemas : Schemas} {schema table schema' table' : String}
    {f : TableSnapshot → TableSnapshot} :
    (schemas.modifyTable schema table f).table? schema' table' =
      if schema = schema' ∧ table = table' then (schemas.table? schema' table').map f
      else schemas.table? schema' table' := by
  unfold Schemas.table? Schemas.modifyTable Schemas.modify
  dsimp only
  rw [PlainObject.own?_modify]
  by_cases hschema : schema = schema'
  · rw [if_pos hschema]
    cases hcontents : schemas.entries.own? schema' with
    | none => simp
    | some contents =>
      simp only [Option.map_some, Option.bind_some, PlainObject.own?_modify]
      simp [hschema]
  · rw [if_neg hschema, if_neg fun h => hschema h.1]

/-- Names that are not inherited raise no error. -/
theorem exists_updateTable {schema tableName : String}
    (hschema : schema ∉ PlainObject.inheritedNames)
    (htable : tableName ∉ PlainObject.inheritedNames) (schemas : Schemas) (primary : Bool)
    (f : TableSnapshot → TableSnapshot) :
    ∃ schemas', updateTable schemas schema tableName primary f = some schemas' := by
  unfold updateTable
  split
  · exact ⟨_, rfl⟩
  · next haccess => exact absurd (Schemas.mem_of_access_eq_inherited haccess) hschema
  · split
    · exact ⟨_, rfl⟩
    · next haccess => exact absurd (PlainObject.access_eq_inherited_iff.1 haccess).2 htable
    · exact ⟨_, rfl⟩

/-- A table that the snapshot has is changed. -/
theorem updateTable_of_table? {schemas : Schemas} {schema tableName : String}
    {table : TableSnapshot} (h : schemas.table? schema tableName = some table) (primary : Bool)
    (f : TableSnapshot → TableSnapshot) :
    updateTable schemas schema tableName primary f =
      some (schemas.modifyTable schema tableName f) := by
  obtain ⟨contents, hcontents, htable⟩ := Option.bind_eq_some_iff.1 h
  rw [updateTable, Schemas.access_of_own? hcontents]
  dsimp only
  rw [PlainObject.access_eq_own_iff.2 htable]

/-- Whatever is looked up, no other table is changed. -/
theorem table?_of_updateTable {schemas schemas' : Schemas} {schema tableName : String}
    {primary : Bool} {f : TableSnapshot → TableSnapshot}
    (h : updateTable schemas schema tableName primary f = some schemas') (schema' table' : String) :
    schemas'.table? schema' table' =
      if schema = schema' ∧ tableName = table' then (schemas.table? schema' table').map f
      else schemas.table? schema' table' := by
  have hskip : schemas.table? schema tableName = none → schemas.table? schema' table' =
      if schema = schema' ∧ tableName = table' then (schemas.table? schema' table').map f
      else schemas.table? schema' table' := by
    intro hnone
    split
    · next hsame =>
      obtain ⟨rfl, rfl⟩ := hsame
      rw [hnone]
      rfl
    · rfl
  cases htable : schemas.table? schema tableName with
  | some table =>
    rw [updateTable_of_table? htable] at h
    cases h
    exact table?_modifyTable
  | none =>
    unfold updateTable at h
    split at h
    · cases h
      exact hskip htable
    · cases h
    · split at h
      · cases h
        exact hskip htable
      · split at h
        · cases h
          exact hskip htable
        · cases h
      · cases h
        exact table?_modifyTable

/-! ## Tables -/

/-- `ensureTable`: a table is made when there is no property of its name. -/
def ensureTable (contents : SchemaContents) (tableName : String) : SchemaContents :=
  match contents.tables.access tableName with
  | .absent => { tables := contents.tables.assign tableName emptyTable }
  | .inherited | .own _ => contents

/-- The body of the loop over the tables of the catalog. -/
def addTable (schemas : Schemas) (schema name : String) : Option Schemas :=
  match schemas.access schema with
  | .absent => some schemas
  | .inherited => none
  | .own _ => some (schemas.modify schema fun contents => ensureTable contents name)

theorem exists_addTable {schema : String} (hschema : schema ∉ PlainObject.inheritedNames)
    (schemas : Schemas) (name : String) :
    ∃ schemas', addTable schemas schema name = some schemas' := by
  unfold addTable
  split
  · exact ⟨_, rfl⟩
  · next haccess => exact absurd (Schemas.mem_of_access_eq_inherited haccess) hschema
  · exact ⟨_, rfl⟩

/-- The schemas that were asked for, without tables. -/
def requestedSchemas (schemaList : List String) : Schemas :=
  schemaList.foldl (fun schemas schema => schemas.assign schema emptySchemaContents) .empty

/-- The schemas that were asked for with the tables that the catalog lists. -/
def loadTables (schemaList : List String) (tables : List (String × String)) : Option Schemas :=
  tables.foldlM (fun schemas table => addTable schemas table.1 table.2)
    (requestedSchemas schemaList)

theorem table?_assign_schema {schemas : Schemas} {schema schema' tableName : String}
    {table : TableSnapshot}
    (h : (schemas.assign schema emptySchemaContents).table? schema' tableName = some table) :
    schemas.table? schema' tableName = some table := by
  unfold Schemas.table? Schemas.assign at h
  split at h
  · exact h
  · dsimp only at h
    rw [PlainObject.own?_assign] at h
    split at h
    · simp [emptySchemaContents] at h
    · exact h

theorem table?_requestedSchemas (schemaList : List String) (schema tableName : String) :
    Schemas.table? (requestedSchemas schemaList) schema tableName = none := by
  induction schemaList using List.reverseRecOn with
  | nil => rfl
  | append_singleton schemaList last ih =>
    rw [Option.eq_none_iff_forall_ne_some] at ih ⊢
    intro table htable
    rw [requestedSchemas, List.foldl_concat] at htable
    exact ih table (table?_assign_schema htable)

/-- A table was there before, or it is the new one and empty. -/
theorem table?_of_addTable {schemas schemas' : Schemas} {schema name : String}
    (h : addTable schemas schema name = some schemas') {schema' tableName : String}
    {table : TableSnapshot} (htable : schemas'.table? schema' tableName = some table) :
    schemas.table? schema' tableName = some table ∨
      (schema', tableName) = (schema, name) ∧ table = emptyTable := by
  unfold addTable at h
  split at h
  · cases h
    exact .inl htable
  · cases h
  · cases h
    unfold Schemas.table? Schemas.modify at htable
    dsimp only at htable
    rw [PlainObject.own?_modify] at htable
    unfold Schemas.table?
    split at htable
    · next hschema =>
      obtain ⟨contents', hcontents, htable⟩ := Option.bind_eq_some_iff.1 htable
      obtain ⟨contents, hown, rfl⟩ := Option.map_eq_some_iff.1 hcontents
      rw [hown, Option.bind_some]
      unfold ensureTable at htable
      split at htable
      · rw [PlainObject.own?_assign] at htable
        split at htable
        · next hname =>
          cases htable
          exact .inr ⟨by rw [hschema, hname.1], rfl⟩
        · exact .inl htable
      · exact .inl htable
      · exact .inl htable
    · exact .inl htable

/-- The tables of a snapshot are among those that the catalog lists, and empty at first. -/
theorem table?_of_loadTables {schemaList : List String} {tables : List (String × String)}
    {schemas : Schemas} (h : loadTables schemaList tables = some schemas)
    {schema tableName : String} {table : TableSnapshot}
    (htable : schemas.table? schema tableName = some table) :
    (schema, tableName) ∈ tables ∧ table = emptyTable := by
  have hstart := table?_requestedSchemas schemaList schema tableName
  unfold loadTables at h
  generalize requestedSchemas schemaList = start at h hstart
  have hrun : start.table? schema tableName = some table ∨
      (schema, tableName) ∈ tables ∧ table = emptyTable := by
    clear hstart
    induction tables generalizing start with
    | nil =>
      cases h
      exact .inl htable
    | cons first tables ih =>
      rw [List.foldlM_cons] at h
      obtain ⟨next, hnext, h⟩ := Option.bind_eq_some_iff.1 h
      rcases ih next h with hold | ⟨hmem, hempty⟩
      · exact (table?_of_addTable hnext hold).imp_right fun ⟨hsame, hempty⟩ =>
          ⟨hsame ▸ .head _, hempty⟩
      · exact .inr ⟨.tail _ hmem, hempty⟩
  rw [hstart] at hrun
  exact hrun.resolve_left nofun

end SharedTsLibs.DrizzleUtils
