import SharedTsLibs.Lib.Fallible
import SharedTsLibs.Lib.JsDatum

/-!
# The full bulk update of Drizzle

`drizzleFullBulkUpdate.ts`: many rows updated by one `UPDATE … FROM (VALUES …)`.

* `toSqlCastValue` — the cell of a value, by the type of its column.
* `getColumns` — the columns of the table under some keys.
* `prepareSqlValuesExpressions` — a row of cells for each entry.
* `drizzleFullBulkUpdate` — the checks, and then the statement that is executed.
* `drizzleFullBulkUpdate_eq_ok` — exactly when a statement is executed, and which.
-/

namespace SharedTsLibs.DrizzleUtils

open Fallible

/-! ## Tables and entries -/

inductive ColumnType where
  | enum (schema : Option String) (enumName : String)
  /-- What `getSQLType` gives. -/
  | plain (sqlType : String)

structure TableColumn where
  name : String
  columnType : ColumnType

structure PgTable where
  schema : Option String
  name : String
  columns : PlainObject TableColumn

structure BulkUpdateEntry (V : Type) where
  «where» : PlainObject (JsDatum V)
  data : PlainObject (JsDatum V)

structure Column where
  key : String
  name : String
  type : String

/-- The values that are written into a statement. -/
inductive ValueKind where
  | plain
  | date
  | array
  /-- A fragment of SQL, or a column. -/
  | expression
  deriving DecidableEq

/-- `JSON.stringify` of a value. -/
inductive Stringified where
  | throws
  | undefined
  | text
  deriving DecidableEq

/-- The values of a run. -/
structure Runtime (V : Type) where
  /-- The properties that every object inherits. -/
  inherited : String → V
  kind : V → ValueKind
  json : V → Stringified
  /-- `toISOString` throws on an invalid date. -/
  isoReturns : V → Bool

inductive BulkUpdateError where
  | entriesEmpty
  | notMapped (column : String)
  /-- An inherited property is no column. -/
  | notAColumn
  | whereEmpty
  | dataEmpty
  | whereMismatch (expected got : List String)
  | dataMismatch (expected got : List String)
  /-- Thrown by `JSON.stringify`. -/
  | notSerializable
  /-- Thrown by `toISOString`. -/
  | invalidDate
  deriving DecidableEq

def BulkUpdateError.message : BulkUpdateError → Option String
  | .entriesEmpty => some "Entries array must not be empty"
  | .notMapped column => some ("Column \"" ++ column ++ "\" could not be mapped to table")
  | .whereEmpty => some "Entry \"where\" object must not be empty"
  | .dataEmpty => some "Entry \"data\" object must not be empty"
  | .whereMismatch expected got =>
    some ("Mismatch in 'where' columns. Expected [" ++ ",".intercalate expected ++ "], got [" ++
      ",".intercalate got ++ "]")
  | .dataMismatch expected got =>
    some ("Mismatch in 'data' columns. Expected [" ++ ",".intercalate expected ++ "], got [" ++
      ",".intercalate got ++ "]")
  | .notAColumn | .notSerializable | .invalidDate => none

variable {V : Type}

/-! ## Cells -/

/-- What stands before the cast. -/
inductive CellContent (V : Type) where
  /-- The parameter `null`. -/
  | null
  | value (v : V)
  /-- The parameter `toISOString` gives. -/
  | isoText (v : V)
  /-- The parameter `JSON.stringify` gives, of a value or of `null`. -/
  | jsonText (v : Option V)
  /-- Nothing: the template writes nothing for `undefined`. -/
  | blank
  /-- `($1, $2, …)`: the template writes the elements of an array. -/
  | list (v : V)
  /-- The template writes the fragment. -/
  | expression (v : V)
  deriving DecidableEq

/-- `content::type`. -/
structure CastValue (V : Type) where
  content : CellContent V
  type : String
  deriving DecidableEq

def isJson (type : String) : Bool := type = "json" || type = "jsonb"

/-- `none` is `null`. -/
def toSqlCastValue (runtime : Runtime V) (value : Option V) (type : String) :
    Except BulkUpdateError (CastValue V) :=
  if isJson type then
    match value with
    | none => .ok { content := .jsonText none, type }
    | some v =>
      match runtime.json v with
      | .throws => .error .notSerializable
      | .undefined => .ok { content := .blank, type }
      | .text => .ok { content := .jsonText (some v), type }
  else
    match value with
    | none => .ok { content := .null, type }
    | some v =>
      match runtime.kind v with
      | .date =>
        if runtime.isoReturns v then .ok { content := .isoText v, type } else .error .invalidDate
      | .plain => .ok { content := .value v, type }
      | .array => .ok { content := .list v, type }
      | .expression => .ok { content := .expression v, type }

/-! ## Columns and rows -/

def ColumnType.text : ColumnType → String
  | .enum schema enumName => "\"" ++ schema.getD "public" ++ "\"." ++ enumName
  | .plain sqlType => sqlType

def getColumns (table : PgTable) (columnNames : List String) :
    Except BulkUpdateError (List Column) :=
  columnNames.mapM fun columnName =>
    match table.columns.access columnName with
    | .own tableColumn =>
      .ok { key := columnName, name := tableColumn.name, type := tableColumn.columnType.text }
    | .inherited => .error .notAColumn
    | .absent => .error (.notMapped columnName)

def renderColumns (runtime : Runtime V) (mismatch : BulkUpdateError)
    (record : PlainObject (JsDatum V)) (columns : List Column) :
    Except BulkUpdateError (List (CastValue V)) :=
  columns.mapM fun column =>
    match record.read runtime.inherited column.key with
    | .undefined => .error mismatch
    | .null => toSqlCastValue runtime none column.type
    | .given value => toSqlCastValue runtime (some value) column.type

def prepareSqlValuesExpressions (runtime : Runtime V) (whereColumns dataColumns : List Column)
    (entries : List (BulkUpdateEntry V)) : Except BulkUpdateError (List (List (CastValue V))) :=
  entries.mapM fun entry => do
    refuse (whereColumns.length ≠ entry.where.keys.length)
      (.whereMismatch (whereColumns.map Column.name) entry.where.keys)
    let sqlWhereValues ← renderColumns runtime
      (.whereMismatch (whereColumns.map Column.key) entry.where.keys) entry.where whereColumns
    refuse (dataColumns.length ≠ entry.data.keys.length)
      (.dataMismatch (dataColumns.map Column.key) entry.data.keys)
    let sqlSetValues ← renderColumns runtime
      (.dataMismatch (dataColumns.map Column.key) entry.data.keys) entry.data dataColumns
    return sqlWhereValues ++ sqlSetValues

/-! ## The statement -/

/-- `UPDATE schema.table AS tbl SET … FROM (VALUES …) AS updates(…) WHERE …`. -/
structure UpdateStatement (V : Type) where
  tableSchema : String
  tableName : String
  /-- `"name" = updates."name"::type`. -/
  set : List Column
  values : List (List (CastValue V))
  aliases : List String
  /-- `tbl."name" = updates."name"::type`, all of them. -/
  conditions : List Column

def updateStatement (table : PgTable) (whereColumns dataColumns : List Column)
    (values : List (List (CastValue V))) : UpdateStatement V :=
  { tableSchema := table.schema.getD "public"
    tableName := table.name
    set := dataColumns
    values
    aliases := (whereColumns ++ dataColumns).map Column.name
    conditions := whereColumns }

def drizzleFullBulkUpdate (runtime : Runtime V) (table : PgTable) :
    List (BulkUpdateEntry V) → Except BulkUpdateError (UpdateStatement V)
  | [] => .error .entriesEmpty
  | firstEntry :: rest => do
    let whereColumns ← getColumns table firstEntry.where.keys
    let dataColumns ← getColumns table firstEntry.data.keys
    refuse (whereColumns.length = 0) .whereEmpty
    refuse (dataColumns.length = 0) .dataEmpty
    let values ← prepareSqlValuesExpressions runtime whereColumns dataColumns (firstEntry :: rest)
    return updateStatement table whereColumns dataColumns values

/-! ## When a statement is executed -/

/-- The column under a key of the table. -/
def columnOf (table : PgTable) (key : String) : Column :=
  { key
    name := ((table.columns.own? key).map TableColumn.name).getD ""
    type := ((table.columns.own? key).map (·.columnType.text)).getD "" }

def whereColumnsOf (table : PgTable) (entry : BulkUpdateEntry V) : List Column :=
  entry.where.keys.map (columnOf table)

def dataColumnsOf (table : PgTable) (entry : BulkUpdateEntry V) : List Column :=
  entry.data.keys.map (columnOf table)

/-- What stands before the cast to a type. -/
def cellContent (runtime : Runtime V) (type : String) : JsDatum V → CellContent V
  | .undefined | .null => if isJson type then .jsonText none else .null
  | .given v =>
    if isJson type then (if runtime.json v = .undefined then .blank else .jsonText (some v))
    else
      match runtime.kind v with
      | .date => .isoText v
      | .plain => .value v
      | .array => .list v
      | .expression => .expression v

def castValue (runtime : Runtime V) (type : String) (datum : JsDatum V) : CastValue V :=
  { content := cellContent runtime type datum, type }

/-- The cell of a datum can be written. -/
def Renders (runtime : Runtime V) (type : String) : JsDatum V → Prop
  | .undefined => False
  | .null => True
  | .given v =>
    if isJson type then runtime.json v ≠ .throws
    else runtime.kind v = .date → runtime.isoReturns v = true

/-- What is read under the keys of the first entry can be written. -/
structure Fits (runtime : Runtime V) (table : PgTable) (firstEntry entry : BulkUpdateEntry V) :
    Prop where
  whereLength : firstEntry.where.keys.length = entry.where.keys.length
  whereRead : ∀ key ∈ firstEntry.where.keys,
    Renders runtime (columnOf table key).type (entry.where.read runtime.inherited key)
  dataLength : firstEntry.data.keys.length = entry.data.keys.length
  dataRead : ∀ key ∈ firstEntry.data.keys,
    Renders runtime (columnOf table key).type (entry.data.read runtime.inherited key)

/-- The lists of entries for which the checks pass. -/
structure Admitted (runtime : Runtime V) (table : PgTable) (entries : List (BulkUpdateEntry V))
    (firstEntry : BulkUpdateEntry V) : Prop where
  head : entries.head? = some firstEntry
  whereMapped : ∀ key ∈ firstEntry.where.keys, key ∈ table.columns.keys
  dataMapped : ∀ key ∈ firstEntry.data.keys, key ∈ table.columns.keys
  whereNonempty : firstEntry.where.keys ≠ []
  dataNonempty : firstEntry.data.keys ≠ []
  fits : ∀ entry ∈ entries, Fits runtime table firstEntry entry

/-- The row of an entry, under the columns of the first. -/
def valuesRow (runtime : Runtime V) (table : PgTable) (firstEntry entry : BulkUpdateEntry V) :
    List (CastValue V) :=
  ((whereColumnsOf table firstEntry).map fun column =>
      castValue runtime column.type (entry.where.read runtime.inherited column.key)) ++
    (dataColumnsOf table firstEntry).map fun column =>
      castValue runtime column.type (entry.data.read runtime.inherited column.key)

theorem getColumns_eq_ok {table : PgTable} {keys : List String} {columns : List Column} :
    getColumns table keys = .ok columns ↔
      (∀ key ∈ keys, key ∈ table.columns.keys) ∧ columns = keys.map (columnOf table) := by
  apply mapM_eq_ok_iff
  intro key column
  rw [← PlainObject.own?_isSome_iff]
  unfold PlainObject.access columnOf
  cases table.columns.own? key with
  | some tableColumn => simp [eq_comm (a := column)]
  | none =>
    by_cases hinherited : key ∈ PlainObject.inheritedNames
    · simp [hinherited]
    · simp [hinherited]

theorem toSqlCastValue_eq_ok {runtime : Runtime V} {value : V} {type : String}
    {cell : CastValue V} : toSqlCastValue runtime (some value) type = .ok cell ↔
      Renders runtime type (.given value) ∧ cell = castValue runtime type (.given value) := by
  unfold toSqlCastValue Renders castValue cellContent
  by_cases hjson : isJson type = true
  · cases hstringify : runtime.json value with
    | throws => simp [hjson, hstringify]
    | undefined => simp [hjson, hstringify, eq_comm (a := cell)]
    | text => simp [hjson, hstringify, eq_comm (a := cell)]
  · cases hkind : runtime.kind value with
    | date =>
      by_cases hiso : runtime.isoReturns value = true
      · simp [hjson, hkind, hiso, eq_comm (a := cell)]
      · simp [hjson, hkind, hiso]
    | plain => simp [hjson, hkind, eq_comm (a := cell)]
    | array => simp [hjson, hkind, eq_comm (a := cell)]
    | expression => simp [hjson, hkind, eq_comm (a := cell)]

theorem renderColumns_eq_ok {runtime : Runtime V} {mismatch : BulkUpdateError}
    {record : PlainObject (JsDatum V)} {columns : List Column} {cells : List (CastValue V)} :
    renderColumns runtime mismatch record columns = .ok cells ↔
      (∀ column ∈ columns,
        Renders runtime column.type (record.read runtime.inherited column.key)) ∧
        cells = columns.map fun column =>
          castValue runtime column.type (record.read runtime.inherited column.key) := by
  apply mapM_eq_ok_iff
  intro column cell
  cases record.read runtime.inherited column.key with
  | undefined => simp [Renders]
  | null =>
    by_cases hjson : isJson column.type = true
    · simp [Renders, toSqlCastValue, castValue, cellContent, hjson, eq_comm (a := cell)]
    · simp [Renders, toSqlCastValue, castValue, cellContent, hjson, eq_comm (a := cell)]
  | given v => exact toSqlCastValue_eq_ok

theorem prepareSqlValuesExpressions_eq_ok {runtime : Runtime V} {table : PgTable}
    {firstEntry : BulkUpdateEntry V} {entries : List (BulkUpdateEntry V)}
    {values : List (List (CastValue V))} :
    prepareSqlValuesExpressions runtime (whereColumnsOf table firstEntry)
        (dataColumnsOf table firstEntry) entries = .ok values ↔
      (∀ entry ∈ entries, Fits runtime table firstEntry entry) ∧
        values = entries.map (valuesRow runtime table firstEntry) := by
  apply mapM_eq_ok_iff
  intro entry row
  simp only [bind_eq_ok, refuse_eq_ok, renderColumns_eq_ok, exists_const, not_not]
  constructor
  · rintro ⟨hwhereLength, whereCells, ⟨hwhereRead, rfl⟩, hdataLength, dataCells,
      ⟨hdataRead, rfl⟩, hreturn⟩
    cases hreturn
    rw [whereColumnsOf, List.length_map] at hwhereLength
    rw [dataColumnsOf, List.length_map] at hdataLength
    exact ⟨⟨hwhereLength, List.forall_mem_map.1 hwhereRead, hdataLength,
      List.forall_mem_map.1 hdataRead⟩, rfl⟩
  · rintro ⟨hfits, rfl⟩
    refine ⟨?_, _, ⟨List.forall_mem_map.2 hfits.whereRead, rfl⟩, ?_, _,
      ⟨List.forall_mem_map.2 hfits.dataRead, rfl⟩, rfl⟩
    · rw [whereColumnsOf, List.length_map]
      exact hfits.whereLength
    · rw [dataColumnsOf, List.length_map]
      exact hfits.dataLength

/-- **A statement is executed exactly for the lists that the checks admit**, with one row for
every entry. -/
theorem drizzleFullBulkUpdate_eq_ok {runtime : Runtime V} {table : PgTable}
    {entries : List (BulkUpdateEntry V)} {statement : UpdateStatement V} :
    drizzleFullBulkUpdate runtime table entries = .ok statement ↔
      ∃ firstEntry, Admitted runtime table entries firstEntry ∧
        statement = updateStatement table (whereColumnsOf table firstEntry)
          (dataColumnsOf table firstEntry) (entries.map (valuesRow runtime table firstEntry)) := by
  cases entries with
  | nil =>
    constructor
    · intro h
      cases h
    · rintro ⟨firstEntry, hadmitted, -⟩
      cases hadmitted.head
  | cons firstEntry rest =>
    unfold drizzleFullBulkUpdate
    simp only [bind_eq_ok, refuse_eq_ok, getColumns_eq_ok, exists_const, List.length_eq_zero_iff]
    constructor
    · rintro ⟨_, ⟨hwhereMapped, rfl⟩, _, ⟨hdataMapped, rfl⟩, hwhereNonempty, hdataNonempty, values,
        hvalues, hreturn⟩
      obtain ⟨hfits, rfl⟩ := prepareSqlValuesExpressions_eq_ok.1 hvalues
      cases hreturn
      rw [List.map_eq_nil_iff] at hwhereNonempty hdataNonempty
      exact ⟨firstEntry, ⟨rfl, hwhereMapped, hdataMapped, hwhereNonempty, hdataNonempty, hfits⟩,
        rfl⟩
    · rintro ⟨firstEntry', hadmitted, rfl⟩
      obtain rfl : firstEntry = firstEntry' := Option.some.inj hadmitted.head
      refine ⟨_, ⟨hadmitted.whereMapped, rfl⟩, _, ⟨hadmitted.dataMapped, rfl⟩, ?_, ?_, _,
        prepareSqlValuesExpressions_eq_ok.2 ⟨hadmitted.fits, rfl⟩, rfl⟩
      · rw [List.map_eq_nil_iff]
        exact hadmitted.whereNonempty
      · rw [List.map_eq_nil_iff]
        exact hadmitted.dataNonempty

end SharedTsLibs.DrizzleUtils
