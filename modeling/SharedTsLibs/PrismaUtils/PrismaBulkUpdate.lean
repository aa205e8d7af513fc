import SharedTsLibs.Lib.Fallible
import SharedTsLibs.Lib.JsDatum

/-!
# The bulk update of Prisma

`prismaBulkUpdate.ts`: many rows updated by one `UPDATE … FROM (VALUES …)`.

* `columnType`, `resolveColumns` — the SQL types of the columns.
* `prepareSqlValuesExpression` — the row of values of one entry.
* `prismaBulkUpdate` — the checks, and then the statement that is executed.
* `prismaBulkUpdate_eq_ok` — exactly when a statement is executed, and which.

A statement is kept as its parts: the names in it are configuration, the values are bound.
-/

namespace SharedTsLibs.PrismaUtils

open Fallible

/-! ## Entries and options -/

structure BulkUpdateEntry (V : Type) where
  «where» : PlainObject (JsDatum V)
  data : PlainObject (JsDatum V)

structure PrismaBulkUpdateOptions where
  typeByColumn : PlainObject String
  returning : Option (PlainObject String)

/-- The values of a run: the properties that every object inherits, and whether
`JSON.stringify` returns. -/
structure Runtime (V : Type) where
  inherited : String → V
  stringifies : V → Bool

structure Column where
  name : String
  type : String
  deriving DecidableEq

inductive BulkUpdateError where
  | entriesEmpty
  | tooManyEntries
  | columnTypeMissing (column : String)
  | whereEmpty
  | dataEmpty
  | whereUndefined (column : String)
  | columnInBoth (column : String)
  | tooManyParameters (entries columns : ℕ)
  | whereColumnsDiffer (index : ℕ)
  | whereColumnNotFound (column : String) (index : ℕ)
  | dataColumnsDiffer (index : ℕ)
  | dataColumnNotFound (column : String) (index : ℕ)
  /-- Thrown by `JSON.stringify`. -/
  | notSerializable
  deriving DecidableEq

def jsonColumnTypes : List String := ["json", "jsonb"]

def entriesLimit : ℕ := 1000

def bindParametersLimit : ℕ := 65535

def BulkUpdateError.message : BulkUpdateError → Option String
  | .entriesEmpty => some "Entries array must not be empty"
  | .tooManyEntries => some ("Entries array length must not exceed " ++ toString entriesLimit)
  | .columnTypeMissing column => some ("Column type mapping is missing for \"" ++ column ++ "\"")
  | .whereEmpty => some "Entry \"where\" object must not be empty"
  | .dataEmpty => some "Entry \"data\" object must not be empty"
  | .whereUndefined column =>
    some ("Entry \"where\" column \"" ++ column ++ "\" must not be undefined")
  | .columnInBoth column =>
    some ("Column \"" ++ column ++ "\" must not appear in both \"where\" and \"data\"")
  | .tooManyParameters entries columns =>
    some ("Bulk update would use " ++ toString (entries * columns) ++ " bind parameters (" ++
      toString entries ++ " entries × " ++ toString columns ++
      " columns), exceeding the limit of " ++ toString bindParametersLimit)
  | .whereColumnsDiffer index =>
    some ("Entry \"where\" columns are not the same (at index " ++ toString index ++ ")")
  | .whereColumnNotFound column index =>
    some ("Entry \"where\" column \"" ++ column ++ "\" was not found (at index " ++
      toString index ++ ")")
  | .dataColumnsDiffer index =>
    some ("Entry \"data\" columns are not the same (at index " ++ toString index ++ ")")
  | .dataColumnNotFound column index =>
    some ("Entry \"data\" column \"" ++ column ++ "\" was not found (at index " ++
      toString index ++ ")")
  | .notSerializable => none

/-! ## Columns -/

/-- The text of an inherited property, in a template literal. -/
def inheritedText (name : String) : String :=
  if name = "__proto__" then "[object Object]"
  else "function " ++ (if name = "constructor" then "Object" else name) ++
    "() \x7b [native code] \x7d"

/-- `typeByColumn[columnName]`, where it is truthy. -/
def columnType (typeByColumn : PlainObject String) (columnName : String) : Option String :=
  match typeByColumn.access columnName with
  | .own type => if type = "" then none else some type
  | .inherited => some (inheritedText columnName)
  | .absent => none

def resolveColumns (typeByColumn : PlainObject String) (columnNames : List String) :
    Except BulkUpdateError (List Column) :=
  columnNames.mapM fun columnName =>
    match columnType typeByColumn columnName with
    | none => .error (.columnTypeMissing columnName)
    | some type => .ok { name := columnName, type }

variable {V : Type}

abbrev definedColumnNames (columnRecord : PlainObject (JsDatum V)) : List String :=
  columnRecord.definedKeys

/-- The `where` column of the first entry whose value is `undefined`. -/
def undefinedWhereColumn (firstEntry : BulkUpdateEntry V) : Option String :=
  firstEntry.where.keys.find? fun columnName => !firstEntry.where.IsDefinedAt columnName

def overlappingColumn (whereColumns dataColumns : List Column) : Option Column :=
  dataColumns.find? fun dataColumn =>
    whereColumns.any fun whereColumn => whereColumn.name = dataColumn.name

/-! ## Values -/

/-- A bound value: `null`, the value, or the text that `JSON.stringify` gives for it. -/
inductive Bound (V : Type) where
  | null
  | value (v : V)
  | json (v : V)
  deriving DecidableEq

/-- `$1::type`. -/
structure TypedValue (V : Type) where
  bound : Bound V
  type : String
  deriving DecidableEq

/-- `none` is `null`. -/
def renderTypedValue (runtime : Runtime V) (type : String) :
    Option V → Except BulkUpdateError (TypedValue V)
  | none => .ok { bound := .null, type }
  | some value =>
    if type ∈ jsonColumnTypes then
      if runtime.stringifies value then .ok { bound := .json value, type }
      else .error .notSerializable
    else .ok { bound := .value value, type }

def renderColumns (runtime : Runtime V) (notFound : String → BulkUpdateError)
    (record : PlainObject (JsDatum V)) (columns : List Column) :
    Except BulkUpdateError (List (TypedValue V)) :=
  columns.mapM fun column =>
    match record.read runtime.inherited column.name with
    | .undefined => .error (notFound column.name)
    | .null => renderTypedValue runtime column.type none
    | .given value => renderTypedValue runtime column.type (some value)

def prepareSqlValuesExpression (runtime : Runtime V) (entry : BulkUpdateEntry V) (index : ℕ)
    (whereColumns dataColumns : List Column) : Except BulkUpdateError (List (TypedValue V)) := do
  refuse (whereColumns.length ≠ entry.where.keys.length) (.whereColumnsDiffer index)
  let sqlWhereValues ←
    renderColumns runtime (.whereColumnNotFound · index) entry.where whereColumns
  refuse (dataColumns.length ≠ (definedColumnNames entry.data).length) (.dataColumnsDiffer index)
  let sqlSetValues ← renderColumns runtime (.dataColumnNotFound · index) entry.data dataColumns
  return sqlWhereValues ++ sqlSetValues

/-! ## The statement -/

/-- `UPDATE table SET … FROM (VALUES …) AS updates(…) WHERE …`. -/
structure UpdateStatement (V : Type) where
  table : List String
  /-- `"name" = updates."name"::type`. -/
  set : List Column
  values : List (List (TypedValue V))
  aliases : List String
  /-- `table."name" = updates."name"::type`, all of them. -/
  conditions : List Column

/-- What is asked of the database. -/
inductive Execution (V : Type) where
  | executeRaw (statement : UpdateStatement V)
  /-- With a `RETURNING` clause: columns and the names they are given. -/
  | queryRaw (statement : UpdateStatement V) (returning : List (String × String))

def Execution.statement : Execution V → UpdateStatement V
  | .executeRaw statement => statement
  | .queryRaw statement _ => statement

def updateStatement (tableName : String) (whereColumns dataColumns : List Column)
    (values : List (List (TypedValue V))) : UpdateStatement V :=
  { table := tableName.splitOn "."
    set := dataColumns
    values
    aliases := (whereColumns ++ dataColumns).map Column.name
    conditions := whereColumns }

def execution (returning : Option (PlainObject String)) (statement : UpdateStatement V) :
    Execution V :=
  match returning with
  | none => .executeRaw statement
  | some returning =>
    if returning.keys.length = 0 then .executeRaw statement
    else .queryRaw statement returning.entries

def prismaBulkUpdate (runtime : Runtime V) (tableName : String)
    (options : PrismaBulkUpdateOptions) :
    List (BulkUpdateEntry V) → Except BulkUpdateError (Execution V)
  | [] => .error .entriesEmpty
  | firstEntry :: rest => do
    let entries := firstEntry :: rest
    refuse (entriesLimit < entries.length) .tooManyEntries
    let whereColumns ← resolveColumns options.typeByColumn firstEntry.where.keys
    let dataColumns ← resolveColumns options.typeByColumn (definedColumnNames firstEntry.data)
    refuse (whereColumns.length = 0) .whereEmpty
    refuse (dataColumns.length = 0) .dataEmpty
    -- A column whose name is empty is not refused here: it is falsy.
    refuseSome .whereUndefined ((undefinedWhereColumn firstEntry).filter (· ≠ ""))
    refuseSome (fun column => .columnInBoth column.name)
      (overlappingColumn whereColumns dataColumns)
    refuse (bindParametersLimit < entries.length * (whereColumns.length + dataColumns.length))
      (.tooManyParameters entries.length (whereColumns.length + dataColumns.length))
    let values ← entries.zipIdx.mapM fun entry =>
      prepareSqlValuesExpression runtime entry.1 entry.2 whereColumns dataColumns
    return execution options.returning (updateStatement tableName whereColumns dataColumns values)

/-! ## When a statement is executed -/

/-- The column of a name, with the type it is given. -/
def columnOf (typeByColumn : PlainObject String) (columnName : String) : Column :=
  { name := columnName, type := (columnType typeByColumn columnName).getD "" }

def bindValue (type : String) : JsDatum V → Bound V
  | .undefined | .null => .null
  | .given value => if type ∈ jsonColumnTypes then .json value else .value value

/-- The value that stands for a datum in a column. -/
def typedValue (type : String) (datum : JsDatum V) : TypedValue V :=
  { bound := bindValue type datum, type }

/-- A datum stands in a column: it is not `undefined`, nor a text that JSON does not have. -/
def Renders (runtime : Runtime V) (type : String) : JsDatum V → Prop
  | .undefined => False
  | .null => True
  | .given value => type ∈ jsonColumnTypes → runtime.stringifies value = true

/-- What is read under the columns of the first entry stands in them. -/
structure Fits (runtime : Runtime V) (typeByColumn : PlainObject String)
    (firstEntry entry : BulkUpdateEntry V) : Prop where
  whereLength : firstEntry.where.keys.length = entry.where.keys.length
  whereRead : ∀ name ∈ firstEntry.where.keys,
    Renders runtime (columnOf typeByColumn name).type (entry.where.read runtime.inherited name)
  dataLength : firstEntry.data.definedKeys.length = entry.data.definedKeys.length
  dataRead : ∀ name ∈ firstEntry.data.definedKeys,
    Renders runtime (columnOf typeByColumn name).type (entry.data.read runtime.inherited name)

/-- The lists of entries for which the checks pass. -/
structure Admitted (runtime : Runtime V) (typeByColumn : PlainObject String)
    (entries : List (BulkUpdateEntry V)) (firstEntry : BulkUpdateEntry V) : Prop where
  head : entries.head? = some firstEntry
  count : entries.length ≤ entriesLimit
  whereTyped : ∀ name ∈ firstEntry.where.keys, (columnType typeByColumn name).isSome
  dataTyped : ∀ name ∈ firstEntry.data.definedKeys, (columnType typeByColumn name).isSome
  whereNonempty : firstEntry.where.keys ≠ []
  dataNonempty : firstEntry.data.definedKeys ≠ []
  disjoint : ∀ name ∈ firstEntry.data.definedKeys, name ∉ firstEntry.where.keys
  parameters : entries.length *
    (firstEntry.where.keys.length + firstEntry.data.definedKeys.length) ≤ bindParametersLimit
  fits : ∀ entry ∈ entries, Fits runtime typeByColumn firstEntry entry

def whereColumnsOf (typeByColumn : PlainObject String) (entry : BulkUpdateEntry V) :
    List Column := entry.where.keys.map (columnOf typeByColumn)

def dataColumnsOf (typeByColumn : PlainObject String) (entry : BulkUpdateEntry V) :
    List Column := entry.data.definedKeys.map (columnOf typeByColumn)

/-- The row of values of an entry, under the columns of the first. -/
def valuesRow (runtime : Runtime V) (typeByColumn : PlainObject String)
    (firstEntry entry : BulkUpdateEntry V) : List (TypedValue V) :=
  ((whereColumnsOf typeByColumn firstEntry).map fun column =>
      typedValue column.type (entry.where.read runtime.inherited column.name)) ++
    (dataColumnsOf typeByColumn firstEntry).map fun column =>
      typedValue column.type (entry.data.read runtime.inherited column.name)

theorem resolveColumns_eq_ok {typeByColumn : PlainObject String} {names : List String}
    {columns : List Column} : resolveColumns typeByColumn names = .ok columns ↔
      (∀ name ∈ names, (columnType typeByColumn name).isSome) ∧
        columns = names.map (columnOf typeByColumn) := by
  apply mapM_eq_ok_iff
  intro name column
  cases htype : columnType typeByColumn name with
  | none => simp
  | some type => simp [columnOf, htype, eq_comm]

theorem renderColumns_eq_ok {runtime : Runtime V} {notFound : String → BulkUpdateError}
    {record : PlainObject (JsDatum V)} {columns : List Column} {values : List (TypedValue V)} :
    renderColumns runtime notFound record columns = .ok values ↔
      (∀ column ∈ columns,
        Renders runtime column.type (record.read runtime.inherited column.name)) ∧
        values = columns.map fun column =>
          typedValue column.type (record.read runtime.inherited column.name) := by
  apply mapM_eq_ok_iff
  intro column value
  cases record.read runtime.inherited column.name with
  | undefined => simp [Renders]
  | null => simp [Renders, renderTypedValue, typedValue, bindValue, eq_comm (a := value)]
  | given v =>
    by_cases hjson : column.type ∈ jsonColumnTypes
    · by_cases hstringifies : runtime.stringifies v = true
      · simp [Renders, renderTypedValue, typedValue, bindValue, hjson, hstringifies,
          eq_comm (a := value)]
      · simp [Renders, renderTypedValue, hjson, hstringifies]
    · simp [Renders, renderTypedValue, typedValue, bindValue, hjson, eq_comm (a := value)]

theorem prepareSqlValuesExpression_eq_ok {runtime : Runtime V}
    {typeByColumn : PlainObject String} {firstEntry entry : BulkUpdateEntry V} {index : ℕ}
    {values : List (TypedValue V)} :
    prepareSqlValuesExpression runtime entry index (whereColumnsOf typeByColumn firstEntry)
        (dataColumnsOf typeByColumn firstEntry) = .ok values ↔
      Fits runtime typeByColumn firstEntry entry ∧
        values = valuesRow runtime typeByColumn firstEntry entry := by
  unfold prepareSqlValuesExpression
  simp only [bind_eq_ok, refuse_eq_ok, renderColumns_eq_ok, exists_const, not_not]
  constructor
  · rintro ⟨hwhereLength, whereValues, ⟨hwhereRead, rfl⟩, hdataLength, dataValues,
      ⟨hdataRead, rfl⟩, hreturn⟩
    cases hreturn
    rw [whereColumnsOf, List.length_map] at hwhereLength
    rw [dataColumnsOf, List.length_map] at hdataLength
    exact ⟨⟨hwhereLength, List.forall_mem_map.1 hwhereRead, hdataLength,
      List.forall_mem_map.1 hdataRead⟩, rfl⟩
  · rintro ⟨hfits, rfl⟩
    refine ⟨?_, _, ⟨List.forall_mem_map.2 hfits.whereRead, rfl⟩, ?_, _,
      ⟨List.forall_mem_map.2 hfits.dataRead, rfl⟩, rfl⟩
    · rw [whereColumnsOf, List.length_map]
      exact hfits.whereLength
    · rw [dataColumnsOf, List.length_map]
      exact hfits.dataLength

theorem rows_eq_ok {runtime : Runtime V} {typeByColumn : PlainObject String}
    {firstEntry : BulkUpdateEntry V} {entries : List (BulkUpdateEntry V)}
    {values : List (List (TypedValue V))} :
    (entries.zipIdx.mapM fun entry => prepareSqlValuesExpression runtime entry.1 entry.2
        (whereColumnsOf typeByColumn firstEntry) (dataColumnsOf typeByColumn firstEntry)) =
        .ok values ↔
      (∀ entry ∈ entries, Fits runtime typeByColumn firstEntry entry) ∧
        values = entries.map (valuesRow runtime typeByColumn firstEntry) := by
  rw [mapM_eq_ok_iff fun entry row => prepareSqlValuesExpression_eq_ok]
  -- The index of an entry is in the texts of the errors only.
  have hentries : entries.zipIdx.map Prod.fst = entries := List.zipIdx_map_fst 0 entries
  have hrows : entries.zipIdx.map (fun entry => valuesRow runtime typeByColumn firstEntry entry.1) =
      entries.map (valuesRow runtime typeByColumn firstEntry) := by
    conv_rhs => rw [← hentries, List.map_map]
    rfl
  have hfits : (∀ entry ∈ entries.zipIdx, Fits runtime typeByColumn firstEntry entry.1) ↔
      ∀ entry ∈ entries, Fits runtime typeByColumn firstEntry entry := by
    conv_rhs => rw [← hentries, List.forall_mem_map]
  rw [hrows, hfits]

theorem overlappingColumn_eq_none {typeByColumn : PlainObject String}
    {entry : BulkUpdateEntry V} :
    overlappingColumn (whereColumnsOf typeByColumn entry) (dataColumnsOf typeByColumn entry) =
        none ↔
      ∀ name ∈ entry.data.definedKeys, name ∉ entry.where.keys := by
  unfold overlappingColumn whereColumnsOf dataColumnsOf
  rw [List.find?_eq_none, List.forall_mem_map]
  refine forall₂_congr fun name _ => not_congr ?_
  rw [List.any_map, List.any_eq_true]
  constructor
  · rintro ⟨name', hname', heq⟩
    obtain rfl : name' = name := of_decide_eq_true heq
    exact hname'
  · intro hname
    exact ⟨name, hname, decide_eq_true rfl⟩

theorem Renders.isDefined {runtime : Runtime V} {type : String} {datum : JsDatum V}
    (h : Renders runtime type datum) : datum.isDefined = true := by
  cases datum with
  | undefined => exact h.elim
  | null => rfl
  | given v => rfl

/-- A first entry whose own values stand in its columns has no `undefined` among them. -/
theorem undefinedWhereColumn_eq_none {runtime : Runtime V} {typeByColumn : PlainObject String}
    {entry : BulkUpdateEntry V} (h : ∀ name ∈ entry.where.keys,
      Renders runtime (columnOf typeByColumn name).type
        (entry.where.read runtime.inherited name)) : undefinedWhereColumn entry = none := by
  unfold undefinedWhereColumn
  rw [List.find?_eq_none]
  intro name hname
  have hdefined : entry.where.IsDefinedAt name :=
    (PlainObject.read_isDefined_iff.1 (h name hname).isDefined).resolve_right fun hstand =>
      hstand.1 hname
  simp [hdefined]

/-- **A statement is executed exactly for the lists that the checks admit**, with one row for
every entry. -/
theorem prismaBulkUpdate_eq_ok {runtime : Runtime V} {tableName : String}
    {options : PrismaBulkUpdateOptions} {entries : List (BulkUpdateEntry V)} {e : Execution V} :
    prismaBulkUpdate runtime tableName options entries = .ok e ↔
      ∃ firstEntry, Admitted runtime options.typeByColumn entries firstEntry ∧
        e = execution options.returning (updateStatement tableName
          (whereColumnsOf options.typeByColumn firstEntry)
          (dataColumnsOf options.typeByColumn firstEntry)
          (entries.map (valuesRow runtime options.typeByColumn firstEntry))) := by
  cases entries with
  | nil =>
    constructor
    · intro h
      cases h
    · rintro ⟨firstEntry, hadmitted, -⟩
      cases hadmitted.head
  | cons firstEntry rest =>
    unfold prismaBulkUpdate
    simp only [bind_eq_ok, refuse_eq_ok, refuseSome_eq_ok, resolveColumns_eq_ok, exists_const,
      List.length_eq_zero_iff, Nat.not_lt]
    constructor
    · rintro ⟨hcount, _, ⟨hwhereTyped, rfl⟩, _, ⟨hdataTyped, rfl⟩, hwhereNonempty, hdataNonempty,
        -, hoverlap, hparameters, values, hvalues, hreturn⟩
      obtain ⟨hfits, rfl⟩ := rows_eq_ok.1 hvalues
      cases hreturn
      rw [List.map_eq_nil_iff] at hwhereNonempty hdataNonempty
      rw [List.length_map, List.length_map] at hparameters
      exact ⟨firstEntry, ⟨rfl, hcount, hwhereTyped, hdataTyped, hwhereNonempty, hdataNonempty,
        overlappingColumn_eq_none.1 hoverlap, hparameters, hfits⟩, rfl⟩
    · rintro ⟨firstEntry', hadmitted, rfl⟩
      obtain rfl : firstEntry = firstEntry' := Option.some.inj hadmitted.head
      refine ⟨hadmitted.count, _, ⟨hadmitted.whereTyped, rfl⟩, _, ⟨hadmitted.dataTyped, rfl⟩,
        ?_, ?_, ?_, overlappingColumn_eq_none.2 hadmitted.disjoint, ?_, _,
        rows_eq_ok.2 ⟨hadmitted.fits, rfl⟩, rfl⟩
      · rw [List.map_eq_nil_iff]
        exact hadmitted.whereNonempty
      · rw [List.map_eq_nil_iff]
        exact hadmitted.dataNonempty
      · rw [undefinedWhereColumn_eq_none (hadmitted.fits firstEntry List.mem_cons_self).whereRead]
        rfl
      · rw [List.length_map, List.length_map]
        exact hadmitted.parameters

end SharedTsLibs.PrismaUtils
