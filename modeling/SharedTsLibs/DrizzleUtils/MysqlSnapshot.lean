import SharedTsLibs.DrizzleUtils.SnapshotSchema
import SharedTsLibs.Lib.Grouping
import Mathlib.Data.List.Sort

/-!
# MySQL snapshots

`snapshot-schema/mysql.ts`: the indexes and foreign keys of a snapshot, gathered from the rows of
`information_schema` by a text made of the names of the schema, of the table and of the key.

* `splitKey3` — the names that such a text is split into.
* `accumulateMysqlIndexRow`, `applyMysqlIndexAggregate` — the rows of an index.
* `loadMysqlIndexesAndKeys`, `loadMysqlForeignKeys` — all indexes, and all foreign keys.
* `StatisticsRow`, `KeyColumnRow` — the rows that `information_schema` has.
-/

namespace SharedTsLibs.DrizzleUtils

/-- `${schema}.${tableName}.${name}` -/
def joinKey3 (schema tableName name : String) : String := schema ++ "." ++ tableName ++ "." ++ name

/-- What stands before the last dot of a text, and what stands after it. -/
def splitLastDot : List Char → Option (List Char × List Char)
  | [] => none
  | c :: cs =>
    match splitLastDot cs with
    | some (front, rest) => some (c :: front, rest)
    | none => if c = '.' then some ([], cs) else none

/-- `splitKey3`: the rightmost two dots separate three names.  A text with fewer dots is cut
where `slice` cuts for the index `-1`, before the last character. -/
def splitKey3 (key : String) : String × String × String :=
  let cs := key.toList
  match splitLastDot cs with
  | none => (.ofList cs.dropLast, .ofList cs.dropLast, key)
  | some (front, name) =>
    match splitLastDot front with
    | some (schema, tableName) => (.ofList schema, .ofList tableName, .ofList name)
    | none =>
      if front = [] then ("", "", .ofList name)
      else (.ofList cs.dropLast, .ofList front, .ofList name)

section Loading

variable (runtime : CatalogRuntime)

/-- `asString(row.name ?? row.NAME)` -/
def asStringEither (row : CatalogRow) (lower upper : String) : String :=
  asString runtime (coalesce (readColumn row lower) (readColumn row upper))

/-! ## Tables -/

/-- The tables that `loadMysqlTables` makes. -/
def mysqlTables (rows : List CatalogRow) : List (String × String) :=
  rows.map fun row => (asStringEither runtime row "table_schema" "TABLE_SCHEMA",
    asStringEither runtime row "table_name" "TABLE_NAME")

/-! ## Indexes -/

structure MysqlIndexColumn where
  seq : JsNumber
  name : String

structure MysqlIndexAggregate where
  unique : Bool
  method : String
  columns : List MysqlIndexColumn

/-- The key that the row of an index is gathered under. -/
def mysqlIndexKey (row : CatalogRow) : String :=
  joinKey3 (asStringEither runtime row "table_schema" "TABLE_SCHEMA")
    (asStringEither runtime row "table_name" "TABLE_NAME")
    (asStringEither runtime row "index_name" "INDEX_NAME")

/-- The aggregate that the first row of an index makes. -/
def newMysqlIndexAggregate (row : CatalogRow) : MysqlIndexAggregate where
  unique := !asBool (coalesce (readColumn row "non_unique") (readColumn row "NON_UNIQUE"))
  method := asStringEither runtime row "index_type" "INDEX_TYPE"
  columns := []

/-- `agg.columns.push({ … })` -/
def pushMysqlIndexColumn (agg : MysqlIndexAggregate) (row : CatalogRow) : MysqlIndexAggregate :=
  let seq := coalesce (readColumn row "seq_in_index")
    (coalesce (readColumn row "SEQ_IN_INDEX") (some (.num 0)))
  { agg with
    columns := agg.columns ++
      [⟨toNumber runtime seq, asStringEither runtime row "column_name" "COLUMN_NAME"⟩] }

def accumulateMysqlIndexRow :
    List (String × MysqlIndexAggregate) → CatalogRow → List (String × MysqlIndexAggregate) :=
  Grouping.into (mysqlIndexKey runtime) (newMysqlIndexAggregate runtime)
    (pushMysqlIndexColumn runtime)

/-- `sort((a, b) => a.seq - b.seq)` -/
def sortBySeq {α : Type} (seq : α → JsNumber) (items : List α) : List α :=
  items.insertionSort fun a b => ¬ seq b < seq a

def applyMysqlIndexAggregate (indexName : String) (agg : MysqlIndexAggregate)
    (table : TableSnapshot) : TableSnapshot :=
  let columns := (sortBySeq MysqlIndexColumn.seq agg.columns).map MysqlIndexColumn.name
  if indexName = "PRIMARY" then { table with primaryKey := some ⟨"PRIMARY", columns⟩ }
  else
    { table with
      uniqueConstraints :=
        if agg.unique then table.uniqueConstraints.assign indexName { columns }
        else table.uniqueConstraints
      indexes := table.indexes.assign indexName
        { columns, unique := agg.unique, method := agg.method } }

/-- The body of the loop over the aggregates. -/
def applyIndexEntry (schemas : Schemas) (entry : String × MysqlIndexAggregate) : Option Schemas :=
  let (schema, tableName, indexName) := splitKey3 entry.1
  updateTable schemas schema tableName (indexName = "PRIMARY")
    (applyMysqlIndexAggregate indexName entry.2)

def loadMysqlIndexesAndKeys (indexRows : List CatalogRow) (schemas : Schemas) : Option Schemas :=
  (indexRows.foldl (accumulateMysqlIndexRow runtime) []).foldlM applyIndexEntry schemas

/-! ## Foreign keys -/

structure MysqlFkColumn where
  ord : JsNumber
  col : String
  refCol : String

structure MysqlFkAggregate where
  schema : String
  tableName : String
  name : String
  refSchema : String
  refTable : String
  onUpdate : ForeignKeyAction
  onDelete : ForeignKeyAction
  columns : List MysqlFkColumn

/-- `asString(row[column])` -/
def asStringColumn (row : CatalogRow) (column : String) : String :=
  asString runtime (readColumn row column)

/-- The key that the row of a foreign key is gathered under. -/
def mysqlFkKey (row : CatalogRow) : String :=
  joinKey3 (asStringColumn runtime row "schema_name") (asStringColumn runtime row "table_name")
    (asStringColumn runtime row "constraint_name")

/-- The aggregate that the first row of a foreign key makes. -/
def newMysqlFkAggregate (row : CatalogRow) : MysqlFkAggregate where
  schema := asStringColumn runtime row "schema_name"
  tableName := asStringColumn runtime row "table_name"
  name := asStringColumn runtime row "constraint_name"
  refSchema := asStringColumn runtime row "ref_schema"
  refTable := asStringColumn runtime row "ref_table"
  onUpdate := normalizeAction runtime (asStringColumn runtime row "update_rule")
  onDelete := normalizeAction runtime (asStringColumn runtime row "delete_rule")
  columns := []

/-- `agg.columns.push({ … })` -/
def pushMysqlFkColumn (agg : MysqlFkAggregate) (row : CatalogRow) : MysqlFkAggregate :=
  { agg with
    columns := agg.columns ++
      [⟨toNumber runtime (readColumn row "ord"), asStringColumn runtime row "column_name",
        asStringColumn runtime row "ref_column"⟩] }

def accumulateMysqlFkRow :
    List (String × MysqlFkAggregate) → CatalogRow → List (String × MysqlFkAggregate) :=
  Grouping.into (mysqlFkKey runtime) (newMysqlFkAggregate runtime) (pushMysqlFkColumn runtime)

/-- The foreign key that an aggregate makes. -/
def MysqlFkAggregate.toForeignKey (agg : MysqlFkAggregate) : ForeignKeySnapshot :=
  let sorted := sortBySeq MysqlFkColumn.ord agg.columns
  { columns := sorted.map MysqlFkColumn.col
    referencedSchema := agg.refSchema
    referencedTable := agg.refTable
    referencedColumns := sorted.map MysqlFkColumn.refCol
    onUpdate := agg.onUpdate
    onDelete := agg.onDelete }

def applyMysqlFkAggregate (agg : MysqlFkAggregate) (table : TableSnapshot) : TableSnapshot :=
  { table with foreignKeys := table.foreignKeys.assign agg.name agg.toForeignKey }

/-- The body of the loop over the aggregates. -/
def applyFkEntry (schemas : Schemas) (entry : String × MysqlFkAggregate) : Option Schemas :=
  updateTable schemas entry.2.schema entry.2.tableName false (applyMysqlFkAggregate entry.2)

def loadMysqlForeignKeys (fkRows : List CatalogRow) (schemas : Schemas) : Option Schemas :=
  (fkRows.foldl (accumulateMysqlFkRow runtime) []).foldlM applyFkEntry schemas

/-- The steps of `snapshotMysql` that load indexes and foreign keys. -/
def loadMysqlKeys (indexRows fkRows : List CatalogRow) (schemas : Schemas) : Option Schemas := do
  loadMysqlForeignKeys runtime fkRows (← loadMysqlIndexesAndKeys runtime indexRows schemas)

end Loading

/-! ## Rows of `information_schema` -/

/-- A row of `information_schema.statistics`; an expression in an index has no column name. -/
structure StatisticsRow where
  tableSchema : String
  tableName : String
  indexName : String
  nonUnique : CatalogValue
  indexType : CatalogValue
  seqInIndex : ℕ
  columnName : Option String

/-- The row as the driver returns it, with the names of columns in lower or in upper case. -/
def StatisticsRow.toRow (upper : Bool) (row : StatisticsRow) : CatalogRow :=
  [(if upper then "TABLE_SCHEMA" else "table_schema", .str row.tableSchema),
    (if upper then "TABLE_NAME" else "table_name", .str row.tableName),
    (if upper then "INDEX_NAME" else "index_name", .str row.indexName),
    (if upper then "NON_UNIQUE" else "non_unique", row.nonUnique),
    (if upper then "INDEX_TYPE" else "index_type", row.indexType),
    (if upper then "SEQ_IN_INDEX" else "seq_in_index", .num (.finite row.seqInIndex)),
    (if upper then "COLUMN_NAME" else "column_name", row.columnName.elim .null .str)]

/-- A row of `referential_constraints` joined with `key_column_usage`. -/
structure KeyColumnRow where
  schemaName : String
  tableName : String
  constraintName : String
  updateRule : CatalogValue
  deleteRule : CatalogValue
  refTable : String
  refSchema : String
  columnName : String
  refColumn : String
  ord : ℕ

/-- The row as the driver returns it. -/
def KeyColumnRow.toRow (row : KeyColumnRow) : CatalogRow :=
  [("schema_name", .str row.schemaName), ("table_name", .str row.tableName),
    ("constraint_name", .str row.constraintName), ("update_rule", row.updateRule),
    ("delete_rule", row.deleteRule), ("ref_table", .str row.refTable),
    ("ref_schema", .str row.refSchema), ("column_name", .str row.columnName),
    ("ref_column", .str row.refColumn), ("ord", .num (.finite row.ord))]

end SharedTsLibs.DrizzleUtils
