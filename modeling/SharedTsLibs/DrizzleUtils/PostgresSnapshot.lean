import SharedTsLibs.DrizzleUtils.SnapshotSchema
import SharedTsLibs.Lib.Grouping

/-!
# Postgres snapshots

`snapshot-schema/postgres.ts`: the constraints and indexes of a snapshot.  The catalog refers to
columns by numbers, which are looked up in a map made of the attributes of the tables that the
snapshot was asked for.

* `parsePgIntArray` — the numbers of an array of the catalog.
* `loadPgAttMap`, `resolvePgColumns` — the names of columns.
* `applyPgConstraintRow`, `pgIndex` — what a constraint and an index make.
* `PgCatalog` — a database: tables, attributes, constraints and indexes.
* `snapshotPgKeys` — the snapshot with its constraints and indexes.

The columns of tables, enums and sequences are left out.
-/

namespace SharedTsLibs.DrizzleUtils

section Loading

variable (runtime : CatalogRuntime)

/-- `asString(row[column])` -/
def pgString (row : CatalogRow) (column : String) : String :=
  asString runtime (readColumn row column)

/-- The tables that `loadPgTables` makes. -/
def pgTables (rows : List CatalogRow) : List (String × String) :=
  rows.map fun row => (pgString runtime row "table_schema", pgString runtime row "table_name")

/-! ## Numbers of columns -/

/-- `value.replace(/^\{|\}$/g, '')` -/
def dropBraces (cs : List Char) : List Char :=
  let cs := if cs.head? = some '{' then cs.tail else cs
  if cs.getLast? = some '}' then cs.dropLast else cs

def parsePgIntArray : Option CatalogValue → List JsNumber
  | some (.arr items) => (items.map fun v => toNumber runtime (some v)).filter JsNumber.isFinite
  | some (.str value) =>
    let cleaned := JsText.trim (dropBraces value.toList)
    if cleaned = [] then []
    else
      ((cleaned.splitOn ',').map fun s =>
        NumericText.number runtime.rounding (.ofList (JsText.trim s))).filter JsNumber.isFinite
  | _ => []

/-! ## Names of columns -/

/-- The names of the columns of a table, by number. -/
abbrev AttNames := List (JsNumber × String)

/-- The names of the columns of tables, each table under `${schemaName}.${tableName}`. -/
abbrev AttMap := List (String × AttNames)

def attKey (schemaName tableName : String) : String := schemaName ++ "." ++ tableName

def loadPgAttMap (attRows : List CatalogRow) : AttMap :=
  Grouping.group
    (fun row => attKey (pgString runtime row "schema_name") (pgString runtime row "table_name"))
    (fun _ => [])
    (fun inner row => OrderedMap.set (toNumber runtime (readColumn row "attnum"))
      (pgString runtime row "attname") inner)
    attRows

/-- `inner?.get(n) ?? `attnum:${n}`` -/
def attName (inner : Option AttNames) (n : JsNumber) : String :=
  (inner.bind fun names => OrderedMap.get? names n).getD ("attnum:" ++ runtime.numberToString n)

def resolvePgColumns (attMap : AttMap) (schemaName tableName : String)
    (attnums : Option CatalogValue) : List String :=
  match OrderedMap.get? attMap (attKey schemaName tableName) with
  | none => []
  | some inner => (parsePgIntArray runtime attnums).map (attName runtime (some inner))

/-! ## Constraints -/

def pgFkActionFromCode : String → ForeignKeyAction
  | "a" => .noAction
  | "r" => .restrict
  | "c" => .cascade
  | "n" => .setNull
  | "d" => .setDefault
  | _ => .noAction

/-- `raw.replace(/^CHECK\s*/i, '').trim()` -/
def normalizeCheckDefinition (raw : String) : String :=
  let cs := raw.toList
  .ofList (JsText.trim (if (cs.take 5).map Char.toUpper = "CHECK".toList then cs.drop 5 else cs))

def applyPgConstraintRow (row : CatalogRow) (schemaName tableName : String) (attMap : AttMap)
    (table : TableSnapshot) : TableSnapshot :=
  let constraintName := pgString runtime row "constraint_name"
  let contype := pgString runtime row "contype"
  let columns := resolvePgColumns runtime attMap schemaName tableName (readColumn row "conkey")
  if contype = "p" then { table with primaryKey := some ⟨constraintName, columns⟩ }
  else if contype = "u" then
    { table with
      uniqueConstraints := table.uniqueConstraints.assign constraintName
        { columns, deferrable := some (asBool (readColumn row "deferrable")) } }
  else if contype = "f" then
    let refSchema := pgString runtime row "ref_schema"
    let refTable := pgString runtime row "ref_table"
    { table with
      foreignKeys := table.foreignKeys.assign constraintName
        { columns
          referencedSchema := refSchema
          referencedTable := refTable
          referencedColumns :=
            resolvePgColumns runtime attMap refSchema refTable (readColumn row "confkey")
          onUpdate := pgFkActionFromCode (pgString runtime row "confupdtype")
          onDelete := pgFkActionFromCode (pgString runtime row "confdeltype") } }
  else if contype = "c" then
    { table with
      checkConstraints := table.checkConstraints.assign constraintName
        ⟨normalizeCheckDefinition (pgString runtime row "definition")⟩ }
  else table

/-- The body of the loop over the constraints. -/
def loadPgConstraintRow (attMap : AttMap) (schemas : Schemas) (row : CatalogRow) :
    Option Schemas :=
  let schemaName := pgString runtime row "schema_name"
  let tableName := pgString runtime row "table_name"
  updateTable schemas schemaName tableName
    (pgString runtime row "contype" ∉ ["u", "f", "c"])
    (applyPgConstraintRow runtime row schemaName tableName attMap)

def loadPgConstraints (attMap : AttMap) (rows : List CatalogRow) (schemas : Schemas) :
    Option Schemas :=
  rows.foldlM (loadPgConstraintRow runtime attMap) schemas

/-! ## Indexes -/

/-- The columns of an index: names, and texts of expressions where the number is zero. -/
def pgIndexColumns (inner : Option AttNames) (indkey : List JsNumber) (exprText : String) :
    List String :=
  let exprs := if exprText = "" then [] else exprText.toList.splitOn '\x1f'
  indkey.mapIdx fun idx n =>
    if n = 0 then (exprs[idx]?.map String.ofList).getD "<expression>" else attName runtime inner n

/-- The index that a row makes. -/
def pgIndex (attMap : AttMap) (row : CatalogRow) : IndexSnapshot where
  columns := pgIndexColumns runtime
    (OrderedMap.get? attMap
      (attKey (pgString runtime row "schema_name") (pgString runtime row "table_name")))
    (parsePgIntArray runtime (readColumn row "indkey")) (pgString runtime row "index_exprs")
  unique := asBool (readColumn row "is_unique")
  method := pgString runtime row "method"
  predicate := some (asNullableString runtime (readColumn row "predicate"))

/-- The body of the loop over the indexes. -/
def loadPgIndexRow (attMap : AttMap) (schemas : Schemas) (row : CatalogRow) : Option Schemas :=
  updateTable schemas (pgString runtime row "schema_name") (pgString runtime row "table_name") false
    fun table => { table with
      indexes := table.indexes.assign (pgString runtime row "index_name")
        (pgIndex runtime attMap row) }

def loadPgIndexes (attMap : AttMap) (rows : List CatalogRow) (schemas : Schemas) :
    Option Schemas :=
  rows.foldlM (loadPgIndexRow runtime attMap) schemas

end Loading

/-! ## Databases -/

/-- A column of a relation, in `pg_attribute`. -/
structure AttributeRow where
  schemaName : String
  tableName : String
  attnum : ℕ
  attname : String

/-- The relation and the number of a column. -/
def AttributeRow.key (row : AttributeRow) : String × String × ℕ :=
  (row.schemaName, row.tableName, row.attnum)

def AttributeRow.toRow (row : AttributeRow) : CatalogRow :=
  [("schema_name", .str row.schemaName), ("table_name", .str row.tableName),
    ("attnum", .num (.finite row.attnum)), ("attname", .str row.attname)]

/-- What a foreign key refers to. -/
structure PgReference where
  schemaName : String
  tableName : String
  confkey : List ℕ
  confupdtype : String
  confdeltype : String

inductive PgConstraintKind where
  | primaryKey
  | unique
  | foreignKey (reference : PgReference)
  | check

/-- `contype` -/
def PgConstraintKind.code : PgConstraintKind → String
  | .primaryKey => "p"
  | .unique => "u"
  | .foreignKey _ => "f"
  | .check => "c"

/-- A constraint of a table, in `pg_constraint`. -/
structure PgConstraint where
  schemaName : String
  tableName : String
  constraintName : String
  kind : PgConstraintKind
  deferrable : Bool
  definition : String
  conkey : List ℕ

def PgConstraint.place (constraint : PgConstraint) : String × String × String :=
  (constraint.schemaName, constraint.tableName, constraint.constraintName)

/-- A number in decimal digits. -/
def digitsOf (n : ℕ) : List Char := Nat.toDigits 10 n

/-- An array of numbers as a driver returns it: an array, or the text `{1,2}`. -/
def keyArray (asText : Bool) (keys : List ℕ) : CatalogValue :=
  if asText then .str (.ofList ('{' :: [','].intercalate (keys.map digitsOf) ++ ['}']))
  else .arr (keys.map fun n : ℕ => .num (.finite n))

/-- The row as the driver returns it. -/
def PgConstraint.toRow (asText : Bool) (constraint : PgConstraint) : CatalogRow :=
  [("schema_name", .str constraint.schemaName), ("table_name", .str constraint.tableName),
    ("constraint_name", .str constraint.constraintName), ("contype", .str constraint.kind.code),
    ("deferrable", .bool constraint.deferrable), ("definition", .str constraint.definition),
    ("conkey", keyArray asText constraint.conkey)] ++
  match constraint.kind with
  | .foreignKey reference =>
    [("ref_schema", .str reference.schemaName), ("ref_table", .str reference.tableName),
      ("confkey", keyArray asText reference.confkey),
      ("confupdtype", .str reference.confupdtype), ("confdeltype", .str reference.confdeltype)]
  | .primaryKey | .unique | .check => []

/-- A column of an index: the number of a column of the table, zero for an expression, and the
text that `pg_get_indexdef` has for it. -/
structure PgIndexColumn where
  attnum : ℕ
  definition : String

/-- An index of a relation, in `pg_index`. -/
structure PgIndex where
  schemaName : String
  tableName : String
  indexName : String
  method : String
  isUnique : Bool
  predicate : Option String
  columns : List PgIndexColumn
  columns_ne_nil : columns ≠ []

def PgIndex.place (index : PgIndex) : String × String × String :=
  (index.schemaName, index.tableName, index.indexName)

/-- An `int2vector` as text: its numbers separated by single spaces. -/
def PgIndex.indkey (index : PgIndex) : String :=
  .ofList ([' '].intercalate (index.columns.map fun column => digitsOf column.attnum))

/-- `string_agg(…, CHR(31))` -/
def PgIndex.indexExprs (index : PgIndex) : String :=
  .ofList (['\x1f'].intercalate (index.columns.map fun column => column.definition.toList))

/-- The row as the driver returns it. -/
def PgIndex.toRow (index : PgIndex) : CatalogRow :=
  [("schema_name", .str index.schemaName), ("table_name", .str index.tableName),
    ("index_name", .str index.indexName), ("method", .str index.method),
    ("is_unique", .bool index.isUnique), ("indkey", .str index.indkey),
    ("predicate", index.predicate.elim .null .str), ("index_exprs", .str index.indexExprs)]

/-- A database: names and numbers are unique, and numbers refer to columns. -/
structure PgCatalog where
  /-- The schemas and names of base tables. -/
  tables : List (String × String)
  attributes : List AttributeRow
  constraints : List PgConstraint
  indexes : List PgIndex
  nodup_attributes : (attributes.map AttributeRow.key).Nodup
  attnum_lt : ∀ row ∈ attributes, 0 < row.attnum ∧ row.attnum < 2 ^ 15
  nodup_constraints : (constraints.map PgConstraint.place).Nodup
  nodup_indexes : (indexes.map PgIndex.place).Nodup
  conkey_mem : ∀ constraint ∈ constraints, ∀ n ∈ constraint.conkey,
    (constraint.schemaName, constraint.tableName, n) ∈ attributes.map AttributeRow.key
  confkey_mem : ∀ constraint ∈ constraints, ∀ reference,
    constraint.kind = .foreignKey reference → ∀ n ∈ reference.confkey,
      (reference.schemaName, reference.tableName, n) ∈ attributes.map AttributeRow.key
  indkey_mem : ∀ index ∈ indexes, ∀ column ∈ index.columns, column.attnum ≠ 0 →
    (index.schemaName, index.tableName, column.attnum) ∈ attributes.map AttributeRow.key

/-- The values of `IN (${quotePgLiteralList(values)})`; without values the empty text stands in
the list. -/
def literalList (values : List String) : List String := if values = [] then [""] else values

/-- `IN (${schemaList}) AND … NOT IN (${excludeList})` -/
def selects (schemas excludeTables : List String) (schemaName tableName : String) : Bool :=
  schemaName ∈ literalList schemas ∧ tableName ∉ literalList excludeTables

section Snapshot

variable (runtime : CatalogRuntime) (asText : Bool) (catalog : PgCatalog)
  (schemas excludeTables : List String)

/-- The base tables that a query returns. -/
def PgCatalog.selectTables : List CatalogRow :=
  (catalog.tables.filter fun table => selects schemas excludeTables table.1 table.2).map
    fun table => [("table_schema", .str table.1), ("table_name", .str table.2)]

/-- The attributes that a query returns. -/
def PgCatalog.selectAttributes : List AttributeRow :=
  catalog.attributes.filter fun row => selects schemas excludeTables row.schemaName row.tableName

def PgCatalog.selectConstraints : List PgConstraint :=
  catalog.constraints.filter fun constraint =>
    selects schemas excludeTables constraint.schemaName constraint.tableName

def PgCatalog.selectIndexes : List PgIndex :=
  catalog.indexes.filter fun index =>
    selects schemas excludeTables index.schemaName index.tableName

/-- The steps of `snapshotPostgres` that load tables, constraints and indexes. -/
def snapshotPgKeys : Option Schemas := do
  let tables ← loadTables schemas (pgTables runtime (catalog.selectTables schemas excludeTables))
  let attMap := loadPgAttMap runtime
    ((catalog.selectAttributes schemas excludeTables).map AttributeRow.toRow)
  let constrained ← loadPgConstraints runtime attMap
    ((catalog.selectConstraints schemas excludeTables).map (PgConstraint.toRow asText)) tables
  loadPgIndexes runtime attMap
    ((catalog.selectIndexes schemas excludeTables).map PgIndex.toRow) constrained

end Snapshot

end SharedTsLibs.DrizzleUtils
