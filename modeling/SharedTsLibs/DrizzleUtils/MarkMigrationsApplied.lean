import SharedTsLibs.Lib.SqlText
import SharedTsLibs.Lib.StepSystem
import Mathlib.Data.Int.Notation

/-!
# Baselining migrations

`markMigrationsApplied.ts`: a run records the migrations of a folder as applied, one SQL
statement after the other, in a database that other runs may be using.

* `selectRows`, `fetchRecordedNames` — what a run reads off a driver's result.
* `Database`, `execute` — the database, and what it does with a statement.
* `Phase`, `statement`, `resume`, `catchError` — where a run stands: the statement it waits
  for, and how it goes on when that returns or throws.
* `Deployment`, `step` — a database and the runs on it, a statement at a time.

The runs share their migrations and their tracking table; each has its own
`databaseName` and `legacySchemaProbeTable`.  A schema is what `CREATE SCHEMA` makes; what
the runs log is left out.
-/

namespace SharedTsLibs.DrizzleUtils

/-! ## Options -/

inductive Dialect where
  | postgresql
  | mysql
  | cockroachdb
  deriving DecidableEq

def isPgLike : Dialect → Bool
  | .postgresql | .cockroachdb => true
  | .mysql => false

/-- A digest in hexadecimal digits. -/
abbrev MigrationHash := { digest : String // ∀ c ∈ digest.toList, c ∈ "0123456789abcdef".toList }

theorem hexadecimal_of_all {digest : String}
    (h : digest.toList.all (· ∈ "0123456789abcdef".toList) = true) :
    ∀ c ∈ digest.toList, c ∈ "0123456789abcdef".toList := fun c hc =>
  of_decide_eq_true (List.all_eq_true.1 h c hc)

structure MigrationEntry where
  tag : String
  hash : MigrationHash
  createdAt : ℤ

def quoteLiteral (value : String) : List Char := SqlText.literal value.toList

/-! ## The driver -/

/-- A value a driver resolves to, as far as its rows are concerned: rows with their `name`
column, arrays, and objects that may hold an array under `rows`. -/
inductive DriverValue where
  | row (name : Option String)
  | array (elements : List DriverValue)
  | object (rows : Option (List DriverValue))
  | undefined

def selectRows : DriverValue → List DriverValue
  | .array (.array first :: _) => first
  | .array result => result
  | .object (some rows) => rows
  | _ => []

inductive Driver where
  | postgresJs
  | mysql2
  | nodePostgres

/-- The value a driver resolves to for some rows. -/
def Driver.result : Driver → List (Option String) → DriverValue
  | .postgresJs, rows => .array (rows.map .row)
  | .mysql2, rows => .array [.array (rows.map .row), .array []]
  | .nodePostgres, rows => .object (some (rows.map .row))

/-- The `name` of a row, where a condition takes it as given. -/
def recordedName : DriverValue → Option String
  | .row (some name) => if name = "" then none else some name
  | _ => none

/-- The set of names, as the list of its elements. -/
def fetchRecordedNames (result : DriverValue) : List String :=
  (selectRows result).filterMap recordedName

/-- Rows are found in the result of every driver. -/
theorem selectRows_result (driver : Driver) (rows : List (Option String)) :
    selectRows (driver.result rows) = rows.map .row := by
  cases driver with
  | postgresJs => cases rows <;> rfl
  | mysql2 => rfl
  | nodePostgres => rfl

theorem mem_fetchRecordedNames {driver : Driver} {rows : List (Option String)} {name : String} :
    name ∈ fetchRecordedNames (driver.result rows) ↔ name ≠ "" ∧ some name ∈ rows := by
  rw [fetchRecordedNames, selectRows_result, List.mem_filterMap]
  constructor
  · rintro ⟨value, hvalue, hname⟩
    obtain ⟨row, hrow, rfl⟩ := List.mem_map.1 hvalue
    cases row with
    | none => cases hname
    | some name' =>
      rw [recordedName] at hname
      split at hname
      · cases hname
      · next hne =>
        cases hname
        exact ⟨hne, hrow⟩
  · rintro ⟨hne, hrow⟩
    refine ⟨.row (some name), List.mem_map_of_mem hrow, ?_⟩
    rw [recordedName, if_neg hne]

/-! ## The database -/

structure TrackingRow where
  hash : String
  createdAt : Option ℤ
  name : Option String
  deriving DecidableEq

/-- The table of applied migrations; an older one has no `name` column. -/
structure TrackingTable where
  hasName : Bool
  rows : List TrackingRow

structure Database where
  databases : List String
  schemas : List String
  /-- The tables apart from the tracking table. -/
  tables : List String
  tracking : Option TrackingTable

/-- The rows of the tracking table. -/
def Database.rows (db : Database) : List TrackingRow := (db.tracking.map (·.rows)).getD []

inductive Statement where
  | createDatabase (databaseName : String)
  /-- The table name is given by its literal. -/
  | selectTable (tableName : List Char)
  | createSchema (schema : String)
  | createTable
  | selectNames
  | insert (hash : List Char) (createdAt : ℤ) (name : List Char)

/-- What all runs have in common. -/
structure Baseline where
  driver : Driver
  dialect : Dialect
  migrationsTable : String
  migrationsSchema : String
  entries : List MigrationEntry

/-- MySQL reads escape sequences in literals; PostgreSQL and CockroachDB do not. -/
def Dialect.escapes : Dialect → Bool
  | .mysql => true
  | .postgresql | .cockroachdb => false

/-- The text a literal stands for. -/
def Dialect.readText (dialect : Dialect) (literal : List Char) : Option String :=
  (SqlText.readLiteral dialect.escapes literal).map String.ofList

/-- The literals of the statement are read as one literal each.  A statement of which this
is not true is some other text to the server. -/
def Statement.legible (dialect : Dialect) : Statement → Bool
  | .selectTable tableName => (dialect.readText tableName).isSome
  | .insert hash _ name => (dialect.readText hash).isSome && (dialect.readText name).isSome
  | _ => true

section Execute

variable (b : Baseline) (db : Database)

def Database.hasTable (name : String) : Bool :=
  name ∈ db.tables || (name = b.migrationsTable && db.tracking.isSome)

def createTableIfNotExists : Option Database :=
  match db.tracking with
  | some _ => some db
  | none =>
    if isPgLike b.dialect = true ∧ b.migrationsSchema ∉ db.schemas then none
    else some { db with tracking := some { hasName := true, rows := [] } }

def insertRow (row : TrackingRow) : Option Database :=
  match db.tracking with
  | some table =>
    if table.hasName = true then
      some { db with tracking := some { table with rows := table.rows ++ [row] } }
    else none
  | none => none

/-- The rows a statement returns, by their `name`, and the database after it; `none` where
the server refuses it. -/
def execute : Statement → Option (List (Option String) × Database)
  | .createDatabase databaseName =>
    if databaseName ∈ db.databases then
      if isPgLike b.dialect = true then none else some ([], db)
    else some ([], { db with databases := databaseName :: db.databases })
  | .selectTable tableName => do
    let name ← b.dialect.readText tableName
    pure (if db.hasTable b name = true then [none] else [], db)
  | .createSchema schema =>
    some ([], if schema ∈ db.schemas then db else { db with schemas := schema :: db.schemas })
  | .createTable => (createTableIfNotExists b db).map ([], ·)
  | .selectNames =>
    match db.tracking with
    | some table => if table.hasName = true then some (table.rows.map (·.name), db) else none
    | none => none
  | .insert hash createdAt name => do
    let hash ← b.dialect.readText hash
    let name ← b.dialect.readText name
    let db' ← insertRow db { hash, createdAt := some createdAt, name := some name }
    pure ([], db')

end Execute

/-! ## A run -/

inductive Outcome where
  | skippedFresh
  | skippedNoMigrations
  | baselined
  deriving DecidableEq

structure MarkMigrationsAppliedResult where
  outcome : Outcome
  total : ℕ
  applied : ℕ
  skipped : ℕ

/-- Where a run stands: the statement it waits for, or how it ended. -/
inductive Phase where
  | ensureDatabase (databaseName : String) (legacySchemaProbeTable : Option String)
  | probe (legacySchemaProbeTable : String)
  | createSchema
  | createTable
  | fetchNames
  | insert (entry : MigrationEntry) (rest : List MigrationEntry) (recordedNames : List String)
      (applied : ℕ)
  | ended (result : MarkMigrationsAppliedResult)
  | threw

section Run

variable (b : Baseline)

/-- The loop over the migrations, up to the next one to insert. -/
def insertLoop (recordedNames : List String) : List MigrationEntry → ℕ → Phase
  | [], applied => .ended { outcome := .baselined, total := b.entries.length, applied,
                            skipped := b.entries.length - applied }
  | entry :: rest, applied =>
    if entry.tag ∈ recordedNames then insertLoop recordedNames rest applied
    else .insert entry rest recordedNames applied

def afterProbe : Phase :=
  if b.entries.length = 0 then
    .ended { outcome := .skippedNoMigrations, total := 0, applied := 0, skipped := 0 }
  else if isPgLike b.dialect = true then .createSchema
  else .createTable

def afterDatabase (legacySchemaProbeTable : Option String) : Phase :=
  match legacySchemaProbeTable.filter (· ≠ "") with
  | some tableName => .probe tableName
  | none => afterProbe b

def markMigrationsApplied (databaseName legacySchemaProbeTable : Option String) : Phase :=
  match databaseName.filter (· ≠ "") with
  | some databaseName => .ensureDatabase databaseName legacySchemaProbeTable
  | none => afterDatabase b legacySchemaProbeTable

/-- The statement a run executes next. -/
def Phase.statement : Phase → Option Statement
  | .ensureDatabase databaseName _ => some (.createDatabase databaseName)
  | .probe tableName => some (.selectTable (quoteLiteral tableName))
  | .createSchema => some (.createSchema b.migrationsSchema)
  | .createTable => some .createTable
  | .fetchNames => some .selectNames
  | .insert entry _ _ _ =>
    some (.insert (quoteLiteral entry.hash) entry.createdAt (quoteLiteral entry.tag))
  | .ended _ | .threw => none

/-- How a run goes on with the rows its statement returns. -/
def Phase.resume (rows : List (Option String)) : Phase → Phase
  | .ensureDatabase _ legacySchemaProbeTable => afterDatabase b legacySchemaProbeTable
  | .probe _ =>
    if 0 < (selectRows (b.driver.result rows)).length then afterProbe b
    else .ended { outcome := .skippedFresh, total := 0, applied := 0, skipped := 0 }
  | .createSchema => .createTable
  | .createTable => .fetchNames
  | .fetchNames => insertLoop b (fetchRecordedNames (b.driver.result rows)) b.entries 0
  | .insert _ rest recordedNames applied => insertLoop b recordedNames rest (applied + 1)
  | .ended result => .ended result
  | .threw => .threw

/-- `/already exists/i.test(message)` -/
def alreadyExists (message : String) : Bool :=
  (message.toList.map Char.toLower).tails.any fun tail =>
    "already exists".toList.isPrefixOf tail

/-- How a run goes on when its statement throws. -/
def Phase.catchError (message : String) : Phase → Phase
  | .ensureDatabase _ legacySchemaProbeTable =>
    if isPgLike b.dialect = true ∧ alreadyExists message = true then
      afterDatabase b legacySchemaProbeTable
    else .threw
  | _ => .threw

end Run

/-! ## The runs on a database -/

/-- What becomes of a statement. -/
inductive Fate where
  | completes
  /-- The run sees an error, whether or not the statement took effect. -/
  | fails (message : String) (takesEffect : Bool)
  /-- A statement that is some other text to the server: it leaves behind what it does, and
  returns rows or fails. -/
  | misread (after : Database) (rows : Option (List (Option String)))

/-- A run, with the statements of it that took effect. -/
structure Run where
  phase : Phase
  effects : List Statement

structure Deployment where
  db : Database
  runs : List Run

inductive Label where
  | start (databaseName legacySchemaProbeTable : Option String)
  | execute (run : ℕ) (fate : Fate)

/-- One statement of a run: the database after it, and the run. -/
def Run.execute (b : Baseline) (db : Database) (run : Run) (fate : Fate) :
    Option (Database × Run) := do
  let statement ← run.phase.statement b
  let effects := run.effects ++ [statement]
  match fate with
  | .completes =>
    let (rows, db') ← DrizzleUtils.execute b db statement
    pure (db', { phase := run.phase.resume b rows, effects })
  | .fails message false => pure (db, { run with phase := run.phase.catchError b message })
  | .fails message true =>
    let (_, db') ← DrizzleUtils.execute b db statement
    pure (db', { phase := run.phase.catchError b message, effects })
  | .misread after rows =>
    if statement.legible b.dialect = true then none
    else
      match rows with
      | some rows => pure (after, { phase := run.phase.resume b rows, effects })
      | none => pure (after, { phase := .threw, effects })

def step (b : Baseline) (s : Deployment) : Label → Option Deployment
  | .start databaseName legacySchemaProbeTable =>
    some { s with runs := s.runs ++ [{
      phase := markMigrationsApplied b databaseName legacySchemaProbeTable, effects := [] }] }
  | .execute i fate => do
    let run ← s.runs[i]?
    let (db, run) ← run.execute b s.db fate
    pure { db, runs := s.runs.set i run }

/-- A database before any run. -/
def Deployment.initial (db : Database) : Deployment := { db, runs := [] }

end SharedTsLibs.DrizzleUtils
