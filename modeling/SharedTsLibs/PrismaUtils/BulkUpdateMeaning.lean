import SharedTsLibs.Lib.UpdateFrom
import SharedTsLibs.PrismaUtils.PrismaBulkUpdate

/-!
# What a bulk update means

The effect of the statement of a bulk update on the rows of its table, beside the effect of
its entries one after the other.

* `SqlTypes` — the values of a database, its casts and its equality.
* `statementResult` — the tables that the statement may leave.
* `entryMatches`, `entryAssign` — the update that an entry stands for.
* `FaithfulTo` — the statement has a row for each entry, and does what the entries do.
-/

namespace SharedTsLibs.PrismaUtils

/-! ## Values of the database -/

/-- The values of a database, and how the values of the code are handed to it. -/
structure SqlTypes (V Val : Type) where
  null : Val
  /-- A value, bound as it is. -/
  bind : V → Val
  /-- The text that `JSON.stringify` gives for a value, bound. -/
  document : V → Val
  /-- `x::type`. -/
  cast : String → Val → Val
  /-- `x = y` is true, of two values of a type. -/
  eq : String → Val → Val → Bool
  cast_null : ∀ type, cast type null = null
  cast_cast : ∀ type x, cast type (cast type x) = cast type x
  eq_symm : ∀ type x y, eq type x y = true → eq type y x = true
  eq_trans : ∀ type x y z, eq type x y = true → eq type y z = true → eq type x z = true

/-- A row: values under the names of columns. -/
abbrev Row (Val : Type) := String → Val

namespace SqlTypes

variable {V Val : Type} (sql : SqlTypes V Val)

/-- The value of a column of the type that a datum stands for. -/
def valueOf (type : String) : JsDatum V → Val
  | .undefined | .null => sql.null
  | .given value =>
    sql.cast type (if type ∈ jsonColumnTypes then sql.document value else sql.bind value)

theorem cast_valueOf (type : String) (datum : JsDatum V) :
    sql.cast type (sql.valueOf type datum) = sql.valueOf type datum := by
  cases datum with
  | undefined => exact sql.cast_null type
  | null => exact sql.cast_null type
  | given value => exact sql.cast_cast type _

/-! ## The statement -/

def boundValue : Bound V → Val
  | .null => sql.null
  | .value value => sql.bind value
  | .json value => sql.document value

def denote (x : TypedValue V) : Val := sql.cast x.type (sql.boundValue x.bound)

/-- The value that stands for a datum in a column denotes it. -/
theorem denote_typedValue (type : String) (datum : JsDatum V) :
    sql.denote (typedValue type datum) = sql.valueOf type datum := by
  cases datum with
  | undefined => exact sql.cast_null type
  | null => exact sql.cast_null type
  | given value =>
    by_cases hjson : type ∈ jsonColumnTypes
    · simp [denote, typedValue, bindValue, boundValue, valueOf, hjson]
    · simp [denote, typedValue, bindValue, boundValue, valueOf, hjson]

/-- The row of `updates`. -/
def updatesRow (aliases : List String) (values : List (TypedValue V)) : Row Val := fun name =>
  ((UpdateFrom.cell aliases values name).map sql.denote).getD sql.null

def rowMatches (conditions : List Column) (row updates : Row Val) : Prop :=
  ∀ column ∈ conditions,
    sql.eq column.type (row column.name) (sql.cast column.type (updates column.name)) = true

def rowAssign (set : List Column) (updates row : Row Val) : Row Val := fun name =>
  match set.find? (·.name = name) with
  | some column => sql.cast column.type (updates name)
  | none => row name

/-- The tables that the statement may leave. -/
def statementResult (statement : UpdateStatement V) (rows rows' : List (Row Val)) : Prop :=
  UpdateFrom.Result (sql.rowMatches statement.conditions) (sql.rowAssign statement.set)
    (statement.values.map (sql.updatesRow statement.aliases)) rows rows'

/-! ## The entries -/

variable (typeByColumn : PlainObject String)

/-- What an entry says of a column. -/
def entryValue (record : PlainObject (JsDatum V)) (name : String) : Val :=
  sql.valueOf ((typeByColumn.own? name).getD "") ((record.own? name).getD .undefined)

def entryMatches (row : Row Val) (entry : BulkUpdateEntry V) : Prop :=
  ∀ name ∈ entry.where.keys, sql.eq ((typeByColumn.own? name).getD "") (row name)
    (sql.entryValue typeByColumn entry.where name) = true

instance (row : Row Val) (entry : BulkUpdateEntry V) :
    Decidable (sql.entryMatches typeByColumn row entry) :=
  List.decidableBAll _ _

def entryAssign (entry : BulkUpdateEntry V) (row : Row Val) : Row Val := fun name =>
  if entry.data.IsDefinedAt name then sql.entryValue typeByColumn entry.data name else row name

/-- The updates of the entries, one after the other. -/
def entrySequence (entries : List (BulkUpdateEntry V)) (rows : List (Row Val)) : List (Row Val) :=
  UpdateFrom.sequence (sql.entryMatches typeByColumn) (sql.entryAssign typeByColumn) entries rows

/-- The `where` tuples differ, after the casts. -/
def WhereDistinct (entries : List (BulkUpdateEntry V)) : Prop :=
  entries.Pairwise fun entry entry' => ∃ name ∈ entry.where.keys,
    sql.eq ((typeByColumn.own? name).getD "") (sql.entryValue typeByColumn entry.where name)
      (sql.entryValue typeByColumn entry'.where name) = false

/-- The values of an entry stand under the aliases of their keys. -/
structure StandsFor (aliases : List String) (entry : BulkUpdateEntry V)
    (values : List (TypedValue V)) : Prop where
  width : values.length = aliases.length
  whereValues : ∀ name ∈ entry.where.keys, ∃ x, UpdateFrom.cell aliases values name = some x ∧
    sql.denote x = sql.entryValue typeByColumn entry.where name
  dataValues : ∀ name ∈ entry.data.definedKeys, ∃ x,
    UpdateFrom.cell aliases values name = some x ∧
      sql.denote x = sql.entryValue typeByColumn entry.data name

/-- The statement stands for the entries. -/
structure FaithfulTo (entries : List (BulkUpdateEntry V)) (statement : UpdateStatement V) :
    Prop where
  aliases_nodup : statement.aliases.Nodup
  values : List.Forall₂ (sql.StandsFor typeByColumn statement.aliases) entries statement.values
  result : sql.WhereDistinct typeByColumn entries → ∀ rows rows',
    sql.statementResult statement rows rows' ↔ rows' = sql.entrySequence typeByColumn entries rows

end SqlTypes

end SharedTsLibs.PrismaUtils
