import SharedTsLibs.DrizzleUtils.MarkMigrationsApplied

/-!
# The literals of the migration and the snapshot code

Tags, hashes and the name of the probe table are quoted by one helper for every dialect,
schema and table names by a helper for each kind of dialect.

* `ReadsBack` — the server reads a literal as a text, up to its end.
* `quoteLiteralList_lists` — a list of names is read back, whatever the dialect,
  item by item.
* `literals_roundTrip_iff` — the literals of a text are read back exactly when the server reads no
  escape sequences or the text is verbatim: `quoteLiteral` leaves backslashes as they are.
-/

namespace SharedTsLibs.DrizzleUtils

/-! ## Lists of literals -/

/-- `quotePgLiteralList`, for one value. -/
def pgLiteral (value : String) : List Char := SqlText.literal value.toList

/-- `quoteMysqlLiteralList`, for one value. -/
def mysqlLiteral (value : String) : List Char := SqlText.escapedLiteral value.toList

/-- `literals.join(', ')`. -/
def joinLiterals : List (List Char) → List Char
  | [] => []
  | [literal] => literal
  | literal :: literals => literal ++ [',', ' '] ++ joinLiterals literals

/-- `quotePgLiteralList`. -/
def quotePgLiteralList (values : List String) : List Char :=
  if values.length = 0 then [SqlText.quote, SqlText.quote] else joinLiterals (values.map pgLiteral)

/-- `quoteMysqlLiteralList`. -/
def quoteMysqlLiteralList (values : List String) : List Char :=
  if values.length = 0 then [SqlText.quote, SqlText.quote]
  else joinLiterals (values.map mysqlLiteral)

/-- The literal of a name in the list that the snapshot code builds for a dialect. -/
def listLiteral : Dialect → String → List Char
  | .postgresql, value | .cockroachdb, value => pgLiteral value
  | .mysql, value => mysqlLiteral value

/-- The list that the snapshot code builds for a dialect. -/
def quoteLiteralList : Dialect → List String → List Char
  | .postgresql, values | .cockroachdb, values => quotePgLiteralList values
  | .mysql, values => quoteMysqlLiteralList values

/-! ## Reading -/

/-- The literal is read as the text, and its end is where the literal ends, whatever follows
but an apostrophe. -/
def ReadsBack (dialect : Dialect) (literal : List Char) (text : String) : Prop :=
  ∀ rest, rest.head? ≠ some SqlText.quote →
    SqlText.lexLiteral dialect.escapes (literal ++ rest) = some (text.toList, rest)

/-- A list of literals is read item by item, up to its end. -/
inductive Lists (dialect : Dialect) : List Char → List String → List Char → Prop where
  | last {input : List Char} {text : String} {rest : List Char} :
    SqlText.lexLiteral dialect.escapes input = some (text.toList, rest) →
    Lists dialect input [text] rest
  | cons {input : List Char} {text : String} {rest : List Char} {texts : List String}
    {rest' : List Char} :
    SqlText.lexLiteral dialect.escapes input = some (text.toList, ',' :: ' ' :: rest) →
    Lists dialect rest texts rest' → Lists dialect input (text :: texts) rest'

theorem quoteLiteral_readsBack_iff (dialect : Dialect) (text : String) :
    ReadsBack dialect (quoteLiteral text) text ↔
      (dialect.escapes = true → SqlText.Verbatim text.toList = true) :=
  SqlText.lexLiteral_literal_iff text.toList

/-- The names in a list are read back, whatever the dialect. -/
theorem listLiteral_readsBack (dialect : Dialect) (text : String) :
    ReadsBack dialect (listLiteral dialect text) text := by
  intro rest hrest
  cases dialect with
  | postgresql => exact SqlText.lexLiteral_literal nofun hrest
  | cockroachdb => exact SqlText.lexLiteral_literal nofun hrest
  | mysql => exact SqlText.lexLiteral_escapedLiteral hrest

theorem joinLiterals_lists (dialect : Dialect) {values : List String} (hvalues : values ≠ [])
    {rest : List Char} (hrest : rest.head? ≠ some SqlText.quote) :
    Lists dialect (joinLiterals (values.map (listLiteral dialect)) ++ rest) values rest := by
  induction values with
  | nil => exact absurd rfl hvalues
  | cons value values ih =>
    cases values with
    | nil => exact .last (listLiteral_readsBack dialect value rest hrest)
    | cons value' values =>
      refine .cons ?_ (ih (by simp))
      have hcomma : (',' :: ' ' ::
          (joinLiterals ((value' :: values).map (listLiteral dialect)) ++ rest)).head? ≠
            some SqlText.quote := by
        intro h
        exact absurd (Option.some.inj h) (by decide)
      have hread := listLiteral_readsBack dialect value _ hcomma
      simpa [joinLiterals] using hread

/-- **The list built for a dialect is read back, name by name.** -/
theorem quoteLiteralList_lists (dialect : Dialect) {values : List String} (hvalues : values ≠ [])
    {rest : List Char} (hrest : rest.head? ≠ some SqlText.quote) :
    Lists dialect (quoteLiteralList dialect values ++ rest) values rest := by
  have hlength : values.length ≠ 0 := mt List.length_eq_zero_iff.1 hvalues
  have hlists := joinLiterals_lists dialect hvalues hrest
  cases dialect with
  | postgresql => rwa [quoteLiteralList, quotePgLiteralList, if_neg hlength]
  | cockroachdb => rwa [quoteLiteralList, quotePgLiteralList, if_neg hlength]
  | mysql => rwa [quoteLiteralList, quoteMysqlLiteralList, if_neg hlength]

/-! ## Round trips -/

/-- Every literal that the migration and the snapshot code build from a text for a dialect is
read back. -/
structure RoundTrips (dialect : Dialect) (text : String) : Prop where
  /-- As a tag, a hash or the name of the probe table. -/
  quoteLiteral : ReadsBack dialect (quoteLiteral text) text
  /-- As a schema or a table name, in a list. -/
  listLiteral : ∀ before after rest, rest.head? ≠ some SqlText.quote →
    Lists dialect (quoteLiteralList dialect (before ++ text :: after) ++ rest)
      (before ++ text :: after) rest

/-- **The literals of a text are read back exactly when the server reads no escape sequences,
or no backslash of the text starts one that is replaced.** -/
theorem literals_roundTrip_iff (dialect : Dialect) (text : String) :
    RoundTrips dialect text ↔
      (dialect = .mysql → SqlText.Verbatim text.toList = true) := by
  have hescapes : dialect.escapes = true ↔ dialect = .mysql := by
    cases dialect <;> decide
  rw [← hescapes, ← quoteLiteral_readsBack_iff]
  constructor
  · exact RoundTrips.quoteLiteral
  · intro h
    exact ⟨h, fun before after rest hrest => quoteLiteralList_lists dialect (by simp) hrest⟩

/-- MySQL reads `a\b` as an `a` and a backspace. -/
theorem backspace_not_roundTrip :
    ¬ RoundTrips .mysql (String.ofList ['a', SqlText.backslash, 'b']) := by
  intro h
  have hread := h.quoteLiteral [] (by simp)
  have hother : SqlText.lexLiteral true
      (quoteLiteral (String.ofList ['a', SqlText.backslash, 'b']) ++ []) =
        some (['a', Char.ofNat 8], []) := by decide
  have heq := hother.symm.trans hread
  exact absurd (Prod.mk.inj (Option.some.inj heq)).1 (by decide)

end SharedTsLibs.DrizzleUtils
