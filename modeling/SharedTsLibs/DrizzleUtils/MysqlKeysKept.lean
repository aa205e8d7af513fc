import SharedTsLibs.DrizzleUtils.MysqlKeys

/-!
# MySQL snapshots that keep all keys

When every row of an index or of a foreign key is found again in the snapshot, under its own
name and with no row of another.

* `MysqlKeysKept` — the tables of a snapshot have the columns of their rows and no others.
* `NamesSeparate` — the names that the texts of the keys keep apart.
* `mysqlKeysKept_iff` — all rows are kept exactly when the names stay apart.
-/

namespace SharedTsLibs.DrizzleUtils

/-! ## Rows kept -/

/-- A table has the indexes and foreign keys that its rows make, and no others. -/
structure KeysOfRows (indexRows : List StatisticsRow) (fkRows : List KeyColumnRow)
    (schema tableName : String) (table : TableSnapshot) : Prop where
  index : ∀ name, table.indexColumns? name =
    columnsOfIndex (indexRows.filter fun row => row.triple = (schema, tableName, name))
  foreignKey : ∀ name, table.foreignKeyColumns? name =
    columnsOfForeignKey (fkRows.filter fun row => row.triple = (schema, tableName, name))

/-- The rows are of tables that the snapshot has. -/
structure RowsOfTables (schemas : Schemas) (indexRows : List StatisticsRow)
    (fkRows : List KeyColumnRow) : Prop where
  index : ∀ row ∈ indexRows, (schemas.table? row.tableSchema row.tableName).isSome
  foreignKey : ∀ row ∈ fkRows, (schemas.table? row.schemaName row.tableName).isSome

/-- The names that the texts of the keys keep apart. -/
structure NamesSeparate (indexRows : List StatisticsRow) (fkRows : List KeyColumnRow) : Prop where
  dotFree : ∀ row ∈ indexRows, DotFree row.triple
  indexName : ∀ row ∈ indexRows, row.indexName ≠ "__proto__"
  constraintName : ∀ row ∈ fkRows, row.constraintName ≠ "__proto__"
  oneTriple : ∀ row ∈ fkRows, ∀ row' ∈ fkRows,
    tripleKey row.triple = tripleKey row'.triple → row.triple = row'.triple

theorem columnsOfIndex_eq_none_iff {rows : List StatisticsRow} :
    columnsOfIndex rows = none ↔ rows = [] := by
  unfold columnsOfIndex
  split <;> simp_all

theorem columnsOfForeignKey_eq_none_iff {rows : List KeyColumnRow} :
    columnsOfForeignKey rows = none ↔ rows = [] := by
  unfold columnsOfForeignKey
  dsimp only
  split <;> simp_all

/-! ## Indexes -/

/-- Under names without dots the rows of a text are those of one index. -/
theorem loadedIndexColumns_of_names {rows : List StatisticsRow}
    (hfree : ∀ row ∈ rows, DotFree row.triple) (hname : ∀ row ∈ rows, row.indexName ≠ "__proto__")
    (triple : String × String × String) :
    loadedIndexColumns rows triple =
      columnsOfIndex (rows.filter fun row => row.triple = triple) := by
  unfold loadedIndexColumns
  split
  · next h =>
    congr 1
    refine List.filter_congr fun row hrow => ?_
    rw [decide_eq_decide]
    constructor
    · intro hkey
      rw [← splitKey3_tripleKey (hfree row hrow), hkey, splitKey3_tripleKey h.1]
    · rintro rfl
      rfl
  · next h =>
    symm
    rw [columnsOfIndex_eq_none_iff, List.filter_eq_nil_iff]
    intro row hrow hsame
    rw [decide_eq_true_iff] at hsame
    subst hsame
    exact h ⟨hfree row hrow, hname row hrow⟩

/-- An index that is written has a name without dots, on a table without dots. -/
theorem names_of_loadedIndexColumns {rows : List StatisticsRow} {row : StatisticsRow}
    (hrow : row ∈ rows)
    (h : loadedIndexColumns rows row.triple =
      columnsOfIndex (rows.filter fun other => other.triple = row.triple)) :
    DotFree row.triple ∧ row.triple.2.2 ≠ "__proto__" := by
  by_contra hnames
  rw [loadedIndexColumns, if_neg hnames] at h
  have hnil := columnsOfIndex_eq_none_iff.1 h.symm
  rw [List.filter_eq_nil_iff] at hnil
  exact hnil row hrow (decide_eq_true rfl)

/-! ## Foreign keys -/

/-- Where a text is that of one foreign key its rows are those of the foreign key. -/
theorem loadedForeignKeyColumns_of_names {rows : List KeyColumnRow}
    (hname : ∀ row ∈ rows, row.constraintName ≠ "__proto__")
    (hone : ∀ row ∈ rows, ∀ row' ∈ rows,
      tripleKey row.triple = tripleKey row'.triple → row.triple = row'.triple)
    (triple : String × String × String) :
    loadedForeignKeyColumns rows triple =
      columnsOfForeignKey (rows.filter fun row => row.triple = triple) := by
  by_cases hrows : ∃ row ∈ rows, row.triple = triple
  · obtain ⟨row, hrow, rfl⟩ := hrows
    have hfilter : rows.filter (fun other => tripleKey other.triple = tripleKey row.triple) =
        rows.filter fun other => other.triple = row.triple := by
      refine List.filter_congr fun other hother => ?_
      rw [decide_eq_decide]
      constructor
      · exact hone other hother row hrow
      · intro hsame
        rw [hsame]
    have hmem : row ∈ rows.filter fun other => other.triple = row.triple :=
      List.mem_filter.2 ⟨hrow, decide_eq_true rfl⟩
    rw [loadedForeignKeyColumns, hfilter]
    cases hsame : rows.filter (fun other => other.triple = row.triple) with
    | nil =>
      rw [hsame] at hmem
      cases hmem
    | cons first same =>
      have hfirst : first ∈ rows.filter fun other => other.triple = row.triple := by
        rw [hsame]
        exact .head _
      rw [List.mem_filter, decide_eq_true_iff] at hfirst
      rw [if_pos ⟨by rw [List.head?_cons, Option.map_some, hfirst.2], hname row hrow⟩]
  · have hnil : rows.filter (fun row => row.triple = triple) = [] := by
      rw [List.filter_eq_nil_iff]
      intro row hrow hsame
      exact hrows ⟨row, hrow, of_decide_eq_true hsame⟩
    rw [hnil, columnsOfForeignKey_eq_none_iff.2 rfl, loadedForeignKeyColumns, if_neg]
    rintro ⟨hhead, -⟩
    obtain ⟨first, hfirst, hsame⟩ := Option.map_eq_some_iff.1 hhead
    exact hrows ⟨first, (List.mem_filter.1 (List.mem_of_mem_head? hfirst)).1, hsame⟩

/-- A foreign key that is written has the first row of its text. -/
theorem head_of_loadedForeignKeyColumns {rows : List KeyColumnRow} {row : KeyColumnRow}
    (hrow : row ∈ rows)
    (h : loadedForeignKeyColumns rows row.triple =
      columnsOfForeignKey (rows.filter fun other => other.triple = row.triple)) :
    (rows.filter fun other => tripleKey other.triple = tripleKey row.triple).head?.map
        KeyColumnRow.triple = some row.triple ∧ row.triple.2.2 ≠ "__proto__" := by
  by_contra hnames
  rw [loadedForeignKeyColumns, if_neg hnames] at h
  have hnil := columnsOfForeignKey_eq_none_iff.1 h.symm
  rw [List.filter_eq_nil_iff] at hnil
  exact hnil row hrow (decide_eq_true rfl)

/-! ## Snapshots -/

section Snapshots

variable (runtime : CatalogRuntime) (upper : Bool)

/-- The indexes and foreign keys of a snapshot are those of the rows: a table has the columns of
all rows of each of its keys, in sequence order, and of no others. -/
def MysqlKeysKept (schemas : Schemas) (indexRows : List StatisticsRow)
    (fkRows : List KeyColumnRow) : Prop :=
  ∃ result, loadMysqlKeys runtime (indexRows.map (·.toRow upper)) (fkRows.map KeyColumnRow.toRow)
      schemas = some result ∧
    (∀ schema tableName, (result.table? schema tableName).isSome =
      (schemas.table? schema tableName).isSome) ∧
    ∀ schema tableName table, result.table? schema tableName = some table →
      KeysOfRows indexRows fkRows schema tableName table

variable {runtime upper} {indexRows : List StatisticsRow} {fkRows : List KeyColumnRow}
  {schemas result : Schemas}

theorem isSome_of_loadMysqlKeys (h : loadMysqlKeys runtime (indexRows.map (·.toRow upper))
    (fkRows.map KeyColumnRow.toRow) schemas = some result) (schema tableName : String) :
    (result.table? schema tableName).isSome = (schemas.table? schema tableName).isSome := by
  obtain ⟨next, hnext, h⟩ := Option.bind_eq_some_iff.1 h
  rw [loadMysqlForeignKeys_eq] at h
  rw [loadMysqlIndexesAndKeys_eq] at hnext
  rw [isSome_of_applyEntries h, isSome_of_applyEntries hnext]

/-- What a table has that was empty before both loops. -/
theorem loadMysqlKeys_spec
    (hempty : ∀ schema tableName table, schemas.table? schema tableName = some table →
      table = emptyTable)
    (h : loadMysqlKeys runtime (indexRows.map (·.toRow upper)) (fkRows.map KeyColumnRow.toRow)
      schemas = some result) {schema tableName : String} {table : TableSnapshot}
    (htable : result.table? schema tableName = some table) (name : String) :
    table.indexColumns? name = loadedIndexColumns indexRows (schema, tableName, name) ∧
      table.foreignKeyColumns? name =
        loadedForeignKeyColumns fkRows (schema, tableName, name) := by
  have hsome := isSome_of_loadMysqlKeys h schema tableName
  rw [htable, Option.isSome_some] at hsome
  obtain ⟨before, hbefore⟩ := Option.isSome_iff_exists.1 hsome.symm
  obtain rfl := hempty _ _ _ hbefore
  obtain ⟨next, hnext, hfk⟩ := Option.bind_eq_some_iff.1 h
  obtain ⟨indexed, hindexed, hkeep, hindex⟩ :=
    loadMysqlIndexesAndKeys_spec runtime upper hnext hbefore
  obtain ⟨table', htable', hkeep', hforeignKey⟩ := loadMysqlForeignKeys_spec runtime hfk hindexed
  rw [htable, Option.some_inj] at htable'
  subst htable'
  constructor
  · rw [hkeep', hindex, TableSnapshot.indexColumns?]
    simp [emptyTable]
  · rw [hforeignKey, TableSnapshot.foreignKeyColumns?, hkeep]
    simp [emptyTable]

variable (runtime upper) in
/-- Rows of tables that are there are loaded, when the names have no dots. -/
theorem exists_loadMysqlKeys (hrows : RowsOfTables schemas indexRows fkRows)
    (hfree : ∀ row ∈ indexRows, DotFree row.triple) :
    ∃ result, loadMysqlKeys runtime (indexRows.map (·.toRow upper))
      (fkRows.map KeyColumnRow.toRow) schemas = some result := by
  have hindex : ∃ next, loadMysqlIndexesAndKeys runtime (indexRows.map (·.toRow upper)) schemas =
      some next := by
    rw [loadMysqlIndexesAndKeys_eq]
    refine exists_applyEntries fun entry hmem => ?_
    obtain ⟨row, hrow, hkey⟩ := exists_row_of_mem runtime upper hmem
    rw [hkey, splitKey3_tripleKey (hfree row hrow)]
    exact hrows.index row hrow
  obtain ⟨next, hnext⟩ := hindex
  have hfk : ∃ result, loadMysqlForeignKeys runtime (fkRows.map KeyColumnRow.toRow) next =
      some result := by
    rw [loadMysqlForeignKeys_eq]
    rw [loadMysqlIndexesAndKeys_eq] at hnext
    refine exists_applyEntries fun entry hmem => ?_
    obtain ⟨first, hhead, hplace⟩ := exists_head_of_mem runtime hmem
    rw [hplace, isSome_of_applyEntries hnext]
    exact hrows.foreignKey first (List.mem_filter.1 (List.mem_of_mem_head? hhead)).1
  obtain ⟨result, hresult⟩ := hfk
  exact ⟨result, Option.bind_eq_some_iff.2 ⟨next, hnext, hresult⟩⟩

/-- The rows of the tables of a snapshot are all kept, each under its own name, exactly when the
names stay apart. -/
theorem mysqlKeysKept_iff {schemaList : List String} {tableRows : List CatalogRow}
    (hload : loadTables schemaList (mysqlTables runtime tableRows) = some schemas)
    (hrows : RowsOfTables schemas indexRows fkRows) :
    MysqlKeysKept runtime upper schemas indexRows fkRows ↔ NamesSeparate indexRows fkRows := by
  have hempty : ∀ schema tableName table, schemas.table? schema tableName = some table →
      table = emptyTable := fun _ _ _ htable => (table?_of_loadTables hload htable).2
  constructor
  · rintro ⟨result, hresult, hsame, hkeys⟩
    -- a table of a row is in the result, and it has what both loops wrote
    have hindex : ∀ row ∈ indexRows, DotFree row.triple ∧ row.triple.2.2 ≠ "__proto__" := by
      intro row hrow
      have hsome := hsame row.tableSchema row.tableName
      rw [hrows.index row hrow] at hsome
      obtain ⟨table, htable⟩ := Option.isSome_iff_exists.1 hsome
      have hcolumns := (hkeys _ _ _ htable).index row.indexName
      rw [(loadMysqlKeys_spec hempty hresult htable _).1] at hcolumns
      exact names_of_loadedIndexColumns hrow hcolumns
    have hfk : ∀ row ∈ fkRows, (fkRows.filter fun other =>
        tripleKey other.triple = tripleKey row.triple).head?.map KeyColumnRow.triple =
          some row.triple ∧ row.triple.2.2 ≠ "__proto__" := by
      intro row hrow
      have hsome := hsame row.schemaName row.tableName
      rw [hrows.foreignKey row hrow] at hsome
      obtain ⟨table, htable⟩ := Option.isSome_iff_exists.1 hsome
      have hcolumns := (hkeys _ _ _ htable).foreignKey row.constraintName
      rw [(loadMysqlKeys_spec hempty hresult htable _).2] at hcolumns
      exact head_of_loadedForeignKeyColumns hrow hcolumns
    refine ⟨fun row hrow => (hindex row hrow).1, fun row hrow => (hindex row hrow).2,
      fun row hrow => (hfk row hrow).2, fun row hrow row' hrow' hkey => ?_⟩
    have hhead := (hfk row hrow).1
    rw [hkey, (hfk row' hrow').1, Option.some_inj] at hhead
    exact hhead.symm
  · intro hnames
    obtain ⟨result, hresult⟩ := exists_loadMysqlKeys runtime upper hrows hnames.dotFree
    refine ⟨result, hresult, isSome_of_loadMysqlKeys hresult, fun schema tableName table htable =>
      ⟨fun name => ?_, fun name => ?_⟩⟩
    · rw [(loadMysqlKeys_spec hempty hresult htable name).1]
      exact loadedIndexColumns_of_names hnames.dotFree hnames.indexName _
    · rw [(loadMysqlKeys_spec hempty hresult htable name).2]
      exact loadedForeignKeyColumns_of_names hnames.constraintName hnames.oneTriple _

end Snapshots

/-! ## Names with dots -/

/-- The table `users` in the schema `app`. -/
def usersTableRows : List CatalogRow :=
  [[("table_schema", .str "app"), ("table_name", .str "users")]]

/-- An index of the table on one column. -/
def usersIndexRow (indexName : String) (seqInIndex : ℕ) (columnName : String) : StatisticsRow where
  tableSchema := "app"
  tableName := "users"
  indexName
  nonUnique := .num 1
  indexType := .str "BTREE"
  seqInIndex
  columnName := some columnName

/-- A foreign key of the table to itself. -/
def managerRow : KeyColumnRow where
  schemaName := "app"
  tableName := "users"
  constraintName := "users.manager"
  updateRule := .str "NO ACTION"
  deleteRule := .str "cascade"
  refTable := "users"
  refSchema := "app"
  columnName := "manager_id"
  refColumn := "id"
  ord := 1

/-- The snapshot before indexes are loaded. -/
def usersSchemas : Schemas := (loadTables ["app"] [("app", "users")]).getD .empty

theorem usersSchemas_eq : loadTables ["app"] (mysqlTables CatalogRuntime.ascii usersTableRows) =
    some usersSchemas := rfl

theorem mysqlKeysKept_users :
    MysqlKeysKept CatalogRuntime.ascii false usersSchemas
      [usersIndexRow "by_name" 2 "first", usersIndexRow "by_name" 1 "last"] [managerRow] := by
  refine (mysqlKeysKept_iff usersSchemas_eq ⟨by decide, by decide⟩).2 ⟨?_, ?_, ?_, ?_⟩
  · decide
  · decide
  · decide
  · simp

/-- The index `email.unique` is lost. -/
theorem emailUnique_not_mysqlKeysKept :
    RowsOfTables usersSchemas [usersIndexRow "email.unique" 1 "email"] [] ∧
      ¬ MysqlKeysKept CatalogRuntime.ascii false usersSchemas
        [usersIndexRow "email.unique" 1 "email"] [] := by
  have hrows : RowsOfTables usersSchemas [usersIndexRow "email.unique" 1 "email"] [] :=
    ⟨by decide, by simp⟩
  refine ⟨hrows, ?_⟩
  rintro ⟨result, hresult, hsame, hkeys⟩
  have hsome : (result.table? "app" "users").isSome = true := by
    rw [hsame]
    rfl
  obtain ⟨table, htable⟩ := Option.isSome_iff_exists.1 hsome
  have hcolumns := (hkeys _ _ _ htable).index "email.unique"
  rw [(loadMysqlKeys_spec (fun _ _ _ htable => (table?_of_loadTables usersSchemas_eq htable).2)
    hresult htable _).1] at hcolumns
  have hfree := names_of_loadedIndexColumns (.head _) hcolumns
  exact absurd hfree.1 (by decide)

end SharedTsLibs.DrizzleUtils
