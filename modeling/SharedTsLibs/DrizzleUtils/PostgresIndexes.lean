import SharedTsLibs.DrizzleUtils.PostgresColumns

/-!
# Indexes of Postgres snapshots

When the columns of an index are all listed, each under its name or as its expression.

* `index_of_snapshotPgKeys` — the index that a snapshot has.
* `columns_pgIndex_of_singleton`, `columns_pgIndex_of_length` — of a single column its name or its
  expression is read, and of more than one none.
* `pgIndexComplete_iff` — an index is listed completely exactly when it has a single column that
  is found.
-/

namespace SharedTsLibs.DrizzleUtils

/-! ## The columns that are read -/

/-- What is listed for an expression that is the only column of its index. -/
def onlyExpr (definition : String) : String :=
  ((if definition = "" then [] else definition.toList.splitOn '\x1f')[0]?.map
    String.ofList).getD "<expression>"

/-- An expression is listed as it is, if there is no separator in it. -/
theorem onlyExpr_eq_iff (definition : String) :
    onlyExpr definition = definition ↔ definition ≠ "" ∧ '\x1f' ∉ definition.toList := by
  rw [onlyExpr]
  by_cases hempty : definition = ""
  · simp [hempty]
  · rw [if_neg hempty]
    obtain ⟨first, parts, hparts⟩ :=
      List.exists_cons_of_ne_nil (List.splitOn_ne_nil '\x1f' definition.toList)
    have hfirst : '\x1f' ∉ first :=
      Lines.not_mem_of_mem_splitOn (hparts ▸ List.mem_cons_self)
    constructor
    · intro hsame
      rw [hparts, List.getElem?_cons_zero, Option.map_some, Option.getD_some] at hsame
      refine ⟨hempty, ?_⟩
      rw [← hsame, String.toList_ofList]
      exact hfirst
    · rintro ⟨-, hsep⟩
      rw [List.splitOn_eq_singleton hsep]
      simp

section Columns

variable (runtime : CatalogRuntime) (attMap : AttMap)

theorem columns_pgIndex (index : PgIndex) :
    (pgIndex runtime attMap index.toRow).columns = pgIndexColumns runtime
      (OrderedMap.get? attMap (attKey index.schemaName index.tableName))
      (parsePgIntArray runtime (some (.str index.indkey))) index.indexExprs := rfl

/-- No column of an index on several is read. -/
theorem columns_pgIndex_of_length {index : PgIndex} (hlength : index.columns.length ≠ 1)
    (h : ∀ column ∈ index.columns, column.attnum ≤ 2 ^ 53) :
    (pgIndex runtime attMap index.toRow).columns = [] := by
  rw [columns_pgIndex, parsePgIntArray_indkey runtime h, if_neg hlength]
  rfl

/-- The only column of an index is read. -/
theorem columns_pgIndex_of_singleton {index : PgIndex} {column : PgIndexColumn}
    (hcolumns : index.columns = [column]) (h : column.attnum ≤ 2 ^ 53) :
    (pgIndex runtime attMap index.toRow).columns =
      [if column.attnum = 0 then onlyExpr column.definition
        else attName runtime (OrderedMap.get? attMap (attKey index.schemaName index.tableName))
          (.finite column.attnum)] := by
  have hexprs : index.indexExprs = column.definition := by
    rw [PgIndex.indexExprs, hcolumns, List.map_singleton, List.intercalate_singleton,
      String.ofList_toList]
  rw [columns_pgIndex, parsePgIntArray_indkey runtime (by simpa [hcolumns] using h), hexprs,
    hcolumns, if_pos List.length_singleton, List.map_singleton, pgIndexColumns]
  have hzero : (JsNumber.finite column.attnum = 0) = (column.attnum = 0) := by
    rw [JsNumber.ofNat_eq_finite 0]
    simp
  simp only [List.mapIdx_cons, List.mapIdx_nil, hzero, onlyExpr]

end Columns

/-! ## The index of a snapshot -/

variable {runtime : CatalogRuntime} {asText : Bool} {catalog : PgCatalog}
  {schemas excludeTables : List String} {result : Schemas}

/-- No constraint is an index. -/
theorem indexes_applyPgConstraint (runtime : CatalogRuntime) (asText : Bool) (attMap : AttMap)
    (constraint : PgConstraint) (table : TableSnapshot) :
    (applyPgConstraint runtime asText attMap constraint table).indexes = table.indexes := by
  obtain ⟨schemaName, tableName, constraintName, kind, deferrable, definition, conkey⟩ :=
    constraint
  cases kind <;> rfl

/-- The index that a snapshot has of a row. -/
theorem index_of_snapshotPgKeys
    (h : snapshotPgKeys runtime asText catalog schemas excludeTables = some result)
    {index : PgIndex} (hmem : index ∈ catalog.indexes)
    (htable : (result.table? index.schemaName index.tableName).isSome) :
    ∃ table, result.table? index.schemaName index.tableName = some table ∧
      table.indexes.own? index.indexName =
        if index.indexName = "__proto__" then none
        else some (pgIndex runtime (catalog.attMap runtime schemas excludeTables)
          index.toRow) := by
  obtain ⟨hselects, tables, constrained, hbefore, hconstrained, hresult⟩ :=
    stages_of_table? h htable
  have hmem' : index ∈ catalog.selectIndexes schemas excludeTables :=
    List.mem_filter.2 ⟨hmem, hselects⟩
  have hnodup : ((catalog.selectIndexes schemas excludeTables).map PgIndex.place).Nodup :=
    catalog.nodup_indexes.sublist (List.filter_sublist.map _)
  obtain ⟨middle, hmiddle, hkeep⟩ := applyEntries_keep TableSnapshot.indexes hconstrained
    (fun constraint table => indexes_applyPgConstraint _ _ _ constraint table) hbefore
  obtain ⟨table, htable, hlook⟩ := applyEntries_look_map (fun table => table.indexes.own?)
    (fun index : PgIndex => pgIndex runtime (catalog.attMap runtime schemas excludeTables)
      index.toRow) hresult (List.pairwise_map.1 hnodup)
    (fun _ _ _ => PlainObject.own?_assign_eq) hmiddle
  refine ⟨table, htable, ?_⟩
  have hfind := find?_place hnodup hmem'
  rw [PgIndex.place] at hfind
  rw [hlook, hfind, hkeep]
  simp [emptyTable]

/-! ## Indexes listed -/

/-- What a column of an index is listed as. -/
def ColumnListed (catalog : PgCatalog) (index : PgIndex) (column : PgIndexColumn)
    (text : String) : Prop :=
  if column.attnum = 0 then text = column.definition
  else catalog.HasColumn index.schemaName index.tableName column.attnum text

/-- A snapshot lists all columns of an index, in their order. -/
def PgIndexComplete (catalog : PgCatalog) (result : Schemas) (index : PgIndex) : Prop :=
  ∃ table listed, result.table? index.schemaName index.tableName = some table ∧
    table.indexes.own? index.indexName = some listed ∧
    List.Forall₂ (ColumnListed catalog index) index.columns listed.columns

/-- An index has a single column: an expression without the separator, or a column that the
catalog rows that a snapshot loads name. -/
def OnlyColumnFound (catalog : PgCatalog) (rows : List AttributeRow) (index : PgIndex) : Prop :=
  ∃ column, index.columns = [column] ∧
    if column.attnum = 0 then column.definition ≠ "" ∧ '\x1f' ∉ column.definition.toList
    else ∃ name, catalog.HasColumn index.schemaName index.tableName column.attnum name ∧
      lastAttname rows (attKey index.schemaName index.tableName) column.attnum = some name

/-- The only column of an index is listed exactly when it is found. -/
theorem columnListed_iff {index : PgIndex} (hmem : index ∈ catalog.indexes)
    (hselects : selects schemas excludeTables index.schemaName index.tableName = true)
    {column : PgIndexColumn} (hcolumn : column ∈ index.columns) :
    ColumnListed catalog index column
        (if column.attnum = 0 then onlyExpr column.definition
          else attName runtime (OrderedMap.get? (catalog.attMap runtime schemas excludeTables)
            (attKey index.schemaName index.tableName)) (.finite column.attnum)) ↔
      if column.attnum = 0 then column.definition ≠ "" ∧ '\x1f' ∉ column.definition.toList
      else ∃ name, catalog.HasColumn index.schemaName index.tableName column.attnum name ∧
        lastAttname (catalog.selectAttributes schemas excludeTables)
          (attKey index.schemaName index.tableName) column.attnum = some name := by
  rw [ColumnListed]
  by_cases hzero : column.attnum = 0
  · rw [if_pos hzero, if_pos hzero, if_pos hzero]
    exact onlyExpr_eq_iff column.definition
  · obtain ⟨name, hlast⟩ := exists_lastAttname_of_selects hselects
      (catalog.indkey_mem index hmem column hcolumn hzero)
    rw [if_neg hzero, if_neg hzero, if_neg hzero, PgCatalog.attMap, attName_loadPgAttMap, hlast]
    simp

theorem le_of_mem_columns {index : PgIndex} (hmem : index ∈ catalog.indexes)
    {column : PgIndexColumn} (hcolumn : column ∈ index.columns) : column.attnum ≤ 2 ^ 53 := by
  by_cases hzero : column.attnum = 0
  · rw [hzero]
    exact Nat.zero_le _
  · exact le_of_mem_attributes (catalog.indkey_mem index hmem column hcolumn hzero)

/-- The columns that are read are those of the index exactly when it has a single one that is
found. -/
theorem forall₂_columns_pgIndex_iff (runtime : CatalogRuntime) {index : PgIndex}
    (hmem : index ∈ catalog.indexes)
    (hselects : selects schemas excludeTables index.schemaName index.tableName = true) :
    List.Forall₂ (ColumnListed catalog index) index.columns
        (pgIndex runtime (catalog.attMap runtime schemas excludeTables) index.toRow).columns ↔
      OnlyColumnFound catalog (catalog.selectAttributes schemas excludeTables) index := by
  by_cases hlength : index.columns.length = 1
  · obtain ⟨column, hcolumns⟩ := List.length_eq_one_iff.1 hlength
    have hcolumn : column ∈ index.columns := by
      rw [hcolumns]
      exact .head _
    rw [columns_pgIndex_of_singleton runtime _ hcolumns (le_of_mem_columns hmem hcolumn),
      OnlyColumnFound, hcolumns, List.forall₂_cons, columnListed_iff hmem hselects hcolumn]
    simp
  · rw [columns_pgIndex_of_length runtime _ hlength fun column => le_of_mem_columns hmem,
      List.forall₂_nil_right_iff]
    constructor
    · intro hnil
      exact absurd hnil index.columns_ne_nil
    · rintro ⟨column, hcolumns, -⟩
      rw [hcolumns] at hlength
      exact absurd List.length_singleton hlength

/-- An index of a table of a snapshot is listed completely exactly when it has a single column
that is found. -/
theorem pgIndexComplete_iff
    (h : snapshotPgKeys runtime asText catalog schemas excludeTables = some result)
    {index : PgIndex} (hmem : index ∈ catalog.indexes)
    (htable : (result.table? index.schemaName index.tableName).isSome) :
    PgIndexComplete catalog result index ↔
      index.indexName ≠ "__proto__" ∧
        OnlyColumnFound catalog (catalog.selectAttributes schemas excludeTables) index := by
  rw [← forall₂_columns_pgIndex_iff runtime hmem (stages_of_table? h htable).1]
  obtain ⟨table, htable, hindex⟩ := index_of_snapshotPgKeys h hmem htable
  constructor
  · rintro ⟨table', listed, htable', hlisted, hcolumns⟩
    obtain rfl := Option.some_inj.1 (htable.symm.trans htable')
    rw [hindex] at hlisted
    split at hlisted
    · cases hlisted
    · next hname =>
      cases hlisted
      exact ⟨hname, hcolumns⟩
  · rintro ⟨hname, hcolumns⟩
    rw [if_neg hname] at hindex
    exact ⟨table, _, htable, hindex, hcolumns⟩

/-! ## An index on two columns -/

/-- An index of the users of a database on some columns. -/
def usersIndex (indexName : String) (column : PgIndexColumn) (columns : List PgIndexColumn) :
    PgIndex where
  schemaName := "app"
  tableName := "users"
  indexName
  method := "btree"
  isUnique := false
  predicate := none
  columns := column :: columns
  columns_ne_nil := by simp

/-- A database with an index on one column and one on two columns. -/
def usersCatalog : PgCatalog where
  tables := [("app", "users")]
  attributes := [⟨"app", "users", 1, "last"⟩, ⟨"app", "users", 2, "first"⟩]
  constraints := []
  indexes := [usersIndex "by_last" ⟨1, "last"⟩ [],
    usersIndex "by_name" ⟨1, "last"⟩ [⟨2, "first"⟩]]
  nodup_attributes := by decide
  attnum_lt := by decide
  nodup_constraints := by decide
  nodup_indexes := by decide
  conkey_mem := by decide
  confkey_mem := by
    intro constraint hmem
    cases hmem
  indkey_mem := by decide

/-- The snapshot of the database. -/
def usersSnapshot : Schemas :=
  (snapshotPgKeys CatalogRuntime.ascii false usersCatalog ["app"] []).getD .empty

theorem pgIndexComplete_last :
    PgIndexComplete usersCatalog usersSnapshot (usersIndex "by_last" ⟨1, "last"⟩ []) := by
  have h : snapshotPgKeys CatalogRuntime.ascii false usersCatalog ["app"] [] =
      some usersSnapshot := rfl
  refine (pgIndexComplete_iff h (.head _) rfl).2 ⟨by decide, ⟨1, "last"⟩, rfl, ?_⟩
  exact ⟨"last", .head _, by decide⟩

/-- No column of the index on two columns is listed. -/
theorem byName_not_pgIndexComplete :
    snapshotPgKeys CatalogRuntime.ascii false usersCatalog ["app"] [] = some usersSnapshot ∧
      usersIndex "by_name" ⟨1, "last"⟩ [⟨2, "first"⟩] ∈ usersCatalog.indexes ∧
      (usersSnapshot.table? "app" "users").isSome ∧
      ¬ PgIndexComplete usersCatalog usersSnapshot
        (usersIndex "by_name" ⟨1, "last"⟩ [⟨2, "first"⟩]) := by
  have h : snapshotPgKeys CatalogRuntime.ascii false usersCatalog ["app"] [] =
      some usersSnapshot := rfl
  have hmem : usersIndex "by_name" ⟨1, "last"⟩ [⟨2, "first"⟩] ∈ usersCatalog.indexes :=
    .tail _ (.head _)
  have htable : (usersSnapshot.table? "app" "users").isSome = true := rfl
  refine ⟨h, hmem, htable, ?_⟩
  rintro ⟨table, listed, htable', hlisted, hcolumns⟩
  obtain ⟨table, htable, hindex⟩ := index_of_snapshotPgKeys h hmem htable
  obtain rfl := Option.some_inj.1 (htable.symm.trans htable')
  obtain rfl := Option.some_inj.1 (hindex.symm.trans hlisted)
  rw [columns_pgIndex_of_length _ _ (by decide) (by decide)] at hcolumns
  cases hcolumns

end SharedTsLibs.DrizzleUtils
