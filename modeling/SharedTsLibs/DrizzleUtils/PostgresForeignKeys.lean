import SharedTsLibs.DrizzleUtils.PostgresColumns

/-!
# Foreign keys of Postgres snapshots

When the columns of a foreign key are the actual ones, on both of its sides.

* `foreignKey_of_snapshotPgKeys` — the foreign key that a snapshot has.
* `ColumnsFound` — the catalog rows that a snapshot loads name the columns.
* `pgForeignKeyResolved_iff` — a foreign key is resolved exactly when its columns are found.
* `columnsFound_of_selects` — the columns of a table that is asked for are found, if no other
  table has its text.
-/

namespace SharedTsLibs.DrizzleUtils

/-! ## The foreign key of a snapshot -/

/-- The foreign key that a constraint makes. -/
def pgForeignKeyOf (runtime : CatalogRuntime) (asText : Bool) (attMap : AttMap)
    (constraint : PgConstraint) : Option ForeignKeySnapshot :=
  match constraint.kind with
  | .foreignKey reference =>
    some
      { columns := resolvePgColumns runtime attMap constraint.schemaName constraint.tableName
          (some (keyArray asText constraint.conkey))
        referencedSchema := reference.schemaName
        referencedTable := reference.tableName
        referencedColumns := resolvePgColumns runtime attMap reference.schemaName
          reference.tableName (some (keyArray asText reference.confkey))
        onUpdate := pgFkActionFromCode reference.confupdtype
        onDelete := pgFkActionFromCode reference.confdeltype }
  | .primaryKey | .unique | .check => none

/-- A foreign key is written under its own name, and no other constraint is one. -/
theorem foreignKeys_applyPgConstraint (runtime : CatalogRuntime) (asText : Bool) (attMap : AttMap)
    (constraint : PgConstraint) (table : TableSnapshot) (name : String) :
    (applyPgConstraint runtime asText attMap constraint table).foreignKeys.own? name =
      if constraint.place.2.2 = name ∧ name ≠ "__proto__" then
        (pgForeignKeyOf runtime asText attMap constraint).or (table.foreignKeys.own? name)
      else table.foreignKeys.own? name := by
  have hother (hnone : pgForeignKeyOf runtime asText attMap constraint = none)
      (hsame : (applyPgConstraint runtime asText attMap constraint table).foreignKeys =
        table.foreignKeys) :
      (applyPgConstraint runtime asText attMap constraint table).foreignKeys.own? name =
        if constraint.place.2.2 = name ∧ name ≠ "__proto__" then
          (pgForeignKeyOf runtime asText attMap constraint).or (table.foreignKeys.own? name)
        else table.foreignKeys.own? name := by
    rw [hnone, hsame, Option.none_or, ite_self]
  obtain ⟨schemaName, tableName, constraintName, kind, deferrable, definition, conkey⟩ :=
    constraint
  cases kind with
  | primaryKey => exact hother rfl rfl
  | unique => exact hother rfl rfl
  | check => exact hother rfl rfl
  | foreignKey reference =>
    show PlainObject.own? (table.foreignKeys.assign constraintName _) name = _
    rw [PlainObject.own?_assign_eq]
    rfl

variable {runtime : CatalogRuntime} {asText : Bool} {catalog : PgCatalog}
  {schemas excludeTables : List String} {result : Schemas}

/-- The foreign key that a snapshot has of a constraint. -/
theorem foreignKey_of_snapshotPgKeys
    (h : snapshotPgKeys runtime asText catalog schemas excludeTables = some result)
    {constraint : PgConstraint} (hmem : constraint ∈ catalog.constraints)
    (htable : (result.table? constraint.schemaName constraint.tableName).isSome) :
    ∃ table, result.table? constraint.schemaName constraint.tableName = some table ∧
      table.foreignKeys.own? constraint.constraintName =
        if constraint.constraintName = "__proto__" then none
        else pgForeignKeyOf runtime asText (catalog.attMap runtime schemas excludeTables)
          constraint := by
  obtain ⟨hselects, tables, constrained, hbefore, hconstrained, hresult⟩ :=
    stages_of_table? h htable
  have hmem' : constraint ∈ catalog.selectConstraints schemas excludeTables :=
    List.mem_filter.2 ⟨hmem, hselects⟩
  have hnodup : ((catalog.selectConstraints schemas excludeTables).map PgConstraint.place).Nodup :=
    catalog.nodup_constraints.sublist (List.filter_sublist.map _)
  obtain ⟨middle, hmiddle, hlook⟩ := applyEntries_look (fun table => table.foreignKeys.own?)
    (pgForeignKeyOf runtime asText (catalog.attMap runtime schemas excludeTables)) hconstrained
    (List.pairwise_map.1 hnodup)
    (fun constraint table name => foreignKeys_applyPgConstraint _ _ _ constraint table name)
    hbefore
  obtain ⟨table, htable, hkeep⟩ := applyEntries_keep TableSnapshot.foreignKeys hresult
    (fun _ _ => rfl) hmiddle
  refine ⟨table, htable, ?_⟩
  have hfind := find?_place hnodup hmem'
  rw [PgConstraint.place] at hfind
  rw [hkeep, hlook, hfind, Option.bind_some]
  simp [emptyTable]

/-! ## Columns found -/

/-- The rows that a snapshot loads name the columns of a relation: the last row with the text of
the relation and the number has the name, or no row has, and the name is the text that stands
for a missing one. -/
def ColumnsFound (runtime : CatalogRuntime) (catalog : PgCatalog) (rows : List AttributeRow)
    (schemaName tableName : String) (keys : List ℕ) : Prop :=
  ∀ n ∈ keys, ∃ name, catalog.HasColumn schemaName tableName n name ∧
    (lastAttname rows (attKey schemaName tableName) n = some name ∨
      lastAttname rows (attKey schemaName tableName) n = none ∧
        (∃ row ∈ rows, row.text = attKey schemaName tableName) ∧
        name = "attnum:" ++ runtime.numberToString (.finite n))

/-- The names that a snapshot has for the columns of a key are the actual ones exactly when the
columns are found. -/
theorem forall₂_resolvePgColumns_iff (runtime : CatalogRuntime) (asText : Bool)
    (rows : List AttributeRow) {schemaName tableName : String}
    {keys : List ℕ} (hkeys : ∀ n ∈ keys, n ≤ 2 ^ 53) :
    List.Forall₂ (catalog.HasColumn schemaName tableName) keys
        (resolvePgColumns runtime (loadPgAttMap runtime (rows.map AttributeRow.toRow)) schemaName
          tableName (some (keyArray asText keys))) ↔
      ColumnsFound runtime catalog rows schemaName tableName keys := by
  rw [resolvePgColumns_keyArray runtime rows schemaName tableName hkeys]
  split
  · next hrow =>
    rw [List.forall₂_map_right_iff, List.forall₂_same]
    refine forall₂_congr fun n _ => ?_
    cases lastAttname rows (attKey schemaName tableName) n with
    | none => simp [hrow]
    | some name => simp
  · next hrow =>
    rw [List.forall₂_nil_right_iff]
    constructor
    · rintro rfl n hn
      cases hn
    · intro hfound
      rw [List.eq_nil_iff_forall_not_mem]
      intro n hn
      obtain ⟨name, -, hlast | ⟨-, hexists, -⟩⟩ := hfound n hn
      · obtain ⟨row, hmem, htext, -, -⟩ := exists_row_of_lastAttname hlast
        exact hrow ⟨row, hmem, htext⟩
      · exact hrow hexists

/-- The columns of a table that is asked for are found, if no other table has its text. -/
theorem columnsFound_of_selects {schemaName tableName : String} {keys : List ℕ}
    (hselects : selects schemas excludeTables schemaName tableName = true)
    (hkeys : ∀ n ∈ keys, (schemaName, tableName, n) ∈ catalog.attributes.map AttributeRow.key)
    (halone : ∀ row ∈ catalog.selectAttributes schemas excludeTables,
      row.text = attKey schemaName tableName →
        row.schemaName = schemaName ∧ row.tableName = tableName) :
    ColumnsFound runtime catalog (catalog.selectAttributes schemas excludeTables) schemaName
      tableName keys := by
  intro n hn
  obtain ⟨name, hlast⟩ := exists_lastAttname_of_selects hselects (hkeys n hn)
  obtain ⟨row, hrow, htext, rfl, rfl⟩ := exists_row_of_lastAttname hlast
  obtain ⟨rfl, rfl⟩ := halone row hrow htext
  exact ⟨row.attname, (List.mem_filter.1 hrow).1, .inl hlast⟩

/-! ## Foreign keys resolved -/

/-- A snapshot has a foreign key with its columns: as many as its numbers, each the name of the
column at the same position. -/
def PgForeignKeyResolved (catalog : PgCatalog) (result : Schemas) (constraint : PgConstraint)
    (reference : PgReference) : Prop :=
  ∃ table key, result.table? constraint.schemaName constraint.tableName = some table ∧
    table.foreignKeys.own? constraint.constraintName = some key ∧
    List.Forall₂ (catalog.HasColumn constraint.schemaName constraint.tableName)
      constraint.conkey key.columns ∧
    List.Forall₂ (catalog.HasColumn reference.schemaName reference.tableName)
      reference.confkey key.referencedColumns

/-- A foreign key of a table of a snapshot is resolved exactly when the rows that the snapshot
loads name the columns on both of its sides. -/
theorem pgForeignKeyResolved_iff
    (h : snapshotPgKeys runtime asText catalog schemas excludeTables = some result)
    {constraint : PgConstraint} (hmem : constraint ∈ catalog.constraints)
    {reference : PgReference} (hkind : constraint.kind = .foreignKey reference)
    (htable : (result.table? constraint.schemaName constraint.tableName).isSome) :
    PgForeignKeyResolved catalog result constraint reference ↔
      constraint.constraintName ≠ "__proto__" ∧
      ColumnsFound runtime catalog (catalog.selectAttributes schemas excludeTables)
        constraint.schemaName constraint.tableName constraint.conkey ∧
      ColumnsFound runtime catalog (catalog.selectAttributes schemas excludeTables)
        reference.schemaName reference.tableName reference.confkey := by
  obtain ⟨table, htable, hkey⟩ := foreignKey_of_snapshotPgKeys h hmem htable
  have hconkey : ∀ n ∈ constraint.conkey, n ≤ 2 ^ 53 := fun n hn =>
    le_of_mem_attributes (catalog.conkey_mem constraint hmem n hn)
  have hconfkey : ∀ n ∈ reference.confkey, n ≤ 2 ^ 53 := fun n hn =>
    le_of_mem_attributes (catalog.confkey_mem constraint hmem reference hkind n hn)
  rw [← forall₂_resolvePgColumns_iff runtime asText _ hconkey,
    ← forall₂_resolvePgColumns_iff runtime asText _ hconfkey]
  rw [pgForeignKeyOf, hkind] at hkey
  constructor
  · rintro ⟨table', key, htable', hkey', hcolumns, hreferenced⟩
    rw [htable, Option.some_inj] at htable'
    subst htable'
    rw [hkey] at hkey'
    split at hkey'
    · cases hkey'
    · next hname =>
      cases hkey'
      exact ⟨hname, hcolumns, hreferenced⟩
  · rintro ⟨hname, hcolumns, hreferenced⟩
    rw [if_neg hname] at hkey
    exact ⟨table, _, htable, hkey, hcolumns, hreferenced⟩

/-! ## A reference to another schema -/

/-- What the posts of a database refer to. -/
def authorReference : PgReference where
  schemaName := "shared"
  tableName := "users"
  confkey := [1]
  confupdtype := "a"
  confdeltype := "c"

/-- Posts have an author. -/
def authorConstraint : PgConstraint where
  schemaName := "app"
  tableName := "posts"
  constraintName := "posts_author_fk"
  kind := .foreignKey authorReference
  deferrable := false
  definition := "FOREIGN KEY (author_id) REFERENCES shared.users(id) ON DELETE CASCADE"
  conkey := [2]

/-- A database whose posts refer to users in another schema. -/
def postsCatalog : PgCatalog where
  tables := [("app", "posts"), ("shared", "users")]
  attributes := [⟨"app", "posts", 1, "id"⟩, ⟨"app", "posts", 2, "author_id"⟩,
    ⟨"shared", "users", 1, "id"⟩]
  constraints := [authorConstraint]
  indexes := []
  nodup_attributes := by decide
  attnum_lt := by decide
  nodup_constraints := by decide
  nodup_indexes := by decide
  conkey_mem := by decide
  confkey_mem := by
    intro constraint hmem reference hkind
    obtain rfl := List.mem_singleton.1 hmem
    cases hkind
    decide
  indkey_mem := by decide

/-- The snapshot of some schemas of the database. -/
def postsSnapshot (schemas : List String) : Schemas :=
  (snapshotPgKeys CatalogRuntime.ascii false postsCatalog schemas []).getD .empty

theorem pgForeignKeyResolved_both :
    PgForeignKeyResolved postsCatalog (postsSnapshot ["app", "shared"]) authorConstraint
      authorReference := by
  have h : snapshotPgKeys CatalogRuntime.ascii false postsCatalog ["app", "shared"] [] =
      some (postsSnapshot ["app", "shared"]) := rfl
  refine (pgForeignKeyResolved_iff h (.head _) rfl rfl).2 ⟨by decide, ?_, ?_⟩
  · exact columnsFound_of_selects (by decide) (by decide) (by decide)
  · exact columnsFound_of_selects (by decide) (by decide) (by decide)

/-- Without the schema of the users their columns are not found. -/
theorem app_not_pgForeignKeyResolved :
    snapshotPgKeys CatalogRuntime.ascii false postsCatalog ["app"] [] =
        some (postsSnapshot ["app"]) ∧
      authorConstraint ∈ postsCatalog.constraints ∧
      ((postsSnapshot ["app"]).table? "app" "posts").isSome ∧
      ¬ PgForeignKeyResolved postsCatalog (postsSnapshot ["app"]) authorConstraint
        authorReference := by
  have h : snapshotPgKeys CatalogRuntime.ascii false postsCatalog ["app"] [] =
      some (postsSnapshot ["app"]) := rfl
  have htable : ((postsSnapshot ["app"]).table? "app" "posts").isSome = true := rfl
  refine ⟨h, .head _, htable, ?_⟩
  rintro ⟨table, key, htable', hkey', -, hreferenced⟩
  obtain ⟨table, htable, hkey⟩ := foreignKey_of_snapshotPgKeys h (.head _) htable
  obtain rfl := Option.some_inj.1 (htable.symm.trans htable')
  obtain rfl := Option.some_inj.1 (hkey.symm.trans hkey')
  cases hreferenced

end SharedTsLibs.DrizzleUtils
