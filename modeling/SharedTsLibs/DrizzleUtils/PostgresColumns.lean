import SharedTsLibs.DrizzleUtils.PostgresSnapshot
import SharedTsLibs.DrizzleUtils.TableEntries
import SharedTsLibs.Lib.Lines

/-!
# The columns of Postgres snapshots

What the numbers of the catalog are read as, and which names the map of attributes has for them.

* `parsePgIntArray_keyArray`, `parsePgIntArray_indkey` — arrays are read; of an `int2vector` only
  a single number is.
* `lastAttname`, `attName_loadPgAttMap` — the name that the last attribute of a text and a
  number has.
* `resolvePgColumns_keyArray` — the names of the columns of a key.
* `exists_snapshotPgKeys` — a snapshot is made where names are not inherited by objects.
* `stages_of_table?` — the tables of a snapshot are those that the queries select.
-/

namespace SharedTsLibs.DrizzleUtils

/-! ## Numbers -/

section Numbers

variable (runtime : CatalogRuntime)

theorem isDigit_of_mem_digitsOf {n : ℕ} {c : Char} (h : c ∈ digitsOf n) : c.isDigit = true :=
  Nat.isDigit_of_mem_toDigits (by decide) (by decide) h

theorem digitsOf_ne_nil (n : ℕ) : digitsOf n ≠ [] := Nat.toDigits_ne_nil

/-- No character that is not a digit is in a number. -/
theorem not_mem_digitsOf {c : Char} (hc : c.isDigit = false) (n : ℕ) : c ∉ digitsOf n := by
  intro hmem
  rw [isDigit_of_mem_digitsOf hmem] at hc
  cases hc

theorem number_digitsOf {n : ℕ} (h : n ≤ 2 ^ 53) :
    NumericText.number runtime.rounding (.ofList (JsText.trim (digitsOf n))) = .finite n := by
  rw [NumericText.trim_of_isDigit fun c => isDigit_of_mem_digitsOf]
  exact NumericText.number_toDigits runtime.rounding h

theorem dropBraces_braces (cs : List Char) : dropBraces ('{' :: cs ++ ['}']) = cs := by
  simp [dropBraces]

/-- A text without braces at its ends is left as it is. -/
theorem dropBraces_eq_self {cs : List Char} (hhead : cs.head? ≠ some '{')
    (hlast : cs.getLast? ≠ some '}') : dropBraces cs = cs := by
  simp [dropBraces, hhead, hlast]

/-- The parts of a list of numbers are the numbers. -/
theorem filter_isFinite_numbers {keys : List ℕ} (hkeys : ∀ n ∈ keys, n ≤ 2 ^ 53) :
    ((keys.map digitsOf).map fun s =>
      NumericText.number runtime.rounding (.ofList (JsText.trim s))).filter JsNumber.isFinite =
      keys.map fun n : ℕ => .finite n := by
  have hnumbers : ((keys.map digitsOf).map fun s =>
      NumericText.number runtime.rounding (.ofList (JsText.trim s))) =
        keys.map fun n : ℕ => .finite n := by
    rw [List.map_map]
    refine List.map_congr_left fun n hn => ?_
    rw [Function.comp_apply, number_digitsOf runtime (hkeys n hn)]
  rw [hnumbers, List.filter_eq_self]
  intro n hn
  obtain ⟨k, -, rfl⟩ := List.mem_map.1 hn
  rfl

/-- An array of numbers is read in either form. -/
theorem parsePgIntArray_keyArray {keys : List ℕ} (hkeys : ∀ n ∈ keys, n ≤ 2 ^ 53)
    (asText : Bool) :
    parsePgIntArray runtime (some (keyArray asText keys)) = keys.map fun n : ℕ => .finite n := by
  cases asText with
  | false =>
    show ((keys.map fun n : ℕ => CatalogValue.num (.finite n)).map fun v =>
      toNumber runtime (some v)).filter JsNumber.isFinite = _
    rw [List.map_map]
    refine List.filter_eq_self.2 fun n hn => ?_
    obtain ⟨k, -, rfl⟩ := List.mem_map.1 hn
    rfl
  | true =>
    cases keys with
    | nil => rfl
    | cons k keys =>
      have hparts : ∀ part ∈ (k :: keys).map digitsOf, ',' ∉ part := by
        intro part hpart
        obtain ⟨n, -, rfl⟩ := List.mem_map.1 hpart
        exact not_mem_digitsOf (by decide) n
      have hwhite : ∀ c ∈ [','].intercalate ((k :: keys).map digitsOf),
          JsText.isWhitespace c = false := by
        intro c hc
        rcases Lines.mem_intercalate hc with rfl | ⟨part, hpart, hc⟩
        · decide
        · obtain ⟨n, -, rfl⟩ := List.mem_map.1 hpart
          exact NumericText.not_isWhitespace_of_isDigit (isDigit_of_mem_digitsOf hc)
      have htrim : JsText.trim ([','].intercalate ((k :: keys).map digitsOf)) =
          [','].intercalate ((k :: keys).map digitsOf) :=
        JsText.trim_eq_self (fun c hc => hwhite c (List.mem_of_mem_head? hc))
          (fun c hc => hwhite c (List.mem_of_mem_getLast? hc))
      have hne : [','].intercalate ((k :: keys).map digitsOf) ≠ [] :=
        Lines.intercalate_ne_nil (digitsOf_ne_nil k) _
      rw [keyArray, if_pos rfl, parsePgIntArray, String.toList_ofList, dropBraces_braces, htrim,
        if_neg hne, List.splitOn_intercalate ',' hparts (by simp),
        filter_isFinite_numbers runtime hkeys]

/-- The characters of an `int2vector` are digits and blanks. -/
theorem mem_indkey {index : PgIndex} {c : Char} (h : c ∈ index.indkey.toList) :
    c = ' ' ∨ c.isDigit = true := by
  rw [PgIndex.indkey, String.toList_ofList] at h
  refine (Lines.mem_intercalate h).imp_right ?_
  rintro ⟨part, hpart, hc⟩
  obtain ⟨column, -, rfl⟩ := List.mem_map.1 hpart
  exact isDigit_of_mem_digitsOf hc

theorem not_mem_indkey {index : PgIndex} {c : Char} (hblank : c ≠ ' ') (hc : c.isDigit = false) :
    c ∉ index.indkey.toList := by
  intro hmem
  rcases mem_indkey hmem with hmem | hmem
  · exact hblank hmem
  · rw [hmem] at hc
    cases hc

/-- An `int2vector` has numbers at its ends. -/
theorem trim_indkey (index : PgIndex) : JsText.trim index.indkey.toList = index.indkey.toList := by
  rw [PgIndex.indkey, String.toList_ofList]
  obtain ⟨column, columns, hcolumns⟩ := List.exists_cons_of_ne_nil index.columns_ne_nil
  have hdigit : ∀ part ∈ index.columns.map fun column => digitsOf column.attnum,
      part ≠ [] ∧ ∀ c ∈ part, JsText.isWhitespace c = false := by
    intro part hpart
    obtain ⟨other, -, rfl⟩ := List.mem_map.1 hpart
    exact ⟨digitsOf_ne_nil _,
      fun c hc => NumericText.not_isWhitespace_of_isDigit (isDigit_of_mem_digitsOf hc)⟩
  refine JsText.trim_eq_self (fun c hc => ?_) fun c hc => ?_
  · rw [hcolumns] at hc hdigit
    exact (hdigit _ (.head _)).2 c (Lines.mem_of_mem_head?_intercalate (digitsOf_ne_nil _) hc)
  · obtain ⟨part, hpart, hc⟩ :=
      Lines.exists_mem_of_mem_getLast?_intercalate (fun part hpart => (hdigit part hpart).1) hc
    exact (hdigit part hpart).2 c hc

/-- The text of an `int2vector` is taken for one number. -/
theorem parsePgIntArray_indkey_eq (index : PgIndex) :
    parsePgIntArray runtime (some (.str index.indkey)) =
      [NumericText.number runtime.rounding index.indkey].filter JsNumber.isFinite := by
  have hbraces : dropBraces index.indkey.toList = index.indkey.toList :=
    dropBraces_eq_self
      (fun h => not_mem_indkey (by decide) (by decide) (List.mem_of_mem_head? h))
      (fun h => not_mem_indkey (by decide) (by decide) (List.mem_of_mem_getLast? h))
  have hne : index.indkey.toList ≠ [] := by
    rw [PgIndex.indkey, String.toList_ofList]
    obtain ⟨column, columns, hcolumns⟩ := List.exists_cons_of_ne_nil index.columns_ne_nil
    rw [hcolumns]
    exact Lines.intercalate_ne_nil (digitsOf_ne_nil _) _
  have hsplit : index.indkey.toList.splitOn ',' = [index.indkey.toList] :=
    List.splitOn_eq_singleton (not_mem_indkey (by decide) (by decide))
  rw [parsePgIntArray, hbraces, trim_indkey, if_neg hne, hsplit, List.map_singleton, trim_indkey,
    String.ofList_toList]

/-- Of the text of an `int2vector` a single number is read, and more than one are not. -/
theorem parsePgIntArray_indkey {index : PgIndex}
    (h : ∀ column ∈ index.columns, column.attnum ≤ 2 ^ 53) :
    parsePgIntArray runtime (some (.str index.indkey)) =
      if index.columns.length = 1 then index.columns.map fun column => .finite column.attnum
      else [] := by
  rw [parsePgIntArray_indkey_eq]
  obtain ⟨column, columns, hcolumns⟩ := List.exists_cons_of_ne_nil index.columns_ne_nil
  cases columns with
  | nil =>
    have hnumber : NumericText.number runtime.rounding index.indkey = .finite column.attnum := by
      rw [PgIndex.indkey, hcolumns, List.map_singleton, List.intercalate_singleton]
      exact NumericText.number_toDigits runtime.rounding (h column (by simp [hcolumns]))
    rw [hnumber, hcolumns]
    rfl
  | cons next columns =>
    have hblank : ' ' ∈ JsText.trim index.indkey.toList := by
      rw [trim_indkey, PgIndex.indkey, hcolumns, String.toList_ofList]
      simp [List.intercalate_cons_cons]
    have hnumber := NumericText.number_of_blank runtime.rounding hblank
    rw [String.ofList_toList] at hnumber
    rw [hnumber, hcolumns, if_neg (by simp)]
    rfl

end Numbers

/-! ## Names -/

section Names

variable (runtime : CatalogRuntime)

/-- The text that the names of the columns of a relation are kept under. -/
def AttributeRow.text (row : AttributeRow) : String := attKey row.schemaName row.tableName

/-- The name in the last row with a text and a number. -/
def lastAttname (rows : List AttributeRow) (text : String) (n : ℕ) : Option String :=
  (rows.reverse.find? fun row => row.text = text ∧ row.attnum = n).map AttributeRow.attname

theorem exists_row_of_lastAttname {rows : List AttributeRow} {text : String} {n : ℕ}
    {name : String} (h : lastAttname rows text n = some name) :
    ∃ row ∈ rows, row.text = text ∧ row.attnum = n ∧ row.attname = name := by
  obtain ⟨row, hfind, hname⟩ := Option.map_eq_some_iff.1 h
  have hrow := List.find?_some hfind
  rw [decide_eq_true_iff] at hrow
  exact ⟨row, List.mem_reverse.1 (List.mem_of_find?_eq_some hfind), hrow.1, hrow.2, hname⟩

/-- The names that some rows make. -/
def attNamesOf (rows : List AttributeRow) : Option AttNames :=
  Grouping.entry (fun _ : AttributeRow => [])
    (fun inner row => OrderedMap.set (.finite row.attnum) row.attname inner) rows

theorem get?_loadPgAttMap (rows : List AttributeRow) (text : String) :
    OrderedMap.get? (loadPgAttMap runtime (rows.map AttributeRow.toRow)) text =
      attNamesOf (rows.filter fun row => row.text = text) := by
  rw [loadPgAttMap, Grouping.get?_group, List.filter_map, Grouping.entry_map]
  rfl

/-- The last row with a number names the column. -/
theorem get?_attNamesOf (rows : List AttributeRow) (n : ℕ) :
    ((attNamesOf rows).bind fun names => OrderedMap.get? names (.finite n)) =
      (rows.reverse.find? fun row => row.attnum = n).map AttributeRow.attname := by
  induction rows using List.reverseRecOn with
  | nil => rfl
  | append_singleton rows row ih =>
    rw [attNamesOf, Grouping.entry_concat, Option.bind_some, OrderedMap.get?_set,
      List.reverse_concat]
    by_cases hn : row.attnum = n
    · simp [hn]
    · have hne : JsNumber.finite row.attnum ≠ .finite n := by simpa using hn
      rw [if_neg hne, List.find?_cons_of_neg (by simpa using hn), ← ih]
      cases hnames : attNamesOf rows with
      | none =>
        rw [attNamesOf] at hnames
        rw [hnames]
        rfl
      | some names =>
        rw [attNamesOf] at hnames
        rw [hnames]
        rfl

/-- The map has the name in the last row with the text and the number. -/
theorem attName_loadPgAttMap (rows : List AttributeRow) (text : String) (n : ℕ) :
    attName runtime
        (OrderedMap.get? (loadPgAttMap runtime (rows.map AttributeRow.toRow)) text) (.finite n) =
      (lastAttname rows text n).getD ("attnum:" ++ runtime.numberToString (.finite n)) := by
  rw [attName, get?_loadPgAttMap, get?_attNamesOf, lastAttname, ← List.filter_reverse,
    List.find?_filter]
  simp

/-- The names of the columns of a key, if there is a row with the text of the relation. -/
theorem resolvePgColumns_keyArray (rows : List AttributeRow) (schemaName tableName : String)
    {keys : List ℕ} (hkeys : ∀ n ∈ keys, n ≤ 2 ^ 53) (asText : Bool) :
    resolvePgColumns runtime (loadPgAttMap runtime (rows.map AttributeRow.toRow)) schemaName
        tableName (some (keyArray asText keys)) =
      if ∃ row ∈ rows, row.text = attKey schemaName tableName then
        keys.map fun n : ℕ => (lastAttname rows (attKey schemaName tableName) n).getD
          ("attnum:" ++ runtime.numberToString (.finite n))
      else [] := by
  have hnames := attName_loadPgAttMap runtime rows (attKey schemaName tableName)
  rw [resolvePgColumns]
  rw [get?_loadPgAttMap] at hnames ⊢
  cases hfound : attNamesOf (rows.filter fun row => row.text = attKey schemaName tableName) with
  | none =>
    have hnone : ¬ ∃ row ∈ rows, row.text = attKey schemaName tableName := by
      rintro ⟨row, hrow, htext⟩
      have hnil := (Grouping.entry_eq_none_iff _ _).1 hfound
      rw [List.filter_eq_nil_iff] at hnil
      exact hnil row hrow (decide_eq_true htext)
    rw [if_neg hnone]
  | some inner =>
    have hsome : ∃ row ∈ rows, row.text = attKey schemaName tableName := by
      by_contra hnone
      have hnil : rows.filter (fun row => row.text = attKey schemaName tableName) = [] := by
        rw [List.filter_eq_nil_iff]
        intro row hrow htext
        exact hnone ⟨row, hrow, of_decide_eq_true htext⟩
      rw [hnil] at hfound
      cases hfound
    rw [if_pos hsome]
    dsimp only
    rw [parsePgIntArray_keyArray runtime hkeys, List.map_map]
    refine List.map_congr_left fun n _ => ?_
    rw [hfound] at hnames
    exact hnames n

end Names

/-! ## Snapshots -/

section Snapshots

/-- The map of the attributes of the tables that a snapshot was asked for. -/
def PgCatalog.attMap (runtime : CatalogRuntime) (catalog : PgCatalog)
    (schemas excludeTables : List String) : AttMap :=
  loadPgAttMap runtime ((catalog.selectAttributes schemas excludeTables).map AttributeRow.toRow)

/-- What a constraint makes of its table. -/
def applyPgConstraint (runtime : CatalogRuntime) (asText : Bool) (attMap : AttMap)
    (constraint : PgConstraint) : TableSnapshot → TableSnapshot :=
  applyPgConstraintRow runtime (constraint.toRow asText) constraint.schemaName
    constraint.tableName attMap

/-- What an index makes of its table. -/
def applyPgIndex (runtime : CatalogRuntime) (attMap : AttMap) (index : PgIndex)
    (table : TableSnapshot) : TableSnapshot :=
  { table with
    indexes := table.indexes.assign index.indexName (pgIndex runtime attMap index.toRow) }

/-- The constraints are written to their tables. -/
theorem loadPgConstraints_eq (runtime : CatalogRuntime) (asText : Bool) (attMap : AttMap)
    (constraints : List PgConstraint) (snapshot : Schemas) :
    loadPgConstraints runtime attMap (constraints.map (PgConstraint.toRow asText)) snapshot =
      applyEntries PgConstraint.place (fun constraint => constraint.kind.code ∉ ["u", "f", "c"])
        (applyPgConstraint runtime asText attMap) snapshot constraints := by
  rw [loadPgConstraints, List.foldlM_map]
  rfl

/-- The indexes are written to their tables. -/
theorem loadPgIndexes_eq (runtime : CatalogRuntime) (attMap : AttMap) (indexes : List PgIndex)
    (snapshot : Schemas) :
    loadPgIndexes runtime attMap (indexes.map PgIndex.toRow) snapshot =
      applyEntries PgIndex.place (fun _ => false) (applyPgIndex runtime attMap) snapshot
        indexes := by
  rw [loadPgIndexes, List.foldlM_map]
  rfl

variable {runtime : CatalogRuntime} {asText : Bool} {catalog : PgCatalog}
  {schemas excludeTables : List String} {result : Schemas}

/-- A snapshot is made of tables, constraints and indexes. -/
theorem exists_of_snapshotPgKeys
    (h : snapshotPgKeys runtime asText catalog schemas excludeTables = some result) :
    ∃ tables constrained,
      loadTables schemas (pgTables runtime (catalog.selectTables schemas excludeTables)) =
        some tables ∧
      applyEntries PgConstraint.place (fun constraint => constraint.kind.code ∉ ["u", "f", "c"])
        (applyPgConstraint runtime asText (catalog.attMap runtime schemas excludeTables)) tables
        (catalog.selectConstraints schemas excludeTables) = some constrained ∧
      applyEntries PgIndex.place (fun _ => false)
        (applyPgIndex runtime (catalog.attMap runtime schemas excludeTables)) constrained
        (catalog.selectIndexes schemas excludeTables) = some result := by
  obtain ⟨tables, htables, h⟩ := Option.bind_eq_some_iff.1 h
  obtain ⟨constrained, hconstrained, h⟩ := Option.bind_eq_some_iff.1 h
  rw [loadPgConstraints_eq] at hconstrained
  rw [loadPgIndexes_eq] at h
  exact ⟨tables, constrained, htables, hconstrained, h⟩

/-- A snapshot is made where no relation or schema has a name that objects inherit. -/
theorem exists_snapshotPgKeys
    (htables : ∀ table ∈ catalog.tables, table.1 ∉ PlainObject.inheritedNames)
    (hconstraints : ∀ constraint ∈ catalog.constraints,
      constraint.schemaName ∉ PlainObject.inheritedNames ∧
        constraint.tableName ∉ PlainObject.inheritedNames)
    (hindexes : ∀ index ∈ catalog.indexes, index.schemaName ∉ PlainObject.inheritedNames ∧
      index.tableName ∉ PlainObject.inheritedNames) :
    ∃ result, snapshotPgKeys runtime asText catalog schemas excludeTables = some result := by
  have hloaded : ∃ tables, loadTables schemas
      (pgTables runtime (catalog.selectTables schemas excludeTables)) = some tables := by
    refine Fallible.exists_foldlM (fun table hmem schemas => exists_addTable ?_ schemas _) _
    obtain ⟨row, hrow, rfl⟩ := List.mem_map.1 hmem
    obtain ⟨base, hbase, rfl⟩ := List.mem_map.1 hrow
    exact htables base (List.mem_filter.1 hbase).1
  obtain ⟨tables, htables⟩ := hloaded
  have hconstrained : ∃ constrained, loadPgConstraints runtime
      (catalog.attMap runtime schemas excludeTables)
      ((catalog.selectConstraints schemas excludeTables).map (PgConstraint.toRow asText)) tables =
        some constrained := by
    rw [loadPgConstraints_eq]
    exact exists_applyEntries_of_names
      (fun constraint hmem => hconstraints constraint (List.mem_filter.1 hmem).1) tables
  obtain ⟨constrained, hconstrained⟩ := hconstrained
  have hresult : ∃ result, loadPgIndexes runtime (catalog.attMap runtime schemas excludeTables)
      ((catalog.selectIndexes schemas excludeTables).map PgIndex.toRow) constrained =
        some result := by
    rw [loadPgIndexes_eq]
    exact exists_applyEntries_of_names
      (fun index hmem => hindexes index (List.mem_filter.1 hmem).1) constrained
  obtain ⟨result, hresult⟩ := hresult
  exact ⟨result, Option.bind_eq_some_iff.2 ⟨tables, htables,
    Option.bind_eq_some_iff.2 ⟨constrained, hconstrained, hresult⟩⟩⟩

/-- The tables of a snapshot are those that the queries select: each is empty at first and then
gets its constraints and its indexes. -/
theorem stages_of_table?
    (h : snapshotPgKeys runtime asText catalog schemas excludeTables = some result)
    {schemaName tableName : String} (htable : (result.table? schemaName tableName).isSome) :
    selects schemas excludeTables schemaName tableName = true ∧
      ∃ tables constrained, tables.table? schemaName tableName = some emptyTable ∧
        applyEntries PgConstraint.place (fun constraint => constraint.kind.code ∉ ["u", "f", "c"])
          (applyPgConstraint runtime asText (catalog.attMap runtime schemas excludeTables)) tables
          (catalog.selectConstraints schemas excludeTables) = some constrained ∧
        applyEntries PgIndex.place (fun _ => false)
          (applyPgIndex runtime (catalog.attMap runtime schemas excludeTables)) constrained
          (catalog.selectIndexes schemas excludeTables) = some result := by
  obtain ⟨tables, constrained, htables, hconstrained, hresult⟩ := exists_of_snapshotPgKeys h
  rw [isSome_of_applyEntries hresult, isSome_of_applyEntries hconstrained] at htable
  obtain ⟨table, htable⟩ := Option.isSome_iff_exists.1 htable
  obtain ⟨hmem, rfl⟩ := table?_of_loadTables htables htable
  refine ⟨?_, tables, constrained, htable, hconstrained, hresult⟩
  obtain ⟨row, hrow, hsame⟩ := List.mem_map.1 hmem
  obtain ⟨base, hbase, rfl⟩ := List.mem_map.1 hrow
  cases hsame
  exact (List.mem_filter.1 hbase).2

theorem le_of_mem_attributes {schemaName tableName : String} {n : ℕ}
    (h : (schemaName, tableName, n) ∈ catalog.attributes.map AttributeRow.key) : n ≤ 2 ^ 53 := by
  obtain ⟨row, hrow, hkey⟩ := List.mem_map.1 h
  cases hkey
  exact (catalog.attnum_lt row hrow).2.le.trans (by norm_num)

/-- A column of a table that is asked for has a name. -/
theorem exists_lastAttname_of_selects {schemaName tableName : String} {n : ℕ}
    (hselects : selects schemas excludeTables schemaName tableName = true)
    (h : (schemaName, tableName, n) ∈ catalog.attributes.map AttributeRow.key) :
    ∃ name, lastAttname (catalog.selectAttributes schemas excludeTables)
      (attKey schemaName tableName) n = some name := by
  obtain ⟨row, hrow, hkey⟩ := List.mem_map.1 h
  cases hkey
  have hmem : row ∈ catalog.selectAttributes schemas excludeTables :=
    List.mem_filter.2 ⟨hrow, hselects⟩
  rw [← Option.ne_none_iff_exists', lastAttname, ne_eq, Option.map_eq_none_iff,
    List.find?_eq_none]
  intro hnone
  exact hnone row (List.mem_reverse.2 hmem) (decide_eq_true ⟨rfl, rfl⟩)

/-- A column of the catalog. -/
def PgCatalog.HasColumn (catalog : PgCatalog) (schemaName tableName : String) (n : ℕ)
    (name : String) : Prop :=
  (⟨schemaName, tableName, n, name⟩ : AttributeRow) ∈ catalog.attributes

end Snapshots

end SharedTsLibs.DrizzleUtils
