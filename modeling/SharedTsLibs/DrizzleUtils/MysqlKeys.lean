import SharedTsLibs.DrizzleUtils.MysqlSnapshot
import SharedTsLibs.DrizzleUtils.TableEntries

/-!
# The indexes and foreign keys of MySQL snapshots

What a snapshot has of the rows of `information_schema`.

* `splitKey3_spec`, `splitKey3_tripleKey` — the text of three names is split into these names
  when the last two have no dots.
* `get?_mysqlIndexes`, `sortedColumns_fkAggregateOf` — the aggregates of the rows of a text.
* `loadMysqlIndexesAndKeys_spec`, `loadMysqlForeignKeys_spec` — what a table has after each loop.
-/

namespace SharedTsLibs.DrizzleUtils

/-! ## Splitting -/

theorem splitLastDot_eq_none_iff {cs : List Char} : splitLastDot cs = none ↔ '.' ∉ cs := by
  induction cs with
  | nil => simp [splitLastDot]
  | cons c cs ih =>
    rw [splitLastDot]
    cases hrest : splitLastDot cs with
    | some parts =>
      have hmem : '.' ∈ cs := by
        by_contra hdot
        rw [ih.2 hdot] at hrest
        cases hrest
      simp [hmem]
    | none =>
      have hdot : '.' ∉ cs := ih.1 hrest
      by_cases hc : c = '.'
      · simp [hc]
      · simp [hc, hdot, Ne.symm hc]

theorem splitLastDot_eq_some {cs front rest : List Char}
    (h : splitLastDot cs = some (front, rest)) :
    cs = front ++ '.' :: rest ∧ '.' ∉ rest := by
  induction cs generalizing front with
  | nil => cases h
  | cons c cs ih =>
    rw [splitLastDot] at h
    cases hrest : splitLastDot cs with
    | some parts =>
      rw [hrest] at h
      cases h
      obtain ⟨hcs, hdot⟩ := ih hrest
      exact ⟨by rw [hcs, List.cons_append], hdot⟩
    | none =>
      simp only [hrest] at h
      split at h
      · next hc =>
        cases h
        exact ⟨by rw [hc, List.nil_append], splitLastDot_eq_none_iff.1 hrest⟩
      · cases h

theorem splitLastDot_append (front : List Char) {rest : List Char} (h : '.' ∉ rest) :
    splitLastDot (front ++ '.' :: rest) = some (front, rest) := by
  induction front with
  | nil => simp [splitLastDot, splitLastDot_eq_none_iff.2 h]
  | cons c front ih => rw [List.cons_append, splitLastDot, ih]

/-- The text of three names. -/
def tripleKey (triple : String × String × String) : String :=
  joinKey3 triple.1 triple.2.1 triple.2.2

theorem toList_tripleKey (triple : String × String × String) :
    (tripleKey triple).toList =
      (triple.1.toList ++ '.' :: triple.2.1.toList) ++ '.' :: triple.2.2.toList := by
  simp [tripleKey, joinKey3, String.toList_append]

/-- The last two of three names have no dots. -/
def DotFree (triple : String × String × String) : Prop :=
  '.' ∉ triple.2.1.toList ∧ '.' ∉ triple.2.2.toList

instance (triple : String × String × String) : Decidable (DotFree triple) :=
  inferInstanceAs (Decidable (_ ∧ _))

/-- Names without dots at the end are found again. -/
theorem splitKey3_tripleKey {triple : String × String × String} (h : DotFree triple) :
    splitKey3 (tripleKey triple) = triple := by
  rw [splitKey3, toList_tripleKey, splitLastDot_append _ h.2]
  dsimp only
  rw [splitLastDot_append _ h.1]
  simp

/-- The names that a text is split into have that text, and the last two have no dots. -/
theorem splitKey3_spec (triple : String × String × String) :
    tripleKey (splitKey3 (tripleKey triple)) = tripleKey triple ∧
      DotFree (splitKey3 (tripleKey triple)) := by
  have hcs := toList_tripleKey triple
  have hlast : splitLastDot (tripleKey triple).toList ≠ none := by
    rw [ne_eq, splitLastDot_eq_none_iff, not_not, hcs]
    simp
  obtain ⟨⟨front, rest⟩, hsplit⟩ := Option.ne_none_iff_exists'.1 hlast
  obtain ⟨hfront, hrest⟩ := splitLastDot_eq_some hsplit
  -- one of the two dots is in front of the last one
  have hfirst : splitLastDot front ≠ none := by
    rw [ne_eq, splitLastDot_eq_none_iff, not_not]
    have hcount := congrArg (List.count '.') (hfront.symm.trans hcs)
    simp only [List.count_append, List.count_cons_self, List.count_eq_zero_of_not_mem hrest]
      at hcount
    exact List.count_pos_iff.1 (by omega)
  obtain ⟨⟨schema, tableName⟩, hsplit'⟩ := Option.ne_none_iff_exists'.1 hfirst
  obtain ⟨hschema, htable⟩ := splitLastDot_eq_some hsplit'
  have hparts : splitKey3 (tripleKey triple) =
      (.ofList schema, .ofList tableName, .ofList rest) := by
    rw [splitKey3, hsplit]
    dsimp only
    rw [hsplit']
  rw [hparts]
  refine ⟨String.ext ?_, by simpa using htable, by simpa using hrest⟩
  rw [toList_tripleKey, hfront, hschema]
  simp

/-! ## Rows and entries -/

/-- The schema, the table and the index of a row. -/
def StatisticsRow.triple (row : StatisticsRow) : String × String × String :=
  (row.tableSchema, row.tableName, row.indexName)

/-- The name of the column, empty for an expression. -/
def StatisticsRow.column (row : StatisticsRow) : String := row.columnName.getD ""

/-- The schema, the table and the foreign key of a row. -/
def KeyColumnRow.triple (row : KeyColumnRow) : String × String × String :=
  (row.schemaName, row.tableName, row.constraintName)

/-- The columns that a table has for an index; the primary key is the index `PRIMARY`. -/
def TableSnapshot.indexColumns? (table : TableSnapshot) (name : String) : Option (List String) :=
  if name = "PRIMARY" then table.primaryKey.map PrimaryKeySnapshot.columns
  else (table.indexes.own? name).map IndexSnapshot.columns

/-- The columns that a table has for a foreign key, each with the column that it references. -/
def TableSnapshot.foreignKeyColumns? (table : TableSnapshot) (name : String) :
    Option (List String × List String) :=
  (table.foreignKeys.own? name).map fun key => (key.columns, key.referencedColumns)

/-- What rows make of an index: their columns in sequence order, if there are any. -/
def columnsOfIndex (rows : List StatisticsRow) : Option (List String) :=
  if rows = [] then none
  else some ((rows.insertionSort fun a b => a.seqInIndex ≤ b.seqInIndex).map StatisticsRow.column)

/-- What rows make of a foreign key. -/
def columnsOfForeignKey (rows : List KeyColumnRow) : Option (List String × List String) :=
  let sorted := rows.insertionSort fun a b => a.ord ≤ b.ord
  if rows = [] then none
  else some (sorted.map KeyColumnRow.columnName, sorted.map KeyColumnRow.refColumn)

/-! ## Aggregates -/

section Aggregates

variable (runtime : CatalogRuntime) (upper : Bool)

theorem mysqlIndexKey_toRow (row : StatisticsRow) :
    mysqlIndexKey runtime (row.toRow upper) = tripleKey row.triple := by
  cases upper <;> rfl

theorem pushMysqlIndexColumn_toRow (agg : MysqlIndexAggregate) (row : StatisticsRow) :
    pushMysqlIndexColumn runtime agg (row.toRow upper) =
      { agg with columns := agg.columns ++ [⟨.finite row.seqInIndex, row.column⟩] } := by
  obtain ⟨schema, table, index, nonUnique, indexType, seq, column⟩ := row
  cases upper <;> cases column <;> rfl

/-- Sorting items by a number that each is made with. -/
theorem sortBySeq_map {ρ α : Type} (seq : α → JsNumber) (make : ρ → α) (n : ρ → ℕ)
    (hseq : ∀ row, seq (make row) = .finite (n row)) (rows : List ρ) :
    sortBySeq seq (rows.map make) = (rows.insertionSort fun a b => n a ≤ n b).map make := by
  symm
  refine List.map_insertionSort _ _ _ _ fun a _ b _ => ?_
  rw [hseq, hseq, JsNumber.finite_lt_finite]
  simp

/-- What the rows of an index make of an aggregate. -/
theorem columns_foldl_push (rows : List StatisticsRow) (agg : MysqlIndexAggregate) :
    (rows.foldl (fun agg row => pushMysqlIndexColumn runtime agg (row.toRow upper)) agg).columns =
      agg.columns ++ rows.map fun row => ⟨.finite row.seqInIndex, row.column⟩ := by
  induction rows generalizing agg with
  | nil => simp
  | cons row rows ih =>
    rw [List.foldl_cons, ih, pushMysqlIndexColumn_toRow]
    simp

/-- The columns that an aggregate writes. -/
def MysqlIndexAggregate.sortedColumns (agg : MysqlIndexAggregate) : List String :=
  (sortBySeq MysqlIndexColumn.seq agg.columns).map MysqlIndexColumn.name

/-- The aggregates of the rows of a query. -/
def mysqlIndexes (rows : List StatisticsRow) : List (String × MysqlIndexAggregate) :=
  (rows.map (·.toRow upper)).foldl (accumulateMysqlIndexRow runtime) []

theorem nodup_keys_mysqlIndexes (rows : List StatisticsRow) :
    (OrderedMap.keys (mysqlIndexes runtime upper rows)).Nodup :=
  Grouping.nodup_keys_group (mysqlIndexKey runtime) (newMysqlIndexAggregate runtime)
    (pushMysqlIndexColumn runtime) (rows.map (StatisticsRow.toRow upper))

/-- The rows of a text make the columns of its aggregate. -/
theorem get?_mysqlIndexes (rows : List StatisticsRow) (key : String) :
    (OrderedMap.get? (mysqlIndexes runtime upper rows) key).map
        MysqlIndexAggregate.sortedColumns =
      columnsOfIndex (rows.filter fun row => tripleKey row.triple = key) := by
  have hgroup : mysqlIndexes runtime upper rows = Grouping.group (mysqlIndexKey runtime)
    (newMysqlIndexAggregate runtime) (pushMysqlIndexColumn runtime)
      (rows.map (·.toRow upper)) := rfl
  rw [hgroup, Grouping.get?_group, List.filter_map, Grouping.entry_map]
  simp only [Function.comp_def, mysqlIndexKey_toRow]
  generalize rows.filter (fun row => decide (tripleKey row.triple = key)) = same
  rw [columnsOfIndex]
  cases same with
  | nil => rfl
  | cons first same =>
    rw [if_neg (by simp), Grouping.entry, List.head?_cons, Option.map_some, Option.map_some,
      MysqlIndexAggregate.sortedColumns, columns_foldl_push]
    have hmake : (newMysqlIndexAggregate runtime (first.toRow upper)).columns = [] := rfl
    have hsort := sortBySeq_map MysqlIndexColumn.seq
      (fun row : StatisticsRow => ⟨.finite row.seqInIndex, row.column⟩)
      StatisticsRow.seqInIndex (fun _ => rfl) (first :: same)
    rw [hmake, List.nil_append, hsort, List.map_map]
    rfl

/-- What the rows of a foreign key make of an aggregate. -/
theorem foldl_pushMysqlFkColumn (rows : List KeyColumnRow) (agg : MysqlFkAggregate) :
    rows.foldl (fun agg row => pushMysqlFkColumn runtime agg row.toRow) agg =
      { agg with
        columns := agg.columns ++
          rows.map fun row => ⟨.finite row.ord, row.columnName, row.refColumn⟩ } := by
  induction rows generalizing agg with
  | nil => simp
  | cons row rows ih =>
    have hpush : pushMysqlFkColumn runtime agg row.toRow =
        { agg with columns := agg.columns ++ [⟨.finite row.ord, row.columnName, row.refColumn⟩] } :=
      rfl
    rw [List.foldl_cons, hpush, ih]
    simp

/-- The columns that an aggregate writes. -/
def MysqlFkAggregate.sortedColumns (agg : MysqlFkAggregate) : List String × List String :=
  (agg.toForeignKey.columns, agg.toForeignKey.referencedColumns)

/-- The table and the name that an aggregate is written to. -/
def MysqlFkAggregate.triple (agg : MysqlFkAggregate) : String × String × String :=
  (agg.schema, agg.tableName, agg.name)

/-- The aggregates of the rows of a query. -/
def mysqlForeignKeys (rows : List KeyColumnRow) : List (String × MysqlFkAggregate) :=
  (rows.map KeyColumnRow.toRow).foldl (accumulateMysqlFkRow runtime) []

theorem nodup_keys_mysqlForeignKeys (rows : List KeyColumnRow) :
    (OrderedMap.keys (mysqlForeignKeys runtime rows)).Nodup :=
  Grouping.nodup_keys_group (mysqlFkKey runtime) (newMysqlFkAggregate runtime)
    (pushMysqlFkColumn runtime) (rows.map KeyColumnRow.toRow)

/-- The aggregate that the rows of a text make. -/
def fkAggregateOf (rows : List KeyColumnRow) : Option MysqlFkAggregate :=
  Grouping.entry (fun row : KeyColumnRow => newMysqlFkAggregate runtime row.toRow)
    (fun agg row => pushMysqlFkColumn runtime agg row.toRow) rows

theorem get?_mysqlForeignKeys (rows : List KeyColumnRow) (key : String) :
    OrderedMap.get? (mysqlForeignKeys runtime rows) key =
      fkAggregateOf runtime (rows.filter fun row => tripleKey row.triple = key) := by
  have hgroup : mysqlForeignKeys runtime rows = Grouping.group (mysqlFkKey runtime)
    (newMysqlFkAggregate runtime) (pushMysqlFkColumn runtime)
      (rows.map KeyColumnRow.toRow) := rfl
  rw [hgroup, Grouping.get?_group, List.filter_map, Grouping.entry_map]
  rfl

/-- An aggregate has the columns of its rows. -/
theorem sortedColumns_fkAggregateOf (rows : List KeyColumnRow) :
    (fkAggregateOf runtime rows).map MysqlFkAggregate.sortedColumns = columnsOfForeignKey rows := by
  cases rows with
  | nil => rfl
  | cons first rows =>
    have hsort := sortBySeq_map MysqlFkColumn.ord
      (fun row : KeyColumnRow => ⟨.finite row.ord, row.columnName, row.refColumn⟩)
      KeyColumnRow.ord (fun _ => rfl) (first :: rows)
    have hnew : (newMysqlFkAggregate runtime first.toRow).columns = [] := rfl
    rw [fkAggregateOf, Grouping.entry, List.head?_cons, Option.map_some, Option.map_some,
      foldl_pushMysqlFkColumn, MysqlFkAggregate.sortedColumns, MysqlFkAggregate.toForeignKey, hnew,
      List.nil_append, hsort, List.map_map, List.map_map, columnsOfForeignKey, if_neg (by simp)]
    rfl

/-- An aggregate is written to the table of its first row. -/
theorem triple_fkAggregateOf {rows : List KeyColumnRow} {agg : MysqlFkAggregate}
    (h : fkAggregateOf runtime rows = some agg) :
    ∃ first, rows.head? = some first ∧ agg.triple = first.triple := by
  cases rows with
  | nil => cases h
  | cons first rows =>
    rw [fkAggregateOf, Grouping.entry, List.head?_cons, Option.map_some, Option.some_inj,
      foldl_pushMysqlFkColumn] at h
    subst h
    exact ⟨first, rfl, rfl⟩

end Aggregates

/-! ## Places -/

/-- Entries with keys of their own are written to places of their own. -/
theorem pairwise_place_ne {α : Type} (place : String × α → String × String × String)
    {entries : List (String × α)} (hnodup : (OrderedMap.keys entries).Nodup)
    (hplace : ∀ entry ∈ entries, tripleKey (place entry) = entry.1) :
    entries.Pairwise fun entry entry' => place entry ≠ place entry' := by
  refine List.Pairwise.imp_of_mem ?_ (List.pairwise_map.1 hnodup)
  intro entry entry' hmem hmem' hne hsame
  exact hne (by rw [← hplace entry hmem, ← hplace entry' hmem', hsame])

/-- The place that a text names is found by the text, if the last two names have no dots. -/
theorem splitKey3_eq_iff {key : String} (hkey : ∃ triple, key = tripleKey triple)
    (triple : String × String × String) :
    splitKey3 key = triple ↔ DotFree triple ∧ key = tripleKey triple := by
  obtain ⟨triple', rfl⟩ := hkey
  obtain ⟨hsame, hfree⟩ := splitKey3_spec triple'
  constructor
  · rintro rfl
    exact ⟨hfree, hsame.symm⟩
  · rintro ⟨hfree', hkey⟩
    rw [hkey]
    exact splitKey3_tripleKey hfree'

section Loops

variable (runtime : CatalogRuntime) (upper : Bool)

theorem exists_row_of_mem {rows : List StatisticsRow} {entry : String × MysqlIndexAggregate}
    (h : entry ∈ mysqlIndexes runtime upper rows) :
    ∃ row ∈ rows, entry.1 = tripleKey row.triple := by
  obtain ⟨row, hrow, hkey⟩ := Grouping.exists_of_mem_group (mysqlIndexKey runtime) _ _ h
  obtain ⟨row, hmem, rfl⟩ := List.mem_map.1 hrow
  exact ⟨row, hmem, by rw [← hkey, mysqlIndexKey_toRow]⟩

theorem exists_tripleKey_of_mem {rows : List StatisticsRow} {entry : String × MysqlIndexAggregate}
    (h : entry ∈ mysqlIndexes runtime upper rows) : ∃ triple, entry.1 = tripleKey triple := by
  obtain ⟨row, -, hkey⟩ := exists_row_of_mem runtime upper h
  exact ⟨row.triple, hkey⟩

/-- An index is written under its own name. -/
theorem indexColumns?_applyMysqlIndexAggregate (indexName name : String)
    (agg : MysqlIndexAggregate) (table : TableSnapshot) :
    (applyMysqlIndexAggregate indexName agg table).indexColumns? name =
      if indexName = name ∧ name ≠ "__proto__" then some agg.sortedColumns
      else table.indexColumns? name := by
  unfold applyMysqlIndexAggregate TableSnapshot.indexColumns?
  by_cases hprimary : indexName = "PRIMARY"
  · by_cases hname : name = "PRIMARY"
    · simp [hprimary, hname, MysqlIndexAggregate.sortedColumns]
    · simp [hprimary, hname, Ne.symm hname]
  · by_cases hname : name = "PRIMARY"
    · simp [hprimary, hname]
    · by_cases hsame : indexName = name
      · subst hsame
        by_cases hproto : indexName = "__proto__"
        · simp [PlainObject.own?_assign, hproto]
        · simp [hprimary, PlainObject.own?_assign, hproto, MysqlIndexAggregate.sortedColumns]
      · simp [hprimary, hname, PlainObject.own?_assign, hsame]

theorem foreignKeys_applyMysqlIndexAggregate (indexName : String) (agg : MysqlIndexAggregate)
    (table : TableSnapshot) :
    (applyMysqlIndexAggregate indexName agg table).foreignKeys = table.foreignKeys := by
  unfold applyMysqlIndexAggregate
  dsimp only
  split <;> rfl

/-- The columns that the loop over the aggregates writes for an index. -/
def loadedIndexColumns (rows : List StatisticsRow) (triple : String × String × String) :
    Option (List String) :=
  if DotFree triple ∧ triple.2.2 ≠ "__proto__" then
    columnsOfIndex (rows.filter fun row => tripleKey row.triple = tripleKey triple)
  else none

/-- The loop over the aggregates writes each to the place that its text is split into. -/
theorem loadMysqlIndexesAndKeys_eq (rows : List StatisticsRow) (schemas : Schemas) :
    loadMysqlIndexesAndKeys runtime (rows.map (·.toRow upper)) schemas =
      applyEntries (fun entry => splitKey3 entry.1)
        (fun entry => (splitKey3 entry.1).2.2 = "PRIMARY")
        (fun entry => applyMysqlIndexAggregate (splitKey3 entry.1).2.2 entry.2) schemas
        (mysqlIndexes runtime upper rows) := rfl

/-- The aggregates found at a place are those of its text. -/
theorem find?_mysqlIndexes (rows : List StatisticsRow) (triple : String × String × String) :
    ((mysqlIndexes runtime upper rows).find? fun entry => splitKey3 entry.1 = triple).map
        (fun entry => entry.2.sortedColumns) =
      if DotFree triple then
        columnsOfIndex (rows.filter fun row => tripleKey row.triple = tripleKey triple)
      else none := by
  by_cases hfree : DotFree triple
  · have hfind := OrderedMap.find?_map_snd (m := mysqlIndexes runtime upper rows)
      (p := fun entry => splitKey3 entry.1 = triple) (k := tripleKey triple) fun entry hmem => by
        rw [decide_eq_true_iff,
          splitKey3_eq_iff (exists_tripleKey_of_mem runtime upper hmem)]
        exact and_iff_right hfree
    rw [if_pos hfree, ← get?_mysqlIndexes runtime upper, ← hfind, Option.map_map]
    rfl
  · rw [if_neg hfree, Option.map_eq_none_iff, List.find?_eq_none]
    intro entry hmem hplace
    rw [decide_eq_true_iff,
      splitKey3_eq_iff (exists_tripleKey_of_mem runtime upper hmem)] at hplace
    exact hfree hplace.1

/-- A table has the indexes that the loop over the aggregates writes. -/
theorem loadMysqlIndexesAndKeys_spec {rows : List StatisticsRow} {schemas result : Schemas}
    (h : loadMysqlIndexesAndKeys runtime (rows.map (·.toRow upper)) schemas = some result)
    {schema tableName : String} {table : TableSnapshot}
    (htable : schemas.table? schema tableName = some table) :
    ∃ table', result.table? schema tableName = some table' ∧
      table'.foreignKeys = table.foreignKeys ∧ ∀ name, table'.indexColumns? name =
        (loadedIndexColumns rows (schema, tableName, name)).or (table.indexColumns? name) := by
  have hplaces := pairwise_place_ne (fun entry => splitKey3 entry.1)
    (nodup_keys_mysqlIndexes runtime upper rows) fun entry hmem => by
    obtain ⟨triple, hkey⟩ := exists_tripleKey_of_mem runtime upper hmem
    rw [hkey, (splitKey3_spec triple).1]
  rw [loadMysqlIndexesAndKeys_eq] at h
  obtain ⟨table', hresult, hlook⟩ := applyEntries_look_map TableSnapshot.indexColumns?
    (fun entry => entry.2.sortedColumns) h hplaces
    (fun entry table name => indexColumns?_applyMysqlIndexAggregate _ name entry.2 table) htable
  obtain ⟨table'', hresult', hkeep⟩ := applyEntries_keep TableSnapshot.foreignKeys h
    (fun entry table => foreignKeys_applyMysqlIndexAggregate _ entry.2 table) htable
  rw [hresult, Option.some_inj] at hresult'
  subst hresult'
  refine ⟨table', hresult, hkeep, fun name => ?_⟩
  rw [hlook, find?_mysqlIndexes, loadedIndexColumns]
  by_cases hproto : name = "__proto__"
  · simp [hproto]
  · simp [hproto]

/-! ### Foreign keys -/

/-- An aggregate has the text of the place that it is written to. -/
theorem exists_head_of_mem {rows : List KeyColumnRow} {entry : String × MysqlFkAggregate}
    (h : entry ∈ mysqlForeignKeys runtime rows) :
    ∃ first, (rows.filter fun row => tripleKey row.triple = entry.1).head? = some first ∧
      entry.2.triple = first.triple := by
  have hget := (OrderedMap.get?_eq_some_iff (nodup_keys_mysqlForeignKeys runtime rows)).2 h
  rw [get?_mysqlForeignKeys] at hget
  exact triple_fkAggregateOf runtime hget

theorem tripleKey_of_mem {rows : List KeyColumnRow} {entry : String × MysqlFkAggregate}
    (h : entry ∈ mysqlForeignKeys runtime rows) : tripleKey entry.2.triple = entry.1 := by
  obtain ⟨first, hhead, hplace⟩ := exists_head_of_mem runtime h
  have hfirst := List.mem_of_mem_head? hhead
  rw [List.mem_filter, decide_eq_true_iff] at hfirst
  rw [hplace, hfirst.2]

/-- The loop over the aggregates writes each to the table of its first row. -/
theorem loadMysqlForeignKeys_eq (rows : List KeyColumnRow) (schemas : Schemas) :
    loadMysqlForeignKeys runtime (rows.map KeyColumnRow.toRow) schemas =
      applyEntries (fun entry => entry.2.triple) (fun _ => false)
        (fun entry => applyMysqlFkAggregate entry.2) schemas (mysqlForeignKeys runtime rows) := rfl

/-- A foreign key is written under its own name. -/
theorem foreignKeyColumns?_applyMysqlFkAggregate (agg : MysqlFkAggregate) (table : TableSnapshot)
    (name : String) :
    (applyMysqlFkAggregate agg table).foreignKeyColumns? name =
      if agg.triple.2.2 = name ∧ name ≠ "__proto__" then some agg.sortedColumns
      else table.foreignKeyColumns? name := by
  show (PlainObject.own? (table.foreignKeys.assign agg.name agg.toForeignKey) name).map _ = _
  rw [PlainObject.own?_assign_eq, apply_ite (Option.map _)]
  rfl

/-- The columns that the loop over the aggregates writes for a foreign key: all those of its
text, if the first of them is its own. -/
def loadedForeignKeyColumns (rows : List KeyColumnRow) (triple : String × String × String) :
    Option (List String × List String) :=
  let same := rows.filter fun row => tripleKey row.triple = tripleKey triple
  if same.head?.map KeyColumnRow.triple = some triple ∧ triple.2.2 ≠ "__proto__" then
    columnsOfForeignKey same
  else none

/-- The aggregate found at a place is that of its text. -/
theorem find?_mysqlForeignKeys (rows : List KeyColumnRow) (triple : String × String × String) :
    ((mysqlForeignKeys runtime rows).find? fun entry => entry.2.triple = triple).map
        (fun entry => entry.2.sortedColumns) =
      if (rows.filter fun row => tripleKey row.triple = tripleKey triple).head?.map
          KeyColumnRow.triple = some triple then
        columnsOfForeignKey (rows.filter fun row => tripleKey row.triple = tripleKey triple)
      else none := by
  -- the entries of the place have its text, and the first row of the text names their place
  have hkey : ∀ entry ∈ mysqlForeignKeys runtime rows, entry.2.triple = triple →
      entry.1 = tripleKey triple := by
    rintro entry hmem rfl
    exact (tripleKey_of_mem runtime hmem).symm
  split
  · next hhead =>
    have hfind := OrderedMap.find?_map_snd (m := mysqlForeignKeys runtime rows)
      (p := fun entry => entry.2.triple = triple) (k := tripleKey triple) fun entry hmem => by
        rw [decide_eq_true_iff]
        refine ⟨hkey entry hmem, fun hentry => ?_⟩
        obtain ⟨first, hfirst, hplace⟩ := exists_head_of_mem runtime hmem
        rw [hentry] at hfirst
        rw [hfirst, Option.map_some, Option.some_inj] at hhead
        rw [hplace, hhead]
    rw [← sortedColumns_fkAggregateOf runtime, ← get?_mysqlForeignKeys, ← hfind, Option.map_map]
    rfl
  · next hhead =>
    rw [Option.map_eq_none_iff, List.find?_eq_none]
    intro entry hmem hplace
    rw [decide_eq_true_iff] at hplace
    obtain ⟨first, hfirst, hsame⟩ := exists_head_of_mem runtime hmem
    rw [hkey entry hmem hplace] at hfirst
    rw [hfirst, Option.map_some, ← hsame, hplace] at hhead
    exact hhead rfl

/-- A table has the foreign keys that the loop over the aggregates writes. -/
theorem loadMysqlForeignKeys_spec {rows : List KeyColumnRow} {schemas result : Schemas}
    (h : loadMysqlForeignKeys runtime (rows.map KeyColumnRow.toRow) schemas = some result)
    {schema tableName : String} {table : TableSnapshot}
    (htable : schemas.table? schema tableName = some table) :
    ∃ table', result.table? schema tableName = some table' ∧
      table'.indexColumns? = table.indexColumns? ∧ ∀ name, table'.foreignKeyColumns? name =
        (loadedForeignKeyColumns rows (schema, tableName, name)).or
          (table.foreignKeyColumns? name) := by
  have hplaces := pairwise_place_ne (fun entry : String × MysqlFkAggregate => entry.2.triple)
    (nodup_keys_mysqlForeignKeys runtime rows) fun entry hmem => tripleKey_of_mem runtime hmem
  rw [loadMysqlForeignKeys_eq] at h
  obtain ⟨table', hresult, hlook⟩ := applyEntries_look_map
    TableSnapshot.foreignKeyColumns? (fun entry => entry.2.sortedColumns) h hplaces
    (fun entry table name => foreignKeyColumns?_applyMysqlFkAggregate entry.2 table name) htable
  obtain ⟨table'', hresult', hkeep⟩ := applyEntries_keep TableSnapshot.indexColumns? h
    (fun entry table => rfl) htable
  rw [hresult, Option.some_inj] at hresult'
  subst hresult'
  refine ⟨table', hresult, hkeep, fun name => ?_⟩
  rw [hlook, find?_mysqlForeignKeys, loadedForeignKeyColumns]
  by_cases hproto : name = "__proto__"
  · simp [hproto]
  · simp [hproto]

end Loops

end SharedTsLibs.DrizzleUtils
