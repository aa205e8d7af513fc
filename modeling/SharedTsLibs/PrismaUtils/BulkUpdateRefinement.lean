import SharedTsLibs.PrismaUtils.BulkUpdateMeaning

/-!
# The statement of a bulk update stands for its entries

* `Faulty` — the lists of entries that are to be refused.
* `StandsIn` — a column that some object lacks, and inherits.
* `Aligned` — an entry with the columns of the first.
* `meets_iff` — the statement stands for the entries and faulty lists are refused, exactly
  where no inherited property stands in for a column of a list that the checks admit.
-/

namespace SharedTsLibs.PrismaUtils

open PlainObject

variable {V Val : Type} {runtime : Runtime V} {typeByColumn : PlainObject String}
  {entries : List (BulkUpdateEntry V)} {firstEntry entry : BulkUpdateEntry V} {name : String}

/-! ## Lists to refuse -/

/-- A list of entries that no statement is to be executed for. -/
inductive Faulty (typeByColumn : PlainObject String) (entries : List (BulkUpdateEntry V)) : Prop
  | whereKeys {entry entry' : BulkUpdateEntry V} (hentry : entry ∈ entries)
      (hentry' : entry' ∈ entries) {name : String} (hname : name ∈ entry.where.keys)
      (hother : name ∉ entry'.where.keys)
  | dataKeys {entry entry' : BulkUpdateEntry V} (hentry : entry ∈ entries)
      (hentry' : entry' ∈ entries) {name : String} (hname : name ∈ entry.data.definedKeys)
      (hother : name ∉ entry'.data.definedKeys)
  | whereUndefined {entry : BulkUpdateEntry V} (hentry : entry ∈ entries) {name : String}
      (hname : entry.where.own? name = some .undefined)
  | overlap {entry : BulkUpdateEntry V} (hentry : entry ∈ entries) {name : String}
      (hwhere : name ∈ entry.where.keys) (hdata : name ∈ entry.data.definedKeys)
  | typeMissing {entry : BulkUpdateEntry V} (hentry : entry ∈ entries) {name : String}
      (hname : name ∈ entry.where.keys ∨ name ∈ entry.data.definedKeys)
      (htype : (typeByColumn.own? name).getD "" = "")
  | tooManyEntries (hcount : entriesLimit < entries.length)
  | tooManyParameters {entry : BulkUpdateEntry V} (hentry : entry ∈ entries)
      (hcount : bindParametersLimit <
        entries.length * (entry.where.keys.length + entry.data.definedKeys.length))

/-- A column of the first entry that the types, or the entries, do not all have: an inherited
property is read in its place. -/
def StandsIn (typeByColumn : PlainObject String) (entries : List (BulkUpdateEntry V))
    (firstEntry : BulkUpdateEntry V) : Prop :=
  ∃ name ∈ inheritedNames,
    (name ∈ firstEntry.where.keys ∧
        (name ∉ typeByColumn.keys ∨ ∃ entry ∈ entries, name ∉ entry.where.keys)) ∨
      name ∈ firstEntry.data.definedKeys ∧
        (name ∉ typeByColumn.keys ∨ ∃ entry ∈ entries, name ∉ entry.data.keys)

/-- A stand-in is one of the faults. -/
theorem StandsIn.faulty (h : StandsIn typeByColumn entries firstEntry)
    (hfirst : firstEntry ∈ entries) : Faulty typeByColumn entries := by
  obtain ⟨name, -, ⟨hwhere, htype | ⟨entry, hentry, hother⟩⟩ |
    ⟨hdata, htype | ⟨entry, hentry, hother⟩⟩⟩ := h
  · exact .typeMissing hfirst (Or.inl hwhere) (by rw [own?_eq_none_iff.2 htype]; rfl)
  · exact .whereKeys hfirst hentry hwhere hother
  · exact .typeMissing hfirst (Or.inr hdata) (by rw [own?_eq_none_iff.2 htype]; rfl)
  · exact .dataKeys hfirst hentry hdata fun hdefined => hother (mem_definedKeys.1 hdefined).mem_keys

/-! ## Aligned entries -/

/-- An entry with the columns of the first. -/
structure Aligned (firstEntry entry : BulkUpdateEntry V) : Prop where
  whereKeys : ∀ name, name ∈ entry.where.keys ↔ name ∈ firstEntry.where.keys
  whereDefined : ∀ name ∈ firstEntry.where.keys, entry.where.IsDefinedAt name
  dataKeys : ∀ name, name ∈ entry.data.definedKeys ↔ name ∈ firstEntry.data.definedKeys

theorem Fits.aligned (h : Fits runtime typeByColumn firstEntry entry) (hentry : entry ∈ entries)
    (hown : ¬ StandsIn typeByColumn entries firstEntry) : Aligned firstEntry entry := by
  have hwhere : ∀ name ∈ firstEntry.where.keys, entry.where.IsDefinedAt name := by
    intro name hname
    refine (read_isDefined_iff.1 (h.whereRead name hname).isDefined).resolve_right ?_
    rintro ⟨habsent, hinherited⟩
    exact hown ⟨name, hinherited, Or.inl ⟨hname, Or.inr ⟨entry, hentry, habsent⟩⟩⟩
  have hdata : ∀ name ∈ firstEntry.data.definedKeys, name ∈ entry.data.definedKeys := by
    intro name hname
    rw [mem_definedKeys]
    refine (read_isDefined_iff.1 (h.dataRead name hname).isDefined).resolve_right ?_
    rintro ⟨habsent, hinherited⟩
    exact hown ⟨name, hinherited, Or.inr ⟨hname, Or.inr ⟨entry, hentry, habsent⟩⟩⟩
  refine ⟨?_, hwhere, ?_⟩
  · exact mem_iff_of_subset_of_length firstEntry.where.keys_nodup
      (fun name hname => (hwhere name hname).mem_keys) (Nat.le_of_eq h.whereLength.symm)
  · exact mem_iff_of_subset_of_length firstEntry.data.definedKeys_nodup hdata
      (Nat.le_of_eq h.dataLength.symm)

/-- The type of a column is the one it is mapped to. -/
theorem columnType_eq_own (hown : name ∈ inheritedNames → name ∈ typeByColumn.keys)
    (htyped : (columnType typeByColumn name).isSome) :
    typeByColumn.own? name = some (columnOf typeByColumn name).type ∧
      (columnOf typeByColumn name).type ≠ "" := by
  unfold columnOf columnType access at *
  cases htype : typeByColumn.own? name with
  | none =>
    have habsent : name ∉ typeByColumn.keys := own?_eq_none_iff.1 htype
    have hinherited : name ∉ inheritedNames := fun hkey => habsent (hown hkey)
    simp [htype, hinherited] at htyped
  | some type =>
    by_cases hempty : type = ""
    · simp [htype, hempty] at htyped
    · simp [hempty]

section Accepted

variable (hadmitted : Admitted runtime typeByColumn entries firstEntry)
  (hown : ¬ StandsIn typeByColumn entries firstEntry)

include hadmitted

theorem Admitted.first_mem : firstEntry ∈ entries := List.mem_of_mem_head? hadmitted.head

include hown

theorem Admitted.aligned (hentry : entry ∈ entries) : Aligned firstEntry entry :=
  (hadmitted.fits entry hentry).aligned hentry hown

theorem Admitted.whereType (hname : name ∈ firstEntry.where.keys) :
    typeByColumn.own? name = some (columnOf typeByColumn name).type ∧
      (columnOf typeByColumn name).type ≠ "" := by
  refine columnType_eq_own (fun hinherited => ?_) (hadmitted.whereTyped name hname)
  by_contra habsent
  exact hown ⟨name, hinherited, Or.inl ⟨hname, Or.inl habsent⟩⟩

theorem Admitted.dataType (hname : name ∈ firstEntry.data.definedKeys) :
    typeByColumn.own? name = some (columnOf typeByColumn name).type ∧
      (columnOf typeByColumn name).type ≠ "" := by
  refine columnType_eq_own (fun hinherited => ?_) (hadmitted.dataTyped name hname)
  by_contra habsent
  exact hown ⟨name, hinherited, Or.inr ⟨hname, Or.inl habsent⟩⟩

/-- An admitted list without stand-ins has no fault. -/
theorem Admitted.not_faulty : ¬ Faulty typeByColumn entries := by
  have haligned : ∀ e ∈ entries, Aligned firstEntry e := fun e he => hadmitted.aligned hown he
  intro hfaulty
  cases hfaulty with
  | whereKeys hentry hentry' hname hother =>
    rw [(haligned _ hentry).whereKeys] at hname
    exact hother (((haligned _ hentry').whereKeys _).2 hname)
  | dataKeys hentry hentry' hname hother =>
    rw [(haligned _ hentry).dataKeys] at hname
    exact hother (((haligned _ hentry').dataKeys _).2 hname)
  | whereUndefined hentry hname =>
    have hkey := own?_isSome_iff.1 (Option.isSome_iff_exists.2 ⟨_, hname⟩)
    have hdefined := (haligned _ hentry).whereDefined _ (((haligned _ hentry).whereKeys _).1 hkey)
    simp [IsDefinedAt, hname, JsDatum.isDefined] at hdefined
  | overlap hentry hwhere hdata =>
    exact hadmitted.disjoint _ (((haligned _ hentry).dataKeys _).1 hdata)
      (((haligned _ hentry).whereKeys _).1 hwhere)
  | typeMissing hentry hname htype =>
    rcases hname with hwhere | hdata
    · obtain ⟨hmapped, hne⟩ :=
        hadmitted.whereType hown (((haligned _ hentry).whereKeys _).1 hwhere)
      rw [hmapped] at htype
      exact hne htype
    · obtain ⟨hmapped, hne⟩ :=
        hadmitted.dataType hown (((haligned _ hentry).dataKeys _).1 hdata)
      rw [hmapped] at htype
      exact hne htype
  | tooManyEntries hcount =>
    have := hadmitted.count
    omega
  | @tooManyParameters entry hentry hcount =>
    have hparameters := hadmitted.parameters
    have hfits := hadmitted.fits entry hentry
    rw [← hfits.whereLength, ← hfits.dataLength] at hcount
    omega

end Accepted

/-! ## Cells -/

section Cells

/-- The column of a name, among columns of distinct names. -/
theorem find?_columnOf {names : List String} :
    (names.map (columnOf typeByColumn)).find? (·.name = name) =
      if name ∈ names then some (columnOf typeByColumn name) else none := by
  induction names with
  | nil => rfl
  | cons name' names ih =>
    by_cases hname : name' = name
    · subst hname
      simp [columnOf]
    · have hne : (columnOf typeByColumn name').name ≠ name := hname
      simp [hne, ih, Ne.symm hname]

/-- The aliases of the statement. -/
def aliasesOf (typeByColumn : PlainObject String) (firstEntry : BulkUpdateEntry V) : List String :=
  (whereColumnsOf typeByColumn firstEntry ++ dataColumnsOf typeByColumn firstEntry).map Column.name

theorem aliasesOf_eq (typeByColumn : PlainObject String) (firstEntry : BulkUpdateEntry V) :
    aliasesOf typeByColumn firstEntry =
      firstEntry.where.keys ++ firstEntry.data.definedKeys := by
  unfold aliasesOf whereColumnsOf dataColumnsOf
  rw [List.map_append, List.map_map, List.map_map]
  exact congrArg₂ (· ++ ·) (List.map_id _) (List.map_id _)

variable (hadmitted : Admitted runtime typeByColumn entries firstEntry)

include hadmitted

theorem Admitted.aliases_nodup : (aliasesOf typeByColumn firstEntry).Nodup := by
  rw [aliasesOf_eq, List.nodup_append]
  refine ⟨firstEntry.where.keys_nodup, firstEntry.data.definedKeys_nodup, ?_⟩
  rintro name hwhere _ hdata rfl
  exact hadmitted.disjoint name hdata hwhere

/-- The values of a row, column by column. -/
theorem Admitted.valuesRow_eq (entry : BulkUpdateEntry V) :
    valuesRow runtime typeByColumn firstEntry entry =
      (whereColumnsOf typeByColumn firstEntry ++ dataColumnsOf typeByColumn firstEntry).map
        fun column => typedValue column.type
          ((if column.name ∈ firstEntry.where.keys then entry.where else entry.data).read
            runtime.inherited column.name) := by
  unfold valuesRow
  rw [List.map_append]
  refine congrArg₂ (· ++ ·) (List.map_congr_left ?_) (List.map_congr_left ?_)
  · refine List.forall_mem_map.2 fun name hname => ?_
    rw [if_pos (show (columnOf typeByColumn name).name ∈ firstEntry.where.keys from hname)]
  · refine List.forall_mem_map.2 fun name hname => ?_
    have hdisjoint : (columnOf typeByColumn name).name ∉ firstEntry.where.keys :=
      hadmitted.disjoint name hname
    rw [if_neg hdisjoint]

theorem Admitted.cell (entry : BulkUpdateEntry V)
    (hname : name ∈ firstEntry.where.keys ∨ name ∈ firstEntry.data.definedKeys) :
    UpdateFrom.cell (aliasesOf typeByColumn firstEntry)
        (valuesRow runtime typeByColumn firstEntry entry) name =
      some (typedValue (columnOf typeByColumn name).type
        ((if name ∈ firstEntry.where.keys then entry.where else entry.data).read
          runtime.inherited name)) := by
  have hcolumn : columnOf typeByColumn name ∈
      whereColumnsOf typeByColumn firstEntry ++ dataColumnsOf typeByColumn firstEntry := by
    rw [List.mem_append]
    exact hname.imp List.mem_map_of_mem List.mem_map_of_mem
  rw [hadmitted.valuesRow_eq]
  exact UpdateFrom.cell_map hadmitted.aliases_nodup hcolumn

variable (hown : ¬ StandsIn typeByColumn entries firstEntry) (sql : SqlTypes V Val)
  (hentry : entry ∈ entries)

include hown hentry

/-- The cell under the alias of a `where` column denotes what the entry says of it. -/
theorem Admitted.whereCell (hname : name ∈ firstEntry.where.keys) :
    ∃ x, UpdateFrom.cell (aliasesOf typeByColumn firstEntry)
        (valuesRow runtime typeByColumn firstEntry entry) name = some x ∧
      sql.denote x = sql.entryValue typeByColumn entry.where name := by
  refine ⟨_, hadmitted.cell entry (Or.inl hname), ?_⟩
  have hkey : name ∈ entry.where.keys := ((hadmitted.aligned hown hentry).whereKeys name).2 hname
  rw [if_pos hname, sql.denote_typedValue, read_eq_own? fun _ => hkey, SqlTypes.entryValue,
    (hadmitted.whereType hown hname).1, Option.getD_some]

theorem Admitted.dataCell (hname : name ∈ firstEntry.data.definedKeys) :
    ∃ x, UpdateFrom.cell (aliasesOf typeByColumn firstEntry)
        (valuesRow runtime typeByColumn firstEntry entry) name = some x ∧
      sql.denote x = sql.entryValue typeByColumn entry.data name := by
  refine ⟨_, hadmitted.cell entry (Or.inr hname), ?_⟩
  have hdefined := ((hadmitted.aligned hown hentry).dataKeys name).2 hname
  have hkey : name ∈ entry.data.keys := (mem_definedKeys.1 hdefined).mem_keys
  rw [if_neg (hadmitted.disjoint name hname), sql.denote_typedValue, read_eq_own? fun _ => hkey,
    SqlTypes.entryValue, (hadmitted.dataType hown hname).1, Option.getD_some]

theorem Admitted.standsFor : sql.StandsFor typeByColumn (aliasesOf typeByColumn firstEntry) entry
    (valuesRow runtime typeByColumn firstEntry entry) := by
  have haligned := hadmitted.aligned hown hentry
  refine ⟨?_, ?_, ?_⟩
  · rw [hadmitted.valuesRow_eq, aliasesOf, List.length_map, List.length_map]
  · intro name hname
    exact hadmitted.whereCell hown sql hentry ((haligned.whereKeys name).1 hname)
  · intro name hname
    exact hadmitted.dataCell hown sql hentry ((haligned.dataKeys name).1 hname)

/-! ## Updates -/

theorem Admitted.rowMatches_iff (row : Row Val) :
    sql.rowMatches (whereColumnsOf typeByColumn firstEntry) row
        (sql.updatesRow (aliasesOf typeByColumn firstEntry)
          (valuesRow runtime typeByColumn firstEntry entry)) ↔
      sql.entryMatches typeByColumn row entry := by
  have hcolumn : ∀ name ∈ firstEntry.where.keys,
      sql.cast (columnOf typeByColumn name).type (sql.updatesRow (aliasesOf typeByColumn firstEntry)
        (valuesRow runtime typeByColumn firstEntry entry) name) =
          sql.entryValue typeByColumn entry.where name := by
    intro name hname
    obtain ⟨x, hcell, hx⟩ := hadmitted.whereCell hown sql hentry hname
    rw [SqlTypes.updatesRow, hcell, Option.map_some, Option.getD_some, hx, SqlTypes.entryValue,
      (hadmitted.whereType hown hname).1, Option.getD_some, sql.cast_valueOf]
  unfold SqlTypes.rowMatches SqlTypes.entryMatches whereColumnsOf
  rw [List.forall_mem_map]
  simp only [(hadmitted.aligned hown hentry).whereKeys]
  refine forall₂_congr fun name hname => ?_
  rw [show (columnOf typeByColumn name).name = name from rfl, hcolumn name hname,
    (hadmitted.whereType hown hname).1, Option.getD_some]

theorem Admitted.rowAssign_eq (row : Row Val) :
    sql.rowAssign (dataColumnsOf typeByColumn firstEntry)
        (sql.updatesRow (aliasesOf typeByColumn firstEntry)
          (valuesRow runtime typeByColumn firstEntry entry)) row =
      sql.entryAssign typeByColumn entry row := by
  funext name
  unfold SqlTypes.rowAssign SqlTypes.entryAssign dataColumnsOf
  rw [find?_columnOf]
  have hdefined : entry.data.IsDefinedAt name ↔ name ∈ firstEntry.data.definedKeys := by
    rw [← mem_definedKeys, (hadmitted.aligned hown hentry).dataKeys]
  by_cases hname : name ∈ firstEntry.data.definedKeys
  · obtain ⟨x, hcell, hx⟩ := hadmitted.dataCell hown sql hentry hname
    rw [if_pos hname, if_pos (hdefined.2 hname)]
    show sql.cast _ (sql.updatesRow _ _ name) = _
    rw [SqlTypes.updatesRow, hcell, Option.map_some, Option.getD_some, hx, SqlTypes.entryValue,
      (hadmitted.dataType hown hname).1, Option.getD_some, sql.cast_valueOf]
  · rw [if_neg hname, if_neg (mt hdefined.1 hname)]

end Cells

section Entries

variable (hadmitted : Admitted runtime typeByColumn entries firstEntry)
  (hown : ¬ StandsIn typeByColumn entries firstEntry) (sql : SqlTypes V Val)

include hadmitted hown

/-- An entry does not change what the others match: it sets no `where` column. -/
theorem Admitted.entryMatches_frame {entry' : BulkUpdateEntry V} (hentry : entry ∈ entries)
    (hentry' : entry' ∈ entries) {row : Row Val}
    (h : sql.entryMatches typeByColumn (sql.entryAssign typeByColumn entry row) entry') :
    sql.entryMatches typeByColumn row entry' := by
  intro name hname
  have hwhere := ((hadmitted.aligned hown hentry').whereKeys name).1 hname
  have huntouched : ¬ entry.data.IsDefinedAt name := by
    rw [← mem_definedKeys, (hadmitted.aligned hown hentry).dataKeys]
    exact fun hdata => hadmitted.disjoint name hdata hwhere
  have hmatch := h name hname
  rw [SqlTypes.entryAssign, if_neg huntouched] at hmatch
  exact hmatch

/-- Entries whose `where` tuples differ match no row in common. -/
theorem Admitted.entryMatches_exclusive (hdistinct : sql.WhereDistinct typeByColumn entries) :
    entries.Pairwise fun entry entry' => ∀ row,
      sql.entryMatches typeByColumn row entry → ¬ sql.entryMatches typeByColumn row entry' := by
  refine List.Pairwise.imp_of_mem ?_ hdistinct
  rintro entry entry' hentry hentry' ⟨name, hname, hdiffer⟩ row hmatch hmatch'
  have hname' : name ∈ entry'.where.keys := by
    rw [(hadmitted.aligned hown hentry').whereKeys]
    exact ((hadmitted.aligned hown hentry).whereKeys name).1 hname
  have hequal := sql.eq_trans _ _ _ _ (sql.eq_symm _ _ _ (hmatch name hname)) (hmatch' name hname')
  rw [hdiffer] at hequal
  cases hequal

/-- The statement of an admitted list without stand-ins stands for the entries. -/
theorem Admitted.faithfulTo (tableName : String) : sql.FaithfulTo typeByColumn entries
    (updateStatement tableName (whereColumnsOf typeByColumn firstEntry)
      (dataColumnsOf typeByColumn firstEntry)
      (entries.map (valuesRow runtime typeByColumn firstEntry))) := by
  refine ⟨hadmitted.aliases_nodup, ?_, ?_⟩
  · show List.Forall₂ _ entries (entries.map _)
    rw [List.forall₂_map_right_iff, List.forall₂_same]
    exact fun entry hentry => hadmitted.standsFor hown sql hentry
  · intro hdistinct rows rows'
    have hupdates : List.Forall₂ (fun updates entry =>
        (∀ row, sql.rowMatches (whereColumnsOf typeByColumn firstEntry) row updates ↔
          sql.entryMatches typeByColumn row entry) ∧
        ∀ row, sql.rowAssign (dataColumnsOf typeByColumn firstEntry) updates row =
          sql.entryAssign typeByColumn entry row)
        ((entries.map (valuesRow runtime typeByColumn firstEntry)).map
          (sql.updatesRow (aliasesOf typeByColumn firstEntry))) entries := by
      rw [List.forall₂_map_left_iff, List.forall₂_map_left_iff, List.forall₂_same]
      exact fun entry hentry => ⟨hadmitted.rowMatches_iff hown sql hentry,
        hadmitted.rowAssign_eq hown sql hentry⟩
    refine (UpdateFrom.result_congr hupdates).trans (UpdateFrom.result_iff_sequence ?_
      (hadmitted.entryMatches_exclusive hown sql hdistinct))
    exact fun _ hentry _ hentry' _ h => hadmitted.entryMatches_frame hown sql hentry hentry' h

end Entries

/-! ## The bulk update -/

theorem execution_statement (returning : Option (PlainObject String))
    (statement : UpdateStatement V) :
    (execution returning statement).statement = statement := by
  unfold execution
  cases returning with
  | none => rfl
  | some returning =>
    by_cases hempty : returning.keys.length = 0
    · simp [hempty, Execution.statement]
    · simp [hempty, Execution.statement]

/-- An executed statement stands for the entries, and none is executed for a faulty list. -/
structure Meets (sql : SqlTypes V Val) (runtime : Runtime V) (tableName : String)
    (options : PrismaBulkUpdateOptions) (entries : List (BulkUpdateEntry V)) : Prop where
  faithful : ∀ e, prismaBulkUpdate runtime tableName options entries = .ok e →
    sql.FaithfulTo options.typeByColumn entries e.statement
  refuses : Faulty options.typeByColumn entries →
    ∃ error, prismaBulkUpdate runtime tableName options entries = .error error

/-- **The bulk update is the updates of its entries one after the other, and faulty lists are
refused**, exactly unless an inherited property stands in for a column of an admitted list. -/
theorem meets_iff (sql : SqlTypes V Val) (runtime : Runtime V) (tableName : String)
    (options : PrismaBulkUpdateOptions) (entries : List (BulkUpdateEntry V)) :
    Meets sql runtime tableName options entries ↔
      ∀ firstEntry, Admitted runtime options.typeByColumn entries firstEntry →
        ¬ StandsIn options.typeByColumn entries firstEntry := by
  constructor
  · intro hmeets firstEntry hadmitted hstands
    obtain ⟨error, herror⟩ := hmeets.refuses (hstands.faulty hadmitted.first_mem)
    obtain ⟨e, hexecuted⟩ : ∃ e, prismaBulkUpdate runtime tableName options entries = .ok e :=
      ⟨_, prismaBulkUpdate_eq_ok.2 ⟨firstEntry, hadmitted, rfl⟩⟩
    rw [herror] at hexecuted
    cases hexecuted
  · intro hown
    refine ⟨?_, ?_⟩
    · intro e hexecuted
      obtain ⟨firstEntry, hadmitted, rfl⟩ := prismaBulkUpdate_eq_ok.1 hexecuted
      rw [execution_statement]
      exact hadmitted.faithfulTo (hown firstEntry hadmitted) sql tableName
    · intro hfaulty
      cases hrun : prismaBulkUpdate runtime tableName options entries with
      | error error => exact ⟨error, rfl⟩
      | ok e =>
        obtain ⟨firstEntry, hadmitted, -⟩ := prismaBulkUpdate_eq_ok.1 hrun
        exact absurd hfaulty (hadmitted.not_faulty (hown firstEntry hadmitted))

/-- Types of numbers, each stored as it is. -/
def numberTypes : SqlTypes ℕ (Option ℕ) where
  null := none
  bind := some
  document := some
  cast _ x := x
  eq _ x y := x.isSome && x == y
  cast_null _ := rfl
  cast_cast _ _ := rfl
  eq_symm := by
    intro _ x y h
    simp only [Bool.and_eq_true, beq_iff_eq] at h ⊢
    exact ⟨h.2 ▸ h.1, h.2.symm⟩
  eq_trans := by
    intro _ x y z h h'
    simp only [Bool.and_eq_true, beq_iff_eq] at h h' ⊢
    exact ⟨h.1, h.2.trans h'.2⟩

def numberRuntime : Runtime ℕ := { inherited := fun _ => 0, stringifies := fun _ => true }

/-- Two teams; the second entry has a colour where the first has a constructor. -/
def teamEntries : List (BulkUpdateEntry ℕ) :=
  [{ «where» := { entries := [("team", .given 1)], nodup := by decide }
     data := { entries := [("constructor", .given 10)], nodup := by decide } },
   { «where» := { entries := [("team", .given 2)], nodup := by decide }
     data := { entries := [("colour", .given 20)], nodup := by decide } }]

def teamOptions : PrismaBulkUpdateOptions :=
  { typeByColumn := { entries := [("team", "int4"), ("constructor", "int4")], nodup := by decide }
    returning := none }

/-- The second team is written the inherited `constructor`. -/
theorem teamEntries_not_meets :
    ¬ Meets numberTypes numberRuntime "team" teamOptions teamEntries := by
  intro hmeets
  have hfirst : teamEntries[0] ∈ teamEntries := List.getElem_mem _
  have hsecond : teamEntries[1] ∈ teamEntries := List.getElem_mem _
  have hdefined : "constructor" ∈ teamEntries[0].data.definedKeys := by decide
  have hother : "constructor" ∉ teamEntries[1].data.definedKeys := by decide
  obtain ⟨error, herror⟩ := hmeets.refuses (.dataKeys hfirst hsecond hdefined hother)
  have hexecuted : (prismaBulkUpdate numberRuntime "team" teamOptions teamEntries).isOk = true := by
    decide
  rw [herror] at hexecuted
  cases hexecuted

end SharedTsLibs.PrismaUtils
