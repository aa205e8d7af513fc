import SharedTsLibs.Lib.Slots
import SharedTsLibs.DrizzleUtils.MarkMigrationsApplied

/-!
# What one run of the baselining does

The statements a run executes and what they leave in the tracking table.

* `execute_spec` — the rows of the tracking table after a statement.
* `Run.execute_cases` — what a step of a run can do.
* `Phase.pending` — the tags a run has found missing and is yet to insert.
* `RunSound` — where a run stands, what it has inserted and what is recorded.
* `runSound_execute` — a step of a run keeps the run sound.
-/

namespace SharedTsLibs.DrizzleUtils

variable {b : Baseline} {db db' : Database}

/-! ## The tracking table -/

/-- How many rows record a tag. -/
def Database.timesRecorded (db : Database) (tag : String) : ℕ :=
  (db.rows.map (·.name)).count (some tag)

def Baseline.tags (b : Baseline) : List String := b.entries.map (·.tag)

theorem timesRecorded_append {row : TrackingRow} {name tag : String} (hname : row.name = some name)
    (hrows : db'.rows = db.rows ++ [row]) :
    db'.timesRecorded tag = db.timesRecorded tag + if name = tag then 1 else 0 := by
  rw [Database.timesRecorded, hrows, List.map_append, List.count_append, List.map_singleton, hname,
    List.count_singleton]
  by_cases h : name = tag
  · simp [h, Database.timesRecorded]
  · simp [h, Database.timesRecorded]

theorem timesRecorded_le (hrows : db.rows <+: db'.rows) (tag : String) :
    db.timesRecorded tag ≤ db'.timesRecorded tag :=
  (hrows.map _).sublist.count_le _

theorem timesRecorded_pos (hrows : db.rows <+: db'.rows) {tag : String}
    (h : 0 < db.timesRecorded tag) : 0 < db'.timesRecorded tag :=
  Nat.lt_of_lt_of_le h (timesRecorded_le hrows tag)

theorem timesRecorded_congr (hrows : db'.rows = db.rows) (tag : String) :
    db'.timesRecorded tag = db.timesRecorded tag := by
  rw [Database.timesRecorded, hrows, Database.timesRecorded]

theorem timesRecorded_pos_iff {tag : String} :
    0 < db.timesRecorded tag ↔ some tag ∈ db.rows.map (·.name) := List.count_pos_iff

theorem rows_insertRow {row : TrackingRow} (h : insertRow db row = some db') :
    db'.rows = db.rows ++ [row] := by
  unfold insertRow at h
  split at h
  · next table htable =>
    split at h
    · cases h
      simp [Database.rows, htable]
    · cases h
  · cases h

theorem rows_createTableIfNotExists (h : createTableIfNotExists b db = some db') :
    db'.rows = db.rows := by
  unfold createTableIfNotExists at h
  split at h
  · cases h
    rfl
  · next htable =>
    split at h
    · cases h
    · cases h
      simp [Database.rows, htable]

/-- What a statement leaves in the tracking table, and returns from it: a query returns what
the table holds, an insert appends a row, and no other statement changes the rows. -/
def Statement.Leaves (b : Baseline) (db : Database) (names : List (Option String))
    (db' : Database) : Statement → Prop
  | .selectNames => names = db.rows.map (·.name) ∧ db'.rows = db.rows
  | .insert hash createdAt name => ∃ hash' name', b.dialect.readText hash = some hash' ∧
      b.dialect.readText name = some name' ∧
      db'.rows = db.rows ++ [{ hash := hash', createdAt := some createdAt, name := some name' }]
  | _ => db'.rows = db.rows

theorem execute_spec {statement : Statement} {names : List (Option String)}
    (h : execute b db statement = some (names, db')) : statement.Leaves b db names db' := by
  cases statement with
  | createDatabase databaseName =>
    simp only [execute] at h
    split at h
    · split at h
      · cases h
      · cases h
        rfl
    · cases h
      rfl
  | selectTable tableName =>
    obtain ⟨name, -, hname⟩ := Option.bind_eq_some_iff.1 h
    cases hname
    rfl
  | createSchema schema =>
    simp only [execute, Option.some.injEq, Prod.mk.injEq] at h
    obtain ⟨-, rfl⟩ := h
    show (if schema ∈ db.schemas then db
      else { db with schemas := schema :: db.schemas }).rows = db.rows
    split <;> rfl
  | createTable =>
    obtain ⟨after, hafter, heq⟩ := Option.map_eq_some_iff.1 h
    cases heq
    exact rows_createTableIfNotExists hafter
  | selectNames =>
    simp only [execute] at h
    split at h
    · next table htable =>
      split at h
      · cases h
        exact ⟨by simp [Database.rows, htable], rfl⟩
      · cases h
    · cases h
  | insert hash createdAt name =>
    simp only [execute, Option.bind_eq_bind, Option.bind_eq_some_iff] at h
    obtain ⟨hash', hhash, name', hname, after, hinsert, heq⟩ := h
    cases heq
    exact ⟨hash', name', hhash, hname, rows_insertRow hinsert⟩

theorem prefix_execute {statement : Statement} {names : List (Option String)}
    (h : execute b db statement = some (names, db')) : db.rows <+: db'.rows := by
  have hspec := execute_spec h
  cases statement with
  | selectNames => exact hspec.2 ▸ List.prefix_rfl
  | insert hash createdAt name =>
    obtain ⟨hash', name', -, -, hrows⟩ := hspec
    exact hrows ▸ List.prefix_append _ _
  | createDatabase databaseName => exact (show db'.rows = db.rows from hspec) ▸ List.prefix_rfl
  | selectTable tableName => exact (show db'.rows = db.rows from hspec) ▸ List.prefix_rfl
  | createSchema schema => exact (show db'.rows = db.rows from hspec) ▸ List.prefix_rfl
  | createTable => exact (show db'.rows = db.rows from hspec) ▸ List.prefix_rfl

/-! ## A step of a run -/

/-- What a step of a run can do: it fails without effect; or its statement takes effect,
whatever the run sees of it; or the statement is not the one the run meant. -/
theorem Run.execute_cases {run run' : Run} {fate : Fate}
    (h : run.execute b db fate = some (db', run')) :
    ∃ statement, run.phase.statement b = some statement ∧
      ((db' = db ∧ run'.effects = run.effects ∧
          ∃ message, run'.phase = run.phase.catchError b message) ∨
        (∃ names, DrizzleUtils.execute b db statement = some (names, db') ∧
          run'.effects = run.effects ++ [statement] ∧
          (run'.phase = run.phase.resume b names ∨
            ∃ message, run'.phase = run.phase.catchError b message)) ∨
        statement.legible b.dialect = false) := by
  simp only [Run.execute, Option.bind_eq_bind, Option.bind_eq_some_iff] at h
  obtain ⟨statement, hstatement, h⟩ := h
  refine ⟨statement, hstatement, ?_⟩
  cases fate with
  | completes =>
    obtain ⟨⟨names, after⟩, hexecute, heq⟩ := Option.bind_eq_some_iff.1 h
    cases heq
    exact Or.inr (Or.inl ⟨names, hexecute, rfl, Or.inl rfl⟩)
  | fails message takesEffect =>
    cases takesEffect with
    | false =>
      cases h
      exact Or.inl ⟨rfl, rfl, message, rfl⟩
    | true =>
      obtain ⟨⟨names, after⟩, hexecute, heq⟩ := Option.bind_eq_some_iff.1 h
      cases heq
      exact Or.inr (Or.inl ⟨names, hexecute, rfl, Or.inr ⟨message, rfl⟩⟩)
  | misread after rows =>
    by_cases hlegible : statement.legible b.dialect = true
    · simp [hlegible] at h
    · exact Or.inr (Or.inr (by simpa using hlegible))

/-- The tags a run has found missing and is yet to insert. -/
def Phase.pending : Phase → List String
  | .insert entry rest recordedNames _ =>
    entry.tag :: (rest.map (·.tag)).filter (· ∉ recordedNames)
  | _ => []

theorem pending_insertLoop (recordedNames : List String) (entries : List MigrationEntry)
    (applied : ℕ) :
    (insertLoop b recordedNames entries applied).pending =
      (entries.map (·.tag)).filter (· ∉ recordedNames) := by
  induction entries with
  | nil => rfl
  | cons entry rest ih =>
    by_cases h : entry.tag ∈ recordedNames
    · simp [insertLoop, h, ih]
    · simp [insertLoop, h, Phase.pending]

theorem pending_afterProbe : (afterProbe b).pending = [] := by
  unfold afterProbe
  split
  · rfl
  · split <;> rfl

theorem pending_afterDatabase (table : Option String) : (afterDatabase b table).pending = [] := by
  unfold afterDatabase
  split
  · rfl
  · exact pending_afterProbe

theorem pending_markMigrationsApplied (databaseName table : Option String) :
    (markMigrationsApplied b databaseName table).pending = [] := by
  unfold markMigrationsApplied
  split
  · rfl
  · exact pending_afterDatabase table

theorem pending_catchError (phase : Phase) (message : String) :
    (phase.catchError b message).pending = [] := by
  cases phase with
  | ensureDatabase databaseName table =>
    simp only [Phase.catchError]
    split
    · exact pending_afterDatabase table
    · rfl
  | _ => rfl

/-! ## What a run has done -/

def Statement.changesTables : Statement → Bool
  | .createSchema _ | .createTable | .insert _ _ _ => true
  | .createDatabase _ | .selectTable _ | .selectNames => false

/-- The name under which a statement records a migration. -/
def Statement.recordedName (b : Baseline) : Statement → Option String
  | .insert _ _ name => b.dialect.readText name
  | _ => none

/-- The names that statements record. -/
def inserted (b : Baseline) (effects : List Statement) : List String :=
  effects.filterMap (Statement.recordedName b)

/-- No statement creates a schema or a table or inserts a row. -/
def Untouched (effects : List Statement) : Prop := ∀ st ∈ effects, st.changesTables = false

/-- The literal of the table to probe for is read as one literal. -/
def ProbeLegible (b : Baseline) (table : Option String) : Prop :=
  table.all (fun name => (b.dialect.readText (quoteLiteral name)).isSome) = true

/-- The literals of the tags are read as the tags. -/
def TagsReadBack (b : Baseline) : Prop :=
  ∀ entry ∈ b.entries, b.dialect.readText (quoteLiteral entry.tag) = some entry.tag

/-- The loop over the migrations, with `rest` still to go. -/
structure LoopSound (b : Baseline) (db : Database) (effects : List Statement)
    (recordedNames : List String) (rest : List MigrationEntry) (applied : ℕ) : Prop where
  recorded : ∀ tag ∈ recordedNames, 0 < db.timesRecorded tag
  handled : ∃ done, b.entries = done ++ rest ∧
    inserted b effects = (done.map (·.tag)).filter (· ∉ recordedNames) ∧
    ∀ entry ∈ done, 0 < db.timesRecorded entry.tag
  applied_eq : applied = (inserted b effects).length

/-- What a completed baselining reports and leaves. -/
structure ReportSound (b : Baseline) (db : Database) (effects : List Statement)
    (result : MarkMigrationsAppliedResult) : Prop where
  total_eq : result.total = b.entries.length
  applied_eq : result.applied = (inserted b effects).length
  sum_eq : result.applied + result.skipped = b.entries.length
  inserted_sublist : (inserted b effects).Sublist b.tags
  recorded : ∀ entry ∈ b.entries, 0 < db.timesRecorded entry.tag

/-- What a run has done by the time it stands at a phase. -/
def PhaseSound (b : Baseline) (db : Database) (effects : List Statement) : Phase → Prop
  | .ensureDatabase _ table => Untouched effects ∧ ProbeLegible b table
  | .probe table => Untouched effects ∧ ProbeLegible b (some table)
  | .createSchema | .createTable | .fetchNames => inserted b effects = []
  | .insert entry rest recordedNames applied =>
    LoopSound b db effects recordedNames (entry :: rest) applied ∧ entry.tag ∉ recordedNames
  | .ended result =>
    if result.outcome = .baselined then ReportSound b db effects result else Untouched effects
  | .threw => True

def RunSound (b : Baseline) (db : Database) (run : Run) : Prop :=
  PhaseSound b db run.effects run.phase

section Sound

variable {effects : List Statement} {statement : Statement} {recordedNames : List String}
  {entry : MigrationEntry} {rest : List MigrationEntry} {applied : ℕ}

theorem inserted_append (h : statement.recordedName b = none) :
    inserted b (effects ++ [statement]) = inserted b effects := by
  simp [inserted, h]

theorem inserted_append_some {name : String} (h : statement.recordedName b = some name) :
    inserted b (effects ++ [statement]) = inserted b effects ++ [name] := by
  simp [inserted, h]

theorem Untouched.append (h : Untouched effects) (hst : statement.changesTables = false) :
    Untouched (effects ++ [statement]) := by
  intro st hmem
  rcases List.mem_append.1 hmem with hold | hnew
  · exact h st hold
  · rw [List.mem_singleton.1 hnew]
    exact hst

theorem Untouched.inserted_eq (h : Untouched effects) : inserted b effects = [] := by
  rw [inserted, List.filterMap_eq_nil_iff]
  intro st hmem
  have hst := h st hmem
  cases st with
  | insert hash createdAt name => simp [Statement.changesTables] at hst
  | _ => rfl

theorem LoopSound.mono (h : LoopSound b db effects recordedNames rest applied)
    (hrows : db.rows <+: db'.rows) : LoopSound b db' effects recordedNames rest applied := by
  obtain ⟨done, hentries, hinserted, hdone⟩ := h.handled
  exact { recorded := fun tag htag => timesRecorded_pos hrows (h.recorded tag htag)
          handled := ⟨done, hentries, hinserted, fun e he => timesRecorded_pos hrows (hdone e he)⟩
          applied_eq := h.applied_eq }

/-- A sound run stays sound as rows are added by others. -/
theorem PhaseSound.mono {phase : Phase} (h : PhaseSound b db effects phase)
    (hrows : db.rows <+: db'.rows) : PhaseSound b db' effects phase := by
  cases phase with
  | insert entry rest recordedNames applied => exact ⟨h.1.mono hrows, h.2⟩
  | ended result =>
    simp only [PhaseSound] at h ⊢
    split at h
    · next hbaselined =>
      rw [if_pos hbaselined]
      exact { h with recorded := fun e he => timesRecorded_pos hrows (h.recorded e he) }
    · next hother =>
      rw [if_neg hother]
      exact h
  | _ => exact h

/-- The loop passes over a recorded migration. -/
theorem LoopSound.skip (h : LoopSound b db effects recordedNames (entry :: rest) applied)
    (hrecorded : entry.tag ∈ recordedNames) :
    LoopSound b db effects recordedNames rest applied := by
  obtain ⟨done, hentries, hinserted, hdone⟩ := h.handled
  refine { h with handled := ⟨done ++ [entry], by simp [hentries], ?_, ?_⟩ }
  · simp [hinserted, hrecorded]
  · intro e he
    rcases List.mem_append.1 he with hold | hnew
    · exact hdone e hold
    · rw [List.mem_singleton.1 hnew]
      exact h.recorded _ hrecorded

/-- The loop goes on after an insert. -/
theorem LoopSound.insert (h : LoopSound b db effects recordedNames (entry :: rest) applied)
    (hmissing : entry.tag ∉ recordedNames) (hname : statement.recordedName b = some entry.tag)
    (hrows : db.rows <+: db'.rows) (hnew : 0 < db'.timesRecorded entry.tag) :
    LoopSound b db' (effects ++ [statement]) recordedNames rest (applied + 1) := by
  obtain ⟨done, hentries, hinserted, hdone⟩ := (h.mono hrows).handled
  refine { recorded := (h.mono hrows).recorded
           handled := ⟨done ++ [entry], by simp [hentries], ?_, ?_⟩
           applied_eq := ?_ }
  · rw [inserted_append_some hname, hinserted]
    simp [hmissing]
  · intro e he
    rcases List.mem_append.1 he with hold | hlast
    · exact hdone e hold
    · rw [List.mem_singleton.1 hlast]
      exact hnew
  · rw [inserted_append_some hname, List.length_append, h.applied_eq]
    rfl

/-- Where the loop gets to next. -/
theorem LoopSound.phaseSound (h : LoopSound b db effects recordedNames rest applied) :
    PhaseSound b db effects (insertLoop b recordedNames rest applied) := by
  induction rest with
  | nil =>
    obtain ⟨done, hentries, hinserted, hdone⟩ := h.handled
    rw [List.append_nil] at hentries
    have hsublist : (inserted b effects).Sublist b.tags := by
      rw [hinserted, Baseline.tags, hentries]
      exact List.filter_sublist
    have hle : applied ≤ b.entries.length := by
      have htags : b.tags.length = b.entries.length := List.length_map _
      rw [h.applied_eq, ← htags]
      exact hsublist.length_le
    rw [insertLoop, PhaseSound, if_pos rfl]
    exact { total_eq := rfl
            applied_eq := h.applied_eq
            sum_eq := Nat.add_sub_cancel' hle
            inserted_sublist := hsublist
            recorded := hentries ▸ hdone }
  | cons entry rest ih =>
    by_cases hrecorded : entry.tag ∈ recordedNames
    · rw [insertLoop, if_pos hrecorded]
      exact ih (h.skip hrecorded)
    · rw [insertLoop, if_neg hrecorded]
      exact ⟨h, hrecorded⟩

theorem phaseSound_afterProbe (h : Untouched effects) :
    PhaseSound b db effects (afterProbe b) := by
  unfold afterProbe
  split
  · exact h
  · split
    · exact h.inserted_eq
    · exact h.inserted_eq

theorem phaseSound_afterDatabase (h : Untouched effects) {table : Option String}
    (htable : ProbeLegible b table) : PhaseSound b db effects (afterDatabase b table) := by
  unfold afterDatabase
  split
  · next name hname =>
    rw [(Option.filter_eq_some_iff.1 hname).1] at htable
    exact ⟨h, htable⟩
  · exact phaseSound_afterProbe h

theorem phaseSound_markMigrationsApplied {databaseName table : Option String}
    (htable : ProbeLegible b table) :
    PhaseSound b db [] (markMigrationsApplied b databaseName table) := by
  have h : Untouched [] := by simp [Untouched]
  unfold markMigrationsApplied
  split
  · exact ⟨h, htable⟩
  · exact phaseSound_afterDatabase h htable

/-- Only the step that ensures the database goes on after an error. -/
theorem phaseSound_catchError {phase : Phase} (message : String)
    (h : ∀ databaseName table, phase = .ensureDatabase databaseName table →
      Untouched effects ∧ ProbeLegible b table) :
    PhaseSound b db effects (phase.catchError b message) := by
  cases phase with
  | ensureDatabase databaseName table =>
    obtain ⟨huntouched, htable⟩ := h databaseName table rfl
    simp only [Phase.catchError]
    split
    · exact phaseSound_afterDatabase huntouched htable
    · trivial
  | _ => trivial

theorem LoopSound.mem_entries
    (h : LoopSound b db effects recordedNames (entry :: rest) applied) : entry ∈ b.entries := by
  obtain ⟨done, hentries, -, -⟩ := h.handled
  simp [hentries]

/-- The insert of a migration appends a row with its tag. -/
theorem rows_execute_insert (htags : TagsReadBack b) (hentry : entry ∈ b.entries)
    {names : List (Option String)}
    (hexecute : execute b db (.insert (quoteLiteral entry.hash) entry.createdAt
      (quoteLiteral entry.tag)) = some (names, db')) :
    ∃ row : TrackingRow, row.name = some entry.tag ∧ db'.rows = db.rows ++ [row] := by
  obtain ⟨hash, name, -, hname, hrows⟩ := execute_spec hexecute
  exact ⟨_, hname.symm.trans (htags entry hentry), hrows⟩

/-- The names read are recorded, and none of the migrations is handled yet. -/
theorem loopSound_fetched {names : List (Option String)}
    (hnames : names = db.rows.map (·.name)) (hinserted : inserted b effects = []) :
    LoopSound b db effects (fetchRecordedNames (b.driver.result names)) b.entries 0 where
  recorded := by
    intro tag htag
    rw [timesRecorded_pos_iff, ← hnames]
    exact (mem_fetchRecordedNames.1 htag).2
  handled := ⟨[], rfl, hinserted, by simp⟩
  applied_eq := by rw [hinserted]; rfl

/-- A statement that takes effect and returns keeps a run sound. -/
theorem phaseSound_resume (htags : TagsReadBack b) {phase : Phase}
    (h : PhaseSound b db effects phase) (hstatement : phase.statement b = some statement)
    {names : List (Option String)} (hexecute : execute b db statement = some (names, db')) :
    PhaseSound b db' (effects ++ [statement]) (phase.resume b names) := by
  have hspec := execute_spec hexecute
  have hrows := prefix_execute hexecute
  cases phase with
  | ensureDatabase databaseName table =>
    cases hstatement
    exact phaseSound_afterDatabase (h.1.append rfl) h.2
  | probe table =>
    cases hstatement
    simp only [Phase.resume]
    split
    · exact phaseSound_afterProbe (h.1.append rfl)
    · exact h.1.append rfl
  | createSchema =>
    cases hstatement
    exact (inserted_append rfl).trans h
  | createTable =>
    cases hstatement
    exact (inserted_append rfl).trans h
  | fetchNames =>
    cases hstatement
    have hinserted : inserted b (effects ++ [.selectNames]) = [] := (inserted_append rfl).trans h
    exact ((loopSound_fetched hspec.1 hinserted).mono hrows).phaseSound
  | insert entry rest recordedNames applied =>
    obtain ⟨hloop, hmissing⟩ := h
    cases hstatement
    obtain ⟨row, hrow, hafter⟩ := rows_execute_insert htags hloop.mem_entries hexecute
    have hnew : 0 < db'.timesRecorded entry.tag := by
      rw [timesRecorded_append hrow hafter, if_pos rfl]
      omega
    have hrecorded : Statement.recordedName b (.insert (quoteLiteral entry.hash) entry.createdAt
        (quoteLiteral entry.tag)) = some entry.tag := htags entry hloop.mem_entries
    exact (hloop.insert hmissing hrecorded hrows hnew).phaseSound
  | ended result => cases hstatement
  | threw => cases hstatement

theorem readText_hash (dialect : Dialect) (hash : MigrationHash) :
    dialect.readText (quoteLiteral hash) = some hash.1 := by
  have hall : ("0123456789abcdef".toList.all (· ≠ SqlText.backslash)) = true := by decide
  have hhex : ∀ c ∈ "0123456789abcdef".toList, c ≠ SqlText.backslash := fun c hc =>
    of_decide_eq_true (List.all_eq_true.1 hall c hc)
  have hverbatim : SqlText.Verbatim hash.1.toList = true :=
    SqlText.verbatim_of_no_backslash fun c hc => hhex c (hash.2 c hc)
  rw [Dialect.readText, quoteLiteral, SqlText.readLiteral_literal fun _ => hverbatim]
  simp

/-- The statements of a sound run are what the run means them to be. -/
theorem legible_of_phaseSound (htags : TagsReadBack b) {phase : Phase}
    (h : PhaseSound b db effects phase) (hstatement : phase.statement b = some statement) :
    statement.legible b.dialect = true := by
  cases phase with
  | probe table =>
    cases hstatement
    exact h.2
  | insert entry rest recordedNames applied =>
    cases hstatement
    rw [Statement.legible, readText_hash, htags entry h.1.mem_entries]
    rfl
  | ended result => cases hstatement
  | threw => cases hstatement
  | _ =>
    cases hstatement
    rfl

/-- A step of a sound run only adds rows, and keeps the run sound. -/
theorem runSound_execute (htags : TagsReadBack b) {run run' : Run} {fate : Fate}
    (h : RunSound b db run) (hstep : run.execute b db fate = some (db', run')) :
    db.rows <+: db'.rows ∧ RunSound b db' run' := by
  obtain ⟨phase', effects'⟩ := run'
  obtain ⟨statement, hstatement, hcases⟩ := Run.execute_cases hstep
  rcases hcases with ⟨rfl, rfl, message, rfl⟩ | ⟨names, hexecute, rfl, hphase⟩ | hillegible
  · refine ⟨List.prefix_rfl, phaseSound_catchError message fun databaseName table hphase => ?_⟩
    rw [RunSound, hphase] at h
    exact h
  · refine ⟨prefix_execute hexecute, ?_⟩
    rcases hphase with rfl | ⟨message, rfl⟩
    · exact phaseSound_resume htags h hstatement hexecute
    · refine phaseSound_catchError message fun databaseName table hphase => ?_
      rw [RunSound, hphase] at h
      rw [hphase] at hstatement
      cases hstatement
      exact ⟨h.1.append rfl, h.2⟩
  · rw [legible_of_phaseSound htags h hstatement] at hillegible
    cases hillegible

/-! ## What a step means for one tag -/

/-- A step leaves a tag as often recorded as it was, unless the run was yet to insert it. -/
theorem timesRecorded_execute (htags : TagsReadBack b) {run run' : Run} {fate : Fate}
    (h : RunSound b db run) (hstep : run.execute b db fate = some (db', run')) (tag : String) :
    db'.timesRecorded tag = db.timesRecorded tag ∨
      tag ∈ run.phase.pending ∧ db'.timesRecorded tag = db.timesRecorded tag + 1 := by
  obtain ⟨phase, effects⟩ := run
  obtain ⟨statement, hstatement, hcases⟩ := Run.execute_cases hstep
  rcases hcases with ⟨rfl, -, -⟩ | ⟨names, hexecute, -, -⟩ | hillegible
  · exact Or.inl rfl
  · have hspec := execute_spec hexecute
    cases phase with
    | insert entry rest recordedNames applied =>
      cases hstatement
      obtain ⟨row, hrow, hafter⟩ := rows_execute_insert htags h.1.mem_entries hexecute
      rw [timesRecorded_append hrow hafter]
      by_cases htag : entry.tag = tag
      · exact Or.inr ⟨htag ▸ List.mem_cons_self, by rw [if_pos htag]⟩
      · exact Or.inl (by rw [if_neg htag]; rfl)
    | fetchNames =>
      cases hstatement
      exact Or.inl (timesRecorded_congr hspec.2 tag)
    | ended result => cases hstatement
    | threw => cases hstatement
    | _ =>
      cases hstatement
      exact Or.inl (timesRecorded_congr hspec tag)
  · rw [legible_of_phaseSound htags h hstatement] at hillegible
    cases hillegible

/-- A tag that a run is yet to insert was found missing in this step, or was to be inserted
before it and has not been recorded in it. -/
theorem pending_execute (htags : TagsReadBack b) (hdistinct : b.tags.Nodup) {run run' : Run}
    {fate : Fate} (h : RunSound b db run) (hstep : run.execute b db fate = some (db', run'))
    {tag : String} (hne : tag ≠ "") (hpending : tag ∈ run'.phase.pending) :
    (run.phase = .fetchNames ∧ db'.timesRecorded tag = 0) ∨
      (tag ∈ run.phase.pending ∧ db'.timesRecorded tag = db.timesRecorded tag) := by
  obtain ⟨phase, effects⟩ := run
  obtain ⟨statement, hstatement, hcases⟩ := Run.execute_cases hstep
  rcases hcases with ⟨-, -, message, hphase⟩ | ⟨names, hexecute, -, hphase | ⟨message, hphase⟩⟩ |
    hillegible
  · rw [hphase, pending_catchError] at hpending
    cases hpending
  · rw [hphase] at hpending
    have hspec := execute_spec hexecute
    cases phase with
    | ensureDatabase databaseName table =>
      rw [Phase.resume, pending_afterDatabase] at hpending
      cases hpending
    | probe table =>
      simp only [Phase.resume] at hpending
      split at hpending
      · rw [pending_afterProbe] at hpending
        cases hpending
      · cases hpending
    | fetchNames =>
      cases hstatement
      rw [Phase.resume, pending_insertLoop, List.mem_filter, decide_eq_true_eq,
        mem_fetchRecordedNames, not_and] at hpending
      have hmissing := hpending.2 hne
      rw [hspec.1] at hmissing
      refine Or.inl ⟨rfl, ?_⟩
      rw [Database.timesRecorded, hspec.2]
      exact List.count_eq_zero.2 hmissing
    | insert entry rest recordedNames applied =>
      obtain ⟨done, hentries, -, -⟩ := h.1.handled
      rw [Phase.resume, pending_insertLoop] at hpending
      have htail : tag ∈ rest.map (·.tag) := List.mem_of_mem_filter hpending
      have hother : entry.tag ≠ tag := by
        rintro rfl
        rw [Baseline.tags, hentries, List.map_append, List.map_cons] at hdistinct
        exact (List.nodup_cons.1 (List.nodup_append.1 hdistinct).2.1).1 htail
      cases hstatement
      obtain ⟨row, hrow, hafter⟩ := rows_execute_insert htags h.1.mem_entries hexecute
      refine Or.inr ⟨List.mem_cons_of_mem _ hpending, ?_⟩
      rw [timesRecorded_append hrow hafter, if_neg hother]
      rfl
    | ended result => cases hstatement
    | threw => cases hstatement
    | _ => cases hpending
  · rw [hphase, pending_catchError] at hpending
    cases hpending
  · rw [legible_of_phaseSound htags h hstatement] at hillegible
    cases hillegible

end Sound

end SharedTsLibs.DrizzleUtils
