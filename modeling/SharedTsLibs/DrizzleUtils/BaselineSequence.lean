import SharedTsLibs.DrizzleUtils.BaselineInterleavings

/-!
# Runs of the baselining one after the other

Runs on one database, each of which starts when the ones before it are over; any statement
may fail and abort its run.

* `Sequential` — a run starts only when the others are over.
* `readsApart_of_sequential` — such runs do not read while another one is yet to insert.
* `Converged` — what holds of the database and of the runs on it.
* `converged_of_sequential` — it holds after any steps of runs one after the other.
* `backslash_notConverged` — it need not hold where a literal is read as another text.
-/

namespace SharedTsLibs.DrizzleUtils

open StepSystem

variable {b : Baseline} {s s' : Deployment} {tag : String}

/-! ## One run at a time -/

def Phase.isOver : Phase → Bool
  | .ended _ | .threw => true
  | _ => false

/-- A run starts only when the others are over. -/
def Sequential (s : Deployment) : Label → Prop
  | .start _ _ => ∀ run ∈ s.runs, run.phase.isOver = true
  | .execute _ _ => True

instance decidableSequential : ∀ l, Decidable (Sequential s l)
  | .start _ _ => inferInstanceAs (Decidable (∀ run ∈ s.runs, run.phase.isOver = true))
  | .execute _ _ => .isTrue trivial

/-- Only the last run may still be under way. -/
def OnlyLast (s : Deployment) : Prop :=
  ∀ (i : ℕ) (run : Run), s.runs[i]? = some run → run.phase.isOver = false →
    i + 1 = s.runs.length

theorem isOver_eq_false_of_statement {phase : Phase} {statement : Statement}
    (h : phase.statement b = some statement) : phase.isOver = false := by
  cases phase with
  | ended result => cases h
  | threw => cases h
  | _ => rfl

theorem isOver_eq_false_of_pending {phase : Phase} (h : tag ∈ phase.pending) :
    phase.isOver = false := by
  cases phase with
  | insert entry rest recordedNames applied => rfl
  | _ => cases h

theorem isOver_eq_false_of_readsNames {phase : Phase} (h : phase.readsNames = true) :
    phase.isOver = false := by
  cases phase with
  | fetchNames => rfl
  | _ => cases h

theorem onlyLast_step {l : Label} (h : OnlyLast s) (hl : Sequential s l)
    (hstep : step b s l = some s') : OnlyLast s' := by
  intro j other hj hother
  rcases step_cases hstep with ⟨databaseName, table, rfl, -, hruns⟩ |
    ⟨i, fate, run, run', rfl, hrun, hexecute, hruns⟩
  · rw [hruns] at hj ⊢
    rcases Slots.getElem?_push_some hj with ⟨rfl, -⟩ | ⟨-, hold⟩
    · simp
    · rw [hl other (List.mem_of_getElem? hold)] at hother
      cases hother
  · obtain ⟨statement, hstatement, -⟩ := Run.execute_cases hexecute
    have hlast := h i run hrun (isOver_eq_false_of_statement hstatement)
    rw [hruns] at hj ⊢
    rw [List.length_set]
    rcases Slots.getElem?_set_some hrun hj with ⟨rfl, -⟩ | ⟨-, hold⟩
    · exact hlast
    · exact h j other hold hother

/-- While one run is under way, the others have nothing to insert. -/
theorem readsApart_of_onlyLast (h : OnlyLast s) (tag : String) (l : Label) :
    ReadsApart tag s l := by
  cases l with
  | start databaseName table => trivial
  | execute i fate =>
    intro hreads other hother hpending
    obtain ⟨j, hji, hj⟩ := List.mem_eraseIdx_iff_getElem?.1 hother
    have hlast := h j other hj (isOver_eq_false_of_pending hpending)
    cases hrun : s.runs[i]? with
    | none => simp [hrun] at hreads
    | some run =>
      have hfetch : run.phase.readsNames = true := by simpa [hrun] using hreads
      have hlast' := h i run hrun (isOver_eq_false_of_readsNames hfetch)
      omega

/-! ## Nothing left to insert -/

def Phase.isBaselined : Phase → Bool
  | .ended result => result.outcome = .baselined
  | _ => false

/-- A run that has inserted nothing and is not about to. -/
def Idle (b : Baseline) (run : Run) : Prop :=
  inserted b run.effects = [] ∧ run.phase.pending = []

theorem mem_tags_of_pending {db : Database} {run : Run} (h : RunSound b db run)
    (hpending : tag ∈ run.phase.pending) : tag ∈ b.tags := by
  obtain ⟨phase, effects⟩ := run
  cases phase with
  | insert entry rest recordedNames applied =>
    obtain ⟨done, hentries, -, -⟩ := h.1.handled
    rw [Baseline.tags, hentries, List.map_append, List.map_cons]
    refine List.mem_append_right _ ?_
    rcases List.mem_cons.1 hpending with rfl | hrest
    · exact List.mem_cons_self
    · exact List.mem_cons_of_mem _ (List.mem_of_mem_filter hrest)
  | _ => cases hpending

/-- A run that is not about to insert inserts nothing. -/
theorem inserted_execute (htags : TagsReadBack b) {db db' : Database} {run run' : Run}
    {fate : Fate} (h : RunSound b db run) (hidle : Idle b run)
    (hstep : run.execute b db fate = some (db', run')) : inserted b run'.effects = [] := by
  obtain ⟨phase, effects⟩ := run
  obtain ⟨statement, hstatement, hcases⟩ := Run.execute_cases hstep
  rcases hcases with ⟨-, heffects, -⟩ | ⟨names, -, heffects, -⟩ | hillegible
  · rw [heffects]
    exact hidle.1
  · have hnone : statement.recordedName b = none := by
      cases phase with
      | insert entry rest recordedNames applied => cases hidle.2
      | ended result => cases hstatement
      | threw => cases hstatement
      | _ =>
        cases hstatement
        rfl
    rw [heffects, inserted_append hnone]
    exact hidle.1
  · rw [legible_of_phaseSound htags h hstatement] at hillegible
    cases hillegible

/-- While every migration is recorded, a run finds nothing to insert. -/
theorem idle_execute (htags : TagsReadBack b) (hdistinct : b.tags.Nodup) (hnonempty : "" ∉ b.tags)
    {db db' : Database} (hrecorded : ∀ entry ∈ b.entries, 0 < db.timesRecorded entry.tag)
    {run run' : Run} {fate : Fate} (h : RunSound b db run) (hidle : Idle b run)
    (hstep : run.execute b db fate = some (db', run')) : Idle b run' := by
  obtain ⟨hrows, hsound⟩ := runSound_execute htags h hstep
  refine ⟨inserted_execute htags h hidle hstep, List.eq_nil_iff_forall_not_mem.2 ?_⟩
  intro tag hpending
  have htag : tag ∈ b.tags := mem_tags_of_pending hsound hpending
  have hne : tag ≠ "" := by
    rintro rfl
    exact hnonempty htag
  rcases pending_execute htags hdistinct h hstep hne hpending with ⟨-, hzero⟩ | ⟨hself, -⟩
  · obtain ⟨entry, hentry, rfl⟩ := List.mem_map.1 htag
    have hpos := timesRecorded_pos hrows (hrecorded entry hentry)
    omega
  · rw [hidle.2] at hself
    cases hself

theorem reportSound_of_isBaselined {db : Database} {run : Run} (h : RunSound b db run)
    (hbaselined : run.phase.isBaselined = true) :
    ∃ result, run.phase = .ended result ∧ ReportSound b db run.effects result := by
  obtain ⟨phase, effects⟩ := run
  cases phase with
  | ended result =>
    have houtcome : result.outcome = .baselined := by simpa [Phase.isBaselined] using hbaselined
    rw [RunSound, PhaseSound, if_pos houtcome] at h
    exact ⟨result, rfl, h⟩
  | _ => cases hbaselined

/-- The runs that start after a completed baselining insert nothing. -/
def LaterIdle (b : Baseline) (s : Deployment) : Prop :=
  ∀ (i j : ℕ) (run other : Run), i < j → s.runs[i]? = some run → s.runs[j]? = some other →
    run.phase.isBaselined = true → Idle b other

theorem laterIdle_step (htags : TagsReadBack b) (hdistinct : b.tags.Nodup)
    (hnonempty : "" ∉ b.tags) {l : Label} (hsound : RunsSound b s) (honly : OnlyLast s)
    (h : LaterIdle b s) (hstep : step b s l = some s') : LaterIdle b s' := by
  intro j k first later hjk hj hk hbaselined
  rcases step_cases hstep with ⟨databaseName, table, rfl, -, hruns⟩ |
    ⟨i, fate, run, run', rfl, hrun, hexecute, hruns⟩
  · rw [hruns] at hj hk
    rcases Slots.getElem?_push_some hk with ⟨-, rfl⟩ | ⟨hklt, hk'⟩
    · exact ⟨rfl, pending_markMigrationsApplied databaseName table⟩
    · rcases Slots.getElem?_push_some hj with ⟨rfl, -⟩ | ⟨-, hj'⟩
      · omega
      · exact h j k first later hjk hj' hk' hbaselined
  · obtain ⟨statement, hstatement, -⟩ := Run.execute_cases hexecute
    have hlast := honly i run hrun (isOver_eq_false_of_statement hstatement)
    have hklt : k < s.runs.length := by
      have hlt := (List.getElem?_eq_some_iff.1 hk).1
      rw [hruns, List.length_set] at hlt
      exact hlt
    rw [hruns] at hj hk
    -- only the last run takes a step, and the first of the two is not the last
    rcases Slots.getElem?_set_some hrun hj with ⟨rfl, -⟩ | ⟨-, hj'⟩
    · omega
    · rcases Slots.getElem?_set_some hrun hk with ⟨rfl, rfl⟩ | ⟨-, hk'⟩
      · obtain ⟨result, -, hreport⟩ :=
          reportSound_of_isBaselined (hsound j first hj') hbaselined
        exact idle_execute htags hdistinct hnonempty hreport.recorded (hsound k run hrun)
          (h j k first run hjk hj' hrun hbaselined) hexecute
      · exact h j k first later hjk hj' hk' hbaselined

/-! ## Convergence -/

/-- What holds of a database and the runs on it after the steps `ls`. -/
structure Converged (b : Baseline) (db : Database) (ls : List Label) (s : Deployment) :
    Prop where
  /-- No tag is recorded more than once. -/
  once : ∀ tag ∈ b.tags, s.db.timesRecorded tag ≤ 1
  /-- The rows of every state on the way are still there, in their order. -/
  kept : ∀ ls₁ ls₂ t, ls = ls₁ ++ ls₂ →
    run (step b) (Deployment.initial db) ls₁ = some t → t.db.rows <+: s.db.rows
  /-- A completed baselining reports what it inserted, and how many migrations there are. -/
  reported : ∀ run ∈ s.runs, ∀ result, run.phase = .ended result → result.outcome = .baselined →
    result.applied + result.skipped = b.entries.length ∧
      result.applied = (inserted b run.effects).length ∧
      (inserted b run.effects).Sublist b.tags
  /-- After a completed baselining every tag is recorded exactly once. -/
  complete : ∀ run ∈ s.runs, run.phase.isBaselined = true →
    ∀ tag ∈ b.tags, s.db.timesRecorded tag = 1
  /-- Any later run inserts nothing. -/
  later : ∀ (i j : ℕ) (run other : Run), i < j → s.runs[i]? = some run →
    s.runs[j]? = some other → run.phase.isBaselined = true → inserted b other.effects = []
  /-- A run that skips the baselining creates no schema or table and inserts no row. -/
  skipped : ∀ run ∈ s.runs, ∀ result, run.phase = .ended result → result.outcome ≠ .baselined →
    Untouched run.effects

/-- What a sequence of runs preserves. -/
structure SequenceSound (b : Baseline) (s : Deployment) : Prop where
  sound : RunsSound b s
  onlyLast : OnlyLast s
  laterIdle : LaterIdle b s
  tagSound : ∀ tag ∈ b.tags, TagSound tag s

theorem sequenceSound_initial {db : Database} (hdb : ∀ tag ∈ b.tags, db.timesRecorded tag ≤ 1) :
    SequenceSound b (Deployment.initial db) where
  sound := runsSound_initial db
  onlyLast := by
    intro i run hrun
    simp [Deployment.initial] at hrun
  laterIdle := by
    intro i j run other _ hrun
    simp [Deployment.initial] at hrun
  tagSound tag htag := tagSound_initial (hdb tag htag)

theorem sequenceSound_step (htags : TagsReadBack b) (hdistinct : b.tags.Nodup)
    (hnonempty : "" ∉ b.tags) {l : Label} (h : SequenceSound b s)
    (hl : Sequential s l ∧ ProbesLegible b s l) (hstep : step b s l = some s') :
    SequenceSound b s' where
  sound := (runsSound_step htags h.sound hl.2 hstep).1
  onlyLast := onlyLast_step h.onlyLast hl.1 hstep
  laterIdle := laterIdle_step htags hdistinct hnonempty h.sound h.onlyLast h.laterIdle hstep
  tagSound := by
    intro tag htag
    have hne : tag ≠ "" := by
      rintro rfl
      exact hnonempty htag
    exact tagSound_step htags hdistinct hne h.sound (h.tagSound tag htag)
      (readsApart_of_onlyLast h.onlyLast tag l) hstep

theorem sequenceSound_run (htags : TagsReadBack b) (hdistinct : b.tags.Nodup)
    (hnonempty : "" ∉ b.tags) {db : Database} (hdb : ∀ tag ∈ b.tags, db.timesRecorded tag ≤ 1)
    {ls : List Label}
    (hsteps : AllSteps (step b) (fun s l => Sequential s l ∧ ProbesLegible b s l)
      (Deployment.initial db) ls)
    (hrun : run (step b) (Deployment.initial db) ls = some s) : SequenceSound b s :=
  invariant_run (fun _ _ _ h hl hstep => sequenceSound_step htags hdistinct hnonempty h hl hstep)
    (sequenceSound_initial hdb) hsteps hrun

/-- **Runs one after the other converge**, whichever of their statements fail, where no
backslash of a tag starts an escape sequence of the dialect. -/
theorem converged_of_sequential (hverbatim : TagsVerbatim b) (hdistinct : b.tags.Nodup)
    (hnonempty : "" ∉ b.tags) {db : Database} (hdb : ∀ tag ∈ b.tags, db.timesRecorded tag ≤ 1)
    {ls : List Label}
    (hsteps : AllSteps (step b) (fun s l => Sequential s l ∧ ProbesLegible b s l)
      (Deployment.initial db) ls)
    (hrun : run (step b) (Deployment.initial db) ls = some s) : Converged b db ls s := by
  have htags := tagsReadBack hverbatim
  have hend := sequenceSound_run htags hdistinct hnonempty hdb hsteps hrun
  have hsound : ∀ run ∈ s.runs, RunSound b s.db run := by
    intro run hmem
    obtain ⟨i, hi⟩ := List.mem_iff_getElem?.1 hmem
    exact hend.sound i run hi
  constructor
  case once => exact fun tag htag => (hend.tagSound tag htag).once
  case kept =>
    rintro ls₁ ls₂ t rfl ht
    obtain ⟨t', ht', hrest⟩ := run_append_eq_some.1 hrun
    rw [ht] at ht'
    cases ht'
    have hbefore := sequenceSound_run htags hdistinct hnonempty hdb hsteps.of_append.1 ht
    have hlegible := (hsteps.of_append.2 t ht).imp fun s l => And.right
    exact prefix_run htags hbefore.sound hlegible hrest
  case reported =>
    intro run hmem result hphase houtcome
    have h := hsound run hmem
    rw [RunSound, hphase, PhaseSound, if_pos houtcome] at h
    exact ⟨h.sum_eq, h.applied_eq, h.inserted_sublist⟩
  case complete =>
    intro run hmem hbaselined tag htag
    obtain ⟨result, -, hreport⟩ := reportSound_of_isBaselined (hsound run hmem) hbaselined
    obtain ⟨entry, hentry, rfl⟩ := List.mem_map.1 htag
    have hpos := hreport.recorded entry hentry
    have honce := (hend.tagSound entry.tag htag).once
    omega
  case later =>
    intro i j run other hij hi hj hbaselined
    exact (hend.laterIdle i j run other hij hi hj hbaselined).1
  case skipped =>
    intro run hmem result hphase houtcome
    have h := hsound run hmem
    rw [RunSound, hphase, PhaseSound, if_neg houtcome] at h
    exact h

section Sequences

/-- A run whose insert takes effect but reports an error, and one that completes. -/
def abortedThenCompleted : List Label :=
  .start none (some "users") :: List.replicate 4 (.execute 0 .completes) ++
    [.execute 0 (.fails "connection lost" true), .start (some "app") none,
      .execute 1 (.fails "database \"app\" already exists" false)] ++
    List.replicate 3 (.execute 1 .completes)

theorem converged_abortedThenCompleted :
    ∃ s, run (step usersBaseline) (Deployment.initial legacyDatabase) abortedThenCompleted =
        some s ∧ Converged usersBaseline legacyDatabase abortedThenCompleted s :=
  ⟨_, rfl, converged_of_sequential tagsVerbatim_usersBaseline (by decide) (by decide)
    (by decide : ∀ tag ∈ usersBaseline.tags, legacyDatabase.timesRecorded tag ≤ 1)
    (by decide : AllSteps _ _ _ abortedThenCompleted) rfl⟩

/-- A MySQL migration with a backslash in its tag. -/
def backslashBaseline : Baseline :=
  { driver := .mysql2, dialect := .mysql, migrationsTable := "__drizzle_migrations",
    migrationsSchema := "drizzle",
    entries := [
      { tag := "0002_a\\b"
        hash := sampleHash
        createdAt := 1700000000000 }] }

/-- Two runs, of which each completes. -/
def twoCompleted : List Label :=
  .start none none :: List.replicate 3 (.execute 0 .completes) ++
    .start none none :: List.replicate 3 (.execute 1 .completes)

/-- **With a backslash in a tag, runs on MySQL need not converge**: the tag is recorded as
another one, and every run inserts it again. -/
theorem backslash_notConverged :
    backslashBaseline.tags.Nodup ∧ "" ∉ backslashBaseline.tags ∧
      (∀ tag ∈ backslashBaseline.tags, legacyDatabase.timesRecorded tag ≤ 1) ∧
      AllSteps (step backslashBaseline)
        (fun s l => Sequential s l ∧ ProbesLegible backslashBaseline s l)
        (Deployment.initial legacyDatabase) twoCompleted ∧
      ∃ s, run (step backslashBaseline) (Deployment.initial legacyDatabase) twoCompleted = some s ∧
        ¬ Converged backslashBaseline legacyDatabase twoCompleted s := by
  refine ⟨by decide, by decide, by decide, by decide, _, rfl, fun h => ?_⟩
  have hrecorded := h.complete _ List.mem_cons_self (by decide) "0002_a\\b" (by decide)
  exact absurd hrecorded (by decide)

end Sequences

end SharedTsLibs.DrizzleUtils
