import SharedTsLibs.DrizzleUtils.BaselineRuns

/-!
# Interleaved runs of the baselining

Runs on one database, each a statement at a time, in any order.

* `step_cases` — what a step of a deployment can do.
* `runsSound_step`, `prefix_run` — every run stays sound, and rows are only ever added.
* `ReadsApart` — no run reads the names while another one, that has found a tag missing, is
  yet to insert it.
* `recordedOnce_of_readsApart` — then the tag is recorded at most once.
* `interleaved_recordedTwice` — two runs that both read before either inserts.
-/

namespace SharedTsLibs.DrizzleUtils

open StepSystem

variable {b : Baseline} {s s' : Deployment} {tag : String}

/-! ## Every interleaving -/

/-- No backslash of a tag starts an escape sequence, where the dialect has them. -/
def TagsVerbatim (b : Baseline) : Prop :=
  b.dialect = .mysql → ∀ entry ∈ b.entries, SqlText.Verbatim entry.tag.toList = true

theorem tagsReadBack (h : TagsVerbatim b) : TagsReadBack b := by
  intro entry hentry
  have hverbatim : b.dialect.escapes = true → SqlText.Verbatim entry.tag.toList = true := by
    intro hescapes
    refine h ?_ entry hentry
    cases hdialect : b.dialect with
    | mysql => rfl
    | postgresql => simp [hdialect, Dialect.escapes] at hescapes
    | cockroachdb => simp [hdialect, Dialect.escapes] at hescapes
  rw [Dialect.readText, quoteLiteral, SqlText.readLiteral_literal hverbatim]
  simp

/-- A run that starts has a probe table whose literal is read as one literal. -/
def ProbesLegible (b : Baseline) : Deployment → Label → Prop
  | _, .start _ table => ProbeLegible b table
  | _, .execute _ _ => True

/-- A run starts, or a run takes a step. -/
theorem step_cases {l : Label} (h : step b s l = some s') :
    (∃ databaseName table, l = .start databaseName table ∧ s'.db = s.db ∧
        s'.runs = s.runs ++ [{ phase := markMigrationsApplied b databaseName table,
                               effects := [] }]) ∨
      ∃ i fate run run', l = .execute i fate ∧ s.runs[i]? = some run ∧
        run.execute b s.db fate = some (s'.db, run') ∧ s'.runs = s.runs.set i run' := by
  cases l with
  | start databaseName table =>
    cases h
    exact Or.inl ⟨databaseName, table, rfl, rfl, rfl⟩
  | execute i fate =>
    simp only [step, Option.bind_eq_bind, Option.bind_eq_some_iff] at h
    obtain ⟨run, hrun, ⟨db, run'⟩, hexecute, heq⟩ := h
    cases heq
    exact Or.inr ⟨i, fate, run, run', rfl, hrun, hexecute, rfl⟩

/-- Every run has done what it should have done where it stands. -/
def RunsSound (b : Baseline) (s : Deployment) : Prop :=
  ∀ (i : ℕ) (run : Run), s.runs[i]? = some run → RunSound b s.db run

theorem runsSound_initial (db : Database) : RunsSound b (Deployment.initial db) := by
  intro i run hrun
  simp [Deployment.initial] at hrun

theorem runsSound_step (htags : TagsReadBack b) {l : Label} (h : RunsSound b s)
    (hl : ProbesLegible b s l) (hstep : step b s l = some s') :
    RunsSound b s' ∧ s.db.rows <+: s'.db.rows := by
  rcases step_cases hstep with ⟨databaseName, table, rfl, hdb, hruns⟩ |
    ⟨i, fate, run, run', rfl, hrun, hexecute, hruns⟩
  · refine ⟨fun j other hj => ?_, hdb ▸ List.prefix_rfl⟩
    rw [hruns] at hj
    rw [hdb]
    rcases Slots.getElem?_push_some hj with ⟨-, rfl⟩ | ⟨-, hold⟩
    · exact phaseSound_markMigrationsApplied hl
    · exact h j other hold
  · obtain ⟨hrows, hsound⟩ := runSound_execute htags (h i run hrun) hexecute
    refine ⟨fun j other hj => ?_, hrows⟩
    rw [hruns] at hj
    rcases Slots.getElem?_set_some hrun hj with ⟨-, rfl⟩ | ⟨-, hold⟩
    · exact hsound
    · exact (h j other hold).mono hrows

/-- Rows are only ever added, after those that are there. -/
theorem prefix_run (htags : TagsReadBack b) {ls : List Label} (hs : RunsSound b s)
    (hlegible : AllSteps (step b) (ProbesLegible b) s ls) (hrun : run (step b) s ls = some s') :
    s.db.rows <+: s'.db.rows := by
  apply history_run (R := fun s s' => s.db.rows <+: s'.db.rows) (I := RunsSound b) _ _ _ hs
    hlegible hrun
  · intro s
    exact List.prefix_rfl
  · intro s t u hst htu
    exact hst.trans htu
  · intro s l s' hs hlegible hstep
    exact runsSound_step htags hs hlegible hstep

/-! ## One tag -/

def Phase.readsNames : Phase → Bool
  | .fetchNames => true
  | _ => false

/-- A run reads the names only while no other run is yet to insert the tag. -/
def ReadsApart (tag : String) (s : Deployment) : Label → Prop
  | .start _ _ => True
  | .execute i _ => (s.runs[i]?).any (·.phase.readsNames) = true →
      ∀ other ∈ s.runs.eraseIdx i, tag ∉ other.phase.pending

instance decidableProbesLegible : ∀ l, Decidable (ProbesLegible b s l)
  | .start _ table => inferInstanceAs (Decidable (table.all _ = true))
  | .execute _ _ => .isTrue trivial

instance decidableReadsApart : ∀ l, Decidable (ReadsApart tag s l)
  | .start _ _ => .isTrue trivial
  | .execute i _ => inferInstanceAs (Decidable ((s.runs[i]?).any (·.phase.readsNames) = true →
      ∀ other ∈ s.runs.eraseIdx i, tag ∉ other.phase.pending))

/-- The tag is recorded at most once; a run that is yet to insert it is the only one, and
then the tag is not recorded at all. -/
structure TagSound (tag : String) (s : Deployment) : Prop where
  once : s.db.timesRecorded tag ≤ 1
  missing : ∀ (i : ℕ) (run : Run), s.runs[i]? = some run → tag ∈ run.phase.pending →
    s.db.timesRecorded tag = 0
  alone : ∀ (i j : ℕ) (run other : Run), s.runs[i]? = some run → s.runs[j]? = some other →
    tag ∈ run.phase.pending → tag ∈ other.phase.pending → i = j

theorem tagSound_initial {db : Database} (h : db.timesRecorded tag ≤ 1) :
    TagSound tag (Deployment.initial db) where
  once := h
  missing := by simp [Deployment.initial]
  alone := by simp [Deployment.initial]

theorem tagSound_start (h : TagSound tag s) {databaseName table : Option String}
    (hdb : s'.db = s.db)
    (hruns : s'.runs = s.runs ++ [{ phase := markMigrationsApplied b databaseName table,
                                    effects := [] }]) : TagSound tag s' := by
  have hold : ∀ (j : ℕ) (other : Run), s'.runs[j]? = some other → tag ∈ other.phase.pending →
      s.runs[j]? = some other := by
    intro j other hj hpending
    rw [hruns] at hj
    rcases Slots.getElem?_push_some hj with ⟨-, rfl⟩ | ⟨-, hj'⟩
    · rw [pending_markMigrationsApplied] at hpending
      cases hpending
    · exact hj'
  exact { once := hdb ▸ h.once
          missing := fun i run hi hpending =>
            hdb ▸ h.missing i run (hold i run hi hpending) hpending
          alone := fun i j run other hi hj hrun hother =>
            h.alone i j run other (hold i run hi hrun) (hold j other hj hother) hrun hother }

theorem tagSound_execute (htags : TagsReadBack b) (hdistinct : b.tags.Nodup) (hne : tag ≠ "")
    (hsound : RunsSound b s) (h : TagSound tag s) {i : ℕ} {fate : Fate} {run run' : Run}
    (happart : ReadsApart tag s (.execute i fate)) (hrun : s.runs[i]? = some run)
    (hexecute : run.execute b s.db fate = some (s'.db, run'))
    (hruns : s'.runs = s.runs.set i run') : TagSound tag s' := by
  have hcount := timesRecorded_execute htags (hsound i run hrun) hexecute tag
  have hpending := pending_execute htags hdistinct (hsound i run hrun) hexecute hne
  -- another run that is yet to insert the tag is the only one, so this step does not record it
  have hother : ∀ (j : ℕ) (other : Run), j ≠ i → s.runs[j]? = some other →
      tag ∈ other.phase.pending → tag ∉ run.phase.pending := by
    intro j other hji hj hother hself
    exact hji (h.alone j i other run hj hrun hother hself)
  -- nor does this run come to insert it
  have hother' : ∀ (j : ℕ) (other : Run), j ≠ i → s.runs[j]? = some other →
      tag ∈ other.phase.pending → tag ∉ run'.phase.pending := by
    intro j other hji hj hother' hself
    rcases hpending hself with ⟨hfetch, -⟩ | ⟨hold, -⟩
    · have hreads : (s.runs[i]?).any (·.phase.readsNames) = true := by
        simp [hrun, hfetch, Phase.readsNames]
      exact happart hreads other (List.mem_eraseIdx_iff_getElem?.2 ⟨j, hji, hj⟩) hother'
    · exact hother j other hji hj hother' hold
  constructor
  · have honce := h.once
    rcases hcount with hsame | ⟨hself, hmore⟩
    · omega
    · have hzero := h.missing i run hrun hself
      omega
  · intro j other hj hp
    rw [hruns] at hj
    rcases Slots.getElem?_set_some hrun hj with ⟨-, rfl⟩ | ⟨hji, hold⟩
    · rcases hpending hp with ⟨-, hzero⟩ | ⟨hself, hsame⟩
      · exact hzero
      · rw [hsame]
        exact h.missing i run hrun hself
    · have hzero := h.missing j other hold hp
      rcases hcount with hsame | ⟨hself, -⟩
      · omega
      · exact absurd hself (hother j other hji hold hp)
  · intro j k one other hj hk hone htwo
    rw [hruns] at hj hk
    rcases Slots.getElem?_set_some hrun hj with ⟨rfl, rfl⟩ | ⟨hji, hj'⟩
    · rcases Slots.getElem?_set_some hrun hk with ⟨rfl, -⟩ | ⟨hki, hk'⟩
      · rfl
      · exact absurd hone (hother' k other hki hk' htwo)
    · rcases Slots.getElem?_set_some hrun hk with ⟨rfl, rfl⟩ | ⟨-, hk'⟩
      · exact absurd htwo (hother' j one hji hj' hone)
      · exact h.alone j k one other hj' hk' hone htwo

theorem tagSound_step (htags : TagsReadBack b) (hdistinct : b.tags.Nodup) (hne : tag ≠ "")
    {l : Label} (hsound : RunsSound b s) (h : TagSound tag s) (happart : ReadsApart tag s l)
    (hstep : step b s l = some s') : TagSound tag s' := by
  rcases step_cases hstep with ⟨databaseName, table, rfl, hdb, hruns⟩ |
    ⟨i, fate, run, run', rfl, hrun, hexecute, hruns⟩
  · exact tagSound_start h hdb hruns
  · exact tagSound_execute htags hdistinct hne hsound h happart hrun hexecute hruns

/-- **A migration is recorded at most once** in every interleaving in which no run reads the
recorded names while another run, that has read them without it, is yet to insert it. -/
theorem recordedOnce_of_readsApart (hverbatim : TagsVerbatim b) (hdistinct : b.tags.Nodup)
    (hne : tag ≠ "") {db : Database} (hdb : db.timesRecorded tag ≤ 1) {ls : List Label}
    (hsteps : AllSteps (step b) (fun s l => ProbesLegible b s l ∧ ReadsApart tag s l)
      (Deployment.initial db) ls)
    (hrun : run (step b) (Deployment.initial db) ls = some s) :
    s.db.timesRecorded tag ≤ 1 := by
  have htags := tagsReadBack hverbatim
  have hinvariant : ∀ s l s', RunsSound b s ∧ TagSound tag s →
      ProbesLegible b s l ∧ ReadsApart tag s l → step b s l = some s' →
      RunsSound b s' ∧ TagSound tag s' := by
    rintro s l s' ⟨hsound, h⟩ ⟨hlegible, happart⟩ hstep
    exact ⟨(runsSound_step htags hsound hlegible hstep).1,
      tagSound_step htags hdistinct hne hsound h happart hstep⟩
  have hend := invariant_run hinvariant ⟨runsSound_initial db, tagSound_initial hdb⟩ hsteps hrun
  exact hend.2.once

/-! ## Two runs at once -/

section TwoRuns

def sampleHash : MigrationHash := ⟨"5e", hexadecimal_of_all (by decide)⟩

def usersMigration : MigrationEntry :=
  { tag := "0001_users"
    hash := sampleHash
    createdAt := 1700000000000 }

def usersBaseline : Baseline :=
  { driver := .postgresJs, dialect := .postgresql, migrationsTable := "__drizzle_migrations",
    migrationsSchema := "drizzle", entries := [usersMigration] }

def legacyDatabase : Database :=
  { databases := ["app"], schemas := ["public"], tables := ["users"], tracking := none }

theorem tagsVerbatim_usersBaseline : TagsVerbatim usersBaseline := by
  intro hdialect
  cases hdialect

/-- A run, and one that probes for a legacy table first and goes on when the other is done. -/
def oneAfterTheOther : List Label :=
  .start none none :: .start none (some "users") :: List.replicate 4 (.execute 0 .completes) ++
    List.replicate 4 (.execute 1 .completes)

theorem recordedOnce_oneAfterTheOther :
    ∃ s, run (step usersBaseline) (Deployment.initial legacyDatabase) oneAfterTheOther = some s ∧
      s.db.timesRecorded "0001_users" ≤ 1 := by
  exact ⟨_, rfl, recordedOnce_of_readsApart tagsVerbatim_usersBaseline (by decide) (by decide)
    (by decide : legacyDatabase.timesRecorded "0001_users" ≤ 1)
    (by decide : AllSteps _ _ _ oneAfterTheOther) rfl⟩

/-- Two runs that both read the names before either inserts. -/
def bothRead : List Label :=
  [.start none none, .start none none] ++ List.replicate 3 (.execute 0 .completes) ++
    List.replicate 3 (.execute 1 .completes) ++ [.execute 0 .completes, .execute 1 .completes]

/-- **Not every interleaving records a migration at most once.** -/
theorem interleaved_recordedTwice :
    TagsVerbatim usersBaseline ∧ usersBaseline.tags.Nodup ∧
      legacyDatabase.timesRecorded "0001_users" = 0 ∧
      AllSteps (step usersBaseline) (ProbesLegible usersBaseline)
        (Deployment.initial legacyDatabase) bothRead ∧
      ∃ s, run (step usersBaseline) (Deployment.initial legacyDatabase) bothRead = some s ∧
        s.db.timesRecorded "0001_users" = 2 := by
  refine ⟨tagsVerbatim_usersBaseline, by decide, by decide, by decide, _, rfl, ?_⟩
  decide

end TwoRuns

end SharedTsLibs.DrizzleUtils
