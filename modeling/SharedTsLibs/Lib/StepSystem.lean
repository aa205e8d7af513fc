import Mathlib.Data.List.Basic

/-!
# Runs of a labelled step system

A system that takes one step at a time is given by a function
`step : σ → ℓ → Option σ`: the state a labelled step leads to, or `none` when
the step cannot be taken.  Several parties and an environment are one such
system, whose labels say who moves; a run is then a list of labels, in any
order the parties can bring about.

* `run` — the state a list of labels leads to, `none` as soon as one of them
  cannot be taken.
* `AllSteps` — a condition on the state before a step and on the step itself,
  holding of every step of a run.
* `invariant_run` — the induction principle: an invariant that holds at the
  start and survives every step meeting the condition holds wherever a run of
  such steps ends.
* `history_run` — the same for a relation between an earlier and a later state.
* `Reaches` — some run leads from one state to another.
-/

namespace StepSystem

variable {σ : Type*} {ℓ : Type*} (step : σ → ℓ → Option σ)

/-- The state a list of steps leads to. -/
def run : σ → List ℓ → Option σ
  | s, [] => some s
  | s, l :: ls => (step s l).bind fun s' => run s' ls

/-- `C` holds of every step of the run, read in the state the step is taken in. -/
def AllSteps (C : σ → ℓ → Prop) : σ → List ℓ → Prop
  | _, [] => True
  | s, l :: ls => C s l ∧ ∀ s', step s l = some s' → AllSteps C s' ls

variable {step}

theorem run_cons (s : σ) (l : ℓ) (ls : List ℓ) :
    run step s (l :: ls) = (step s l).bind fun s' => run step s' ls := rfl

/-- A run takes its first step, and the rest of it starts where that step leads. -/
theorem run_cons_eq_some {s t : σ} {l : ℓ} {ls : List ℓ} :
    run step s (l :: ls) = some t ↔ ∃ s', step s l = some s' ∧ run step s' ls = some t := by
  rw [run_cons, Option.bind_eq_some_iff]

/-- A run of two lists of steps runs the second where the first leads. -/
theorem run_append_eq_some {s t : σ} {ls ls' : List ℓ} :
    run step s (ls ++ ls') = some t ↔ ∃ s', run step s ls = some s' ∧ run step s' ls' = some t := by
  induction ls generalizing s with
  | nil => simp [run]
  | cons l ls ih =>
    rw [List.cons_append, run_cons_eq_some]
    constructor
    · rintro ⟨u, hu, hrun⟩
      obtain ⟨s', hs', ht⟩ := ih.1 hrun
      exact ⟨s', run_cons_eq_some.2 ⟨u, hu, hs'⟩, ht⟩
    · rintro ⟨s', hs', ht⟩
      obtain ⟨u, hu, hrun⟩ := run_cons_eq_some.1 hs'
      exact ⟨u, hu, ih.2 ⟨s', hrun, ht⟩⟩

/-- A condition that holds along a run holds along each part of it. -/
theorem AllSteps.of_append {C : σ → ℓ → Prop} {s : σ} {ls ls' : List ℓ}
    (h : AllSteps step C s (ls ++ ls')) :
    AllSteps step C s ls ∧ ∀ s', run step s ls = some s' → AllSteps step C s' ls' := by
  induction ls generalizing s with
  | nil =>
    refine ⟨trivial, fun s' hs' => ?_⟩
    cases hs'
    exact h
  | cons l ls ih =>
    refine ⟨⟨h.1, fun t ht => (ih (h.2 t ht)).1⟩, fun s' hs' => ?_⟩
    obtain ⟨t, ht, hrun⟩ := run_cons_eq_some.1 hs'
    exact (ih (h.2 t ht)).2 s' hrun

/-- A condition that can be decided at every step can be decided along a run. -/
instance decidableAllSteps {C : σ → ℓ → Prop} [∀ s l, Decidable (C s l)] :
    ∀ s ls, Decidable (AllSteps step C s ls)
  | _, [] => .isTrue trivial
  | s, l :: ls =>
    match hstep : step s l with
    | none => decidable_of_iff (C s l) (by simp [AllSteps, hstep])
    | some s' =>
      haveI : Decidable (AllSteps step C s' ls) := decidableAllSteps s' ls
      decidable_of_iff (C s l ∧ AllSteps step C s' ls) (by simp [AllSteps, hstep])

theorem allSteps_true (s : σ) (ls : List ℓ) : AllSteps step (fun _ _ => True) s ls := by
  induction ls generalizing s with
  | nil => trivial
  | cons l ls ih => exact ⟨trivial, fun s' _ => ih s'⟩

/-- What holds of every label holds of every step of a run. -/
theorem allSteps_of_forall_mem {P : ℓ → Prop} (s : σ) {ls : List ℓ} (h : ∀ l ∈ ls, P l) :
    AllSteps step (fun _ l => P l) s ls := by
  induction ls generalizing s with
  | nil => trivial
  | cons l ls ih =>
    exact ⟨h l List.mem_cons_self,
      fun s' _ => ih s' fun l' hl' => h l' (List.mem_cons_of_mem l hl')⟩

/-- A condition that follows from another, step by step, follows along a run. -/
theorem AllSteps.imp {C D : σ → ℓ → Prop} (h : ∀ s l, C s l → D s l) {s : σ} {ls : List ℓ}
    (hs : AllSteps step C s ls) : AllSteps step D s ls := by
  induction ls generalizing s with
  | nil => trivial
  | cons l ls ih => exact ⟨h s l hs.1, fun s' hs' => ih (hs.2 s' hs')⟩

/-- Two conditions that hold along a run hold together. -/
theorem AllSteps.and {C D : σ → ℓ → Prop} {s : σ} {ls : List ℓ} (hC : AllSteps step C s ls)
    (hD : AllSteps step D s ls) : AllSteps step (fun s l => C s l ∧ D s l) s ls := by
  induction ls generalizing s with
  | nil => trivial
  | cons l ls ih => exact ⟨⟨hC.1, hD.1⟩, fun s' hs' => ih (hC.2 s' hs') (hD.2 s' hs')⟩

/-- Conditions equivalent at every step are equivalent along every run. -/
theorem allSteps_congr {C D : σ → ℓ → Prop} (h : ∀ s l, C s l ↔ D s l) {s : σ} {ls : List ℓ} :
    AllSteps step C s ls ↔ AllSteps step D s ls :=
  ⟨fun hs => hs.imp fun t l => (h t l).1, fun hs => hs.imp fun t l => (h t l).2⟩

/-- The induction principle of a system whose steps meet a condition. -/
theorem invariant_run {C : σ → ℓ → Prop} {I : σ → Prop}
    (hstep : ∀ s l s', I s → C s l → step s l = some s' → I s') {s t : σ} {ls : List ℓ}
    (hs : I s) (hC : AllSteps step C s ls) (hrun : run step s ls = some t) : I t := by
  induction ls generalizing s with
  | nil => cases hrun; exact hs
  | cons l ls ih =>
    obtain ⟨s', hs', hrun'⟩ := run_cons_eq_some.1 hrun
    exact ih (hstep s l s' hs hC.1 hs') (hC.2 s' hs') hrun'

/-- A reflexive and transitive relation that every step respects, from the states of an
invariant, relates the two ends of a run. -/
theorem history_run {C : σ → ℓ → Prop} {I : σ → Prop} {R : σ → σ → Prop} (hrefl : ∀ s, R s s)
    (htrans : ∀ s t u, R s t → R t u → R s u)
    (hstep : ∀ s l s', I s → C s l → step s l = some s' → I s' ∧ R s s') {s t : σ} {ls : List ℓ}
    (hs : I s) (hC : AllSteps step C s ls) (hrun : run step s ls = some t) : R s t := by
  induction ls generalizing s with
  | nil => cases hrun; exact hrefl _
  | cons l ls ih =>
    obtain ⟨s', hs', hrun'⟩ := run_cons_eq_some.1 hrun
    obtain ⟨hinvariant, hrelated⟩ := hstep s l s' hs hC.1 hs'
    exact htrans s s' t hrelated (ih hinvariant (hC.2 s' hs') hrun')

/-! ## Reachability -/

variable (step) in
/-- Some run leads from `s` to `t`. -/
def Reaches (s t : σ) : Prop := ∃ ls, run step s ls = some t

namespace Reaches

theorem refl (s : σ) : Reaches step s s := ⟨[], rfl⟩

theorem single {s t : σ} {l : ℓ} (h : step s l = some t) : Reaches step s t :=
  ⟨[l], run_cons_eq_some.2 ⟨t, h, rfl⟩⟩

theorem trans {s t u : σ} (hst : Reaches step s t) (htu : Reaches step t u) :
    Reaches step s u := by
  obtain ⟨ls, hls⟩ := hst
  obtain ⟨ls', hls'⟩ := htu
  exact ⟨ls ++ ls', run_append_eq_some.2 ⟨t, hls, hls'⟩⟩

end Reaches

end StepSystem
