import SharedTsLibs.Lib.OrderedMap
import Mathlib.Data.List.Forall2

/-!
# Updates from a list of values

What `UPDATE t SET … FROM (VALUES …) AS updates(…) WHERE …` does to the rows of a table:
a row that some row of `updates` matches is assigned by one of those, the others stay.

* `Result` — the tables such a statement may leave.
* `sequence` — the updates one after the other, each on all rows.
* `result_iff_sequence` — where no two updates match one row, and no update changes what
  the others match, the statement leaves what the sequence does.
* `cell` — the cell of a row of values under an alias.
* `cell_of_forall₂`, `cell_map` — the cell of a column, in a row built column by column.
-/

namespace UpdateFrom

/-- A relation that is a function relates a list to its image only. -/
theorem forall₂_iff_eq_map {α β : Type*} {R : α → β → Prop} {f : α → β}
    (h : ∀ a b, R a b ↔ b = f a) {as : List α} {bs : List β} :
    List.Forall₂ R as bs ↔ bs = as.map f := by
  induction as generalizing bs with
  | nil => simp
  | cons a as ih =>
    cases bs with
    | nil => simp
    | cons b bs => simp [h, ih]

section Semantics

variable {ρ υ : Type*} (Matches : ρ → υ → Prop) (assign : υ → ρ → ρ)

/-- The tables the statement may leave: which of several matching updates counts is open. -/
def Result (updates : List υ) (rows rows' : List ρ) : Prop :=
  List.Forall₂ (fun r r' => (∃ u ∈ updates, Matches r u ∧ r' = assign u r) ∨
    (∀ u ∈ updates, ¬ Matches r u) ∧ r' = r) rows rows'

/-- Updates that match and assign alike have the same results. -/
theorem result_congr {Matches : ρ → υ → Prop} {assign : υ → ρ → ρ} {updates : List υ}
    {υ' : Type*} {Matches' : ρ → υ' → Prop} {assign' : υ' → ρ → ρ} {updates' : List υ'}
    (h : List.Forall₂ (fun u u' =>
      (∀ r, Matches r u ↔ Matches' r u') ∧ ∀ r, assign u r = assign' u' r) updates updates')
    {rows rows' : List ρ} :
    Result Matches assign updates rows rows' ↔ Result Matches' assign' updates' rows rows' := by
  have hrow : ∀ r r' : ρ, ((∃ u ∈ updates, Matches r u ∧ r' = assign u r) ∨
      (∀ u ∈ updates, ¬ Matches r u) ∧ r' = r) ↔
        ((∃ u ∈ updates', Matches' r u ∧ r' = assign' u r) ∨
          (∀ u ∈ updates', ¬ Matches' r u) ∧ r' = r) := by
    intro r r'
    have hsome : (∃ u ∈ updates, Matches r u ∧ r' = assign u r) ↔
        ∃ u ∈ updates', Matches' r u ∧ r' = assign' u r := by
      induction h with
      | nil => simp
      | cons hu _ ih => simp [hu.1, hu.2, ih]
    have hnone : (∀ u ∈ updates, ¬ Matches r u) ↔ ∀ u ∈ updates', ¬ Matches' r u := by
      clear hsome
      induction h with
      | nil => simp
      | cons hu _ ih => simp [hu.1, ih]
    rw [hsome, hnone]
  unfold Result
  constructor
  · exact List.Forall₂.imp fun r r' => (hrow r r').1
  · exact List.Forall₂.imp fun r r' => (hrow r r').2

variable [∀ r u, Decidable (Matches r u)]

/-- One update, on a row. -/
def updateRow (u : υ) (r : ρ) : ρ := if Matches r u then assign u r else r

/-- The updates one after the other. -/
def sequence (updates : List υ) (rows : List ρ) : List ρ :=
  updates.foldl (fun rows u => rows.map (updateRow Matches assign u)) rows

variable {Matches assign} {updates : List υ}

theorem sequence_eq_map (rows : List ρ) :
    sequence Matches assign updates rows =
      rows.map fun r => updates.foldl (fun r u => updateRow Matches assign u r) r := by
  induction updates generalizing rows with
  | nil => simp [sequence]
  | cons u updates ih =>
    have hstep : sequence Matches assign (u :: updates) rows =
        sequence Matches assign updates (rows.map (updateRow Matches assign u)) := rfl
    rw [hstep, ih, List.map_map]
    rfl

/-- A row that no update matches stays. -/
theorem foldl_updateRow_of_forall_not {r : ρ} (h : ∀ u ∈ updates, ¬ Matches r u) :
    updates.foldl (fun r u => updateRow Matches assign u r) r = r := by
  induction updates with
  | nil => rfl
  | cons u updates ih =>
    rw [List.foldl_cons, updateRow, if_neg (h u List.mem_cons_self)]
    exact ih fun v hv => h v (List.mem_cons_of_mem _ hv)

/-- A row is assigned by the update that matches it. -/
theorem foldl_updateRow_of_matches
    (hframe : ∀ u ∈ updates, ∀ v ∈ updates, ∀ r, Matches (assign u r) v → Matches r v)
    (hexclusive : updates.Pairwise fun u v => ∀ r, Matches r u → ¬ Matches r v) {r : ρ} {u : υ}
    (hu : u ∈ updates) (hmatch : Matches r u) :
    updates.foldl (fun r u => updateRow Matches assign u r) r = assign u r := by
  induction updates with
  | nil => cases hu
  | cons v updates ih =>
    obtain ⟨hv, hrest⟩ := List.pairwise_cons.1 hexclusive
    rw [List.foldl_cons, updateRow]
    by_cases hmatch' : Matches r v
    · rw [if_pos hmatch']
      have huv : u = v := by
        rcases List.mem_cons.1 hu with rfl | hu'
        · rfl
        · exact absurd hmatch (hv u hu' r hmatch')
      subst huv
      apply foldl_updateRow_of_forall_not
      intro w hw hafter
      exact hv w hw r hmatch
        (hframe u List.mem_cons_self w (List.mem_cons_of_mem _ hw) r hafter)
    · rw [if_neg hmatch']
      rcases List.mem_cons.1 hu with rfl | hu'
      · exact absurd hmatch hmatch'
      · refine ih (fun a ha b hb => ?_) hrest hu'
        exact hframe a (List.mem_cons_of_mem _ ha) b (List.mem_cons_of_mem _ hb)

/-- **The statement does what the updates do one after the other**, where no two of them
match one row and none changes what the others match. -/
theorem result_iff_sequence
    (hframe : ∀ u ∈ updates, ∀ v ∈ updates, ∀ r, Matches (assign u r) v → Matches r v)
    (hexclusive : updates.Pairwise fun u v => ∀ r, Matches r u → ¬ Matches r v)
    {rows rows' : List ρ} :
    Result Matches assign updates rows rows' ↔ rows' = sequence Matches assign updates rows := by
  rw [sequence_eq_map]
  have hrow : ∀ r r' : ρ, ((∃ u ∈ updates, Matches r u ∧ r' = assign u r) ∨
      (∀ u ∈ updates, ¬ Matches r u) ∧ r' = r) ↔
        r' = updates.foldl (fun r u => updateRow Matches assign u r) r := by
    intro r r'
    by_cases hsome : ∃ u ∈ updates, Matches r u
    · obtain ⟨u, hu, hmatch⟩ := hsome
      rw [foldl_updateRow_of_matches hframe hexclusive hu hmatch]
      constructor
      · rintro (⟨v, hv, hmatch', rfl⟩ | ⟨hnone, -⟩)
        · have hassign := foldl_updateRow_of_matches hframe hexclusive hv hmatch'
          rw [← hassign, foldl_updateRow_of_matches hframe hexclusive hu hmatch]
        · exact absurd hmatch (hnone u hu)
      · intro heq
        exact Or.inl ⟨u, hu, hmatch, heq⟩
    · have hnone : ∀ u ∈ updates, ¬ Matches r u := fun u hu hmatch => hsome ⟨u, hu, hmatch⟩
      rw [foldl_updateRow_of_forall_not hnone]
      constructor
      · rintro (⟨v, hv, hmatch', -⟩ | ⟨-, heq⟩)
        · exact absurd hmatch' (hnone v hv)
        · exact heq
      · intro heq
        exact Or.inr ⟨hnone, heq⟩
  rw [Result, forall₂_iff_eq_map hrow]

end Semantics

section Cells

variable {κ χ γ : Type*} [DecidableEq κ]

/-- The cell of a row of values under an alias. -/
def cell (aliases : List κ) (row : List γ) (name : κ) : Option γ :=
  OrderedMap.get? (aliases.zip row) name

/-- The cell under the alias of a column is the one built for it. -/
theorem cell_of_forall₂ {R : χ → γ → Prop} {name : χ → κ} {columns : List χ} {row : List γ}
    (h : List.Forall₂ R columns row) (hnodup : (columns.map name).Nodup) {c : χ}
    (hc : c ∈ columns) : ∃ x, cell (columns.map name) row (name c) = some x ∧ R c x := by
  induction h with
  | nil => cases hc
  | @cons c' x columns row hcx h ih =>
    rw [List.map_cons, List.nodup_cons] at hnodup
    rcases List.mem_cons.1 hc with rfl | hc'
    · exact ⟨x, by simp [cell, OrderedMap.get?], hcx⟩
    · have hne : name c' ≠ name c := fun heq => hnodup.1 (heq ▸ List.mem_map_of_mem hc')
      obtain ⟨y, hy, hcy⟩ := ih hnodup.2 hc'
      refine ⟨y, ?_, hcy⟩
      rw [← hy]
      simp [cell, OrderedMap.get?, hne]

/-- The cell under the alias of a column, in a row computed column by column. -/
theorem cell_map {name : χ → κ} {value : χ → γ} {columns : List χ}
    (hnodup : (columns.map name).Nodup) {c : χ} (hc : c ∈ columns) :
    cell (columns.map name) (columns.map value) (name c) = some (value c) := by
  obtain ⟨x, hcell, hx⟩ :=
    cell_of_forall₂ ((forall₂_iff_eq_map fun _ _ => Iff.rfl).2 rfl) hnodup hc
  rw [hcell, hx]

end Cells

end UpdateFrom
