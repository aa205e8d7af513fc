import Mathlib.Data.List.Infix

/-!
# Wildcard patterns

Patterns of the kind that resource names are compared with: one element of the alphabet
stands for any text, one for any element, and every other element for itself.

* `Matches` — a text matches a pattern.
* `matches_append_iff` — the elements in front of a pattern that stand for themselves.
* `matches_prefix_iff` — a text with a star behind it is the pattern of what begins with it.
-/

namespace Wildcard

variable {α : Type*}

inductive Matches (star mark : α) : List α → List α → Prop where
  | nil : Matches star mark [] []
  | char {a : α} {pattern text : List α} (hstar : a ≠ star) (hmark : a ≠ mark)
      (h : Matches star mark pattern text) : Matches star mark (a :: pattern) (a :: text)
  | mark {a : α} {pattern text : List α} (h : Matches star mark pattern text) :
      Matches star mark (mark :: pattern) (a :: text)
  /-- The star stands for nothing more. -/
  | stop {pattern text : List α} (h : Matches star mark pattern text) :
      Matches star mark (star :: pattern) text
  | more {a : α} {pattern text : List α} (h : Matches star mark (star :: pattern) text) :
      Matches star mark (star :: pattern) (a :: text)

/-- Every element stands for itself. -/
def Plain (star mark : α) (stem : List α) : Prop := ∀ a ∈ stem, a ≠ star ∧ a ≠ mark

variable {star mark : α}

theorem Plain.append {s t : List α} (hs : Plain star mark s) (ht : Plain star mark t) :
    Plain star mark (s ++ t) := by
  intro a ha
  obtain ha | ha := List.mem_append.1 ha
  · exact hs a ha
  · exact ht a ha

theorem matches_star (text : List α) : Matches star mark [star] text := by
  induction text with
  | nil => exact .stop .nil
  | cons a text ih => exact .more ih

/-- The elements in front of a pattern are in front of the text. -/
theorem matches_append_iff {stem : List α} (hplain : Plain star mark stem)
    {pattern text : List α} : Matches star mark (stem ++ pattern) text ↔
      ∃ rest, text = stem ++ rest ∧ Matches star mark pattern rest := by
  induction stem generalizing text with
  | nil => simp
  | cons a stem ih =>
    obtain ⟨ha, hstem⟩ := List.forall_mem_cons.1 hplain
    constructor
    · intro h
      cases h with
      | char _ _ h =>
        obtain ⟨rest, rfl, hrest⟩ := (ih hstem).1 h
        exact ⟨rest, rfl, hrest⟩
      | mark h => exact absurd rfl ha.2
      | stop h => exact absurd rfl ha.1
      | more h => exact absurd rfl ha.1
    · rintro ⟨rest, rfl, hrest⟩
      exact .char ha.1 ha.2 ((ih hstem).2 ⟨rest, rfl, hrest⟩)

/-- A text with a star behind it. -/
theorem matches_prefix_iff {stem : List α} (hplain : Plain star mark stem) {text : List α} :
    Matches star mark (stem ++ [star]) text ↔ stem <+: text := by
  rw [matches_append_iff hplain]
  constructor
  · rintro ⟨rest, rfl, -⟩
    exact List.prefix_append stem rest
  · rintro ⟨rest, rfl⟩
    exact ⟨rest, rfl, matches_star rest⟩

end Wildcard
