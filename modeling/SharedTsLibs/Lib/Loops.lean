import Mathlib.Computability.StateTransition

/-!
# Loops

A loop is a step function that gives nothing where the loop ends, and what it computes is
`StateTransition.eval`: a state that is reached and where it ends, if there is one.

* `mem_eval_of_stop`, `mem_eval_of_step` — a loop that ends at once, and after a further turn.
* `not_mem_eval` — a loop that never ends: there is always another turn.
-/

namespace Loops

open StateTransition

variable {σ : Type*} {step : σ → Option σ} {s t : σ}

theorem mem_eval_of_stop (h : step s = none) : s ∈ eval step s :=
  mem_eval.2 ⟨Relation.ReflTransGen.refl, h⟩

theorem mem_eval_of_step {s' : σ} (h : step s = some s') (ht : t ∈ eval step s') :
    t ∈ eval step s := by
  have hreaches : Reaches step s s' := Relation.ReflTransGen.single h
  rwa [reaches_eval hreaches]

/-- An invariant that has a next turn in each of its states holds wherever the loop gets. -/
theorem invariant_of_reaches {I : σ → Prop} (hstep : ∀ s, I s → ∃ s', step s = some s' ∧ I s')
    (hs : I s) (h : Reaches step s t) : I t := by
  induction h with
  | refl => exact hs
  | tail _ hnext ih =>
    obtain ⟨s', hs', hI⟩ := hstep _ ih
    exact Option.mem_unique hs' hnext ▸ hI

/-- Such a loop never ends. -/
theorem not_mem_eval {I : σ → Prop} (hstep : ∀ s, I s → ∃ s', step s = some s' ∧ I s')
    (hs : I s) (t : σ) : t ∉ eval step s := by
  intro ht
  obtain ⟨hreaches, hlast⟩ := mem_eval.1 ht
  obtain ⟨s', hs', -⟩ := hstep t (invariant_of_reaches hstep hs hreaches)
  rw [hlast] at hs'
  cases hs'

end Loops
