import Mathlib.Data.List.Forall2

/-!
# Computations that may throw

Inversion of `Except` computations that return: where a sequence of steps
returns, each of its steps does.

* `refuse`, `refuseSome` — the guards of a function that throws.
* `bind_eq_ok`, `mapM_eq_ok_iff` — the steps of a computation that returns.
* `exists_foldlM` — a loop whose steps all have a result.
* `ReturnsIff` — checks that pass exactly where a property holds, one after another and in a
  loop.
-/

universe u

namespace Fallible

variable {ε : Type*} {α β : Type u}

/-- A sequence of two steps returns exactly when both steps do. -/
theorem bind_eq_ok {x : Except ε α} {f : α → Except ε β} {b : β} :
    (x >>= f) = .ok b ↔ ∃ a, x = .ok a ∧ f a = .ok b := by
  cases x with
  | error e => simp [bind, Except.bind]
  | ok a => simp [bind, Except.bind]

theorem map_eq_ok {x : Except ε α} {f : α → β} {b : β} :
    (f <$> x) = .ok b ↔ ∃ a, x = .ok a ∧ f a = b := by
  cases x with
  | error e => simp [Functor.map, Except.map]
  | ok a => simp [Functor.map, Except.map]

/-- A function that returns on every element is mapped over a list. -/
theorem mapM_eq_ok {R : α → β → Prop} {f : α → Except ε β} (hf : ∀ a b, R a b → f a = .ok b)
    {as : List α} {bs : List β} (h : List.Forall₂ R as bs) : as.mapM f = .ok bs := by
  induction h with
  | nil => rfl
  | cons hab _ ih =>
    rw [List.mapM_cons, hf _ _ hab, ih]
    rfl

/-- A function that returns where `P` holds, and then `g`, does so over a list. -/
theorem mapM_eq_ok_iff {P : α → Prop} {g : α → β} {f : α → Except ε β}
    (hf : ∀ a b, f a = .ok b ↔ P a ∧ b = g a) {as : List α} {bs : List β} :
    as.mapM f = .ok bs ↔ (∀ a ∈ as, P a) ∧ bs = as.map g := by
  induction as generalizing bs with
  | nil =>
    rw [List.mapM_nil]
    simp [pure, Except.pure, eq_comm]
  | cons a as ih =>
    rw [List.mapM_cons, bind_eq_ok, List.forall_mem_cons, List.map_cons]
    constructor
    · rintro ⟨b, hb, hrest⟩
      obtain ⟨bs', hbs', hreturn⟩ := bind_eq_ok.1 hrest
      obtain ⟨ha, rfl⟩ := (hf a b).1 hb
      obtain ⟨has, rfl⟩ := ih.1 hbs'
      cases hreturn
      exact ⟨⟨ha, has⟩, rfl⟩
    · rintro ⟨⟨ha, has⟩, rfl⟩
      exact ⟨g a, (hf a _).2 ⟨ha, rfl⟩, bind_eq_ok.2 ⟨as.map g, ih.2 ⟨has, rfl⟩, rfl⟩⟩

/-- What a mapped list holds came from an element. -/
theorem exists_of_mem_mapM {f : α → Except ε β} {as : List α} {bs : List β}
    (h : as.mapM f = .ok bs) {b : β} (hb : b ∈ bs) : ∃ a ∈ as, f a = .ok b := by
  induction as generalizing bs with
  | nil =>
    cases h
    cases hb
  | cons a as ih =>
    rw [List.mapM_cons] at h
    obtain ⟨first, hfirst, hrest⟩ := bind_eq_ok.1 h
    obtain ⟨others, hothers, hreturn⟩ := bind_eq_ok.1 hrest
    cases hreturn
    obtain rfl | hb := List.mem_cons.1 hb
    · exact ⟨a, List.mem_cons_self, hfirst⟩
    · obtain ⟨a', ha', hfa'⟩ := ih hothers hb
      exact ⟨a', List.mem_cons_of_mem a ha', hfa'⟩

/-! ## Guards -/

/-- `if (condition) throw error`. -/
def refuse (condition : Prop) [Decidable condition] (error : ε) : Except ε PUnit.{u + 1} :=
  if condition then .error error else .ok ⟨⟩

/-- `if (found) throw error(found)`. -/
def refuseSome (error : α → ε) : Option α → Except ε PUnit.{u + 1}
  | some a => .error (error a)
  | none => .ok ⟨⟩

/-- A guard is passed where its condition does not hold. -/
theorem refuse_eq_ok {condition : Prop} [Decidable condition] {error : ε} {u : PUnit.{u + 1}} :
    refuse condition error = .ok u ↔ ¬ condition := by
  by_cases hcondition : condition
  · simp [refuse, hcondition]
  · simp [refuse, hcondition]

theorem refuseSome_eq_ok {error : α → ε} {found : Option α} {u : PUnit.{u + 1}} :
    refuseSome error found = .ok u ↔ found = none := by
  cases found with
  | none => simp [refuseSome]
  | some a => simp [refuseSome]

/-- A loop whose steps all have a result has one. -/
theorem exists_foldlM {σ α : Type*} {f : σ → α → Option σ} {as : List α}
    (h : ∀ a ∈ as, ∀ s, ∃ s', f s a = some s') (s : σ) : ∃ s', as.foldlM f s = some s' := by
  induction as generalizing s with
  | nil => exact ⟨s, rfl⟩
  | cons a as ih =>
    rw [List.forall_mem_cons] at h
    obtain ⟨next, hnext⟩ := h.1 s
    obtain ⟨last, hlast⟩ := ih h.2 next
    exact ⟨last, by rw [List.foldlM_cons, hnext]; exact hlast⟩

/-! ## Checks -/

/-- A check that returns exactly where `P` holds, and throws only errors with `E`. -/
def ReturnsIff (P : Prop) (E : ε → Prop) (x : Except ε PUnit.{u + 1}) : Prop :=
  (x = .ok ⟨⟩ ↔ P) ∧ ∀ error, x = .error error → E error

namespace ReturnsIff

variable {P Q : Prop} {E : ε → Prop} {x y : Except ε PUnit.{u + 1}}

theorem pass (h : P) : ReturnsIff P E (.ok ⟨⟩) :=
  ⟨iff_of_true rfl h, fun error herror => by cases herror⟩

theorem throws {error : ε} (hP : ¬ P) (hE : E error) : ReturnsIff P E (.error error) := by
  refine ⟨iff_of_false (fun h => by cases h) hP, ?_⟩
  rintro _ ⟨⟩
  exact hE

theorem congr (h : ReturnsIff P E x) (hPQ : P ↔ Q) : ReturnsIff Q E x := ⟨h.1.trans hPQ, h.2⟩

/-- One check, and then another. -/
theorem bind (hx : ReturnsIff P E x) (hy : ReturnsIff Q E y) :
    ReturnsIff (P ∧ Q) E (x >>= fun _ => y) := by
  cases x with
  | error error => exact throws (fun h => by cases hx.1.2 h.1) (hx.2 error rfl)
  | ok u => exact hy.congr (by simp [hx.1.1 rfl])

/-- The same check for each element of a list. -/
theorem forM {as : List α} {P : α → Prop} {f : α → Except ε PUnit.{u + 1}}
    (h : ∀ a ∈ as, ReturnsIff (P a) E (f a)) : ReturnsIff (∀ a ∈ as, P a) E (as.forM f) := by
  induction as with
  | nil => exact pass fun a ha => by cases ha
  | cons a as ih =>
    rw [List.forall_mem_cons] at h
    exact (h.1.bind (ih h.2)).congr List.forall_mem_cons.symm

end ReturnsIff

end Fallible
