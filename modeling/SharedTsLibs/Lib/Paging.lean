import Mathlib.Data.List.Basic

/-!
# Reading a list page by page

A reader asks for a page, is told where to ask for the next one, and stops when it is
told that there is none.

* `collect` — the reader, with a bound on the number of pages it asks for.
* `collect_eq_ok` — where every page is the next part of what is left to read, and empty
  only at the end, the reader reads all that is left.
* `after` — what a list holds after the first element with some property.
-/

namespace Paging

variable {σ ε α : Type*}

/-- Ask for pages from a place on, and append them to what has been read. -/
def collect (fetch : σ → Except ε (List α × Option σ)) : ℕ → σ → List α →
    Option (Except ε (List α))
  | 0, _, _ => none
  | fuel + 1, place, read =>
    match fetch place with
    | .error e => some (.error e)
    | .ok (page, none) => some (.ok (read ++ page))
    | .ok (page, some next) => collect fetch fuel next (read ++ page)

/-- Asking at `place` gives the first part of `left`, and the place of the rest. -/
def Serves (fetch : σ → Except ε (List α × Option σ)) (Left : σ → List α → Prop) (place : σ)
    (left : List α) : Prop :=
  fetch place = .ok (left, none) ∨
    ∃ page rest next, page ≠ [] ∧ left = page ++ rest ∧ fetch place = .ok (page, some next) ∧
      Left next rest

/-- A reader that is served the next part of what is left at every place reads all of it. -/
theorem collect_eq_ok {fetch : σ → Except ε (List α × Option σ)} {Left : σ → List α → Prop}
    (hserves : ∀ place left, Left place left → Serves fetch Left place left) {fuel : ℕ}
    {place : σ} {left : List α} (hleft : Left place left) (hfuel : left.length < fuel)
    (read : List α) : collect fetch fuel place read = some (.ok (read ++ left)) := by
  induction fuel generalizing place left read with
  | zero => omega
  | succ fuel ih =>
    rcases hserves place left hleft with hlast | ⟨page, rest, next, hpage, rfl, hfetch, hnext⟩
    · simp only [collect, hlast]
    · -- a page that is not the last is not empty, so less is left after it
      have hlength : 0 < page.length := List.length_pos_of_ne_nil hpage
      rw [List.length_append] at hfuel
      have hrest : rest.length < fuel := by omega
      simp only [collect, hfetch]
      rw [ih hnext hrest, List.append_assoc]

section After

variable (p : α → Bool)

/-- What a list holds after its first element with the property. -/
def after (l : List α) : List α := (l.dropWhile fun a => !p a).tail

theorem after_append_cons {pre rest : List α} {a : α} (hpre : ∀ b ∈ pre, p b = false)
    (ha : p a = true) : after p (pre ++ a :: rest) = rest := by
  induction pre with
  | nil => simp [after, ha]
  | cons b pre ih =>
    have hb : p b = false := hpre b List.mem_cons_self
    have hdrop : after p (b :: pre ++ a :: rest) = after p (pre ++ a :: rest) := by
      simp [after, hb]
    rw [hdrop]
    exact ih fun c hc => hpre c (List.mem_cons_of_mem _ hc)

end After

end Paging
