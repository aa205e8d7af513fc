import Mathlib.Data.List.Basic
import Mathlib.Data.List.Flatten

/-!
# A list in chunks

A list is cut into chunks of a given size from the front; the last chunk may be shorter.

* `Chunked` — the chunks of a list.
* `exists_chunked` — a list has chunks of every size but zero.
* `Chunked.flatten_eq`, `Chunked.length_bounds` — the chunks are the list, and how long each is.
* `Chunked.length_le_mul`, `Chunked.length_le` — how many there are.
-/

variable {α : Type*} {n : ℕ} {xs : List α} {cs : List (List α)}

/-- The chunks of size `n` of a list. -/
inductive Chunked (n : ℕ) : List α → List (List α) → Prop
  | nil : Chunked n [] []
  | cons {xs : List α} {cs : List (List α)} (hne : xs ≠ []) (h : Chunked n (xs.drop n) cs) :
      Chunked n xs (xs.take n :: cs)

theorem exists_chunked (hn : 1 ≤ n) (xs : List α) : ∃ cs, Chunked n xs cs := by
  induction hlength : xs.length using Nat.strongRecOn generalizing xs with
  | ind length ih =>
    by_cases hne : xs = []
    · exact ⟨[], hne ▸ .nil⟩
    · have hpos := List.length_pos_iff.2 hne
      have hdrop : (xs.drop n).length < length := by
        rw [List.length_drop]
        omega
      obtain ⟨cs, hcs⟩ := ih _ hdrop (xs.drop n) rfl
      exact ⟨xs.take n :: cs, .cons hne hcs⟩

namespace Chunked

/-- The chunks put together are the list. -/
theorem flatten_eq (h : Chunked n xs cs) : cs.flatten = xs := by
  induction h with
  | nil => rfl
  | @cons xs cs _ _ ih => rw [List.flatten_cons, ih, List.take_append_drop]

/-- No chunk is empty, or longer than the size. -/
theorem length_bounds (hn : 1 ≤ n) (h : Chunked n xs cs) :
    ∀ c ∈ cs, 1 ≤ c.length ∧ c.length ≤ n := by
  induction h with
  | nil => simp
  | cons hne _ ih =>
    refine List.forall_mem_cons.2 ⟨?_, ih⟩
    have hpos := List.length_pos_iff.2 hne
    rw [List.length_take]
    omega

theorem length_le_mul (h : Chunked n xs cs) : xs.length ≤ cs.length * n := by
  induction h with
  | nil => simp
  | cons _ _ ih =>
    rw [List.length_drop] at ih
    rw [List.length_cons, Nat.succ_mul]
    omega

theorem length_le (hn : 1 ≤ n) (h : Chunked n xs cs) : cs.length ≤ xs.length := by
  induction h with
  | nil => simp
  | cons hne _ ih =>
    have hpos := List.length_pos_iff.2 hne
    rw [List.length_drop] at ih
    rw [List.length_cons]
    omega

end Chunked
