import Mathlib.Data.List.Basic

/-!
# Calls in flight

The calls made on a component, and whatever else it has under way, are kept in a
list in the order they began: an entry is appended when a call is made and
replaced as the call goes on, never removed.  An index therefore names a call
for good.

* `exists_mem_set`, `mem_set_of_ne` — replacing an entry leaves a witness elsewhere alone.
* `getElem?_set_some`, `getElem?_push_some` — what an index holds after an entry
  is replaced or appended.
* `getElem?_set_keep`, `getElem?_push_keep` — an index keeps any other entry.
* `bind_getElem?_set` — a feature the new entry shares with the old one reads the
  same everywhere.
-/

namespace Slots

variable {α β : Type*}

/-- An index that holds another entry than the one replaced keeps it. -/
theorem getElem?_set_keep {l : List α} {i j : ℕ} {a b x : α} (hi : l[i]? = some a) (ha : a ≠ x)
    (hj : l[j]? = some x) : (l.set i b)[j]? = some x := by
  have hne : i ≠ j := by
    rintro rfl
    rw [hi] at hj
    exact ha (Option.some.inj hj)
  rw [List.getElem?_set_ne hne]
  exact hj

/-- An index keeps its entry when another one is appended. -/
theorem getElem?_push_keep {l : List α} {j : ℕ} {b x : α} (hj : l[j]? = some x) :
    (l ++ [b])[j]? = some x := by
  rw [List.getElem?_append_left (List.getElem?_eq_some_iff.1 hj).1]
  exact hj

/-- An entry other than the one replaced is still there. -/
theorem exists_mem_set {l : List α} {i : ℕ} {a b : α} {p : α → Prop} (hi : l[i]? = some a)
    (ha : ¬ p a) (h : ∃ x ∈ l, p x) : ∃ x ∈ l.set i b, p x := by
  obtain ⟨x, hx, hpx⟩ := h
  obtain ⟨j, hj⟩ := List.mem_iff_getElem?.1 hx
  have hne : a ≠ x := fun he => ha (he ▸ hpx)
  exact ⟨x, List.mem_iff_getElem?.2 ⟨j, getElem?_set_keep hi hne hj⟩, hpx⟩

/-- A member other than the entry replaced is still a member. -/
theorem mem_set_of_ne {l : List α} {i : ℕ} {a b x : α} (hi : l[i]? = some a) (ha : a ≠ x)
    (hx : x ∈ l) : x ∈ l.set i b := by
  have h : ∃ y ∈ l.set i b, y = x := exists_mem_set hi ha ⟨x, hx, rfl⟩
  obtain ⟨y, hy, rfl⟩ := h
  exact hy

/-- The new entry is there. -/
theorem mem_set {l : List α} {i : ℕ} {a b : α} (hi : l[i]? = some a) : b ∈ l.set i b :=
  List.mem_set (List.getElem?_eq_some_iff.1 hi).1 b

theorem getElem?_set_some {l : List α} {i j : ℕ} {a b x : α} (hi : l[i]? = some a)
    (h : (l.set i b)[j]? = some x) : (j = i ∧ x = b) ∨ (j ≠ i ∧ l[j]? = some x) := by
  by_cases hij : i = j
  · subst hij
    rw [List.getElem?_set_self (List.getElem?_eq_some_iff.1 hi).1] at h
    exact Or.inl ⟨rfl, (Option.some.inj h).symm⟩
  · rw [List.getElem?_set_ne hij] at h
    exact Or.inr ⟨fun hji => hij hji.symm, h⟩

theorem getElem?_push_some {l : List α} {j : ℕ} {b x : α} (h : (l ++ [b])[j]? = some x) :
    (j = l.length ∧ x = b) ∨ (j < l.length ∧ l[j]? = some x) := by
  by_cases hj : j < l.length
  · rw [List.getElem?_append_left hj] at h
    exact Or.inr ⟨hj, h⟩
  · rw [List.getElem?_append_right (by omega)] at h
    obtain ⟨hlt, hx⟩ := List.getElem?_eq_some_iff.1 h
    rw [List.length_singleton] at hlt
    refine Or.inl ⟨by omega, ?_⟩
    rw [← hx]
    exact List.getElem_singleton _

/-- Replacing an entry by one with the same feature changes the feature nowhere. -/
theorem bind_getElem?_set {l : List α} {i : ℕ} {a b : α} {f : α → Option β} (hi : l[i]? = some a)
    (hf : f b = f a) (j : ℕ) : ((l.set i b)[j]?).bind f = (l[j]?).bind f := by
  by_cases hij : i = j
  · subst hij
    rw [List.getElem?_set_self (List.getElem?_eq_some_iff.1 hi).1, hi]
    exact hf
  · rw [List.getElem?_set_ne hij]

end Slots
