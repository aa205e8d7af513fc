import SharedTsLibs.Lib.Transducer
import Mathlib.Algebra.Order.BigOperators.Group.List
import Mathlib.Algebra.Order.Group.Nat

/-!
# Lines

A text cut at a separator is a list of terminated lines and the rest after the
last separator, which another piece of text may still extend.

* `terminated`, `rest` — the two parts of a cut text.
* `splitOn_append` — a text extended by another is cut where it was cut before,
  and the rest goes on.
* `lineSplitter` — the machine that writes each line as soon as it is terminated.
* `intercalate_injective` — lines without the separator are known from their join.
* `mem_intercalate` — what is in joined lines.
-/

namespace Lines

variable {α : Type*} [DecidableEq α] {sep : α}

/-- The lines of a text that end in a separator. -/
def terminated (sep : α) (xs : List α) : List (List α) := (xs.splitOn sep).dropLast

/-- What follows the last separator. -/
def rest (sep : α) (xs : List α) : List α :=
  (xs.splitOn sep).getLast (List.splitOn_ne_nil sep xs)

theorem splitOn_eq (sep : α) (xs : List α) :
    xs.splitOn sep = terminated sep xs ++ [rest sep xs] :=
  (List.dropLast_append_getLast (List.splitOn_ne_nil sep xs)).symm

/-- No piece of a cut text has the separator. -/
theorem not_mem_of_mem_splitOn {xs l : List α} (h : l ∈ xs.splitOn sep) : sep ∉ l := by
  induction xs generalizing l with
  | nil =>
    rw [List.splitOn_nil, List.mem_singleton] at h
    simp [h]
  | cons x xs ih =>
    rw [List.splitOn_cons_eq_if_modifyHead] at h
    by_cases hx : x = sep
    · rw [if_pos (beq_iff_eq.2 hx), List.mem_cons] at h
      rcases h with rfl | h
      · exact List.not_mem_nil
      · exact ih h
    · rw [if_neg (by simpa using hx)] at h
      obtain ⟨y, ys, hys⟩ := List.exists_cons_of_ne_nil (List.splitOn_ne_nil sep xs)
      rw [hys, List.modifyHead_cons, List.mem_cons] at h
      rcases h with rfl | h
      · rw [List.mem_cons, not_or]
        exact ⟨fun he => hx he.symm, ih (by simp [hys])⟩
      · exact ih (by simp [hys, h])

theorem not_mem_of_mem_terminated {xs l : List α} (h : l ∈ terminated sep xs) : sep ∉ l :=
  not_mem_of_mem_splitOn (List.dropLast_subset _ h)

theorem not_mem_rest (sep : α) (xs : List α) : sep ∉ rest sep xs :=
  not_mem_of_mem_splitOn (List.getLast_mem (List.splitOn_ne_nil sep xs))

/-- Separator-free lines, each with its separator, are cut off again in front of
whatever follows. -/
theorem splitOn_flatMap_append {ls : List (List α)} (h : ∀ l ∈ ls, sep ∉ l) (xs : List α) :
    (ls.flatMap (· ++ [sep]) ++ xs).splitOn sep = ls ++ xs.splitOn sep := by
  induction ls with
  | nil => rfl
  | cons l ls ih =>
    rw [List.flatMap_cons, List.append_assoc, List.append_assoc, List.singleton_append,
      List.splitOn_append_cons_self_of_not_mem (h l List.mem_cons_self),
      ih fun m hm => h m (List.mem_cons_of_mem l hm), List.cons_append]

omit [DecidableEq α] in
/-- The last of the joined lines has no separator after it. -/
theorem intercalate_append_singleton (sep : α) (ls : List (List α)) (r : List α) :
    [sep].intercalate (ls ++ [r]) = ls.flatMap (· ++ [sep]) ++ r := by
  induction ls with
  | nil => simp
  | cons l ls ih =>
    rw [List.cons_append, List.intercalate_cons_of_ne_nil (by simp), ih]
    simp

/-- A text is its terminated lines, each with its separator, and its rest. -/
theorem flatMap_terminated_append_rest (sep : α) (xs : List α) :
    (terminated sep xs).flatMap (· ++ [sep]) ++ rest sep xs = xs := by
  rw [← intercalate_append_singleton, ← splitOn_eq, List.intercalate_splitOn]

/-- Cutting a text adds nothing to it. -/
theorem mem_of_mem_splitOn {xs l : List α} (hl : l ∈ xs.splitOn sep) {x : α} (hx : x ∈ l) :
    x ∈ xs := by
  rw [splitOn_eq, List.mem_append, List.mem_singleton] at hl
  rw [← flatMap_terminated_append_rest sep xs, List.mem_append, List.mem_flatMap]
  rcases hl with hl | rfl
  · exact Or.inl ⟨l, hl, List.mem_append_left _ hx⟩
  · exact Or.inr hx

/-- Cutting an extended text: the lines stay, and the rest goes on. -/
theorem splitOn_append (sep : α) (xs ys : List α) :
    (xs ++ ys).splitOn sep = terminated sep xs ++ (rest sep xs ++ ys).splitOn sep := by
  conv_lhs => rw [← flatMap_terminated_append_rest sep xs, List.append_assoc]
  exact splitOn_flatMap_append (fun l hl => not_mem_of_mem_terminated hl) _

theorem terminated_append (sep : α) (xs ys : List α) :
    terminated sep (xs ++ ys) = terminated sep xs ++ terminated sep (rest sep xs ++ ys) := by
  rw [terminated, splitOn_append, List.dropLast_append_of_ne_nil (List.splitOn_ne_nil _ _)]
  rfl

theorem rest_append (sep : α) (xs ys : List α) :
    rest sep (xs ++ ys) = rest sep (rest sep xs ++ ys) := by
  have h := splitOn_append sep xs ys
  rw [splitOn_eq sep (xs ++ ys), splitOn_eq sep (rest sep xs ++ ys), ← List.append_assoc] at h
  exact List.singleton_inj.1 (List.append_inj' h rfl).2

/-- A separator ends the line in front of it. -/
theorem terminated_append_cons (sep : α) (xs ys : List α) :
    terminated sep (xs ++ sep :: ys) = xs.splitOn sep ++ terminated sep ys := by
  rw [terminated, List.splitOn_append_cons_self,
    List.dropLast_append_of_ne_nil (List.splitOn_ne_nil sep ys), terminated]

theorem terminated_concat (sep : α) (xs : List α) :
    terminated sep (xs ++ [sep]) = terminated sep xs ++ [rest sep xs] := by
  have hnil : terminated sep [] = [] := rfl
  rw [terminated_append_cons, hnil, List.append_nil, splitOn_eq]

/-- A text that ends in a separator leaves nothing for the text after it. -/
theorem terminated_concat_append (sep : α) (xs ys : List α) :
    terminated sep (xs ++ [sep] ++ ys) = terminated sep (xs ++ [sep]) ++ terminated sep ys := by
  rw [List.append_assoc, List.singleton_append, terminated_append_cons, terminated_concat,
    splitOn_eq]

theorem splitOn_of_not_mem {xs : List α} (h : sep ∉ xs) : xs.splitOn sep = [xs] :=
  List.splitOn_eq_singleton h

theorem terminated_of_not_mem {xs : List α} (h : sep ∉ xs) : terminated sep xs = [] := by
  rw [terminated, splitOn_of_not_mem h, List.dropLast_singleton]

theorem rest_of_not_mem {xs : List α} (h : sep ∉ xs) : rest sep xs = xs := by
  have hs := splitOn_eq sep xs
  rw [splitOn_of_not_mem h, terminated_of_not_mem h, List.nil_append] at hs
  exact (List.singleton_inj.1 hs).symm

/-! ## Writing lines as they are terminated -/

/-- A line that is not terminated yet. -/
structure Partial (sep : α) where
  text : List α
  noSep : sep ∉ text

/-- No text yet. -/
def Partial.empty : Partial sep := ⟨[], List.not_mem_nil⟩

/-- The machine that joins its input to the line it holds, writes the lines this
terminates and keeps the rest. -/
def lineSplitter (sep : α) : Transducer (Partial sep) α (List α) where
  feed b xs := (⟨rest sep (b.text ++ xs), not_mem_rest sep _⟩, terminated sep (b.text ++ xs))
  feed_nil b := by
    have h : sep ∉ b.text ++ [] := by rw [List.append_nil]; exact b.noSep
    rw [terminated_of_not_mem h]
    congr
    rw [rest_of_not_mem h, List.append_nil]
  feed_append b xs ys := by
    rw [← List.append_assoc, terminated_append]
    congr 2
    rw [rest_append]

/-! ## Joining -/

omit [DecidableEq α] in
/-- Joined lines with a separator after them have one after each. -/
theorem intercalate_append_sep (sep : α) {ls : List (List α)} (h : ls ≠ []) :
    [sep].intercalate ls ++ [sep] = ls.flatMap (· ++ [sep]) := by
  obtain ⟨ms, l, rfl⟩ := (List.eq_nil_or_concat ls).resolve_left h
  rw [List.concat_eq_append, intercalate_append_singleton, List.flatMap_append,
    List.flatMap_singleton, List.append_assoc]

/-- Lines without the separator are known from their join. -/
theorem intercalate_injective {ls ms : List (List α)} (hls : ls ≠ []) (hms : ms ≠ [])
    (hl : ∀ l ∈ ls, sep ∉ l) (hm : ∀ l ∈ ms, sep ∉ l)
    (h : [sep].intercalate ls = [sep].intercalate ms) : ls = ms := by
  rw [← List.splitOn_intercalate sep hl hls, h, List.splitOn_intercalate sep hm hms]

omit [DecidableEq α] in
/-- What is in joined lines is the separator or is in a line. -/
theorem mem_intercalate {x : α} {ls : List (List α)} (h : x ∈ [sep].intercalate ls) :
    x = sep ∨ ∃ l ∈ ls, x ∈ l := by
  induction ls with
  | nil => cases h
  | cons l ls ih =>
    cases ls with
    | nil => exact .inr ⟨l, .head _, by simpa using h⟩
    | cons next ls =>
      rw [List.intercalate_cons_cons, List.append_assoc, List.mem_append, List.mem_append,
        List.mem_singleton] at h
      rcases h with h | h | h
      · exact .inr ⟨l, .head _, h⟩
      · exact .inl h
      · exact (ih h).imp_right fun ⟨other, hother, hx⟩ => ⟨other, .tail _ hother, hx⟩

omit [DecidableEq α] in
theorem intercalate_ne_nil {l : List α} (h : l ≠ []) (ls : List (List α)) :
    [sep].intercalate (l :: ls) ≠ [] := by
  cases ls with
  | nil => simpa using h
  | cons next ls => simp [List.intercalate_cons_cons]

omit [DecidableEq α] in
/-- Joined lines start where the first line starts. -/
theorem mem_of_mem_head?_intercalate {x : α} {l : List α} {ls : List (List α)} (hne : l ≠ [])
    (h : x ∈ ([sep].intercalate (l :: ls)).head?) : x ∈ l := by
  obtain ⟨y, l, rfl⟩ := List.exists_cons_of_ne_nil hne
  cases ls with
  | nil =>
    rw [List.intercalate_singleton] at h
    exact List.mem_of_mem_head? h
  | cons next ls =>
    rw [List.intercalate_cons_cons, List.cons_append, List.cons_append, List.head?_cons] at h
    cases h
    exact .head _

omit [DecidableEq α] in
/-- Joined lines that are not empty end where a line ends. -/
theorem exists_mem_of_mem_getLast?_intercalate {x : α} {ls : List (List α)}
    (hne : ∀ l ∈ ls, l ≠ []) (h : x ∈ ([sep].intercalate ls).getLast?) : ∃ l ∈ ls, x ∈ l := by
  induction ls with
  | nil => cases h
  | cons l ls ih =>
    cases ls with
    | nil =>
      rw [List.intercalate_singleton] at h
      exact ⟨l, .head _, List.mem_of_mem_getLast? h⟩
    | cons next ls =>
      rw [List.intercalate_cons_cons, List.getLast?_append_of_ne_nil _
        (intercalate_ne_nil (hne next (by simp)) ls)] at h
      obtain ⟨other, hother, hx⟩ := ih (fun l hl => hne l (.tail _ hl)) h
      exact ⟨other, .tail _ hother, hx⟩

/-! ## Comparing two texts piece by piece -/

omit [DecidableEq α] in
theorem length_flatMap_le {β : Type*} {p q : α → List β} {l : List α}
    (h : ∀ a ∈ l, (q a).length ≤ (p a).length) : (l.flatMap q).length ≤ (l.flatMap p).length := by
  rw [List.length_flatMap, List.length_flatMap]
  exact List.sum_le_sum h

omit [DecidableEq α] in
/-- Where each piece of one text is at least as long as its counterpart, the texts
are equal only piece by piece. -/
theorem flatMap_append_eq_flatMap_iff {β : Type*} {p q : α → List β} {l : List α} {r : List β}
    (h : ∀ a ∈ l, (q a).length ≤ (p a).length) :
    l.flatMap p ++ r = l.flatMap q ↔ (∀ a ∈ l, p a = q a) ∧ r = [] := by
  constructor
  · intro he
    induction l with
    | nil => exact ⟨by simp, by simpa using he⟩
    | cons a l ih =>
      have hl : ∀ b ∈ l, (q b).length ≤ (p b).length := fun b hb => h b (List.mem_cons_of_mem a hb)
      have hle := length_flatMap_le hl
      have hlen := congrArg List.length he
      simp only [List.flatMap_cons, List.length_append] at hlen
      have ha := h a List.mem_cons_self
      rw [List.flatMap_cons, List.flatMap_cons, List.append_assoc] at he
      obtain ⟨hpa, hrest⟩ := List.append_inj he (by omega)
      obtain ⟨hpl, hr⟩ := ih hl hrest
      refine ⟨fun b hb => ?_, hr⟩
      rcases List.mem_cons.1 hb with rfl | hb
      · exact hpa
      · exact hpl b hb
  · rintro ⟨hpq, rfl⟩
    rw [List.append_nil]
    exact List.flatMap_congr hpq

end Lines
