import Mathlib.Data.List.DropRight

/-!
# JavaScript text

Strings as lists of characters, and what `String.prototype.trim` makes of them.
-/

namespace JsText

/-- The white space and line terminators that `trim` removes. -/
def isWhitespace (c : Char) : Bool :=
  c ∈ ['\t', '\n', '\x0b', '\x0c', '\r', ' ', '\u00a0', '\u1680', '\u2028', '\u2029', '\u202f',
    '\u205f', '\u3000', '\ufeff'] || ('\u2000' ≤ c && c ≤ '\u200a')

/-- `trim`. -/
def trim (s : List Char) : List Char := (s.dropWhile isWhitespace).rdropWhile isWhitespace

theorem mem_of_mem_trim {s : List Char} {c : Char} (h : c ∈ trim s) : c ∈ s :=
  List.dropWhile_subset _ ((List.rdropWhile_prefix isWhitespace _).subset h)

/-- White space in front is trimmed away. -/
theorem trim_cons_of_isWhitespace {c : Char} (hc : isWhitespace c = true) (s : List Char) :
    trim (c :: s) = trim s := by
  rw [trim, List.dropWhile_cons_of_pos hc, trim]

/-- White space at the end is trimmed away. -/
theorem trim_append_of_isWhitespace {t : List Char} (ht : ∀ c ∈ t, isWhitespace c = true)
    (s : List Char) : trim (s ++ t) = trim s := by
  have hrev : t.reverse.dropWhile isWhitespace = [] :=
    List.dropWhile_eq_nil_iff.2 fun c hc => ht c (List.mem_reverse.1 hc)
  have hdrop : t.dropWhile isWhitespace = [] := List.dropWhile_eq_nil_iff.2 ht
  rw [trim, trim, List.dropWhile_append]
  by_cases hs : s.dropWhile isWhitespace = []
  · simp [hs, hdrop]
  · have hne : (s.dropWhile isWhitespace).isEmpty = false := by simpa using hs
    rw [hne, if_neg (by decide), List.rdropWhile, List.rdropWhile, List.reverse_append,
      List.dropWhile_append, hrev]
    simp

/-- A text without white space at its ends is left as it is. -/
theorem trim_eq_self {s : List Char} (hhead : ∀ c ∈ s.head?, isWhitespace c = false)
    (hlast : ∀ c ∈ s.getLast?, isWhitespace c = false) : trim s = s := by
  have hstart : s.dropWhile isWhitespace = s := by
    cases s with
    | nil => rfl
    | cons c s => exact List.dropWhile_cons_of_neg (by simp [hhead c rfl])
  rw [trim, hstart, List.rdropWhile_eq_self_iff]
  intro hne
  simp [hlast _ (List.getLast?_eq_some_getLast hne)]

/-- A text between two without white space is left as it is. -/
theorem trim_append_append {a m b : List Char}
    (ha : a ≠ [] ∧ a.any isWhitespace = false) (hb : b ≠ [] ∧ b.any isWhitespace = false) :
    trim (a ++ m ++ b) = a ++ m ++ b := by
  refine trim_eq_self (fun c hc => Bool.eq_false_iff.2 (List.any_eq_false.1 ha.2 c ?_))
    (fun c hc => Bool.eq_false_iff.2 (List.any_eq_false.1 hb.2 c ?_))
  · rw [List.append_assoc, List.head?_append_of_ne_nil _ ha.1] at hc
    exact List.mem_of_mem_head? hc
  · rw [List.getLast?_append_of_ne_nil _ hb.1] at hc
    exact List.mem_of_mem_getLast? hc

/-- Trimming leaves the text between the first and the last character that is not
white space. -/
theorem filter_trim (s : List Char) :
    (trim s).filter (fun c => !isWhitespace c) = s.filter fun c => !isWhitespace c := by
  have hdrop : ∀ l : List Char, (l.dropWhile isWhitespace).filter (fun c => !isWhitespace c) =
      l.filter fun c => !isWhitespace c := by
    intro l
    induction l with
    | nil => rfl
    | cons c l ih =>
      by_cases hc : isWhitespace c = true
      · rw [List.dropWhile_cons_of_pos hc, ih, List.filter_cons_of_neg (by simp [hc])]
      · rw [List.dropWhile_cons_of_neg hc]
  rw [trim, List.rdropWhile, List.filter_reverse, hdrop, List.filter_reverse,
    List.reverse_reverse, hdrop]

/-- A trimmed text is left as it is. -/
theorem trim_trim (s : List Char) : trim (trim s) = trim s := by
  have hstart : (trim s).dropWhile isWhitespace = trim s := by
    obtain ⟨t, ht⟩ := List.rdropWhile_prefix isWhitespace (l := s.dropWhile isWhitespace)
    cases h : trim s with
    | nil => rfl
    | cons c r =>
      refine List.dropWhile_cons_of_neg ?_
      have hc : (s.dropWhile isWhitespace).head? = some c := by
        rw [← ht]
        show (trim s ++ t).head? = some c
        rw [h, List.cons_append, List.head?_cons]
      have hn := List.head?_dropWhile_not isWhitespace s
      rw [hc] at hn
      simpa using hn
  conv_lhs => rw [trim, hstart, trim]
  exact List.rdropWhile_idempotent isWhitespace _

/-- Nothing is left of a text exactly when all of it is white space. -/
theorem trim_eq_nil_iff {s : List Char} : trim s = [] ↔ ∀ c ∈ s, isWhitespace c = true := by
  rw [trim, List.rdropWhile_eq_nil_iff]
  constructor
  · intro h c hc
    rw [← List.takeWhile_append_dropWhile (p := isWhitespace) (l := s), List.mem_append] at hc
    rcases hc with hc | hc
    · exact List.mem_takeWhile_imp hc
    · exact h c hc
  · exact fun h c hc => h c (List.dropWhile_subset _ hc)

end JsText
