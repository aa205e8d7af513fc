import Mathlib.Data.List.Lex
import Mathlib.Data.List.Sort

/-!
# The order of JavaScript strings

Strings are compared by their UTF-16 code units, and `sort` without an argument puts
strings in that order.

* `units`, `units_injective` — the code units, which tell strings apart.
* `sort` — the strings of a list in order.
* `sort_eq_iff` — lists without repetitions are sorted to one list when they hold the same
  strings.
-/

namespace Utf16

/-- The code units of a character: itself, or a pair of surrogates. -/
def charUnits (c : Char) : List ℕ :=
  if c.toNat < 0x10000 then [c.toNat]
  else [0xD800 + (c.toNat - 0x10000) / 0x400, 0xDC00 + (c.toNat - 0x10000) % 0x400]

def units (s : String) : List ℕ := s.toList.flatMap charUnits

/-- No character is a surrogate. -/
theorem toNat_lt_or_gt (c : Char) : c.toNat < 0xD800 ∨ 0xDFFF < c.toNat ∧ c.toNat < 0x110000 :=
  c.valid

/-- The units of a character are found at the front of the units of a text. -/
theorem charUnits_append_inj {c d : Char} {us vs : List ℕ}
    (h : charUnits c ++ us = charUnits d ++ vs) : c = d ∧ us = vs := by
  have hc := toNat_lt_or_gt c
  have hd := toNat_lt_or_gt d
  have hchar : c.toNat = d.toNat → c = d := fun hnat => Char.ext (UInt32.toNat_inj.1 hnat)
  unfold charUnits at h
  split at h
  · split at h
    · simp only [List.cons_append, List.nil_append, List.cons.injEq] at h
      exact ⟨hchar h.1, h.2⟩
    · simp only [List.cons_append, List.nil_append, List.cons.injEq] at h
      omega
  · split at h
    · simp only [List.cons_append, List.nil_append, List.cons.injEq] at h
      omega
    · simp only [List.cons_append, List.nil_append, List.cons.injEq] at h
      exact ⟨hchar (by omega), h.2.2⟩

theorem charUnits_ne_nil (c : Char) : charUnits c ≠ [] := by
  unfold charUnits
  split <;> simp

theorem flatMap_charUnits_injective {cs ds : List Char}
    (h : cs.flatMap charUnits = ds.flatMap charUnits) : cs = ds := by
  induction cs generalizing ds with
  | nil =>
    cases ds with
    | nil => rfl
    | cons d ds =>
      rw [List.flatMap_nil, List.flatMap_cons] at h
      exact absurd (List.append_eq_nil_iff.1 h.symm).1 (charUnits_ne_nil d)
  | cons c cs ih =>
    cases ds with
    | nil =>
      rw [List.flatMap_nil, List.flatMap_cons] at h
      exact absurd (List.append_eq_nil_iff.1 h).1 (charUnits_ne_nil c)
    | cons d ds =>
      rw [List.flatMap_cons, List.flatMap_cons] at h
      obtain ⟨rfl, htail⟩ := charUnits_append_inj h
      rw [ih htail]

theorem units_injective {s t : String} (h : units s = units t) : s = t :=
  String.toList_injective (flatMap_charUnits_injective h)

/-- `s` does not come after `t`. -/
def le (s t : String) : Prop := units s ≤ units t

instance : DecidableRel le := fun s t => inferInstanceAs (Decidable (units s ≤ units t))

instance : Std.Total le := ⟨fun s t => le_total (units s) (units t)⟩

instance : IsTrans String le := ⟨fun _ _ _ hst htu => le_trans hst htu⟩

instance : Std.Antisymm le := ⟨fun _ _ hst hts => units_injective (le_antisymm hst hts)⟩

/-- The strings of a list in order. -/
def sort (l : List String) : List String := l.insertionSort le

theorem sort_perm (l : List String) : (sort l).Perm l := List.perm_insertionSort le l

@[simp] theorem mem_sort {l : List String} {s : String} : s ∈ sort l ↔ s ∈ l :=
  List.mem_insertionSort le

theorem sort_eq_of_perm {l l' : List String} (h : l.Perm l') : sort l = sort l' :=
  ((sort_perm l).trans (h.trans (sort_perm l').symm)).eq_of_pairwise'
    (List.pairwise_insertionSort le l) (List.pairwise_insertionSort le l')

/-- Lists without repetitions are sorted to the same list when they hold the same strings. -/
theorem sort_eq_iff {l l' : List String} (hl : l.Nodup) (hl' : l'.Nodup) :
    sort l = sort l' ↔ ∀ s, s ∈ l ↔ s ∈ l' := by
  constructor
  · intro h s
    rw [← mem_sort, h, mem_sort]
  · intro h
    exact sort_eq_of_perm ((List.perm_ext_iff_of_nodup hl hl').2 h)

end Utf16
