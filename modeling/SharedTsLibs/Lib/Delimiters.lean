import SharedTsLibs.Lib.RegExp
import Mathlib.Tactic.ByContra

/-!
# Delimited parts of a text

An expression that matches what stands between two delimiters, and which places of a text
`split` leaves when it is given such an expression.

* `Delimited`, `Covered` — what stands between two delimiters, and the places in it.
* `Delimited.unique` — two such parts with a common place are the same.
* `Finds.at_piece_iff` — the places that a split leaves are those that are not covered.
* `delimited_window_iff` — the same delimited parts in a part of the text.
* `until_prefix`, `until_eq_some`, `until_ne_none` — what runs to the first element that stops it.
-/

namespace Delimiters

variable {α : Type*}

/-- From `i` to `j` the text has `first`, then elements that are neither, then `last`. -/
def Delimited (first last : α) (text : List α) (i j : ℕ) : Prop :=
  i < j ∧ text[i]? = some first ∧ text[j]? = some last ∧
    ∀ k u, i < k → k < j → text[k]? = some u → u ≠ first ∧ u ≠ last

/-- The place is between two delimiters, or one of them. -/
def Covered (first last : α) (text : List α) (k : ℕ) : Prop :=
  ∃ i j, Delimited first last text i j ∧ i ≤ k ∧ k ≤ j

theorem Delimited.start_eq {first last : α} {text : List α} {i j i' j' k : ℕ}
    (hne : first ≠ last) (h : Delimited first last text i j)
    (h' : Delimited first last text i' j') (hi : i ≤ k) (hj' : k ≤ j') (hj : k ≤ j)
    (hi' : i' ≤ k) : i = i' := by
  obtain ⟨-, hfirst, hlast, hbetween⟩ := h
  obtain ⟨-, hfirst', hlast', hbetween'⟩ := h'
  rcases Nat.lt_trichotomy i i' with hlt | heq | hlt
  · have hij : i' ≠ j := by
      rintro rfl
      rw [hlast] at hfirst'
      exact hne (Option.some.inj hfirst').symm
    exact absurd rfl (hbetween i' first hlt (by omega) hfirst').1
  · exact heq
  · have hij : i ≠ j' := by
      rintro rfl
      rw [hlast'] at hfirst
      exact hne (Option.some.inj hfirst).symm
    exact absurd rfl (hbetween' i first hlt (by omega) hfirst).1

/-- Two delimited parts with a common place are the same. -/
theorem Delimited.unique {first last : α} {text : List α} {i j i' j' k : ℕ}
    (hne : first ≠ last) (h : Delimited first last text i j)
    (h' : Delimited first last text i' j') (hi : i ≤ k) (hj : k ≤ j) (hi' : i' ≤ k)
    (hj' : k ≤ j') : i = i' ∧ j = j' := by
  have hstart := h.start_eq hne h' hi hj' hj hi'
  refine ⟨hstart, ?_⟩
  rcases Nat.lt_trichotomy j j' with hlt | heq | hlt
  · exact absurd rfl (h'.2.2.2 j last (hstart ▸ h.1) hlt h.2.2.1).2
  · exact heq
  · exact absurd rfl (h.2.2.2 j' last (hstart ▸ h'.1) hlt h'.2.2.1).2

/-- In this text the expression matches what is between the delimiters. -/
structure Finds (r : RegExp α) (first last : α) (text : List α) : Prop where
  ne : first ≠ last
  of_match : ∀ i m, r.front (text.drop i) = some m →
    ∃ j, Delimited first last text i j ∧ j + 1 = i + m.length
  front_ne_none : ∀ i j, Delimited first last text i j → r.front (text.drop i) ≠ none

namespace Finds

variable {r : RegExp α} {first last : α} {text : List α}

theorem not_covered_of_gap (h : Finds r first last text) {c d k : ℕ} (hgap : r.Gap text c d)
    (hc : c ≤ k) (hd : k < d) : ¬ Covered first last text k := by
  rintro ⟨i, j, hij, hik, hkj⟩
  by_cases hi : c ≤ i
  · exact h.front_ne_none i j hij (hgap.clear i hi (by omega))
  · rcases hgap.start with rfl | ⟨a, m, hm, hend⟩
    · omega
    · obtain ⟨b, hab, hb⟩ := h.of_match a m hm
      have hib : i ≠ b := by
        rintro rfl
        have hlast := hab.2.2.1
        rw [hij.2.1] at hlast
        exact h.ne (Option.some.inj hlast)
      exact absurd rfl (hij.2.2.2 b last (by omega) (by omega) hab.2.2.1).2

end Finds

/-- The place is in the piece. -/
def InPiece (p : ℕ × List α) (k : ℕ) : Prop := p.1 ≤ k ∧ k < p.1 + p.2.length

/-- The part of a text from `i` to `j`. -/
def window (text : List α) (i j : ℕ) : List α := (text.drop i).take (j - i)

theorem length_window {text : List α} {i j : ℕ} (hj : j ≤ text.length) :
    (window text i j).length = j - i := by
  simp [window]
  omega

theorem getElem?_window {text : List α} {i j k : ℕ} (hk : i + k < j) :
    (window text i j)[k]? = text[i + k]? := by
  rw [window, List.getElem?_take_of_lt (by omega), List.getElem?_drop]

theorem getElem?_of_gap {r : RegExp α} {text : List α} {c d k : ℕ} (h : r.Gap text c d)
    (hk : k < d - c) : ∃ u, (window text c d)[k]? = some u ∧ text[c + k]? = some u := by
  have hlt : c + k < text.length := by
    have hle := h.le_length
    omega
  refine ⟨text[c + k], ?_, List.getElem?_eq_getElem hlt⟩
  rw [getElem?_window (by omega)]
  exact List.getElem?_eq_getElem hlt

/-- The places that a split leaves are those that are not covered. -/
theorem Finds.at_piece_iff {r : RegExp α} {first last : α} {text : List α}
    (h : Finds r first last text) {k : ℕ} (hk : k < text.length) (place : ℕ) :
    (∃ p ∈ r.placedSplit place text, InPiece p (place + k)) ↔ ¬ Covered first last text k := by
  constructor
  · rintro ⟨p, hp, hle, hlt⟩
    obtain ⟨i, j, hgap, rfl⟩ := RegExp.gap_of_mem_placedSplit hp
    have hlength : (window text i j).length = j - i := length_window hgap.le_length
    rw [window] at hlength
    dsimp only at hle hlt
    rw [hlength] at hlt
    exact h.not_covered_of_gap hgap (by omega) (by omega)
  · intro hcovered
    rcases RegExp.mem_placedSplit_or_match (r := r) hk place with hpiece | ⟨i, m, hm, hle, hlt⟩
    · exact hpiece
    · obtain ⟨j, hij, hj⟩ := h.of_match i m hm
      exact absurd ⟨i, j, hij, hle, by omega⟩ hcovered

/-- What is delimited in a part of the text is delimited in the text. -/
theorem delimited_window_iff {first last : α} {text : List α} {c d i j : ℕ}
    (hj : c + j < d) :
    Delimited first last (window text c d) i j ↔ Delimited first last text (c + i) (c + j) := by
  constructor
  · rintro ⟨hij, hfirst, hlast, hbetween⟩
    rw [getElem?_window (by omega)] at hfirst
    rw [getElem?_window hj] at hlast
    refine ⟨by omega, hfirst, hlast, ?_⟩
    intro k u hik hkj hk
    obtain ⟨n, rfl⟩ := Nat.exists_eq_add_of_le (show c ≤ k by omega)
    exact hbetween n u (by omega) (by omega) (by rw [getElem?_window (by omega)]; exact hk)
  · rintro ⟨hij, hfirst, hlast, hbetween⟩
    refine ⟨by omega, by rw [getElem?_window (by omega)]; exact hfirst,
      by rw [getElem?_window hj]; exact hlast, ?_⟩
    intro k u hik hkj hk
    rw [getElem?_window (by omega)] at hk
    exact hbetween (c + k) u (by omega) (by omega) hk

/-! ## Running to a delimiter -/

variable {f : List α → Option (List α)} {stop refuse : α → Prop} [DecidablePred stop]
  [DecidablePred refuse]

/-- What runs to the first element that stops it is read from the front. -/
theorem until_prefix (hnil : f [] = none)
    (hcons : ∀ u s, f (u :: s) =
      if stop u then some [u] else if refuse u then none else (f s).map (u :: ·))
    {s m : List α} (h : f s = some m) : ∃ rest, s = m ++ rest := by
  induction s generalizing m with
  | nil =>
    rw [hnil] at h
    cases h
  | cons u s ih =>
    rw [hcons] at h
    split at h
    · cases h
      exact ⟨s, rfl⟩
    split at h
    · cases h
    · obtain ⟨m', hm', rfl⟩ := Option.map_eq_some_iff.1 h
      obtain ⟨rest, rfl⟩ := ih hm'
      exact ⟨rest, rfl⟩

/-- It ends with the first such element, and nothing before that is refused. -/
theorem until_eq_some (hnil : f [] = none)
    (hcons : ∀ u s, f (u :: s) =
      if stop u then some [u] else if refuse u then none else (f s).map (u :: ·))
    {s m : List α} (h : f s = some m) :
    ∃ n u, m.length = n + 1 ∧ s[n]? = some u ∧ stop u ∧
      ∀ k v, k < n → s[k]? = some v → ¬ stop v ∧ ¬ refuse v := by
  induction s generalizing m with
  | nil =>
    rw [hnil] at h
    cases h
  | cons u s ih =>
    rw [hcons] at h
    split at h
    · cases h
      exact ⟨0, u, rfl, rfl, ‹_›, fun k v hk => absurd hk (Nat.not_lt_zero k)⟩
    split at h
    · cases h
    · obtain ⟨m', hm', rfl⟩ := Option.map_eq_some_iff.1 h
      obtain ⟨n, v, hlength, hn, hv, hbefore⟩ := ih hm'
      refine ⟨n + 1, v, congrArg Nat.succ hlength, hn, hv, ?_⟩
      intro k w hk hw
      cases k with
      | zero =>
        cases hw
        exact ⟨‹_›, ‹_›⟩
      | succ k => exact hbefore k w (Nat.lt_of_succ_lt_succ hk) hw

theorem until_ne_none
    (hcons : ∀ u s, f (u :: s) =
      if stop u then some [u] else if refuse u then none else (f s).map (u :: ·))
    {s : List α} {n : ℕ} {u : α} (hn : s[n]? = some u) (hu : stop u)
    (hbefore : ∀ k v, k < n → s[k]? = some v → ¬ refuse v) : f s ≠ none := by
  induction s generalizing n with
  | nil => cases hn
  | cons v s ih =>
    rw [hcons]
    split
    · exact Option.some_ne_none _
    · cases n with
      | zero =>
        cases hn
        exact absurd hu ‹_›
      | succ n =>
        rw [if_neg (hbefore 0 v (Nat.succ_pos n) rfl)]
        intro hnone
        exact ih hn (fun k w hk => hbefore (k + 1) w (Nat.succ_lt_succ hk))
          (Option.map_eq_none_iff.1 hnone)

end Delimiters
