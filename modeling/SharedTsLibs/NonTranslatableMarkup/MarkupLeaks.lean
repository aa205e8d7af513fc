import SharedTsLibs.Lib.Delimiters
import SharedTsLibs.NonTranslatableMarkup.TaggedText
import Mathlib.Data.List.Infix
import Mathlib.Tactic.IntervalCases

/-!
# Markup in the pieces of a text

Which code units of a text come back in the pieces of `extractTextBetweenTags`: the regions
are taken out first, and the HTML tags are looked for in what is left, piece by piece.

* `finds_htmlTag`, `finds_nonTranslatableText` — what the two expressions match.
* `placedPieces`, `placed` — the pieces with their places in the text.
* `noMarkupLeaks_iff` — no markup is left exactly when a tag that a region reaches into has
  nothing but white space outside the regions.
-/

namespace SharedTsLibs.NonTranslatableMarkup

open Delimiters

/-! ## What the expressions match -/

/-- The expression for HTML tags matches what is between angle brackets. -/
theorem finds_htmlTag (text : JsString) : Finds htmlTag 0x3C 0x3E text where
  ne := by decide
  of_match i m hm := by
    cases hdrop : text.drop i with
    | nil =>
      rw [hdrop] at hm
      cases hm
    | cons u s =>
      have hat : ∀ k, text[i + k]? = (u :: s)[k]? := fun k => by rw [← hdrop, List.getElem?_drop]
      rw [hdrop] at hm
      simp only [htmlTag, htmlFront] at hm
      split at hm
      · obtain ⟨m', hm', rfl⟩ := Option.map_eq_some_iff.1 hm
        obtain ⟨n, v, hlength, hn, rfl, hbefore⟩ :=
          until_eq_some (f := untilBracket) rfl (fun _ _ => rfl) hm'
        refine ⟨i + (n + 1), ⟨by omega, ?_, ?_, ?_⟩, by simp [hlength]; omega⟩
        · rw [← Nat.add_zero i, hat, List.getElem?_cons_zero]
          exact congrArg some ‹_›
        · rw [hat, List.getElem?_cons_succ, hn]
        · intro k w hik hkj hw
          obtain ⟨l, rfl⟩ := Nat.exists_eq_add_of_lt hik
          rw [Nat.add_assoc, hat, List.getElem?_cons_succ] at hw
          obtain ⟨hlast, hfirst⟩ := hbefore l w (by omega) hw
          exact ⟨hfirst, hlast⟩
      · cases hm
  front_ne_none i j h := by
    obtain ⟨hij, hfirst, hlast, hbetween⟩ := h
    cases hdrop : text.drop i with
    | nil =>
      have hnone := List.drop_eq_nil_iff.1 hdrop
      rw [List.getElem?_eq_none hnone] at hfirst
      cases hfirst
    | cons u s =>
      have hat : ∀ k, text[i + k]? = (u :: s)[k]? := fun k => by rw [← hdrop, List.getElem?_drop]
      obtain ⟨n, rfl⟩ := Nat.exists_eq_add_of_lt hij
      rw [← Nat.add_zero i, hat] at hfirst
      cases hfirst
      rw [Nat.add_assoc, hat, List.getElem?_cons_succ] at hlast
      simp only [htmlTag, htmlFront, if_true]
      intro hnone
      refine until_ne_none (f := untilBracket) (fun _ _ => rfl) hlast rfl ?_
        (Option.map_eq_none_iff.1 hnone)
      intro k v hk hv
      exact (hbetween (i + (k + 1)) v (by omega) (by omega) (by rw [hat]; exact hv)).1

/-! ## Texts on one line whose tags alternate -/

theorem alternates_opened_of_start {place : Place} {p s : JsString}
    (h : alternates place (p ++ startTag :: s) = true) : alternates .opened s = true := by
  induction p generalizing place with
  | nil =>
    cases place with
    | outside => simpa [alternates] using h
    | opened => simp [alternates] at h
    | inside => simp [alternates] at h
  | cons u p ih =>
    cases place with
    | outside =>
      rw [List.cons_append, alternates] at h
      split at h
      · exact ih h
      split at h
      · cases h
      · exact ih h
    | opened =>
      rw [List.cons_append, alternates] at h
      split at h
      · cases h
      · exact ih h
    | inside =>
      rw [List.cons_append, alternates] at h
      split at h
      · cases h
      split at h
      · exact ih h
      · exact ih h

theorem alternates_opened_cons {u : UInt16} {s : JsString}
    (h : alternates .opened (u :: s) = true) :
    (u ≠ startTag ∧ u ≠ endTag) ∧ alternates .inside s = true := by
  rw [alternates] at h
  split at h
  · cases h
  · exact ⟨not_or.1 ‹_›, h⟩

/-- Inside a region no start tag comes before the end tag. -/
theorem ne_startTag_of_inside {s : JsString} {n : ℕ} (h : alternates .inside s = true)
    (hbefore : ∀ k v, k < n → s[k]? = some v → v ≠ endTag) :
    ∀ k v, k < n → s[k]? = some v → v ≠ startTag := by
  induction s generalizing n with
  | nil =>
    intro k v hk hv
    cases hv
  | cons u s ih =>
    intro k v hk hv
    rw [alternates] at h
    split at h
    · cases h
    · rw [if_neg (hbefore 0 u (by omega) rfl)] at h
      cases k with
      | zero =>
        cases hv
        assumption
      | succ k =>
        exact ih h (n := n - 1) (fun l w hl => hbefore (l + 1) w (by omega)) k v (by omega) hv

/-- The expression for regions matches what is between a start and an end tag. -/
theorem finds_nonTranslatableText {text : JsString} (halternates : alternates .outside text = true)
    (hline : ∀ u ∈ text, isLineTerminator u = false) :
    Finds nonTranslatableText startTag endTag text where
  ne := by decide
  of_match i m hm := by
    obtain ⟨u, v, s, hdrop, hu, m', hm', rfl⟩ : ∃ u v s, text.drop i = u :: v :: s ∧
        u = startTag ∧ ∃ m', untilEnd s = some m' ∧ m = u :: v :: m' := by
      simp only [nonTranslatableText] at hm
      unfold nonTranslatableFront at hm
      split at hm
      · split at hm
        · obtain ⟨m', hm', rfl⟩ := Option.map_eq_some_iff.1 hm
          exact ⟨_, _, _, ‹_›, (‹_ ∧ _›).1, m', hm', rfl⟩
        · cases hm
      · cases hm
    subst hu
    obtain ⟨n, w, hlength, hn, rfl, hbefore⟩ :=
      until_eq_some (f := untilEnd) rfl (fun _ _ => rfl) hm'
    have hat : ∀ k, text[i + k]? = (startTag :: v :: s)[k]? :=
      fun k => by rw [← hdrop, List.getElem?_drop]
    have hopened : alternates .opened (v :: s) = true := by
      rw [← List.take_append_drop i text, hdrop] at halternates
      exact alternates_opened_of_start halternates
    obtain ⟨hv, hinside⟩ := alternates_opened_cons hopened
    have hstart := ne_startTag_of_inside hinside (fun k u hk hu => (hbefore k u hk hu).1)
    refine ⟨i + (n + 2), ⟨by omega, ?_, ?_, ?_⟩, by simp [hlength]; omega⟩
    · rw [← Nat.add_zero i, hat, List.getElem?_cons_zero]
    · rw [hat, List.getElem?_cons_succ, List.getElem?_cons_succ, hn]
    · intro k u hik hkj hu
      obtain ⟨l, rfl⟩ := Nat.exists_eq_add_of_lt hik
      rw [Nat.add_assoc, hat, List.getElem?_cons_succ] at hu
      cases l with
      | zero =>
        cases hu
        exact hv
      | succ l =>
        rw [List.getElem?_cons_succ] at hu
        exact ⟨hstart l u (by omega) hu, (hbefore l u (by omega) hu).1⟩
  front_ne_none i j h := by
    obtain ⟨hij, hfirst, hlast, hbetween⟩ := h
    have hlt := (List.getElem?_eq_some_iff.1 hlast).1
    obtain ⟨v, s, hdrop⟩ : ∃ v s, text.drop i = startTag :: v :: s := by
      rw [List.drop_eq_getElem_cons (by omega), List.drop_eq_getElem_cons (by omega)]
      rw [List.getElem?_eq_getElem (by omega)] at hfirst
      exact ⟨_, _, by rw [Option.some.inj hfirst]⟩
    have hat : ∀ k, text[i + k]? = (startTag :: v :: s)[k]? :=
      fun k => by rw [← hdrop, List.getElem?_drop]
    have hopened : alternates .opened (v :: s) = true := by
      rw [← List.take_append_drop i text, hdrop] at halternates
      exact alternates_opened_of_start halternates
    have hsuffix : ∀ u ∈ startTag :: v :: s, isLineTerminator u = false :=
      fun u hu => hline u (List.mem_of_mem_drop (hdrop ▸ hu))
    obtain ⟨n, rfl⟩ : ∃ n, j = i + (n + 2) := by
      refine ⟨j - i - 2, ?_⟩
      have hne : j ≠ i + 1 := by
        rintro rfl
        rw [hat] at hlast
        exact (alternates_opened_cons hopened).1.2 (Option.some.inj hlast)
      omega
    rw [hat, List.getElem?_cons_succ, List.getElem?_cons_succ] at hlast
    rw [hdrop]
    simp only [nonTranslatableText, nonTranslatableFront, true_and,
      if_pos (hsuffix v (by simp))]
    intro hnone
    refine until_ne_none (f := untilEnd) (fun _ _ => rfl) hlast rfl ?_
      (Option.map_eq_none_iff.1 hnone)
    intro k u hk hu
    rw [hsuffix u (by simp [List.mem_of_getElem? hu])]
    exact Bool.false_ne_true

/-! ## The pieces and their places -/

/-- `extractTextBetweenTags(text)`, with the place of each piece. -/
def placedPieces (text : JsString) : List (ℕ × JsString) :=
  let pieces := [(0, text)]
  let pieces := pieces.flatMap fun p => nonTranslatableText.placedSplit p.1 p.2
  let pieces := pieces.flatMap fun p => htmlTag.placedSplit p.1 p.2
  let pieces := pieces.map fun p => (p.1 + (p.2.takeWhile isSpace).length, trim p.2)
  pieces.filter fun p => p.2 ≠ []

theorem map_snd_flatMap_placedSplit (r : RegExp UInt16) (ps : List (ℕ × JsString)) :
    (ps.flatMap fun p => r.placedSplit p.1 p.2).map Prod.snd
      = (ps.map Prod.snd).flatMap r.split := by
  induction ps with
  | nil => rfl
  | cons p ps ih =>
    rw [List.flatMap_cons, List.map_append, ih, RegExp.map_snd_placedSplit]
    rfl

/-- Without the places, the pieces that the function returns. -/
theorem map_snd_placedPieces (text : JsString) :
    (placedPieces text).map Prod.snd = extractTextBetweenTags text {} := by
  have hpieces : (([(0, text)].flatMap fun p => nonTranslatableText.placedSplit p.1 p.2).flatMap
      fun p => htmlTag.placedSplit p.1 p.2).map Prod.snd
        = ([text].flatMap nonTranslatableText.split).flatMap htmlTag.split := by
    rw [map_snd_flatMap_placedSplit, map_snd_flatMap_placedSplit]
    rfl
  simp only [placedPieces, extractTextBetweenTags, Bool.false_eq_true, if_false]
  rw [← hpieces, List.map_map, List.filter_map, List.filter_map, List.map_map]
  rfl

theorem drop_takeWhile (s : JsString) :
    s.drop (s.takeWhile isSpace).length = s.dropWhile isSpace := by
  induction s with
  | nil => rfl
  | cons u s ih =>
    by_cases hu : isSpace u = true
    · simpa [hu] using ih
    · simp [hu]

theorem takeWhile_append_trim (s : JsString) :
    ∃ after, s = s.takeWhile isSpace ++ trim s ++ after ∧ ∀ u ∈ after, isSpace u = true := by
  refine ⟨(s.dropWhile isSpace).rtakeWhile isSpace, ?_, ?_⟩
  · rw [trim, List.append_assoc, List.rdropWhile_append_rtakeWhile, List.takeWhile_append_dropWhile]
  · exact fun u hu => List.mem_rtakeWhile_imp hu

/-- What `trim` leaves out is white space. -/
theorem inPiece_trim {p : ℕ × JsString} {k : ℕ} (hk : InPiece p k) {u : UInt16}
    (hu : p.2[k - p.1]? = some u) (hspace : isSpace u = false) :
    InPiece (p.1 + (p.2.takeWhile isSpace).length, trim p.2) k := by
  obtain ⟨place, s⟩ := p
  obtain ⟨after, hs, hafter⟩ := takeWhile_append_trim s
  obtain ⟨hle, hlt⟩ := hk
  obtain ⟨n, rfl⟩ := Nat.exists_eq_add_of_le hle
  dsimp only at hu hlt ⊢
  rw [Nat.add_sub_cancel_left] at hu
  have hnot : ∀ t : JsString, (∀ v ∈ t, isSpace v = true) → ∀ i : ℕ, t[i]? ≠ some u := by
    intro t ht i hi
    have hu' := ht u (List.mem_of_getElem? hi)
    rw [hspace] at hu'
    cases hu'
  constructor
  · by_contra hbefore
    rw [hs, List.append_assoc, List.getElem?_append_left (by dsimp only at hbefore; omega)] at hu
    exact hnot _ (fun v hv => List.mem_takeWhile_imp hv) n hu
  · by_contra hend
    rw [hs, List.getElem?_append_right (by
      rw [List.length_append]
      dsimp only at hend
      omega)] at hu
    exact hnot _ hafter _ hu

theorem inPiece_of_trim {p : ℕ × JsString} {k : ℕ}
    (hk : InPiece (p.1 + (p.2.takeWhile isSpace).length, trim p.2) k) : InPiece p k := by
  obtain ⟨place, s⟩ := p
  obtain ⟨after, hs, -⟩ := takeWhile_append_trim s
  have hlength := congrArg List.length hs
  simp only [List.length_append] at hlength
  obtain ⟨hle, hlt⟩ := hk
  dsimp only at hle hlt
  exact ⟨by dsimp only; omega, by dsimp only; omega⟩

theorem trim_eq_nil {s : JsString} (h : ∀ u ∈ s, isSpace u = true) : trim s = [] := by
  rw [trim, List.dropWhile_eq_nil_iff.2 h]
  rfl

/-! ## Markup in the pieces -/

/-- The place is in a complete HTML tag. -/
def InHtmlTag (text : JsString) (k : ℕ) : Prop := Covered 0x3C 0x3E text k

/-- The place is in a tagged region. -/
def InRegion (text : JsString) (k : ℕ) : Prop := Covered startTag endTag text k

/-- No unit of a piece is from a complete HTML tag or a tagged region of the text. -/
def NoMarkupLeaks (text : JsString) : Prop :=
  ∀ p ∈ placedPieces text, ∀ k, InPiece p k → ¬ InHtmlTag text k ∧ ¬ InRegion text k

/-- An HTML tag that a region reaches into is blank outside the regions. -/
def ReachedTagsBlank (text : JsString) : Prop :=
  ∀ i j, Delimited 0x3C 0x3E text i j → (∃ k, i ≤ k ∧ k ≤ j ∧ InRegion text k) →
    ∀ k u, i ≤ k → k ≤ j → text[k]? = some u → ¬ InRegion text k → isSpace u = true

theorem mem_placedPieces {text : JsString} {p : ℕ × JsString} : p ∈ placedPieces text ↔
    (∃ w ∈ nonTranslatableText.placedSplit 0 text, ∃ q ∈ htmlTag.placedSplit w.1 w.2,
      (q.1 + (q.2.takeWhile isSpace).length, trim q.2) = p) ∧ p.2 ≠ [] := by
  simp only [placedPieces, List.mem_filter, List.mem_map, List.mem_flatMap, List.mem_singleton,
    exists_eq_left, decide_eq_true_eq]
  constructor
  · rintro ⟨⟨q, ⟨w, hw, hq⟩, rfl⟩, hne⟩
    exact ⟨⟨w, hw, q, hq, rfl⟩, hne⟩
  · rintro ⟨⟨w, hw, q, hq, rfl⟩, hne⟩
    exact ⟨⟨q, ⟨w, hw, hq⟩, rfl⟩, hne⟩

/-- The pieces that the function returns, each where it stands in the text. -/
def Placed (text : JsString) : Prop :=
  (placedPieces text).map Prod.snd = extractTextBetweenTags text {} ∧
    ∀ p ∈ placedPieces text, p.2 <+: text.drop p.1

theorem prefix_drop_of_mem_placedSplit {r : RegExp UInt16} {place : ℕ} {s : JsString}
    {p : ℕ × JsString} (h : p ∈ r.placedSplit place s) :
    ∃ i, p.1 = place + i ∧ p.2 <+: s.drop i := by
  obtain ⟨i, j, -, rfl⟩ := RegExp.gap_of_mem_placedSplit h
  exact ⟨i, rfl, List.take_prefix _ _⟩

theorem placed (text : JsString) : Placed text := by
  refine ⟨map_snd_placedPieces text, fun p hp => ?_⟩
  obtain ⟨⟨w, hw, q, hq, rfl⟩, -⟩ := mem_placedPieces.1 hp
  obtain ⟨c, hc, hwtext⟩ := prefix_drop_of_mem_placedSplit hw
  obtain ⟨i, hi, hqtext⟩ := prefix_drop_of_mem_placedSplit hq
  obtain ⟨after, htrim, -⟩ := takeWhile_append_trim q.2
  have hq2 : q.2 <+: text.drop q.1 := by
    have hdrop := hqtext.trans (List.IsPrefix.drop hwtext i)
    rwa [List.drop_drop, ← Nat.zero_add c, ← hc, ← hi] at hdrop
  have hpiece : trim q.2 <+: q.2.drop (q.2.takeWhile isSpace).length := by
    rw [drop_takeWhile]
    exact List.rdropWhile_prefix isSpace _
  show trim q.2 <+: text.drop (q.1 + (q.2.takeWhile isSpace).length)
  rw [← List.drop_drop]
  exact hpiece.trans (List.IsPrefix.drop hq2 (q.2.takeWhile isSpace).length)

/-- A place of a piece is between regions, in no tag of what is there, and what is there is
not blank. -/
theorem gap_of_inPiece {text : JsString} {p : ℕ × JsString} {k : ℕ} (hp : p ∈ placedPieces text)
    (hk : InPiece p k) : ∃ c d, nonTranslatableText.Gap text c d ∧ c ≤ k ∧ k < d ∧
      ¬ InHtmlTag (window text c d) (k - c) ∧
      ∃ l u, c ≤ l ∧ l < d ∧ text[l]? = some u ∧ isSpace u = false := by
  obtain ⟨⟨w, hw, q, hq, rfl⟩, hne⟩ := mem_placedPieces.1 hp
  obtain ⟨c, d, hgap, rfl⟩ := RegExp.gap_of_mem_placedSplit hw
  obtain ⟨i, j, hgap', hqeq⟩ := RegExp.gap_of_mem_placedSplit hq
  have hlength : (window text c d).length = d - c := length_window hgap.le_length
  have hle : i ≤ j := hgap'.le
  have hj : j ≤ d - c := by
    rw [← hlength]
    exact hgap'.le_length
  have hqlength : q.2.length = j - i := by
    rw [hqeq]
    exact length_window hgap'.le_length
  have hstart : q.1 = c + i := by
    rw [hqeq]
    exact congrArg (· + i) (Nat.zero_add c)
  have hkq := inPiece_of_trim hk
  obtain ⟨hck, hkd⟩ := hkq
  have hpiece : ∃ p ∈ htmlTag.placedSplit (0 + c) (window text c d), InPiece p (0 + c + (k - c)) :=
    ⟨q, hq, by omega, by omega⟩
  refine ⟨c, d, hgap, by omega, by omega,
    ((finds_htmlTag _).at_piece_iff (by omega) _).1 hpiece, ?_⟩
  by_contra hblank
  push Not at hblank
  refine hne (trim_eq_nil fun u hu => ?_)
  obtain ⟨n, hn⟩ := List.mem_iff_getElem?.1 hu
  have hlt : n < j - i := by
    rw [← hqlength]
    exact (List.getElem?_eq_some_iff.1 hn).1
  obtain ⟨v, hv, hv'⟩ := getElem?_of_gap hgap (k := i + n) (by omega)
  have hq2 : q.2 = window (window text c d) i j := by
    rw [hqeq]
    rfl
  rw [hq2, getElem?_window (by omega), hv] at hn
  cases hn
  simpa using hblank (c + (i + n)) u (by omega) (by omega) hv'

/-- A place that is in no region, in no tag between the regions, and not blank comes back. -/
theorem exists_inPiece {text : JsString} {w : ℕ × JsString} {k : ℕ} {u : UInt16}
    (hw : w ∈ nonTranslatableText.placedSplit 0 text) (hk : InPiece w k)
    (htag : ¬ InHtmlTag w.2 (k - w.1)) (hu : w.2[k - w.1]? = some u) (hspace : isSpace u = false) :
    ∃ p ∈ placedPieces text, InPiece p k := by
  obtain ⟨hle, hlt⟩ := hk
  obtain ⟨q, hq, hkq⟩ := ((finds_htmlTag w.2).at_piece_iff (by omega) w.1).2 htag
  rw [Nat.add_sub_cancel' hle] at hkq
  have huq : q.2[k - q.1]? = some u := by
    obtain ⟨i, j, hgap, hqeq⟩ := RegExp.gap_of_mem_placedSplit hq
    obtain ⟨hqk, hkq⟩ := hkq
    have hlength : q.2.length = j - i := by
      rw [hqeq]
      exact length_window hgap.le_length
    have hq1 : q.1 = w.1 + i := by rw [hqeq]
    have hq2 : q.2 = window w.2 i j := by
      rw [hqeq]
      rfl
    rw [hq2, getElem?_window (by omega), ← hu]
    congr 1
    omega
  have htrimmed := inPiece_trim hkq huq hspace
  refine ⟨_, mem_placedPieces.2 ⟨⟨w, hw, q, hq, rfl⟩, ?_⟩, htrimmed⟩
  intro hnil
  obtain ⟨hle', hlt'⟩ := htrimmed
  rw [hnil, List.length_nil] at hlt'
  omega

/-- The places of a gap between regions are in no region. -/
theorem not_inRegion_of_gap {text : JsString} (halternates : alternates .outside text = true)
    (hline : ∀ u ∈ text, isLineTerminator u = false) {c d k : ℕ}
    (hgap : nonTranslatableText.Gap text c d) (hc : c ≤ k) (hd : k < d) : ¬ InRegion text k :=
  (finds_nonTranslatableText halternates hline).not_covered_of_gap hgap hc hd

/-- A tag without any place in a region does not leave the gap between regions. -/
theorem within_gap {text : JsString} (halternates : alternates .outside text = true)
    (hline : ∀ u ∈ text, isLineTerminator u = false) {c d i j k : ℕ}
    (hgap : nonTranslatableText.Gap text c d) (hc : c ≤ k) (hd : k < d) (hi : i ≤ k)
    (hj : k ≤ j) (hlength : j < text.length) (hfree : ∀ l, i ≤ l → l ≤ j → ¬ InRegion text l) :
    c ≤ i ∧ j < d := by
  have hfinds := finds_nonTranslatableText halternates hline
  constructor
  · by_contra hlt
    rcases hgap.start with rfl | ⟨a, m, hm, hend⟩
    · omega
    · obtain ⟨b, hab, hb⟩ := hfinds.of_match a m hm
      have hle := hab.1
      exact hfree b (by omega) (by omega) ⟨a, b, hab, by omega, Nat.le_refl b⟩
  · by_contra hlt
    rcases hgap.stop with rfl | ⟨m, hm⟩
    · omega
    · obtain ⟨b, hdb, -⟩ := hfinds.of_match d m hm
      have hle := hdb.1
      exact hfree d (by omega) (by omega) ⟨d, b, hdb, Nat.le_refl d, by omega⟩

theorem noMarkupLeaks_of_reachedTagsBlank {text : JsString}
    (halternates : alternates .outside text = true)
    (hline : ∀ u ∈ text, isLineTerminator u = false) (hblank : ReachedTagsBlank text) :
    NoMarkupLeaks text := by
  intro p hp k hk
  obtain ⟨c, d, hgap, hck, hkd, htag, l, u, hcl, hld, hl, hspace⟩ := gap_of_inPiece hp hk
  have hregion : ∀ n, c ≤ n → n < d → ¬ InRegion text n := fun n hc hd =>
    not_inRegion_of_gap halternates hline hgap hc hd
  refine ⟨?_, hregion k hck hkd⟩
  rintro ⟨i, j, hij, hik, hkj⟩
  have hj := (List.getElem?_eq_some_iff.1 hij.2.2.1).1
  by_cases hreached : ∃ n, i ≤ n ∧ n ≤ j ∧ InRegion text n
  · -- the brackets are not blank, so they are in regions and the whole gap is in the tag
    have hinside := hblank i j hij hreached
    have hi : i < c := by
      by_contra hci
      have hspace := hinside i 0x3C (Nat.le_refl i) (by omega) hij.2.1
        (hregion i (by omega) (by omega))
      revert hspace
      decide
    have hj : d ≤ j := by
      by_contra hjd
      have hspace := hinside j 0x3E (by omega) (Nat.le_refl j) hij.2.2.1
        (hregion j (by omega) (by omega))
      revert hspace
      decide
    have hblankl := hinside l u (by omega) (by omega) hl (hregion l hcl hld)
    rw [hspace] at hblankl
    cases hblankl
  · push Not at hreached
    obtain ⟨hci, hjd⟩ := within_gap halternates hline hgap hck hkd hik hkj hj hreached
    refine htag ⟨i - c, j - c, (delimited_window_iff (by omega)).2 ?_, by omega, by omega⟩
    rw [Nat.add_sub_cancel' hci, Nat.add_sub_cancel' (by omega)]
    exact hij

theorem reachedTagsBlank_of_noMarkupLeaks {text : JsString}
    (halternates : alternates .outside text = true)
    (hline : ∀ u ∈ text, isLineTerminator u = false) (hleaks : NoMarkupLeaks text) :
    ReachedTagsBlank text := by
  rintro i j hij ⟨n, hin, hnj, hn⟩ k u hik hkj hk hregion
  by_contra hspace
  have hfinds := finds_nonTranslatableText halternates hline
  have hlt := (List.getElem?_eq_some_iff.1 hk).1
  obtain ⟨w, hw, hkw⟩ := (hfinds.at_piece_iff hlt 0).2 hregion
  rw [Nat.zero_add] at hkw
  obtain ⟨c, d, hgap, hweq⟩ := RegExp.gap_of_mem_placedSplit hw
  have hw1 : w.1 = c := by
    rw [hweq]
    exact Nat.zero_add c
  have hw2 : w.2 = window text c d := by
    rw [hweq]
    rfl
  have hlength : w.2.length = d - c := by
    rw [hw2]
    exact length_window hgap.le_length
  have hbounds := hkw
  obtain ⟨hck, hkd⟩ := hbounds
  have htag : ¬ InHtmlTag w.2 (k - w.1) := by
    rintro ⟨i', j', hij', hik', hkj'⟩
    have hj' := (List.getElem?_eq_some_iff.1 hij'.2.2.1).1
    rw [hw2, delimited_window_iff (by omega)] at hij'
    obtain ⟨rfl, rfl⟩ := hij.unique (by decide) hij' hik hkj (by omega) (by omega)
    exact not_inRegion_of_gap halternates hline hgap (by omega) (by omega) hn
  have hu : w.2[k - w.1]? = some u := by
    rw [hw2, hw1, getElem?_window (by omega), Nat.add_sub_cancel' (by omega)]
    exact hk
  obtain ⟨p, hp, hkp⟩ := exists_inPiece hw hkw htag hu (by simpa using hspace)
  exact (hleaks p hp k hkp).1 ⟨i, j, hij, hik, hkj⟩

/-- **When no markup leaks.**  On one line, with regions that are not empty, the pieces that
the function returns have no markup exactly when every HTML tag that a region reaches into is
blank outside the regions. -/
theorem noMarkupLeaks_iff {text : JsString} (halternates : alternates .outside text = true)
    (hline : ∀ u ∈ text, isLineTerminator u = false) :
    Placed text ∧ (NoMarkupLeaks text ↔ ReachedTagsBlank text) :=
  ⟨placed text, reachedTagsBlank_of_noMarkupLeaks halternates hline,
    noMarkupLeaks_of_reachedTagsBlank halternates hline⟩

/-- `<i>`, a region around `<b>`, and `x`. -/
def tagInRegion : JsString := [0x3C, 0x69, 0x3E, startTag, 0x3C, 0x62, 0x3E, endTag, 0x78]

/-- A tag apart from the region and a tag inside it do not leak. -/
theorem noMarkupLeaks_tagInRegion : NoMarkupLeaks tagInRegion := by
  have hplaces : ∀ i < 9, ∀ u, tagInRegion[i]? = some u →
      (u = 0x3C → i = 0 ∨ i = 4) ∧ (u = 0x3E → i = 2 ∨ i = 6) ∧ (u = startTag → i = 3) := by
    intro i hi u hu
    interval_cases i <;> cases hu <;> decide
  have hbound : ∀ {i u}, tagInRegion[i]? = some u → i < 9 := fun h =>
    (List.getElem?_eq_some_iff.1 h).1
  refine (noMarkupLeaks_iff (by decide) (List.forall_iff_forall_mem.1 (by decide))).2.2 ?_
  rintro i j ⟨hij, hfirst, hlast, hbetween⟩ ⟨k, hik, hkj, i', j', hregion, hi'k, -⟩ m u him hmj -
    hout
  have hi := (hplaces i (hbound hfirst) _ hfirst).1 rfl
  have hj := (hplaces j (hbound hlast) _ hlast).2.1 rfl
  have hi' := (hplaces i' (hbound hregion.2.1) _ hregion.2.1).2.2 rfl
  -- the tag that shares a place with the region is the one inside it
  have hinside : i = 4 ∧ j = 6 := by
    rcases hi with rfl | rfl
    · have hfour : ¬ (4 : ℕ) < j := fun hlt => (hbetween 4 _ (by decide) hlt rfl).1 rfl
      omega
    · omega
  refine absurd ⟨3, 7, ⟨by decide, rfl, rfl, ?_⟩, by omega, by omega⟩ hout
  intro n v hn hn' hv
  have hthree : n = 4 ∨ n = 5 ∨ n = 6 := by omega
  rcases hthree with rfl | rfl | rfl <;> cases hv <;> decide

/-- `<a` and a region and `>`. -/
def regionInTag : JsString := [0x3C, 0x61, startTag, 0x78, endTag, 0x3E]

/-- A region in a tag takes the tag apart, and both of its parts come back. -/
theorem regionInTag_leaks : alternates .outside regionInTag = true ∧
    (regionInTag.all fun u => !isLineTerminator u) = true ∧
    extractTextBetweenTags regionInTag {} = [[0x3C, 0x61], [0x3E]] ∧
    ¬ NoMarkupLeaks regionInTag := by
  refine ⟨by decide, by decide, by decide, ?_⟩
  intro hleaks
  refine (hleaks (0, [0x3C, 0x61]) (by decide) 0 ⟨Nat.le_refl 0, by decide⟩).1
    ⟨0, 5, ⟨by decide, rfl, rfl, ?_⟩, Nat.le_refl 0, Nat.zero_le 5⟩
  intro k u hk hk' hu
  have hplaces : k = 1 ∨ k = 2 ∨ k = 3 ∨ k = 4 := by omega
  rcases hplaces with rfl | rfl | rfl | rfl <;> cases hu <;> decide

end SharedTsLibs.NonTranslatableMarkup
