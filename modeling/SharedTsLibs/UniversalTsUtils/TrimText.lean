import SharedTsLibs.Lib.CodeUnits
import SharedTsLibs.Lib.JsText
import SharedTsLibs.Lib.RegExp
import Mathlib.Data.List.Infix

/-!
# Trimming a text

`universal-ts-utils`: `trimText` takes white space and the entity `&nbsp;` off both ends of a
text and returns what it took.

* `separator`, `leadingMatch`, `trailingMatch`, `trimText` — the function.
* `Separators` — the texts that consist of separators only.
* `trailingMatch_spec` — the scan for the end finds the longest such suffix.
* `lossless_iff` — nothing is lost or doubled unless the whole text consists of separators.
-/

namespace SharedTsLibs.UniversalTsUtils

/-! ## The function -/

/-- `[\s\u00A0]` -/
def isSpace (u : UInt16) : Bool := JsText.isWhitespace (Char.ofNat u.toNat) || u = 0xA0

/-- `&nbsp;` -/
def nbsp : JsString := [0x26, 0x6E, 0x62, 0x73, 0x70, 0x3B]

/-- `[\s\u00A0]|&nbsp;` at the front of a text. -/
def separatorFront : JsString → Option JsString
  | [] => none
  | u :: s =>
    if isSpace u then some [u]
    else if nbsp.isPrefixOf (u :: s) then some nbsp
    else none

/-- `[\s\u00A0]|&nbsp;` -/
def separator : RegExp UInt16 where
  front := separatorFront
  front_spec s m h := by
    unfold separatorFront at h
    split at h
    · cases h
    split at h
    · cases h
      exact ⟨List.cons_ne_nil _ _, _, rfl⟩
    split at h
    · rename_i hnbsp
      cases h
      obtain ⟨rest, hrest⟩ := List.isPrefixOf_iff_prefix.1 hnbsp
      exact ⟨by decide, rest, hrest.symm⟩
    · cases h

/-- `text.match(leadingRegex)` -/
def leadingMatch (text : JsString) : Option JsString :=
  if separator.run text = [] then none else some (separator.run text)

/-- `text.match(trailingRegex)`: the leftmost place from where separators run to the end. -/
def trailingMatch : JsString → Option JsString
  | [] => none
  | u :: s => if separator.run (u :: s) = u :: s then some (u :: s) else trailingMatch s

/-- `text.replace(leadingRegex, '')` -/
def withoutLeading (text : JsString) : JsString :=
  match leadingMatch text with
  | some m => text.drop m.length
  | none => text

/-- `text.replace(trailingRegex, '')` -/
def withoutTrailing (text : JsString) : JsString :=
  match trailingMatch text with
  | some m => text.take (text.length - m.length)
  | none => text

/-- `TrimmedText`, with the fields `prefix` and `suffix`. -/
structure TrimmedText where
  value : JsString
  prefixText : Option JsString
  suffixText : Option JsString

def trimText (text : JsString) : TrimmedText where
  value := withoutTrailing (withoutLeading text)
  prefixText := leadingMatch text
  suffixText := trailingMatch text

/-! ## Separators -/

def IsSeparator (s : JsString) : Prop := s = nbsp ∨ ∃ u, isSpace u = true ∧ s = [u]

/-- The text consists of separators. -/
inductive Separators : JsString → Prop
  | nil : Separators []
  | append {s t : JsString} (hs : IsSeparator s) (ht : Separators t) : Separators (s ++ t)

theorem separatorFront_append {s : JsString} (hs : IsSeparator s) (t : JsString) :
    separator.front (s ++ t) = some s := by
  rcases hs with rfl | ⟨u, hu, rfl⟩
  · rfl
  · exact if_pos hu

theorem isSeparator_of_front {s m : JsString} (h : separator.front s = some m) :
    IsSeparator m := by
  simp only [separator] at h
  unfold separatorFront at h
  split at h
  · cases h
  split at h
  · cases h
    exact Or.inr ⟨_, ‹_›, rfl⟩
  split at h
  · cases h
    exact Or.inl rfl
  · cases h

/-- The run of separators, and a rest that does not begin with one. -/
theorem run_spec (s : JsString) : ∃ rest, s = separator.run s ++ rest ∧
    Separators (separator.run s) ∧ separator.front rest = none := by
  induction s using separator.text_induction with
  | nil => exact ⟨[], rfl, .nil, rfl⟩
  | found m rest hfront ih =>
    obtain ⟨rest', hrest, hseparators, hnone⟩ := ih
    rw [RegExp.run_of_match hfront]
    refine ⟨rest', ?_, .append (isSeparator_of_front hfront) hseparators, hnone⟩
    rw [List.append_assoc, ← hrest]
  | passed a s hfront ih =>
    rw [RegExp.run_of_no_match hfront]
    exact ⟨a :: s, rfl, .nil, hfront⟩

/-- The run takes the whole text exactly when it consists of separators. -/
theorem run_eq_self_iff {s : JsString} : separator.run s = s ↔ Separators s := by
  constructor
  · intro h
    obtain ⟨rest, -, hseparators, -⟩ := run_spec s
    rwa [h] at hseparators
  · intro h
    induction h with
    | nil => rfl
    | append hs ht ih => rw [RegExp.run_of_match (separatorFront_append hs _), ih]

/-! ## The two scans -/

theorem leadingMatch_getD (text : JsString) : (leadingMatch text).getD [] = separator.run text := by
  unfold leadingMatch
  split
  · exact (‹separator.run text = []›).symm
  · rfl

/-- What is taken from the front and what is left. -/
theorem run_append_withoutLeading (text : JsString) :
    separator.run text ++ withoutLeading text = text ∧
      separator.front (withoutLeading text) = none := by
  obtain ⟨rest, hrest, -, hnone⟩ := run_spec text
  have hleft : withoutLeading text = rest := by
    unfold withoutLeading leadingMatch
    by_cases hrun : separator.run text = []
    · rw [if_pos hrun]
      rw [hrun] at hrest
      exact hrest
    · rw [if_neg hrun]
      calc text.drop (separator.run text).length
          = (separator.run text ++ rest).drop (separator.run text).length := by rw [← hrest]
        _ = rest := List.drop_left
  rw [hleft]
  exact ⟨hrest.symm, hnone⟩

/-- The scan for the end finds the longest suffix of separators. -/
theorem trailingMatch_spec (s : JsString) : (trailingMatch s).getD [] <:+ s ∧
    Separators ((trailingMatch s).getD []) ∧
    ∀ t, t <:+ s → Separators t → t <:+ (trailingMatch s).getD [] := by
  induction s with
  | nil => exact ⟨List.suffix_refl [], .nil, fun t ht _ => ht⟩
  | cons u s ih =>
    obtain ⟨hsuffix, hseparators, hlongest⟩ := ih
    rw [trailingMatch]
    by_cases hrun : separator.run (u :: s) = u :: s
    · rw [if_pos hrun]
      exact ⟨List.suffix_refl _, run_eq_self_iff.1 hrun, fun t ht _ => ht⟩
    · rw [if_neg hrun]
      refine ⟨hsuffix.trans (List.suffix_cons u s), hseparators, ?_⟩
      intro t ht hseparatorst
      rcases List.suffix_cons_iff.1 ht with rfl | ht
      · exact absurd (run_eq_self_iff.2 hseparatorst) hrun
      · exact hlongest t ht hseparatorst

theorem withoutTrailing_append (s : JsString) :
    withoutTrailing s ++ (trailingMatch s).getD [] = s := by
  obtain ⟨hsuffix, -, -⟩ := trailingMatch_spec s
  unfold withoutTrailing
  cases hmatch : trailingMatch s with
  | none => exact List.append_nil s
  | some m =>
    rw [hmatch] at hsuffix
    obtain ⟨before, hbefore⟩ := hsuffix
    show s.take (s.length - m.length) ++ m = s
    rw [← hbefore]
    simp

/-- What is left has no separator at its end. -/
theorem not_separator_suffix {s sep : JsString} (hsep : IsSeparator sep) :
    ¬ sep <:+ withoutTrailing s := by
  rintro ⟨before, hbefore⟩
  obtain ⟨-, hseparators, hlongest⟩ := trailingMatch_spec s
  have hs := withoutTrailing_append s
  rw [← hbefore, List.append_assoc] at hs
  have hlength := (hlongest _ ⟨before, hs⟩ (.append hsep hseparators)).length_le
  have hne : sep ≠ [] := by
    rcases hsep with rfl | ⟨u, -, rfl⟩
    · decide
    · exact List.cons_ne_nil _ _
  have hpos := List.length_pos_iff.2 hne
  rw [List.length_append] at hlength
  omega

/-- A unit that a separator can end with. -/
def Closes (u : UInt16) : Prop := isSpace u = true ∨ u = 0x3B

instance : DecidablePred Closes := fun u =>
  inferInstanceAs (Decidable (isSpace u = true ∨ u = 0x3B))

theorem closes_getLast {s : JsString} (hs : Separators s) : ∀ u ∈ s.getLast?, Closes u := by
  induction hs with
  | nil =>
    intro u hu
    cases hu
  | @append s t hs ht ih =>
    intro u hu
    rw [List.getLast?_append] at hu
    cases hlast : t.getLast? with
    | some v =>
      rw [hlast] at hu
      cases hu
      exact ih u hlast
    | none =>
      rw [hlast] at hu
      rcases hs with rfl | ⟨v, hv, rfl⟩
      · cases hu
        exact Or.inr rfl
      · cases hu
        exact Or.inl hv

/-- No separator is cut where a unit stands that a separator can end with. -/
theorem not_closes_of_nbsp {x y : JsString} (h : nbsp = x ++ y) (hx : x ≠ []) (hy : y ≠ []) :
    ∃ u ∈ x.getLast?, ¬ Closes u := by
  have htake : x = nbsp.take x.length := List.prefix_iff_eq_take.1 ⟨y, h.symm⟩
  have hlength := congrArg List.length h
  rw [List.length_append, show nbsp.length = 6 from rfl] at hlength
  have hposx := List.length_pos_iff.2 hx
  have hposy := List.length_pos_iff.2 hy
  have hcases : x.length = 1 ∨ x.length = 2 ∨ x.length = 3 ∨ x.length = 4 ∨ x.length = 5 := by
    omega
  rcases hcases with hn | hn | hn | hn | hn <;> rw [hn] at htake <;> subst htake <;>
    exact ⟨_, rfl, by decide⟩

/-- What is left of separators after a text that a separator can end with. -/
theorem separators_of_append {m : JsString} (h : Separators m) {x y : JsString}
    (hm : m = x ++ y) (hx : ∀ u ∈ x.getLast?, Closes u) : Separators y := by
  induction h generalizing x y with
  | nil =>
    obtain ⟨-, rfl⟩ := List.append_eq_nil_iff.1 hm.symm
    exact .nil
  | @append s t hs ht ih =>
    rcases List.append_eq_append_iff.1 hm with ⟨z, rfl, rfl⟩ | ⟨z, rfl, rfl⟩
    · refine ih rfl fun u hu => hx u ?_
      rw [List.getLast?_append, hu]
      rfl
    · by_cases hz : z = []
      · rw [hz]
        exact ht
      by_cases hxnil : x = []
      · rw [hxnil] at hs
        exact .append hs ht
      rcases hs with hs | ⟨v, -, hs⟩
      · obtain ⟨u, hu, hnot⟩ := not_closes_of_nbsp hs.symm hxnil hz
        exact absurd (hx u hu) hnot
      · have hlength := congrArg List.length hs
        have hposx := List.length_pos_iff.2 hxnil
        have hposz := List.length_pos_iff.2 hz
        rw [List.length_append, List.length_singleton] at hlength
        omega

/-- When something other than separators is left, the scan for the end sees only that. -/
theorem trailingMatch_eq {text : JsString} (htext : ¬ Separators text) :
    (trailingMatch text).getD [] = (trailingMatch (withoutLeading text)).getD [] := by
  obtain ⟨happend, hnone⟩ := run_append_withoutLeading text
  obtain ⟨-, -, hrun, -⟩ := run_spec text
  obtain ⟨hsuffix, hseparators, hlongest⟩ := trailingMatch_spec text
  obtain ⟨hsuffix', hseparators', hlongest'⟩ := trailingMatch_spec (withoutLeading text)
  have hleft : withoutLeading text <:+ text := ⟨_, happend⟩
  have hback := hlongest _ (hsuffix'.trans hleft) hseparators'
  rcases List.suffix_or_suffix_of_suffix hsuffix hleft with hwithin | ⟨x, hx⟩
  · exact (hlongest' _ hwithin hseparators).eq_of_length_le hback.length_le
  · -- the scan would reach into what was taken from the front, and all would be separators
    exfalso
    have hxsuffix : x <:+ separator.run text := by
      obtain ⟨before, hbefore⟩ := hsuffix
      have hboth : before ++ x ++ withoutLeading text
          = separator.run text ++ withoutLeading text := by
        rw [List.append_assoc, hx, hbefore, happend]
      exact ⟨before, List.append_cancel_right hboth⟩
    have hcloses : ∀ u ∈ x.getLast?, Closes u := by
      intro u hu
      obtain ⟨before, hbefore⟩ := hxsuffix
      refine closes_getLast hrun u ?_
      rw [← hbefore, List.getLast?_append, hu]
      rfl
    have hrest := separators_of_append hseparators hx.symm hcloses
    cases hcase : withoutLeading text with
    | nil =>
      rw [hcase, List.append_nil] at happend
      rw [happend] at hrun
      exact htext hrun
    | cons u s =>
      rw [← run_eq_self_iff, RegExp.run_of_no_match hnone, hcase] at hrest
      cases hrest

/-! ## Nothing is lost -/

/-- The parts make up the text, the value has no separator at its ends, and the other two
consist of separators. -/
structure Lossless (text : JsString) : Prop where
  joined : (trimText text).prefixText.getD [] ++ (trimText text).value
    ++ (trimText text).suffixText.getD [] = text
  start : ∀ sep, IsSeparator sep → ¬ sep <+: (trimText text).value
  stop : ∀ sep, IsSeparator sep → ¬ sep <:+ (trimText text).value
  prefixText : Separators ((trimText text).prefixText.getD [])
  suffixText : Separators ((trimText text).suffixText.getD [])

/-- **When trimming loses nothing.**  Exactly when the text is empty or has something other
than separators. -/
theorem lossless_iff (text : JsString) : Lossless text ↔ text = [] ∨ ¬ Separators text := by
  obtain ⟨happend, hnone⟩ := run_append_withoutLeading text
  obtain ⟨-, -, hrun, -⟩ := run_spec text
  obtain ⟨-, hseparators, hlongest⟩ := trailingMatch_spec text
  constructor
  · intro h
    by_contra hcondition
    obtain ⟨hne, hall⟩ := not_or.1 hcondition
    have hlength := congrArg List.length h.joined
    have hfirst : (trimText text).prefixText.getD [] = text := by
      show (leadingMatch text).getD [] = text
      rw [leadingMatch_getD, run_eq_self_iff]
      exact not_not.1 hall
    have hlast := (hlongest text (List.suffix_refl text) (not_not.1 hall)).length_le
    have hpos := List.length_pos_iff.2 hne
    rw [hfirst, List.length_append, List.length_append] at hlength
    change (text.length + _) + ((trailingMatch text).getD []).length = _ at hlength
    omega
  · intro h
    have hsuffix :
        (trailingMatch text).getD [] = (trailingMatch (withoutLeading text)).getD [] := by
      rcases h with rfl | htext
      · rfl
      · exact trailingMatch_eq htext
    refine ⟨?_, ?_, fun sep hsep => not_separator_suffix hsep, ?_, hseparators⟩
    · show (leadingMatch text).getD [] ++ withoutTrailing (withoutLeading text)
        ++ (trailingMatch text).getD [] = text
      rw [leadingMatch_getD, hsuffix, List.append_assoc, withoutTrailing_append, happend]
    · rintro sep hsep ⟨rest, hrest⟩
      have hleft := withoutTrailing_append (withoutLeading text)
      change sep ++ rest = withoutTrailing (withoutLeading text) at hrest
      rw [← hrest, List.append_assoc] at hleft
      rw [← hleft, separatorFront_append hsep] at hnone
      cases hnone
    · show Separators ((leadingMatch text).getD [])
      rw [leadingMatch_getD]
      exact hrun

/-- A text of one space is returned as the text before and again as the text after. -/
theorem space_not_lossless : trimText [0x20] = ⟨[], some [0x20], some [0x20]⟩ ∧
    ¬ Lossless [0x20] := by
  refine ⟨rfl, fun h => ?_⟩
  have hlength := congrArg List.length h.joined
  revert hlength
  decide

end SharedTsLibs.UniversalTsUtils
