import SharedTsLibs.NonTranslatableMarkup.TaggedText
import Mathlib.Data.List.Perm.Basic

/-!
# Edits of tagged regions

What `isAttemptToEditNonTranslatableContent` answers for two texts whose tags alternate,
whatever it was called with before.

* `lastIndexAfter_eq_zero` — no call leaves a `lastIndex` behind.
* `answer_eq_false_iff` — the answer is about the regions that are found.
* `contents_perm_iff` — regions with and without line terminators, compared apart.
* `detectsEdits_iff` — when the answer is about all regions.
-/

namespace SharedTsLibs.NonTranslatableMarkup

/-! ## One call -/

theorem extractNTCTagsWithContent_zero (text : JsString) :
    extractNTCTagsWithContent text 0 = (nonTranslatableText.allMatches text, 0) :=
  RegExp.collect_eq text (Nat.zero_le _) (by omega)

/-- The comparison finds no difference when there is none. -/
theorem differs_eq_false_iff {l l' : List JsString} (hlength : l.length = l'.length) :
    differs l l' = false ↔ l = l' := by
  have hall : differs l l' = false ↔ ∀ i < l.length, l[i]? = l'[i]? := by
    simp [differs, List.any_eq_false]
  rw [hall]
  constructor
  · intro h
    apply List.ext_getElem?
    intro i
    by_cases hi : i < l.length
    · exact h i hi
    · rw [List.getElem?_eq_none (by omega), List.getElem?_eq_none (by omega)]
  · rintro rfl i _
    rfl

/-- With a fresh expression the answer is whether the matches are the same, in any order,
and the expression is left fresh. -/
theorem answer_eq_false_iff (text updatedText : JsString) :
    (isAttemptToEditNonTranslatableContent 0 text updatedText).2 = 0 ∧
      ((isAttemptToEditNonTranslatableContent 0 text updatedText).1 = false ↔
        (nonTranslatableText.allMatches text).Perm
          (nonTranslatableText.allMatches updatedText)) := by
  unfold isAttemptToEditNonTranslatableContent
  by_cases hsame : text = updatedText
  · rw [if_pos hsame, hsame]
    simp
  · rw [if_neg hsame, extractNTCTagsWithContent_zero]
    dsimp only
    rw [extractNTCTagsWithContent_zero]
    by_cases hlength : (nonTranslatableText.allMatches text).length
        = (nonTranslatableText.allMatches updatedText).length
    · have hsorted :=
        ((JsString.sort_perm (nonTranslatableText.allMatches text)).length_eq.trans hlength).trans
          (JsString.sort_perm (nonTranslatableText.allMatches updatedText)).length_eq.symm
      rw [if_neg (not_not.2 hlength)]
      exact ⟨rfl, (differs_eq_false_iff hsorted).trans JsString.sort_eq_iff⟩
    · rw [if_pos hlength]
      refine ⟨rfl, iff_of_false (by simp) fun hperm => hlength hperm.length_eq⟩

/-- The `lastIndex` that calls leave behind, one after the other. -/
def lastIndexAfter (calls : List (JsString × JsString)) : ℕ :=
  calls.foldl (fun lastIndex call =>
    (isAttemptToEditNonTranslatableContent lastIndex call.1 call.2).2) 0

/-- No call leaves anything behind. -/
theorem lastIndexAfter_eq_zero (calls : List (JsString × JsString)) : lastIndexAfter calls = 0 := by
  have hstep : ∀ calls : List (JsString × JsString), calls.foldl (fun lastIndex call =>
      (isAttemptToEditNonTranslatableContent lastIndex call.1 call.2).2) 0 = 0 := by
    intro calls
    induction calls with
    | nil => rfl
    | cons call calls ih =>
      rw [List.foldl_cons, (answer_eq_false_iff call.1 call.2).1]
      exact ih
  exact hstep calls

/-! ## Regions with and without line terminators -/

/-- What stands between the tags, region by region. -/
def TaggedText.contents (t : TaggedText) : List JsString := t.regions.map Region.content

def onOneLine (content : JsString) : Bool := content.all fun u => !isLineTerminator u

def TaggedText.oneLineContents (t : TaggedText) : List JsString := t.contents.filter onOneLine

def TaggedText.brokenContents (t : TaggedText) : List JsString :=
  t.contents.filter fun content => !onOneLine content

theorem allMatches_eq_oneLineContents (t : TaggedText) : nonTranslatableText.allMatches t.render
    = t.oneLineContents.map fun content => startTag :: content ++ [endTag] := by
  rw [allMatches_render, TaggedText.oneLineContents, TaggedText.contents, List.filter_map,
    List.map_map]
  rfl

theorem tag_injective : Function.Injective fun content : JsString =>
    startTag :: content ++ [endTag] := by
  intro content content' h
  simpa using h

/-- All regions are the same when those on one line are, and the others too. -/
theorem contents_perm_iff (t t' : TaggedText) : t.contents.Perm t'.contents ↔
    t.oneLineContents.Perm t'.oneLineContents ∧ t.brokenContents.Perm t'.brokenContents := by
  constructor
  · intro h
    exact ⟨h.filter _, h.filter _⟩
  · rintro ⟨hline, hbroken⟩
    have hparts := List.filter_append_perm onOneLine t.contents
    have hparts' := List.filter_append_perm onOneLine t'.contents
    exact (hparts.symm.trans (hline.append hbroken)).trans hparts'

/-- For two tagged texts the answer is whether the regions on one line are the same. -/
theorem answer_render_eq_false_iff (t t' : TaggedText) :
    (isAttemptToEditNonTranslatableContent 0 t.render t'.render).1 = false ↔
      t.oneLineContents.Perm t'.oneLineContents := by
  rw [(answer_eq_false_iff t.render t'.render).2, allMatches_eq_oneLineContents,
    allMatches_eq_oneLineContents]
  exact List.map_perm_map_iff tag_injective

/-! ## Detection -/

/-- After any calls the answer is `false` exactly when the texts have the same regions, it
is the same for the texts swapped, and it is what a fresh expression would answer. -/
def DetectsEdits (t t' : TaggedText) : Prop :=
  ∀ calls : List (JsString × JsString),
    ((isAttemptToEditNonTranslatableContent (lastIndexAfter calls) t.render t'.render).1 = false ↔
      t.contents.Perm t'.contents) ∧
    (isAttemptToEditNonTranslatableContent (lastIndexAfter calls) t'.render t.render).1
      = (isAttemptToEditNonTranslatableContent (lastIndexAfter calls) t.render t'.render).1 ∧
    (isAttemptToEditNonTranslatableContent (lastIndexAfter calls) t.render t'.render).1
      = (isAttemptToEditNonTranslatableContent 0 t.render t'.render).1

/-- The order of the two texts does not matter. -/
theorem answer_swap (t t' : TaggedText) :
    (isAttemptToEditNonTranslatableContent 0 t'.render t.render).1
      = (isAttemptToEditNonTranslatableContent 0 t.render t'.render).1 := by
  apply Bool.eq_iff_iff.2
  rw [← not_iff_not, Bool.not_eq_true, Bool.not_eq_true, answer_render_eq_false_iff,
    answer_render_eq_false_iff]
  exact List.perm_comm

/-- **When edits are detected.**  The answer is right, whatever was called before, exactly
when the regions with a line terminator are the same in both texts, or those without one
are not. -/
theorem detectsEdits_iff (t t' : TaggedText) : DetectsEdits t t' ↔
    (t.oneLineContents.Perm t'.oneLineContents → t.brokenContents.Perm t'.brokenContents) := by
  have hanswer : DetectsEdits t t' ↔
      (t.oneLineContents.Perm t'.oneLineContents ↔ t.contents.Perm t'.contents) := by
    rw [DetectsEdits]
    simp only [lastIndexAfter_eq_zero, answer_render_eq_false_iff, answer_swap t t', and_true]
    exact ⟨fun h => h [], fun h _ => h⟩
  rw [hanswer, contents_perm_iff]
  constructor
  · intro h hline
    exact (h.1 hline).2
  · intro h
    exact ⟨fun hline => ⟨hline, h hline⟩, And.left⟩

/-- A carriage return between two tags. -/
def carriageReturn : TaggedText := ⟨[], [unitRegion 0x0D (by decide)], noTags_nil⟩

/-- A protected line break can be changed without notice. -/
theorem lineBreak_not_detected : ¬ DetectsEdits lineBreak carriageReturn := by
  intro h
  have hanswer := (h []).1
  revert hanswer
  decide

end SharedTsLibs.NonTranslatableMarkup
