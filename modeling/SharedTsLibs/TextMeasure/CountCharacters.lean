import SharedTsLibs.NonTranslatableMarkup.TaggedText
import Mathlib.Algebra.BigOperators.Group.List.Basic
import Mathlib.Algebra.Ring.Nat

/-!
# Counting characters

`text-measure`: `countCharacters` counts a text without its tags, or without its tagged
regions.  The two counts go through `removeNonTranslatableTags` and `extractTextBetweenTags`.

* `regionContents` — the regions of a text, each from its first start tag to its end tag.
* `Cut`, `cut_of_accepted` — an accepted text is cut into its regions and what is between.
* `length_replace_cut` — what is left of a text when its regions are replaced.
* `countCharacters_modes` — the two counts and the length of the text.
-/

namespace SharedTsLibs.TextMeasure

open NonTranslatableMarkup

/-- `CharacterCountAlgorithmEnum` -/
inductive CharacterCountAlgorithm where
  | utf16
  | codePoints

structure CountCharactersOptions where
  algorithm : Option CharacterCountAlgorithm := none
  excludeNtc : Bool := false

def algorithms : CharacterCountAlgorithm → JsString → ℕ
  | .utf16, text => text.length
  | .codePoints, text => (JsString.codePoints text).length

def countCharacters (text : JsString) (options : CountCharactersOptions) : ℕ :=
  let algorithm := options.algorithm.getD .utf16
  let normalized :=
    if options.excludeNtc then
      (extractTextBetweenTags text { keepHtml := true, preserveSpacing := true }).flatten
    else removeNonTranslatableTags text
  algorithms algorithm normalized

/-! ## Regions of accepted texts -/

/-- The contents of the regions from here on, after what has been read of an open one. -/
def contentsFrom : Option JsString → JsString → List JsString
  | _, [] => []
  | none, u :: s => if u = startTag then contentsFrom (some []) s else contentsFrom none s
  | some content, u :: s =>
    if u = endTag then content :: contentsFrom none s
    else contentsFrom (some (content ++ [u])) s

/-- The contents of the regions, each from its first start tag to its end tag. -/
def regionContents (text : JsString) : List JsString := contentsFrom none text

/-- A text with the contents of its regions. -/
inductive Cut : List JsString → JsString → Prop
  | nil : Cut [] []
  | plain {u : UInt16} {contents : List JsString} {s : JsString} (hstart : u ≠ startTag)
      (h : Cut contents s) : Cut contents (u :: s)
  | region {content : JsString} {contents : List JsString} {s : JsString}
      (hend : endTag ∉ content) (h : Cut contents s) :
      Cut (content :: contents) (startTag :: content ++ [endTag] ++ s)

/-- A text that is accepted while a region is open or not. -/
theorem cut_of_closesTags {s : JsString} :
    (closesTags false (openOrCloseTag.allMatches s) = true → Cut (contentsFrom none s) s) ∧
      (closesTags true (openOrCloseTag.allMatches s) = true → ∀ content, endTag ∉ content →
        Cut (contentsFrom (some content) s) (startTag :: content ++ s)) := by
  induction s with
  | nil => exact ⟨fun _ => .nil, fun h => Bool.noConfusion h⟩
  | cons u s ih =>
    obtain ⟨ihclosed, ihopen⟩ := ih
    by_cases hstart : u = startTag
    · subst hstart
      constructor
      · intro h
        rw [closesTags_tag (Or.inl rfl), closesTags, if_pos rfl] at h
        have hcut := ihopen h [] List.not_mem_nil
        simpa [contentsFrom] using hcut
      · intro h content hcontent
        rw [closesTags_tag (Or.inl rfl), closesTags, if_pos rfl] at h
        have hcut := ihopen h (content ++ [startTag]) (by
          rw [List.mem_append, List.mem_singleton]
          exact not_or.2 ⟨hcontent, by decide⟩)
        rw [contentsFrom, if_neg (by decide)]
        simpa using hcut
    by_cases hend : u = endTag
    · subst hend
      constructor
      · intro h
        rw [closesTags_tag (Or.inr rfl), closesTags, if_neg (by decide), if_pos rfl] at h
        cases h
      · intro h content hcontent
        rw [closesTags_tag (Or.inr rfl), closesTags, if_neg (by decide), if_pos rfl] at h
        rw [contentsFrom, if_pos rfl]
        simpa using Cut.region hcontent (ihclosed h)
    · have hskip : ∀ tagOpen, closesTags tagOpen (openOrCloseTag.allMatches (u :: s))
          = closesTags tagOpen (openOrCloseTag.allMatches s) := fun tagOpen =>
        closesTags_append (s := [u]) (noTags_nil.cons hstart hend) s tagOpen
      rw [hskip, hskip]
      constructor
      · intro h
        rw [contentsFrom, if_neg hstart]
        exact .plain hstart (ihclosed h)
      · intro h content hcontent
        have hcut := ihopen h (content ++ [u]) (by
          rw [List.mem_append, List.mem_singleton]
          exact not_or.2 ⟨hcontent, Ne.symm hend⟩)
        rw [contentsFrom, if_neg hend]
        simpa using hcut

/-- An accepted text is cut into its regions and what is between them. -/
theorem cut_of_accepted {text : JsString}
    (h : areNonTranslatableTagsComplementary text = true) : Cut (regionContents text) text :=
  cut_of_closesTags.1 h

/-! ## What is left of a text -/

theorem untilEnd_content {content : JsString} (hend : endTag ∉ content)
    (hline : ∀ u ∈ content, isLineTerminator u = false) (rest : JsString) :
    untilEnd (content ++ [endTag] ++ rest) = some (content ++ [endTag]) := by
  induction content with
  | nil => simp [untilEnd]
  | cons u content ih =>
    obtain ⟨hu, hend⟩ := not_or.1 (List.mem_cons.not.1 hend)
    rw [List.cons_append, List.cons_append, untilEnd, if_neg (Ne.symm hu),
      hline u List.mem_cons_self,
      ih hend fun v hv => hline v (List.mem_cons_of_mem u hv)]
    rfl

/-- A region on one line with something in it is matched from its first start tag on. -/
theorem front_region {content : JsString} (hne : content ≠ []) (hend : endTag ∉ content)
    (hline : ∀ u ∈ content, isLineTerminator u = false) (rest : JsString) :
    nonTranslatableText.front (startTag :: content ++ [endTag] ++ rest)
      = some (startTag :: content ++ [endTag]) := by
  obtain ⟨u, s, rfl⟩ := List.exists_cons_of_ne_nil hne
  have hu : isLineTerminator u = false := hline u List.mem_cons_self
  have huntil := untilEnd_content (fun h => hend (List.mem_cons_of_mem u h))
    (fun v hv => hline v (List.mem_cons_of_mem u hv)) rest
  show nonTranslatableFront (startTag :: u :: (s ++ [endTag] ++ rest)) = _
  rw [nonTranslatableFront, if_pos ⟨rfl, hu⟩, huntil]
  rfl

/-- When each region is replaced by a text, what is left has the units outside the regions
and those of the texts. -/
theorem length_replace_cut {contents : List JsString} {text : JsString}
    (hcut : Cut contents text) (hline : ∀ u ∈ text, isLineTerminator u = false)
    (hempty : ¬ [startTag, endTag] <:+: text) (f : JsString → JsString) :
    (nonTranslatableText.replace f text).length
        + (contents.map fun c => c.length + 2).sum
      = text.length + (contents.map fun c => (f (startTag :: c ++ [endTag])).length).sum := by
  induction hcut with
  | nil => rfl
  | @plain u contents s hstart h ih =>
    have hrest := ih (fun v hv => hline v (List.mem_cons_of_mem u hv))
      fun hwithin => hempty (List.IsInfix.trans hwithin (List.suffix_cons u s).isInfix)
    rw [RegExp.replace_of_no_match (front_of_ne hstart s), List.length_cons, List.length_cons]
    omega
  | @region content contents s hend h ih =>
    have hne : content ≠ [] := by
      rintro rfl
      exact hempty ⟨[], s, rfl⟩
    have hcontent : ∀ u ∈ content, isLineTerminator u = false := fun u hu => hline u (by simp [hu])
    have hrest := ih (fun v hv => hline v (List.mem_append_right _ hv))
      fun hwithin => hempty (List.IsInfix.trans hwithin (List.suffix_append _ s).isInfix)
    rw [RegExp.replace_of_match (front_region hne hend hcontent s), List.length_append,
      List.length_append, List.map_cons, List.map_cons, List.sum_cons, List.sum_cons]
    have hlength : (startTag :: content ++ [endTag]).length = content.length + 2 := by simp
    omega

/-! ## The two counts -/

theorem countCharacters_default (text : JsString) :
    countCharacters text {} = (nonTranslatableText.replace innerText text).length := rfl

theorem countCharacters_excludeNtc (text : JsString) :
    countCharacters text { excludeNtc := true }
      = (nonTranslatableText.replace (fun _ => []) text).length := by
  rw [← flatten_piecesBetweenTags]
  rfl

/-- **The modes agree.**  Counting without the regions leaves out exactly their contents, and
the text is longer than the default count by two tags for each region. -/
theorem countCharacters_modes {text : JsString}
    (haccepted : areNonTranslatableTagsComplementary text = true)
    (hline : ∀ u ∈ text, isLineTerminator u = false)
    (hempty : ¬ [startTag, endTag] <:+: text) :
    countCharacters text {}
        = countCharacters text { excludeNtc := true }
          + ((regionContents text).map List.length).sum ∧
      text.length = countCharacters text {} + 2 * (regionContents text).length := by
  have hcut := cut_of_accepted haccepted
  have hdefault := length_replace_cut hcut hline hempty innerText
  have hexcluded := length_replace_cut hcut hline hempty fun _ => []
  have hinner : ((regionContents text).map fun c => (innerText (startTag :: c ++ [endTag])).length)
      = (regionContents text).map List.length := by
    apply List.map_congr_left
    intro c _
    simp [innerText]
  have htags : ∀ cs : List JsString, (cs.map fun c => c.length + 2).sum
      = (cs.map List.length).sum + 2 * cs.length := by
    intro cs
    induction cs with
    | nil => rfl
    | cons c cs ih =>
      rw [List.map_cons, List.map_cons, List.sum_cons, List.sum_cons, ih, List.length_cons]
      omega
  have hnone : ∀ cs : List JsString, (cs.map fun _ => ([] : JsString).length).sum = 0 := by
    intro cs
    simp
  rw [← countCharacters_default, htags, hinner] at hdefault
  rw [← countCharacters_excludeNtc, htags, hnone] at hexcluded
  omega

/-- `a`, and a region that holds a start tag and `b`. -/
def nestedStart : JsString := [0x61, startTag, startTag, 0x62, endTag]

/-- A start tag inside a region counts as its content. -/
theorem countCharacters_nestedStart :
    countCharacters nestedStart {} = countCharacters nestedStart { excludeNtc := true } + 2 ∧
      nestedStart.length = countCharacters nestedStart {} + 2 * 1 :=
  countCharacters_modes (by decide) (List.forall_iff_forall_mem.1 (by decide)) (by decide)

end SharedTsLibs.TextMeasure
