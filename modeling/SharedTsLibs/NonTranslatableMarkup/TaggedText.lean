import SharedTsLibs.NonTranslatableMarkup.Methods

/-!
# Tagged texts

The texts in which start and end tags alternate, with something between each start tag and
its end tag, and what the three scans make of them.

* `TaggedText` — such a text, cut at its tags.
* `alternates_iff` — a text can be cut so exactly when its tags alternate.
* `allMatches_render`, `replace_render` — only regions without line terminators are found.
* `areNonTranslatableTagsComplementary_render` — every such text is accepted.
* `consistent_iff` — the scans agree when no region has a line terminator.
-/

namespace SharedTsLibs.NonTranslatableMarkup

def NoTags (s : JsString) : Prop := ∀ u ∈ s, u ≠ startTag ∧ u ≠ endTag

/-- A region, and the text up to the next one. -/
structure Region where
  content : JsString
  following : JsString
  content_ne_nil : content ≠ []
  noTags_content : NoTags content
  noTags_following : NoTags following

/-- A text whose tags alternate. -/
structure TaggedText where
  lead : JsString
  regions : List Region
  noTags_lead : NoTags lead

/-- A region with its tags. -/
def Region.tagged (r : Region) : JsString := startTag :: r.content ++ [endTag]

def renderRegions (rs : List Region) : JsString := rs.flatMap fun r => r.tagged ++ r.following

def TaggedText.render (t : TaggedText) : JsString := t.lead ++ renderRegions t.regions

/-- The text without its regions. -/
def TaggedText.withoutRegions (t : TaggedText) : JsString :=
  t.lead ++ t.regions.flatMap Region.following

/-- The text without its tags. -/
def TaggedText.withoutTags (t : TaggedText) : JsString :=
  t.lead ++ t.regions.flatMap fun r => r.content ++ r.following

/-- The region has no line terminator. -/
def Region.onOneLine (r : Region) : Bool := r.content.all fun u => !isLineTerminator u

/-! ## Texts whose tags alternate -/

/-- Where a reader of the tags stands. -/
inductive Place where
  | outside
  /-- Right after a start tag. -/
  | opened
  | inside

/-- Start and end tags alternate, with something between each pair. -/
def alternates : Place → JsString → Bool
  | .outside, [] => true
  | .opened, [] | .inside, [] => false
  | .outside, u :: s =>
    if u = startTag then alternates .opened s
    else if u = endTag then false
    else alternates .outside s
  | .opened, u :: s => if u = startTag ∨ u = endTag then false else alternates .inside s
  | .inside, u :: s =>
    if u = startTag then false
    else if u = endTag then alternates .outside s
    else alternates .inside s

theorem NoTags.cons {u : UInt16} {s : JsString} (hstart : u ≠ startTag) (hend : u ≠ endTag)
    (hs : NoTags s) : NoTags (u :: s) := by
  intro v hv
  rcases List.mem_cons.1 hv with rfl | hv
  · exact ⟨hstart, hend⟩
  · exact hs v hv

theorem noTags_nil : NoTags [] := fun _ h => absurd h (List.not_mem_nil)

/-- A text read from a place: what is left of the region there, and the text after it. -/
def CutFrom (place : Place) (s : JsString) : Prop :=
  ∃ (head : JsString) (t : TaggedText), NoTags head ∧
    match place with
    | .outside => head = [] ∧ s = t.render
    | .opened => head ≠ [] ∧ s = head ++ endTag :: t.render
    | .inside => s = head ++ endTag :: t.render

theorem cutFrom_of_alternates {place : Place} {s : JsString} (h : alternates place s = true) :
    CutFrom place s := by
  induction s generalizing place with
  | nil =>
    cases place with
    | outside => exact ⟨[], ⟨[], [], noTags_nil⟩, noTags_nil, rfl, rfl⟩
    | opened => cases h
    | inside => cases h
  | cons u s ih =>
    cases place with
    | outside =>
      rw [alternates] at h
      split at h
      · rename_i hu
        obtain ⟨head, t, hhead, hne, rfl⟩ := ih h
        refine ⟨[], ⟨[], ⟨head, t.lead, hne, hhead, t.noTags_lead⟩ :: t.regions, noTags_nil⟩,
          noTags_nil, rfl, ?_⟩
        simp [TaggedText.render, renderRegions, Region.tagged, hu]
      split at h
      · cases h
      · rename_i hstart hend
        obtain ⟨head, t, -, -, rfl⟩ := ih h
        exact ⟨[], ⟨u :: t.lead, t.regions, t.noTags_lead.cons hstart hend⟩, noTags_nil, rfl, rfl⟩
    | opened =>
      rw [alternates] at h
      split at h
      · cases h
      · rename_i hu
        obtain ⟨head, t, hhead, rfl⟩ := ih h
        exact ⟨u :: head, t, hhead.cons (fun hs => hu (Or.inl hs)) (fun he => hu (Or.inr he)),
          List.cons_ne_nil _ _, rfl⟩
    | inside =>
      rw [alternates] at h
      split at h
      · cases h
      rename_i hstart
      split at h
      · rename_i hend
        obtain ⟨-, t, -, -, rfl⟩ := ih h
        exact ⟨[], t, noTags_nil, by rw [hend]; rfl⟩
      · rename_i hend
        obtain ⟨head, t, hhead, rfl⟩ := ih h
        exact ⟨u :: head, t, hhead.cons hstart hend, rfl⟩

theorem alternates_outside_append {s : JsString} (hs : NoTags s) (t : JsString) :
    alternates .outside (s ++ t) = alternates .outside t := by
  induction s with
  | nil => rfl
  | cons u s ih =>
    obtain ⟨hstart, hend⟩ := hs u List.mem_cons_self
    rw [List.cons_append, alternates, if_neg hstart, if_neg hend,
      ih fun v hv => hs v (List.mem_cons_of_mem u hv)]

theorem alternates_inside_append {s : JsString} (hs : NoTags s) (t : JsString) :
    alternates .inside (s ++ endTag :: t) = alternates .outside t := by
  induction s with
  | nil => rw [List.nil_append, alternates, if_neg (by decide), if_pos rfl]
  | cons u s ih =>
    obtain ⟨hstart, hend⟩ := hs u List.mem_cons_self
    rw [List.cons_append, alternates, if_neg hstart, if_neg hend,
      ih fun v hv => hs v (List.mem_cons_of_mem u hv)]

theorem alternates_tagged_append (r : Region) (t : JsString) :
    alternates .outside (r.tagged ++ t) = alternates .outside t := by
  obtain ⟨u, s, hcontent⟩ := List.exists_cons_of_ne_nil r.content_ne_nil
  have hnotags := r.noTags_content
  rw [hcontent] at hnotags
  obtain ⟨hstart, hend⟩ := hnotags u List.mem_cons_self
  have hopened : ¬ (u = startTag ∨ u = endTag) := not_or.2 ⟨hstart, hend⟩
  have hsplit : r.tagged ++ t = startTag :: u :: (s ++ endTag :: t) := by
    simp [Region.tagged, hcontent]
  rw [hsplit, alternates, if_pos rfl, alternates, if_neg hopened]
  exact alternates_inside_append (fun v hv => hnotags v (List.mem_cons_of_mem u hv)) t

theorem alternates_render (t : TaggedText) : alternates .outside t.render = true := by
  obtain ⟨lead, regions, hlead⟩ := t
  rw [TaggedText.render, alternates_outside_append hlead]
  induction regions with
  | nil => rfl
  | cons r rs ih =>
    rw [renderRegions, List.flatMap_cons, List.append_assoc, alternates_tagged_append,
      alternates_outside_append r.noTags_following]
    exact ih

/-- A text can be cut at its tags exactly when they alternate. -/
theorem alternates_iff {s : JsString} :
    alternates .outside s = true ↔ ∃ t : TaggedText, s = t.render := by
  constructor
  · intro h
    obtain ⟨head, t, -, -, hs⟩ := cutFrom_of_alternates h
    exact ⟨t, hs⟩
  · rintro ⟨t, rfl⟩
    exact alternates_render t

/-! ## Acceptance -/

theorem closesTags_append {s : JsString} (hs : NoTags s) (t : JsString) (tagOpen : Bool) :
    closesTags tagOpen (openOrCloseTag.allMatches (s ++ t))
      = closesTags tagOpen (openOrCloseTag.allMatches t) := by
  have hfront : ∀ u ∈ s, ∀ t, openOrCloseTag.front (u :: t) = none := by
    intro u hu t
    exact if_neg (not_or.2 (hs u hu))
  rw [RegExp.allMatches, RegExp.segments_append hfront, RegExp.allMatches]

theorem closesTags_tag {u : UInt16} (hu : u = startTag ∨ u = endTag) (t : JsString)
    (tagOpen : Bool) : closesTags tagOpen (openOrCloseTag.allMatches (u :: t))
      = closesTags tagOpen ([u] :: openOrCloseTag.allMatches t) := by
  have hfront : openOrCloseTag.front ([u] ++ t) = some [u] := if_pos hu
  rw [RegExp.allMatches, ← List.singleton_append, RegExp.segments_of_match hfront]
  rfl

/-- Every text whose tags alternate is accepted. -/
theorem areNonTranslatableTagsComplementary_render (t : TaggedText) :
    areNonTranslatableTagsComplementary t.render = true := by
  obtain ⟨lead, regions, hlead⟩ := t
  rw [areNonTranslatableTagsComplementary, TaggedText.render, closesTags_append hlead]
  induction regions with
  | nil => rfl
  | cons r rs ih =>
    have htagged : ∀ s, r.tagged ++ s = startTag :: (r.content ++ endTag :: s) := by
      intro s
      simp [Region.tagged]
    rw [renderRegions, List.flatMap_cons, List.append_assoc, htagged, closesTags_tag (Or.inl rfl),
      closesTags, if_pos rfl, closesTags_append r.noTags_content, closesTags_tag (Or.inr rfl),
      closesTags, if_neg (by decide), if_pos rfl, if_neg (by decide),
      closesTags_append r.noTags_following]
    exact ih

/-! ## Regions that are found -/

theorem untilEnd_append {s : JsString} (hs : NoTags s) (rest : JsString) :
    untilEnd (s ++ endTag :: rest)
      = if s.all (fun u => !isLineTerminator u) then some (s ++ [endTag]) else none := by
  induction s with
  | nil => simp [untilEnd]
  | cons u s ih =>
    obtain ⟨-, hend⟩ := hs u List.mem_cons_self
    rw [List.cons_append, untilEnd, if_neg hend, ih fun v hv => hs v (List.mem_cons_of_mem u hv)]
    cases hu : isLineTerminator u with
    | true => simp [hu]
    | false =>
      simp only [hu, List.all_cons, Bool.not_false, Bool.true_and, Bool.false_eq_true, if_false]
      split <;> rfl

/-- A region is matched when it has no line terminator. -/
theorem front_tagged (r : Region) (rest : JsString) :
    nonTranslatableText.front (r.tagged ++ rest)
      = if r.onOneLine then some r.tagged else none := by
  obtain ⟨u, s, hcontent⟩ := List.exists_cons_of_ne_nil r.content_ne_nil
  have hnotags := r.noTags_content
  rw [hcontent] at hnotags
  have hfront : nonTranslatableText.front (r.tagged ++ rest)
      = if isLineTerminator u = false then
          (untilEnd (s ++ endTag :: rest)).map (fun m => startTag :: u :: m)
        else none := by
    have hsplit : r.tagged ++ rest = startTag :: u :: (s ++ endTag :: rest) := by
      simp [Region.tagged, hcontent]
    rw [hsplit]
    simp [nonTranslatableText, nonTranslatableFront]
  rw [hfront, untilEnd_append fun v hv => hnotags v (List.mem_cons_of_mem u hv),
    Region.onOneLine, Region.tagged, hcontent, List.all_cons]
  cases isLineTerminator u with
  | true => rfl
  | false =>
    simp only [Bool.not_false, Bool.true_and, if_true]
    split <;> rfl

theorem front_of_ne {u : UInt16} (h : u ≠ startTag) (s : JsString) :
    nonTranslatableText.front (u :: s) = none := by
  cases s with
  | nil => rfl
  | cons v s => exact if_neg fun hu => h hu.1

/-- The segments that are found, with a text in front: a region with a line terminator
stays part of the text. -/
def foundRegions : JsString → List Region → JsString × List (JsString × JsString)
  | lead, [] => (lead, [])
  | lead, r :: rs =>
    let next := foundRegions r.following rs
    if r.onOneLine then (lead, (r.tagged, next.1) :: next.2)
    else (lead ++ r.tagged ++ next.1, next.2)

theorem segments_renderRegions {lead : JsString} (hlead : NoTags lead) (rs : List Region) :
    nonTranslatableText.segments (lead ++ renderRegions rs) = foundRegions lead rs := by
  induction rs generalizing lead with
  | nil =>
    have hfront : ∀ u ∈ lead, ∀ t, nonTranslatableText.front (u :: t) = none :=
      fun u hu => front_of_ne (hlead u hu).1
    rw [renderRegions, List.flatMap_nil, RegExp.segments_append hfront]
    simp [foundRegions]
  | cons r rs ih =>
    have hfront : ∀ u ∈ lead, ∀ t, nonTranslatableText.front (u :: t) = none :=
      fun u hu => front_of_ne (hlead u hu).1
    have hnext := ih r.noTags_following
    rw [renderRegions, List.flatMap_cons, List.append_assoc, RegExp.segments_append hfront,
      ← renderRegions, foundRegions]
    have hmatch := front_tagged r (r.following ++ renderRegions rs)
    by_cases hline : r.onOneLine = true
    · rw [if_pos hline] at hmatch
      rw [RegExp.segments_of_match hmatch, hnext]
      simp [hline]
    · rw [if_neg hline] at hmatch
      have hrest : ∀ u ∈ r.content ++ [endTag], ∀ t, nonTranslatableText.front (u :: t) = none := by
        intro u hu
        apply front_of_ne
        rcases List.mem_append.1 hu with hu | hu
        · exact (r.noTags_content u hu).1
        · rw [List.mem_singleton.1 hu]
          decide
      rw [Region.tagged, List.cons_append, List.cons_append] at hmatch
      rw [Region.tagged, List.cons_append, List.cons_append, RegExp.segments_of_no_match hmatch,
        RegExp.segments_append hrest, hnext]
      simp [hline]

/-- The regions that are found are those without a line terminator. -/
theorem allMatches_render (t : TaggedText) : nonTranslatableText.allMatches t.render
    = (t.regions.filter Region.onOneLine).map Region.tagged := by
  have hfound : ∀ rs lead, (foundRegions lead rs).2.map Prod.fst
      = (rs.filter Region.onOneLine).map Region.tagged := by
    intro rs
    induction rs with
    | nil => exact fun lead => rfl
    | cons r rs ih =>
      intro lead
      by_cases hline : r.onOneLine = true
      · simp [foundRegions, hline, ih]
      · simp [foundRegions, hline, ih]
  rw [RegExp.allMatches, TaggedText.render, segments_renderRegions t.noTags_lead]
  exact hfound t.regions t.lead

/-- Only the regions without a line terminator are replaced. -/
theorem replace_render (f : JsString → JsString) (t : TaggedText) :
    nonTranslatableText.replace f t.render = t.lead ++ t.regions.flatMap fun r =>
      (if r.onOneLine then f r.tagged else r.tagged) ++ r.following := by
  have hfound : ∀ rs lead, (foundRegions lead rs).1
      ++ (foundRegions lead rs).2.flatMap (fun p => f p.1 ++ p.2)
        = lead ++ rs.flatMap fun r =>
          (if r.onOneLine then f r.tagged else r.tagged) ++ r.following := by
    intro rs
    induction rs with
    | nil => exact fun lead => rfl
    | cons r rs ih =>
      intro lead
      have hnext := ih r.following
      by_cases hline : r.onOneLine = true
      · simp only [foundRegions, hline, if_true, List.flatMap_cons, List.append_assoc, hnext]
      · simp only [foundRegions, hline, List.flatMap_cons, List.append_assoc]
        simp [hnext]
  rw [RegExp.replace, TaggedText.render, segments_renderRegions t.noTags_lead]
  exact hfound t.regions t.lead

/-! ## Agreement of the scans -/

/-- Texts that differ in what stands for some regions, one of them the longer for each. -/
theorem flatMap_eq_iff {f g : Region → JsString}
    (h : ∀ r, f r = g r ∨ (g r).length < (f r).length) (rs : List Region) :
    (rs.flatMap fun r => f r ++ r.following) = (rs.flatMap fun r => g r ++ r.following) ↔
      ∀ r ∈ rs, f r = g r := by
  have hlength : ∀ rs : List Region, (rs.flatMap fun r => g r ++ r.following).length
      ≤ (rs.flatMap fun r => f r ++ r.following).length := by
    intro rs
    induction rs with
    | nil => exact Nat.le_refl _
    | cons r rs ih =>
      simp only [List.flatMap_cons, List.length_append]
      rcases h r with heq | hlt
      · rw [heq]
        omega
      · omega
  induction rs with
  | nil => simp
  | cons r rs ih =>
    rw [List.forall_mem_cons, List.flatMap_cons, List.flatMap_cons]
    rcases h r with heq | hlt
    · rw [heq, List.append_cancel_left_eq]
      exact ⟨fun htexts => ⟨rfl, ih.1 htexts⟩, fun hrs => ih.2 hrs.2⟩
    · constructor
      · intro htexts
        have hlengths := congrArg List.length htexts
        have hle := hlength rs
        simp only [List.length_append] at hlengths
        omega
      · rintro ⟨heq, -⟩
        rw [heq] at hlt
        exact absurd hlt (Nat.lt_irrefl _)

/-- The pieces between the tagged regions, with HTML and spacing kept. -/
def piecesBetweenTags (text : JsString) : List JsString :=
  extractTextBetweenTags text { keepHtml := true, preserveSpacing := true }

theorem flatten_piecesBetweenTags (text : JsString) :
    (piecesBetweenTags text).flatten = nonTranslatableText.replace (fun _ => []) text := by
  have hpieces : piecesBetweenTags text
      = (nonTranslatableText.split text).filter fun piece => piece ≠ [] := by
    simp [piecesBetweenTags, extractTextBetweenTags]
  rw [hpieces, List.flatten_filter_ne_nil, RegExp.flatten_split]

theorem innerText_tagged (r : Region) : innerText r.tagged = r.content := by
  simp [innerText, Region.tagged]

/-- The pieces of the text are the text without its regions exactly when no region has a
line terminator. -/
theorem flatten_piecesBetweenTags_render_iff (t : TaggedText) :
    (piecesBetweenTags t.render).flatten = t.withoutRegions ↔
      ∀ r ∈ t.regions, r.onOneLine = true := by
  have hlonger : ∀ r : Region, (if r.onOneLine then [] else r.tagged) = []
      ∨ ([] : JsString).length < (if r.onOneLine then [] else r.tagged).length := by
    intro r
    cases r.onOneLine with
    | true => exact Or.inl rfl
    | false => exact Or.inr (by simp [Region.tagged])
  have hregion : ∀ r : Region, (if r.onOneLine then [] else r.tagged) = [] ↔
      r.onOneLine = true := by
    intro r
    cases r.onOneLine with
    | true => simp
    | false => simp [Region.tagged]
  have hregions := flatMap_eq_iff hlonger t.regions
  rw [flatten_piecesBetweenTags, replace_render, TaggedText.withoutRegions,
    List.append_cancel_left_eq]
  simp only [List.nil_append, hregion] at hregions
  exact hregions

/-- The same for the text without its tags. -/
theorem removeNonTranslatableTags_render_iff (t : TaggedText) :
    removeNonTranslatableTags t.render = t.withoutTags ↔
      ∀ r ∈ t.regions, r.onOneLine = true := by
  have hlonger : ∀ r : Region, (if r.onOneLine then r.content else r.tagged) = r.content
      ∨ r.content.length < (if r.onOneLine then r.content else r.tagged).length := by
    intro r
    cases r.onOneLine with
    | true => exact Or.inl rfl
    | false =>
      right
      simp only [Bool.false_eq_true, if_false, Region.tagged, List.length_append, List.length_cons,
        List.length_nil]
      omega
  have hregion : ∀ r : Region, (if r.onOneLine then r.content else r.tagged) = r.content ↔
      r.onOneLine = true := by
    intro r
    cases r.onOneLine with
    | true => simp
    | false =>
      simp only [Bool.false_eq_true, if_false, iff_false]
      intro htagged
      have hlengths := congrArg List.length htagged
      simp only [Region.tagged, List.length_append, List.length_cons, List.length_nil] at hlengths
      omega
  have hregions := flatMap_eq_iff hlonger t.regions
  rw [removeNonTranslatableTags, replace_render, TaggedText.withoutTags,
    List.append_cancel_left_eq]
  simp only [innerText_tagged]
  simp only [hregion] at hregions
  exact hregions

/-- The text is accepted, its pieces are the text without the regions, and without its tags
everything else is left. -/
def Consistent (t : TaggedText) : Prop :=
  areNonTranslatableTagsComplementary t.render = true ∧
    (piecesBetweenTags t.render).flatten = t.withoutRegions ∧
    removeNonTranslatableTags t.render = t.withoutTags

/-- **When the scans agree.**  Every text whose tags alternate is accepted, and it is cut at
its tags exactly when no region has a line terminator. -/
theorem consistent_iff (t : TaggedText) :
    Consistent t ↔ ∀ r ∈ t.regions, r.onOneLine = true := by
  rw [Consistent, flatten_piecesBetweenTags_render_iff, removeNonTranslatableTags_render_iff]
  constructor
  · rintro ⟨-, h, -⟩
    exact h
  · intro h
    exact ⟨areNonTranslatableTagsComplementary_render t, h, h⟩

/-- A region that holds a single unit. -/
def unitRegion (u : UInt16) (h : u ≠ startTag ∧ u ≠ endTag) : Region where
  content := [u]
  following := []
  content_ne_nil := List.cons_ne_nil _ _
  noTags_content := noTags_nil.cons h.1 h.2
  noTags_following := noTags_nil

/-- A line break between two tags. -/
def lineBreak : TaggedText := ⟨[], [unitRegion 0x0A (by decide)], noTags_nil⟩

/-- A line break between two tags is accepted, and then left in the text with its tags. -/
theorem lineBreak_not_consistent : ¬ Consistent lineBreak := by
  rintro ⟨-, -, hremoved⟩
  revert hremoved
  decide

end SharedTsLibs.NonTranslatableMarkup
