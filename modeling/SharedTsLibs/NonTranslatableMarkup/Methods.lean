import SharedTsLibs.Lib.CodeUnits
import SharedTsLibs.Lib.Delimiters
import SharedTsLibs.Lib.JsText

/-!
# Non-translatable markup

`non-translatable-markup`: regions of a text between a start and an end tag are not to be
translated.  Three functions look for these tags, each with a regular expression of its own.

* `nonTranslatableText`, `openOrCloseTag`, `htmlTag` — the expressions.
* `areNonTranslatableTagsComplementary`, `extractTextBetweenTags`,
  `removeNonTranslatableTags`, `isAttemptToEditNonTranslatableContent` — the functions.

The expressions have no flag `u`, so they read code units; `.` is any unit but a line
terminator.  The one expression that keeps a `lastIndex` between calls hands it on here.
-/

namespace SharedTsLibs.NonTranslatableMarkup

/-- `NON_TRANSLATABLE_START_TAG` -/
def startTag : UInt16 := 0xE101

/-- `NON_TRANSLATABLE_END_TAG` -/
def endTag : UInt16 := 0xE102

/-! ## Regular expressions -/

/-- What `.` does not match. -/
def isLineTerminator (u : UInt16) : Bool := u = 0x0A || u = 0x0D || u = 0x2028 || u = 0x2029

/-- `.*?` and the end tag. -/
def untilEnd : JsString → Option JsString
  | [] => none
  | u :: s =>
    if u = endTag then some [u]
    else if isLineTerminator u then none
    else (untilEnd s).map (u :: ·)

/-- `START.+?END` at the front of a text. -/
def nonTranslatableFront : JsString → Option JsString
  | u :: v :: s =>
    if u = startTag ∧ isLineTerminator v = false then (untilEnd s).map fun m => u :: v :: m
    else none
  | _ => none

/-- `[^<>]*>` -/
def untilBracket : JsString → Option JsString
  | [] => none
  | u :: s =>
    if u = 0x3E then some [u] else if u = 0x3C then none else (untilBracket s).map (u :: ·)

/-- `<[^<>]*>` at the front of a text. -/
def htmlFront : JsString → Option JsString
  | u :: s => if u = 0x3C then (untilBracket s).map (u :: ·) else none
  | [] => none

/-- `START|END` at the front of a text. -/
def openOrCloseFront : JsString → Option JsString
  | u :: _ => if u = startTag ∨ u = endTag then some [u] else none
  | [] => none

theorem untilEnd_spec {s m : JsString} (h : untilEnd s = some m) : ∃ rest, s = m ++ rest :=
  Delimiters.until_prefix rfl (fun _ _ => rfl) h

theorem untilBracket_spec {s m : JsString} (h : untilBracket s = some m) :
    ∃ rest, s = m ++ rest :=
  Delimiters.until_prefix rfl (fun _ _ => rfl) h

/-- `nonTranslatableTextRegexp`, with and without its flag. -/
def nonTranslatableText : RegExp UInt16 where
  front := nonTranslatableFront
  front_spec s m h := by
    unfold nonTranslatableFront at h
    split at h
    · split at h
      · obtain ⟨m', hm', rfl⟩ := Option.map_eq_some_iff.1 h
        obtain ⟨rest, rfl⟩ := untilEnd_spec hm'
        exact ⟨List.cons_ne_nil _ _, rest, rfl⟩
      · cases h
    · cases h

/-- `tagRegexpG` -/
def htmlTag : RegExp UInt16 where
  front := htmlFront
  front_spec s m h := by
    unfold htmlFront at h
    split at h
    · split at h
      · obtain ⟨m', hm', rfl⟩ := Option.map_eq_some_iff.1 h
        obtain ⟨rest, rfl⟩ := untilBracket_spec hm'
        exact ⟨List.cons_ne_nil _ _, rest, rfl⟩
      · cases h
    · cases h

/-- `nonTranslatableOpenOrCloseTagRegexp` -/
def openOrCloseTag : RegExp UInt16 where
  front := openOrCloseFront
  front_spec s m h := by
    unfold openOrCloseFront at h
    split at h
    · split at h
      · cases h
        exact ⟨List.cons_ne_nil _ _, _, rfl⟩
      · cases h
    · cases h

/-! ## Functions -/

/-- The loop of `areNonTranslatableTagsComplementary` over the tags. -/
def closesTags : Bool → List JsString → Bool
  | tagOpen, [] => !tagOpen
  | tagOpen, tag :: tags =>
    if tag = [startTag] then closesTags true tags
    else if tag = [endTag] then if !tagOpen then false else closesTags false tags
    else closesTags tagOpen tags

def areNonTranslatableTagsComplementary (text : JsString) : Bool :=
  closesTags false (openOrCloseTag.allMatches text)

/-- `ExtractTextBetweenTagsOptions`; what is left out counts as `false`. -/
structure ExtractOptions where
  keepNtc : Bool := false
  keepHtml : Bool := false
  preserveSpacing : Bool := false

def isSpace (u : UInt16) : Bool := JsText.isWhitespace (Char.ofNat u.toNat)

/-- `piece.trim()` -/
def trim (piece : JsString) : JsString := (piece.dropWhile isSpace).rdropWhile isSpace

def extractTextBetweenTags (text : JsString) (options : ExtractOptions) : List JsString :=
  let pieces := [text]
  let pieces := if options.keepNtc then pieces else pieces.flatMap nonTranslatableText.split
  let pieces := if options.keepHtml then pieces else pieces.flatMap htmlTag.split
  let pieces := if options.preserveSpacing then pieces else pieces.map trim
  pieces.filter fun piece => piece ≠ []

/-- `$1`: what stands between the tags of a match. -/
def innerText (found : JsString) : JsString := found.tail.dropLast

def removeNonTranslatableTags (text : JsString) : JsString :=
  nonTranslatableText.replace innerText text

/-- `extractNTCTagsWithContent`, which starts from the `lastIndex` it is left with. -/
def extractNTCTagsWithContent (text : JsString) (lastIndex : ℕ) : List JsString × ℕ :=
  nonTranslatableText.collect text (text.length + 1) lastIndex

/-- The comparison of the sorted regions, index by index. -/
def differs (sorted sortedUpdated : List JsString) : Bool :=
  (List.range sorted.length).any fun i => decide (sorted[i]? ≠ sortedUpdated[i]?)

/-- The answer, and the `lastIndex` that is left to the next call. -/
def isAttemptToEditNonTranslatableContent (lastIndex : ℕ) (text updatedText : JsString) :
    Bool × ℕ :=
  if text = updatedText then (false, lastIndex)
  else
    let inText := extractNTCTagsWithContent text lastIndex
    let inUpdatedText := extractNTCTagsWithContent updatedText inText.2
    if inText.1.length ≠ inUpdatedText.1.length then (true, inUpdatedText.2)
    else (differs (JsString.sort inText.1) (JsString.sort inUpdatedText.1), inUpdatedText.2)

end SharedTsLibs.NonTranslatableMarkup
