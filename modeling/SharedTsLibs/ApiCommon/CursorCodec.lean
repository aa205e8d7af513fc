import SharedTsLibs.Lib.Base64
import SharedTsLibs.Lib.Misread

/-!
# Cursors

`cursorCodec.ts`: an object is written as JSON and then in the URL alphabet of base64, by
`Buffer` where there is one and by `btoa` and `atob` where there is none.

* `stringToBase64url`, `base64urlToString` — the two conversions in their two modes.
* `encodeCursor`, `decodeCursor` — what a runtime makes of an object and of a cursor.
* `roundTrips_buffer`, `roundTrips_atobBtoa_iff` — the objects that survive in each mode.
* `interoperates_iff` — the strings on which the modes agree.
* `exchanged_iff` — the objects whose cursors can be read in every runtime.
* `cursorCodec_iff` — where the codec does what its users rely on.
-/

namespace SharedTsLibs.ApiCommon

open JsString

variable {N : Type}

inductive ConversionMode where
  | buffer
  | atobBtoa
  deriving DecidableEq

/-- What may be thrown, or returned as an error. -/
inductive CursorError where
  /-- The `InvalidCharacterError` of `btoa` and `atob`. -/
  | invalidCharacter
  /-- The `SyntaxError` of `JSON.parse`. -/
  | syntaxError
  /-- `new Error('Invalid cursor')` -/
  | invalidCursor
  deriving DecidableEq

/-- What the codec sees of its runtime: whether there is a `Buffer`. -/
structure Runtime where
  hasBuffer : Bool

def resolveConversionMode (runtime : Runtime) : ConversionMode :=
  if runtime.hasBuffer then .buffer else .atobBtoa

/-! ## Conversions -/

/-- `s.replace(/u/g, v)` for single units. -/
def replaceAll (u v : UInt16) (s : JsString) : JsString := s.map fun w => if w = u then v else w

/-- `s.padEnd(length, u)` -/
def padEnd (s : JsString) (length : ℕ) (u : UInt16) : JsString :=
  s ++ List.replicate (length - s.length) u

def btoa (s : JsString) : Except CursorError JsString :=
  if Latin1 s then .ok (Base64.padded ((Base64.sextets (latin1Encode s)).map Base64.letter))
  else .error .invalidCharacter

def atob (s : JsString) : Except CursorError JsString :=
  match Base64.forgiving s with
  | some bytes => .ok (latin1Decode bytes)
  | none => .error .invalidCharacter

def base64urlToString (base64url : JsString) : ConversionMode → Except CursorError JsString
  | .buffer => .ok (utf8Decode (Base64.lenient base64url))
  | .atobBtoa =>
    let base64 := replaceAll 0x5F 0x2F (replaceAll 0x2D 0x2B base64url)
    let paddedBase64 := padEnd base64 (base64.length + (4 - base64.length % 4) % 4) Base64.pad
    atob paddedBase64

def stringToBase64url (value : JsString) : ConversionMode → Except CursorError JsString
  | .buffer => .ok ((Base64.sextets (utf8Encode value)).map fun v => Base64.toUrl (Base64.letter v))
  | .atobBtoa => do
    let base64 ← btoa value
    return (replaceAll 0x2F 0x5F (replaceAll 0x2B 0x2D base64)).rdropWhile (· = Base64.pad)

/-! ## Cursors -/

/-- `result && isObject(result)`: an array is an object too. -/
def isObject : Json N → Bool
  | .arr _ | .obj _ => true
  | .null | .bool _ | .num _ | .str _ => false

section Cursors

variable (format : NumberFormat N)

def encodeCursor (runtime : Runtime) (object : Json N) : Except CursorError JsString :=
  stringToBase64url (object.stringify format) (resolveConversionMode runtime)

/-- Whatever is thrown while decoding is returned as the error. -/
def decodeCursor (runtime : Runtime) (value : JsString) : Except CursorError (Json N) :=
  match base64urlToString value (resolveConversionMode runtime) with
  | .error e => .error e
  | .ok text =>
    match Json.parse format text with
    | none => .error .syntaxError
    | some result => if isObject result then .ok result else .error .invalidCursor

end Cursors

/-- The objects that JSON can write. -/
structure JsonObject (N : Type) where
  members : List (JsString × Json N)
  wellFormed : (Json.obj members).WellFormed

def JsonObject.value (object : JsonObject N) : Json N := .obj object.members

/-- The object is written, and read again as an equal object. -/
def RoundTrips (format : NumberFormat N) (runtime : Runtime) (object : JsonObject N) : Prop :=
  ∃ cursor, encodeCursor format runtime object.value = .ok cursor ∧
    decodeCursor format runtime cursor = .ok object.value

/-- A cursor made in any runtime is read in any runtime. -/
def Exchanged (format : NumberFormat N) (object : JsonObject N) : Prop :=
  ∀ writer reader, ∃ cursor, encodeCursor format writer object.value = .ok cursor ∧
    decodeCursor format reader cursor = .ok object.value

/-- Both modes write one text for the string, and both read the string from it. -/
def Interoperates (s : JsString) : Prop :=
  ∃ text, (∀ mode, stringToBase64url s mode = .ok text) ∧
    ∀ mode, base64urlToString text mode = .ok s

/-! ## What the conversions do -/

/-- Bytes in the URL alphabet, without padding. -/
def urlText (bytes : List UInt8) : JsString :=
  (Base64.sextets bytes).map fun v => Base64.toUrl (Base64.letter v)

theorem replaceAll_toUrl (s : JsString) :
    replaceAll 0x2F 0x5F (replaceAll 0x2B 0x2D s) = s.map Base64.toUrl := by
  rw [replaceAll, replaceAll, List.map_map]
  apply List.map_congr_left
  intro u _
  by_cases hplus : u = 0x2B
  · simp [Base64.toUrl, hplus]
  · simp [Base64.toUrl, hplus]

theorem replaceAll_toStandard (s : JsString) :
    replaceAll 0x5F 0x2F (replaceAll 0x2D 0x2B s) = s.map Base64.toStandard := by
  rw [replaceAll, replaceAll, List.map_map]
  apply List.map_congr_left
  intro u _
  by_cases hminus : u = 0x2D
  · simp [Base64.toStandard, hminus]
  · simp [Base64.toStandard, hminus]

theorem padEnd_eq_padded (s : JsString) :
    padEnd s (s.length + (4 - s.length % 4) % 4) Base64.pad = Base64.padded s := by
  rw [padEnd, Base64.padded, Nat.add_sub_cancel_left]

theorem stringToBase64url_buffer (s : JsString) :
    stringToBase64url s .buffer = .ok (urlText (utf8Encode s)) := rfl

/-- `btoa` throws on a string that has a unit beyond the first 256. -/
theorem stringToBase64url_atobBtoa (s : JsString) : stringToBase64url s .atobBtoa =
    if Latin1 s then .ok (urlText (latin1Encode s)) else .error .invalidCharacter := by
  rw [stringToBase64url, btoa]
  split
  · have hpad : Base64.pad ∉ (Base64.sextets (latin1Encode s)).map
        fun v => Base64.toUrl (Base64.letter v) := by
      intro h
      obtain ⟨v, -, hv⟩ := List.mem_map.1 h
      exact Base64.toUrl_letter_ne_pad v hv
    have hmap : ∀ t : JsString, (Base64.padded t).map Base64.toUrl
        = Base64.padded (t.map Base64.toUrl) := by
      intro t
      rw [Base64.padded, Base64.padded, List.map_append, List.map_replicate, List.length_map]
      rfl
    simp only [bind, Except.bind, pure, Except.pure, replaceAll_toUrl, hmap, List.map_map]
    exact congrArg Except.ok (Base64.rdropWhile_padded hpad)
  · rfl

theorem base64urlToString_buffer (bytes : List UInt8) :
    base64urlToString (urlText bytes) .buffer = .ok (utf8Decode bytes) := by
  rw [base64urlToString, urlText, Base64.lenient_letters]

theorem base64urlToString_atobBtoa (bytes : List UInt8) :
    base64urlToString (urlText bytes) .atobBtoa = .ok (latin1Decode bytes) := by
  have hstandard : (urlText bytes).map Base64.toStandard
      = (Base64.sextets bytes).map Base64.letter := by
    rw [urlText, List.map_map]
    apply List.map_congr_left
    intro v _
    exact Base64.toStandard_toUrl_letter v
  simp only [base64urlToString, replaceAll_toStandard, padEnd_eq_padded, hstandard, atob,
    Base64.forgiving_padded]

theorem interoperates_iff (s : JsString) : Interoperates s ↔ Ascii s := by
  constructor
  · rintro ⟨text, hwrite, -⟩
    have hbuffer := hwrite .buffer
    have hbtoa := hwrite .atobBtoa
    rw [stringToBase64url_buffer] at hbuffer
    rw [stringToBase64url_atobBtoa] at hbtoa
    by_cases hlatin : Latin1 s
    · rw [if_pos hlatin, ← hbuffer] at hbtoa
      have htexts : urlText (latin1Encode s) = urlText (utf8Encode s) := Except.ok.inj hbtoa
      exact (utf8Encode_eq_latin1_iff hlatin).1 (Base64.urlLetters_injective htexts.symm)
    · rw [if_neg hlatin] at hbtoa
      cases hbtoa
  · intro hascii
    have hlatin : Latin1 s := hascii.mono (by decide)
    have hbytes : utf8Encode s = latin1Encode s := (utf8Encode_eq_latin1_iff hlatin).2 hascii
    refine ⟨urlText (latin1Encode s), fun mode => ?_, fun mode => ?_⟩
    · cases mode with
      | buffer => rw [stringToBase64url_buffer, hbytes]
      | atobBtoa => rw [stringToBase64url_atobBtoa, if_pos hlatin]
    · cases mode with
      | buffer => rw [base64urlToString_buffer, ← hbytes,
          utf8Decode_utf8Encode (isText_of_latin1 hlatin)]
      | atobBtoa => rw [base64urlToString_atobBtoa, latin1Decode_latin1Encode hlatin]

/-! ## What becomes of an object -/

section Objects

variable {format : NumberFormat N} (object : JsonObject N)

/-- The object is read from its own text. -/
theorem decodeCursor_of_text {runtime : Runtime} {cursor : JsString}
    (h : base64urlToString cursor (resolveConversionMode runtime)
      = .ok (object.value.stringify format)) :
    decodeCursor format runtime cursor = .ok object.value := by
  rw [decodeCursor, h]
  simp only [Json.parse_stringify format object.wellFormed, JsonObject.value, isObject, if_true]

/-- With a `Buffer` every object survives: its text has no lone surrogate. -/
theorem roundTrips_buffer : RoundTrips format ⟨true⟩ object := by
  refine ⟨urlText (utf8Encode (object.value.stringify format)), rfl, ?_⟩
  apply decodeCursor_of_text
  have htext := Json.isText_stringify format object.value
  rw [resolveConversionMode, if_pos rfl, base64urlToString_buffer, utf8Decode_utf8Encode htext]

theorem roundTrips_atobBtoa_iff : RoundTrips format ⟨false⟩ object ↔
    Latin1 (object.value.stringify format) := by
  have hmode : resolveConversionMode ⟨false⟩ = .atobBtoa := rfl
  constructor
  · rintro ⟨cursor, hwrite, -⟩
    rw [encodeCursor, hmode, stringToBase64url_atobBtoa] at hwrite
    by_contra hlatin
    rw [if_neg hlatin] at hwrite
    cases hwrite
  · intro hlatin
    refine ⟨urlText (latin1Encode (object.value.stringify format)), ?_, ?_⟩
    · rw [encodeCursor, hmode, stringToBase64url_atobBtoa, if_pos hlatin]
    · apply decodeCursor_of_text
      rw [hmode, base64urlToString_atobBtoa, latin1Decode_latin1Encode hlatin]

/-- The object survives in every runtime when its strings and names have only characters
below `U+0100`, lone surrogates apart. -/
theorem roundTrips_iff : (∀ runtime, RoundTrips format runtime object) ↔
    ∀ s ∈ object.value.strings, ∀ p ∈ codePoints s, FitsBelow 0x100 p := by
  have hunits := Json.below_stringify_iff format (k := 0x100) (by decide) (by decide)
    object.value
  constructor
  · intro h
    exact hunits.1 ((roundTrips_atobBtoa_iff object).1 (h ⟨false⟩))
  · rintro h ⟨hasBuffer⟩
    cases hasBuffer with
    | false => exact (roundTrips_atobBtoa_iff object).2 (hunits.2 h)
    | true => exact roundTrips_buffer object

/-- Cursors can be exchanged when the strings and names of the object are ASCII, lone
surrogates apart: elsewhere what `Buffer` has written is misread by `atob`. -/
theorem exchanged_iff : Exchanged format object ↔
    ∀ s ∈ object.value.strings, ∀ p ∈ codePoints s, FitsBelow 0x80 p := by
  constructor
  · intro h
    obtain ⟨cursor, hwrite, hread⟩ := h ⟨true⟩ ⟨false⟩
    cases hwrite
    have hmisread := Json.parse_stringify format
      (Json.wellFormed_mapStrings (f := misread) (fun _ _ => misread_injective) object.wellFormed)
    have hbytes : base64urlToString (urlText (utf8Encode (object.value.stringify format)))
        (resolveConversionMode ⟨false⟩) =
          .ok ((object.value.mapStrings misread).stringify format) := by
      rw [resolveConversionMode, if_neg (by decide), base64urlToString_atobBtoa,
        JsonObject.value, Json.misread_stringify object.wellFormed]
    have hdecode : decodeCursor format ⟨false⟩
        (urlText (utf8Encode (object.value.stringify format))) =
          .ok (object.value.mapStrings misread) := by
      rw [decodeCursor, hbytes]
      simp only [JsonObject.value, hmisread]
      rfl
    have hfixed : object.value.mapStrings misread = object.value :=
      Except.ok.inj (hdecode.symm.trans hread)
    intro s hs
    exact fitsBelow_of_misread (Json.strings_fixed object.wellFormed hfixed s hs)
  · intro h
    have hascii : Ascii (object.value.stringify format) :=
      (Json.below_stringify_iff format (le_refl _) (by decide) object.value).2 h
    obtain ⟨text, hwrite, hread⟩ := (interoperates_iff _).2 hascii
    intro writer reader
    exact ⟨text, hwrite _, decodeCursor_of_text object (hread _)⟩

end Objects

/-- **Where the cursor codec is right.**  An object survives in every runtime when it has no
character from `U+0100` on, its cursors can be exchanged between runtimes when it has none
from `U+0080` on, and the modes agree on a string when it is ASCII. -/
theorem cursorCodec_iff (format : NumberFormat N) :
    (∀ object : JsonObject N,
      ((∀ runtime, RoundTrips format runtime object) ↔
        ∀ s ∈ object.value.strings, ∀ p ∈ codePoints s, FitsBelow 0x100 p) ∧
      (Exchanged format object ↔
        ∀ s ∈ object.value.strings, ∀ p ∈ codePoints s, FitsBelow 0x80 p)) ∧
    ∀ s, Interoperates s ↔ Ascii s :=
  ⟨fun object => ⟨roundTrips_iff object, exchanged_iff object⟩, interoperates_iff⟩

/-- `{ name: '✓' }` -/
def checkMark : JsonObject ℕ where
  members := [([0x6E, 0x61, 0x6D, 0x65], .str [0x2713])]
  wellFormed := .obj (by decide) (by simpa using .str [0x2713])

/-- Without a `Buffer` no cursor can be made of a check mark, and the modes write `é`
differently. -/
theorem checkMark_not_roundTrips :
    ¬ RoundTrips decimal ⟨false⟩ checkMark ∧ ¬ Interoperates [0xE9] := by
  constructor
  · rintro ⟨cursor, hwrite, -⟩
    have hthrows : encodeCursor decimal ⟨false⟩ checkMark.value = .error .invalidCharacter := rfl
    rw [hthrows] at hwrite
    cases hwrite
  · rintro ⟨text, hwrite, -⟩
    have hbuffer : stringToBase64url [0xE9] .buffer = .ok [0x77, 0x36, 0x6B] := rfl
    have hbtoa : stringToBase64url [0xE9] .atobBtoa = .ok [0x36, 0x51] := rfl
    have htexts := (hwrite .buffer).trans (hwrite .atobBtoa).symm
    rw [hbuffer, hbtoa] at htexts
    simp at htexts

end SharedTsLibs.ApiCommon
