import SharedTsLibs.Lib.JsonText
import Mathlib.Data.List.Nodup

/-!
# Bytes read with the wrong decoder

A text written as UTF-8 and read as if each byte were a character, and what that does to
the JSON text of a value.

* `misread` — the string that is read.
* `fitsBelow_of_misread` — only strings without characters beyond ASCII are read as themselves.
* `Json.misread_stringify` — a JSON text is read as that of the value whose strings are misread.
-/

namespace JsString

/-! ## Strings -/

/-- The bytes of a character taken for one character each. -/
def misreadPoint : CodePoint → JsString
  | .scalar c => latin1Decode (String.utf8EncodeChar c)
  | .lone u => [u]

/-- A string whose bytes are read as one character each. -/
def misread (s : JsString) : JsString := (codePoints s).flatMap misreadPoint

/-- What becomes of a code point. -/
def misreadPoints : CodePoint → List CodePoint
  | .scalar c => (String.utf8EncodeChar c).map fun b => .scalar (Char.ofNat b.toNat)
  | .lone u => [.lone u]

theorem single_of_latin1 {u : UInt16} (h : u.toNat < 0x100) :
    single u = .scalar (Char.ofNat u.toNat) := by
  have hscalar : ¬ (IsHigh u ∨ IsLow u) := by
    unfold IsHigh IsLow
    omega
  rw [single, if_neg hscalar]

theorem codePoints_latin1Decode_append (bs : List UInt8) (s : JsString) :
    codePoints (latin1Decode bs ++ s)
      = bs.map (fun b => .scalar (Char.ofNat b.toNat)) ++ codePoints s := by
  induction bs with
  | nil => rfl
  | cons b bs ih =>
    have hb := b.toNat_lt
    have hunit : b.toUInt16.toNat = b.toNat := by simp
    have hlow : ¬ IsHigh b.toUInt16 := by
      unfold IsHigh
      omega
    rw [latin1Decode, List.map_cons, List.cons_append, codePoints_cons hlow, ← latin1Decode, ih,
      single_of_latin1 (by omega), hunit]
    rfl

/-- A surrogate is left without its partner when none comes next. -/
theorem codePoints_cons_of_head {u : UInt16} {s : JsString} (h : ∀ v ∈ s.head?, ¬ IsLow v) :
    codePoints (u :: s) = single u :: codePoints s := by
  cases s with
  | nil => rfl
  | cons v s => rw [codePoints, if_neg fun hpair => h v rfl hpair.2]

/-- What is read for a character does not start with a surrogate. -/
theorem head_misreadPoint_scalar (c : Char) (s : JsString) :
    ∀ v ∈ (misreadPoint (.scalar c) ++ s).head?, ¬ IsLow v := by
  intro v hv
  obtain ⟨b, bs, hbytes⟩ := List.exists_cons_of_ne_nil (String.utf8EncodeChar_ne_nil (c := c))
  rw [misreadPoint, hbytes, latin1Decode, List.map_cons, List.cons_append] at hv
  cases hv
  have hb := b.toNat_lt
  have hunit : b.toUInt16.toNat = b.toNat := by simp
  unfold IsLow
  omega

theorem head_misread {v : UInt16} (h : ¬ IsLow v) (rest : JsString) :
    ∀ w ∈ (misread (v :: rest)).head?, ¬ IsLow w := by
  have hsingle : ∀ s, ∀ w ∈ (misreadPoint (single v) ++ s).head?, ¬ IsLow w := by
    intro s
    unfold single
    split
    · intro w hw
      cases hw
      exact h
    · exact head_misreadPoint_scalar _ s
  cases rest with
  | nil => exact hsingle []
  | cons w rest =>
    rw [misread, codePoints]
    split
    · exact head_misreadPoint_scalar _ _
    · exact hsingle _

theorem codePoints_misreadPoint_append {p : CodePoint} {s : JsString}
    (h : ∀ u, p = .lone u → ¬ IsHigh u ∨ ∀ v ∈ s.head?, ¬ IsLow v)
    (hp : ∀ u, p = .lone u → single u = .lone u) :
    codePoints (misreadPoint p ++ s) = misreadPoints p ++ codePoints s := by
  cases p with
  | scalar c => exact codePoints_latin1Decode_append _ s
  | lone u =>
    rw [misreadPoint, misreadPoints, List.singleton_append, List.singleton_append, ← hp u rfl]
    rcases h u rfl with hhigh | hhead
    · exact codePoints_cons hhigh s
    · exact codePoints_cons_of_head hhead

/-- The code points of a misread string are those of its characters, misread one by one. -/
theorem codePoints_misread (s : JsString) :
    codePoints (misread s) = (codePoints s).flatMap misreadPoints := by
  have hlone : ∀ u w, single u = .lone w → u = w := by
    intro u w h
    unfold single at h
    split at h
    · exact CodePoint.lone.inj h
    · cases h
  induction s using codePoints.induct with
  | case1 => rfl
  | case2 u =>
    rw [misread, codePoints, List.flatMap_cons, List.flatMap_cons]
    apply codePoints_misreadPoint_append
    · intro w _
      exact Or.inr (by simp)
    · intro w hw
      rw [← hlone u w hw, hw, hlone u w hw]
  | case3 u v rest h ih =>
    rw [misread, codePoints, if_pos h, List.flatMap_cons, List.flatMap_cons, ← ih]
    apply codePoints_misreadPoint_append
    · intro w hw
      cases hw
    · intro w hw
      cases hw
  | case4 u v rest h ih =>
    rw [misread, codePoints, if_neg h, List.flatMap_cons, List.flatMap_cons, ← ih]
    apply codePoints_misreadPoint_append
    · intro w hw
      rw [← hlone u w hw]
      by_cases hhigh : IsHigh u
      · exact Or.inr (head_misread (fun hlow => h ⟨hhigh, hlow⟩) rest)
      · exact Or.inl hhigh
    · intro w hw
      rw [← hlone u w hw, hw, hlone u w hw]

/-- A character beyond ASCII takes more bytes than units. -/
theorem length_charUnits_lt {c : Char} (h : 0x80 ≤ c.toNat) :
    (charUnits c).length < (String.utf8EncodeChar c).length := by
  have hval : c.val.toNat = c.toNat := rfl
  have hone : ¬ c.toNat ≤ 0x7F := by omega
  rw [charUnits, String.utf8EncodeChar, hval, if_neg hone]
  by_cases hsmall : c.toNat < 0x10000
  · rw [if_pos hsmall]
    by_cases htwo : c.toNat ≤ 0x7FF
    · rw [if_pos htwo]
      simp
    · rw [if_neg htwo, if_pos (by omega)]
      simp
  · rw [if_neg hsmall, if_neg (by omega), if_neg (by omega)]
    simp

theorem misreadPoint_of_ascii {c : Char} (h : c.toNat < 0x80) :
    misreadPoint (.scalar c) = charUnits c := by
  have hval : c.val.toNat = c.toNat := rfl
  have hbyte : (UInt8.ofNat c.toNat).toNat = c.toNat := TextDecoder.toNat_byte (by omega)
  have hunit : (UInt8.ofNat c.toNat).toUInt16 = UInt16.ofNat c.toNat := by
    apply UInt16.toNat_inj.1
    rw [toNat_unit (by omega), UInt8.toNat_toUInt16, hbyte]
  rw [misreadPoint, String.utf8EncodeChar, hval, if_pos (by omega), charUnits, if_pos (by omega)]
  exact congrArg (fun u => [u]) hunit

theorem length_units_lt {p : CodePoint} (h : ¬ FitsBelow 0x80 p) :
    p.units.length < (misreadPoint p).length := by
  cases p with
  | lone u => exact absurd trivial h
  | scalar c =>
    rw [CodePoint.units, misreadPoint, latin1Decode, List.length_map]
    exact length_charUnits_lt (Nat.le_of_not_lt h)

theorem misreadPoint_of_fits {p : CodePoint} (h : FitsBelow 0x80 p) : misreadPoint p = p.units := by
  cases p with
  | lone u => rfl
  | scalar c => exact misreadPoint_of_ascii h

/-- A string that is read as itself with the wrong decoder has no character beyond ASCII. -/
theorem fitsBelow_of_misread {s : JsString} (h : misread s = s) :
    ∀ p ∈ codePoints s, FitsBelow 0x80 p := by
  have hgrow : ∀ ps : List CodePoint,
      (ps.flatMap CodePoint.units).length ≤ (ps.flatMap misreadPoint).length ∧
      ((ps.flatMap misreadPoint).length = (ps.flatMap CodePoint.units).length →
        ∀ p ∈ ps, FitsBelow 0x80 p) := by
    intro ps
    induction ps with
    | nil => simp
    | cons p ps ih =>
      simp only [List.flatMap_cons, List.length_append, List.forall_mem_cons]
      by_cases hp : FitsBelow 0x80 p
      · rw [misreadPoint_of_fits hp]
        exact ⟨by omega, fun heq => ⟨hp, ih.2 (by omega)⟩⟩
      · have hlt := length_units_lt hp
        exact ⟨by omega, fun heq => absurd heq (by omega)⟩
  apply (hgrow (codePoints s)).2
  rw [unitsOf_codePoints]
  exact congrArg List.length h

theorem latin1Decode_utf8Encode_of_ascii {s : JsString} (h : Ascii s) :
    latin1Decode (utf8Encode s) = s := by
  have hlatin : Latin1 s := h.mono (by decide)
  rw [(utf8Encode_eq_latin1_iff hlatin).2 h, latin1Decode_latin1Encode hlatin]

/-- No byte of a character beyond ASCII is ASCII. -/
theorem le_of_mem_utf8EncodeChar {c : Char} (h : 0x80 ≤ c.toNat) :
    ∀ b ∈ String.utf8EncodeChar c, 0x80 ≤ b.toNat := by
  have hc := char_valid c
  have hval : c.val.toNat = c.toNat := rfl
  have hone : ¬ c.toNat ≤ 0x7F := by omega
  have hlast : ∀ n, 0x80 ≤ (UInt8.ofNat (n % 64 + 128)).toNat := by
    intro n
    rw [TextDecoder.toNat_byte (by omega)]
    omega
  have hlead : ∀ n, 128 ≤ n → n < 256 → 0x80 ≤ (UInt8.ofNat n).toNat := by
    intro n hn hn'
    rw [TextDecoder.toNat_byte hn']
    exact hn
  rw [String.utf8EncodeChar, hval, if_neg hone]
  by_cases htwo : c.toNat ≤ 0x7FF
  · rw [if_pos htwo]
    simp only [List.forall_mem_cons]
    exact ⟨hlead _ (by omega) (by omega), hlast _, by simp⟩
  by_cases hthree : c.toNat ≤ 0xFFFF
  · rw [if_neg htwo, if_pos hthree]
    simp only [List.forall_mem_cons]
    exact ⟨hlead _ (by omega) (by omega), hlast _, hlast _, by simp⟩
  · rw [if_neg htwo, if_neg hthree]
    simp only [List.forall_mem_cons]
    exact ⟨hlead _ (by omega) (by omega), hlast _, hlast _, hlast _, by simp⟩

/-- What is read for the quoted form of a code point is the quoted form of what is read. -/
theorem quotePoint_misreadPoints (p : CodePoint) :
    (misreadPoints p).flatMap Json.quotePoint
      = latin1Decode (utf8Encode (Json.quotePoint p)) := by
  have hascii : FitsBelow 0x80 p → Ascii (Json.quotePoint p) :=
    (Json.below_quotePoint (by decide) (by decide) p).2
  cases p with
  | lone u =>
    rw [latin1Decode_utf8Encode_of_ascii (hascii trivial)]
    simp [misreadPoints]
  | scalar c =>
    have hval : c.val.toNat = c.toNat := rfl
    by_cases hc : c.toNat < 0x80
    · have hbyte : (UInt8.ofNat c.toNat).toNat = c.toNat := TextDecoder.toNat_byte (by omega)
      rw [latin1Decode_utf8Encode_of_ascii (hascii hc), misreadPoints, String.utf8EncodeChar, hval,
        if_pos (by omega)]
      simp [hbyte]
    · have hplain : Json.quotePoint (.scalar c) = charUnits c := by
        rcases Json.quotePoint_scalar c with hplain | ⟨-, hsmall⟩
        · exact hplain
        · exact absurd hsmall hc
      have hbytes : utf8Encode (charUnits c) = String.utf8EncodeChar c := by
        have hchars := utf8Encode_ofChars [c]
        simpa [ofChars] using hchars
      rw [hplain, hbytes, misreadPoints, List.flatMap_map, latin1Decode, List.map_eq_flatMap]
      apply List.flatMap_congr
      intro b hb
      have hle := le_of_mem_utf8EncodeChar (Nat.le_of_not_lt hc) b hb
      have hlt := b.toNat_lt
      have hnat : (Char.ofNat b.toNat).toNat = b.toNat := toNat_ofNat (by omega)
      have hunit : UInt16.ofNat b.toNat = b.toUInt16 := by
        apply UInt16.toNat_inj.1
        rw [toNat_unit (by omega), UInt8.toNat_toUInt16]
      rcases Json.quotePoint_scalar (Char.ofNat b.toNat) with hbyte | ⟨-, hsmall⟩
      · rw [hbyte, charUnits, hnat, if_pos (by omega), hunit]
      · omega

/-- What is read for a string in quotes is in quotes what is read for the string. -/
theorem quote_misread (s : JsString) :
    Json.quote (misread s) = latin1Decode (utf8Encode (Json.quote s)) := by
  have hmark : IsText [0x22] := isText_of_latin1 (by decide)
  have hmark_read : latin1Decode (utf8Encode [0x22]) = [0x22] :=
    latin1Decode_utf8Encode_of_ascii (by decide)
  have hbody : IsText ((codePoints s).flatMap Json.quotePoint) :=
    isText_flatMap fun p _ => Json.isText_quotePoint p
  have hsplit : ∀ t : JsString, Json.quote t
      = [0x22] ++ ((codePoints t).flatMap Json.quotePoint ++ [0x22]) := by
    intro t
    simp [Json.quote]
  rw [hsplit, hsplit, utf8Encode_append hmark, utf8Encode_append hbody,
    utf8Encode_flatMap fun p _ => Json.isText_quotePoint p, codePoints_misread]
  simp only [latin1Decode, List.map_append]
  rw [← latin1Decode, hmark_read, List.flatMap_assoc, List.map_flatMap]
  simp only [quotePoint_misreadPoints]
  rfl

theorem misread_injective {s t : JsString} (h : misread s = misread t) : s = t := by
  have hquote := congrArg Json.quote h
  rw [quote_misread, quote_misread] at hquote
  have hbytes : utf8Encode (Json.quote s) = utf8Encode (Json.quote t) :=
    latin1Decode_injective hquote
  have htext : Json.quote s = Json.quote t := by
    rw [← utf8Decode_utf8Encode (Json.isText_quote s), hbytes,
      utf8Decode_utf8Encode (Json.isText_quote t)]
  exact Json.quote_injective htext

end JsString

namespace Json

open JsString

/-! ## Values -/

variable {N : Type}

mutual

/-- Change the strings of a value and the names of its members. -/
def mapStrings (f : JsString → JsString) : Json N → Json N
  | .null => .null
  | .bool b => .bool b
  | .num n => .num n
  | .str s => .str (f s)
  | .arr xs => .arr (mapElements f xs)
  | .obj ms => .obj (mapMembers f ms)

def mapElements (f : JsString → JsString) : List (Json N) → List (Json N)
  | [] => []
  | x :: xs => mapStrings f x :: mapElements f xs

def mapMembers (f : JsString → JsString) : List (JsString × Json N) → List (JsString × Json N)
  | [] => []
  | (k, x) :: ms => (f k, mapStrings f x) :: mapMembers f ms

end

def Token.mapString (f : JsString → JsString) : Token N → Token N
  | .quoted s => .quoted (f s)
  | .mark m => .mark m
  | .numeral n => .numeral n

variable {f : JsString → JsString}

theorem mapElements_eq_map (xs : List (Json N)) : mapElements f xs = xs.map (mapStrings f) := by
  induction xs with
  | nil => rfl
  | cons x xs ih => rw [mapElements, ih, List.map_cons]

theorem mapMembers_eq_map (ms : List (JsString × Json N)) :
    mapMembers f ms = ms.map fun m => (f m.1, mapStrings f m.2) := by
  induction ms with
  | nil => rfl
  | cons m ms ih => rw [mapMembers, ih, List.map_cons]

theorem moreElements_map {xs : List (Json N)}
    (h : ∀ x ∈ xs, (mapStrings f x).tokens = x.tokens.map (Token.mapString f)) :
    moreElements (mapElements f xs) = (moreElements xs).map (Token.mapString f) := by
  induction xs with
  | nil => rfl
  | cons x xs ih =>
    rw [mapElements, moreElements, moreElements, h x List.mem_cons_self,
      ih fun y hy => h y (List.mem_cons_of_mem x hy)]
    simp [Token.mapString]

theorem moreMembers_map {ms : List (JsString × Json N)}
    (h : ∀ m ∈ ms, (mapStrings f m.2).tokens = m.2.tokens.map (Token.mapString f)) :
    moreMembers (mapMembers f ms) = (moreMembers ms).map (Token.mapString f) := by
  induction ms with
  | nil => rfl
  | cons m ms ih =>
    obtain ⟨k, x⟩ := m
    rw [mapMembers, moreMembers, moreMembers, h (k, x) List.mem_cons_self,
      ih fun m hm => h m (List.mem_cons_of_mem _ hm)]
    simp [Token.mapString]

theorem tokens_mapStrings {v : Json N} (hv : v.WellFormed) :
    (v.mapStrings f).tokens = v.tokens.map (Token.mapString f) := by
  induction hv with
  | null => rfl
  | bool b => rfl
  | num n => rfl
  | str s => rfl
  | @arr xs h ih =>
    cases xs with
    | nil => rfl
    | cons x xs =>
      rw [mapStrings, mapElements, tokens, tokens, ih x List.mem_cons_self,
        moreElements_map fun y hy => ih y (List.mem_cons_of_mem x hy)]
      simp [Token.mapString]
  | @obj ms hnodup h ih =>
    cases ms with
    | nil => rfl
    | cons m ms =>
      obtain ⟨k, x⟩ := m
      rw [mapStrings, mapMembers, tokens, tokens, ih (k, x) List.mem_cons_self,
        moreMembers_map fun m hm => ih m (List.mem_cons_of_mem _ hm)]
      simp [Token.mapString]

theorem wellFormed_mapStrings (hf : Function.Injective f) {v : Json N} (hv : v.WellFormed) :
    (v.mapStrings f).WellFormed := by
  induction hv with
  | null => exact .null
  | bool b => exact .bool b
  | num n => exact .num n
  | str s => exact .str (f s)
  | arr h ih =>
    rw [mapStrings, mapElements_eq_map]
    refine .arr fun y hy => ?_
    obtain ⟨x, hx, rfl⟩ := List.mem_map.1 hy
    exact ih x hx
  | @obj ms hnodup h ih =>
    rw [mapStrings, mapMembers_eq_map]
    refine .obj ?_ fun m' hm' => ?_
    · have hkeys : OrderedMap.keys (ms.map fun m => (f m.1, mapStrings f m.2))
          = (OrderedMap.keys ms).map f := by
        simp [OrderedMap.keys]
      rw [hkeys]
      exact List.Nodup.map hf hnodup
    · obtain ⟨m, hm, rfl⟩ := List.mem_map.1 hm'
      exact ih m hm

/-- Where nothing changes, every string is left as it was. -/
theorem strings_fixed {v : Json N} (hv : v.WellFormed) (h : v.mapStrings f = v) :
    ∀ s ∈ v.strings, f s = s := by
  have htokens := tokens_mapStrings (f := f) hv
  rw [h] at htokens
  intro s hs
  have hfixed := List.map_eq_map_iff.1 ((List.map_id v.tokens).trans htokens) (.quoted s)
    (mem_strings.1 hs)
  exact (Token.quoted.inj hfixed).symm

/-- What is read for the text of a value is the text of the value with its strings misread. -/
theorem misread_stringify {format : NumberFormat N} {v : Json N} (hv : v.WellFormed) :
    latin1Decode (utf8Encode (stringify format v)) = stringify format (v.mapStrings misread) := by
  have htoken : ∀ t : Token N, IsText (t.text format) ∧
      latin1Decode (utf8Encode (t.text format)) = (t.mapString misread).text format := by
    intro t
    cases t with
    | mark m =>
      have hascii := ascii_mark m
      exact ⟨isText_of_ascii hascii, latin1Decode_utf8Encode_of_ascii hascii⟩
    | numeral n =>
      have hascii := ascii_write format n
      exact ⟨isText_of_ascii hascii, latin1Decode_utf8Encode_of_ascii hascii⟩
    | quoted s => exact ⟨isText_quote s, (quote_misread s).symm⟩
  rw [stringify, stringify, tokens_mapStrings hv, text, text, List.flatMap_map,
    utf8Encode_flatMap fun t _ => (htoken t).1, latin1Decode, List.map_flatMap]
  apply List.flatMap_congr
  intro t _
  exact (htoken t).2

end Json
