import SharedTsLibs.Lib.TextDecoder
import Mathlib.Data.List.Lex
import Mathlib.Data.List.Sort

/-!
# JavaScript strings as code units

A string is any list of 16-bit units; pairs of surrogates stand for the characters beyond
the first 65536, and a surrogate without its partner for no character at all.

* `codePoints` — the characters and the lone surrogates of a string.
* `unitsOf_codePoints`, `codePoints_ofChars` — nothing is lost on the way there and back.
* `utf8Encode`, `utf8Decode` — the bytes of a string, a replacement character standing for
  each lone surrogate, and the string of any bytes.
* `utf8Decode_utf8Encode` — a text without lone surrogates survives.
* `utf8Encode_eq_latin1_iff` — the bytes of a string are its units when it is ASCII.
* `sort`, `sort_eq_iff` — strings in order.
-/

/-- The code units of a string. -/
abbrev JsString := List UInt16

namespace JsString

inductive CodePoint where
  | scalar (c : Char)
  | lone (u : UInt16)
  deriving DecidableEq

def IsHigh (u : UInt16) : Prop := 0xD800 ≤ u.toNat ∧ u.toNat < 0xDC00

def IsLow (u : UInt16) : Prop := 0xDC00 ≤ u.toNat ∧ u.toNat < 0xE000

instance : DecidablePred IsHigh := fun u =>
  inferInstanceAs (Decidable (0xD800 ≤ u.toNat ∧ u.toNat < 0xDC00))

instance : DecidablePred IsLow := fun u =>
  inferInstanceAs (Decidable (0xDC00 ≤ u.toNat ∧ u.toNat < 0xE000))

/-- A unit that is not half of a pair. -/
def single (u : UInt16) : CodePoint :=
  if IsHigh u ∨ IsLow u then .lone u else .scalar (Char.ofNat u.toNat)

/-- The character of a pair. -/
def ofPair (u v : UInt16) : Char :=
  Char.ofNat (0x10000 + (u.toNat - 0xD800) * 0x400 + (v.toNat - 0xDC00))

/-- The characters of a string and its lone surrogates. -/
def codePoints : JsString → List CodePoint
  | [] => []
  | [u] => [single u]
  | u :: v :: rest =>
    if IsHigh u ∧ IsLow v then .scalar (ofPair u v) :: codePoints rest
    else single u :: codePoints (v :: rest)

/-- The units of a character. -/
def charUnits (c : Char) : JsString :=
  if c.toNat < 0x10000 then [UInt16.ofNat c.toNat]
  else [UInt16.ofNat (0xD800 + (c.toNat - 0x10000) / 0x400),
    UInt16.ofNat (0xDC00 + (c.toNat - 0x10000) % 0x400)]

def CodePoint.units : CodePoint → JsString
  | .scalar c => charUnits c
  | .lone u => [u]

/-- The string of a text. -/
def ofChars (cs : List Char) : JsString := cs.flatMap charUnits

/-! ## Characters and units -/

theorem toNat_ofNat {n : ℕ} (h : n < 0xD800 ∨ 0xDFFF < n ∧ n < 0x110000) :
    (Char.ofNat n).toNat = n := by
  rw [Char.ofNat, dif_pos h]
  rfl

/-- No character is a surrogate. -/
theorem char_valid (c : Char) : c.toNat < 0xD800 ∨ 0xDFFF < c.toNat ∧ c.toNat < 0x110000 :=
  c.valid

theorem unit_eq {u : UInt16} {n : ℕ} (h : n = u.toNat) : UInt16.ofNat n = u := by
  rw [h, UInt16.ofNat_toNat]

theorem toNat_unit {n : ℕ} (h : n < 0x10000) : (UInt16.ofNat n).toNat = n := by
  rw [UInt16.toNat_ofNat', Nat.mod_eq_of_lt h]

@[simp] theorem units_single (u : UInt16) : (single u).units = [u] := by
  unfold single IsHigh IsLow
  have hu := u.toNat_lt
  split
  · rfl
  · have hnat : (Char.ofNat u.toNat).toNat = u.toNat := toNat_ofNat (by omega)
    rw [CodePoint.units, charUnits, if_pos (by omega), hnat, UInt16.ofNat_toNat]

theorem charUnits_ofPair {u v : UInt16} (hu : IsHigh u) (hv : IsLow v) :
    charUnits (ofPair u v) = [u, v] := by
  obtain ⟨hu, hu'⟩ := hu
  obtain ⟨hv, hv'⟩ := hv
  have hnat : (ofPair u v).toNat = 0x10000 + (u.toNat - 0xD800) * 0x400 + (v.toNat - 0xDC00) :=
    toNat_ofNat (by omega)
  rw [charUnits, if_neg (by omega), hnat, unit_eq (u := u) (by omega), unit_eq (u := v) (by omega)]

/-- The code points of a string hold all of its units. -/
@[simp] theorem unitsOf_codePoints (s : JsString) : (codePoints s).flatMap CodePoint.units = s := by
  induction s using codePoints.induct with
  | case1 => rfl
  | case2 u => simp [codePoints]
  | case3 u v rest h ih =>
    rw [codePoints, if_pos h, List.flatMap_cons, ih, CodePoint.units, charUnits_ofPair h.1 h.2]
    rfl
  | case4 u v rest h ih =>
    rw [codePoints, if_neg h, List.flatMap_cons, ih, units_single]
    rfl

theorem single_of_char {c : Char} (h : c.toNat < 0x10000) :
    single (UInt16.ofNat c.toNat) = .scalar c := by
  have hc := char_valid c
  have hscalar : ¬ (IsHigh (UInt16.ofNat c.toNat) ∨ IsLow (UInt16.ofNat c.toNat)) := by
    unfold IsHigh IsLow
    rw [toNat_unit h]
    omega
  rw [single, if_neg hscalar, toNat_unit h, Char.ofNat_toNat]

theorem not_isHigh_of_char {c : Char} (h : c.toNat < 0x10000) :
    ¬ IsHigh (UInt16.ofNat c.toNat) := by
  have hc := char_valid c
  unfold IsHigh
  rw [toNat_unit h]
  omega

theorem codePoints_cons {u : UInt16} (h : ¬ IsHigh u) (rest : JsString) :
    codePoints (u :: rest) = single u :: codePoints rest := by
  cases rest with
  | nil => rfl
  | cons v rest => rw [codePoints, if_neg (fun hpair => h hpair.1)]

/-- A character at the front of a string is one of its code points. -/
theorem codePoints_charUnits_append (c : Char) (rest : JsString) :
    codePoints (charUnits c ++ rest) = .scalar c :: codePoints rest := by
  have hc := char_valid c
  unfold charUnits
  by_cases hsmall : c.toNat < 0x10000
  · rw [if_pos hsmall, List.singleton_append, codePoints_cons (not_isHigh_of_char hsmall),
      single_of_char hsmall]
  · have hhigh : (UInt16.ofNat (0xD800 + (c.toNat - 0x10000) / 0x400)).toNat
        = 0xD800 + (c.toNat - 0x10000) / 0x400 := toNat_unit (by omega)
    have hlow : (UInt16.ofNat (0xDC00 + (c.toNat - 0x10000) % 0x400)).toNat
        = 0xDC00 + (c.toNat - 0x10000) % 0x400 := toNat_unit (by omega)
    have hpair : IsHigh (UInt16.ofNat (0xD800 + (c.toNat - 0x10000) / 0x400)) ∧
        IsLow (UInt16.ofNat (0xDC00 + (c.toNat - 0x10000) % 0x400)) := by
      unfold IsHigh IsLow
      omega
    have hchar : ofPair (UInt16.ofNat (0xD800 + (c.toNat - 0x10000) / 0x400))
        (UInt16.ofNat (0xDC00 + (c.toNat - 0x10000) % 0x400)) = c := by
      have hnat : 0x10000 + (0xD800 + (c.toNat - 0x10000) / 0x400 - 0xD800) * 0x400
          + (0xDC00 + (c.toNat - 0x10000) % 0x400 - 0xDC00) = c.toNat := by omega
      rw [ofPair, hhigh, hlow, hnat, Char.ofNat_toNat]
    rw [if_neg hsmall, List.cons_append, List.cons_append, List.nil_append, codePoints,
      if_pos hpair, hchar]

theorem codePoints_ofChars (cs : List Char) : codePoints (ofChars cs) = cs.map .scalar := by
  induction cs with
  | nil => rfl
  | cons c cs ih => rw [ofChars, List.flatMap_cons, codePoints_charUnits_append, ← ofChars, ih,
      List.map_cons]

theorem ofChars_append (cs ds : List Char) : ofChars (cs ++ ds) = ofChars cs ++ ofChars ds :=
  List.flatMap_append

/-- A string without lone surrogates. -/
def IsText (s : JsString) : Prop := ∃ cs, s = ofChars cs

theorem isText_nil : IsText [] := ⟨[], rfl⟩

theorem IsText.append {s t : JsString} (hs : IsText s) (ht : IsText t) : IsText (s ++ t) := by
  obtain ⟨cs, rfl⟩ := hs
  obtain ⟨ds, rfl⟩ := ht
  exact ⟨cs ++ ds, (ofChars_append cs ds).symm⟩

theorem isText_flatMap {α : Type*} {f : α → JsString} {l : List α} (h : ∀ a ∈ l, IsText (f a)) :
    IsText (l.flatMap f) := by
  induction l with
  | nil => exact isText_nil
  | cons a l ih =>
    rw [List.flatMap_cons]
    exact (h a List.mem_cons_self).append (ih fun b hb => h b (List.mem_cons_of_mem a hb))

theorem isText_charUnits (c : Char) : IsText (charUnits c) := ⟨[c], by simp [ofChars]⟩

/-! ## UTF-8 -/

def CodePoint.utf8 : CodePoint → List UInt8
  | .scalar c => String.utf8EncodeChar c
  | .lone _ => String.utf8EncodeChar '\ufffd'

/-- The bytes of a string, with a replacement character for each lone surrogate. -/
def utf8Encode (s : JsString) : List UInt8 := (codePoints s).flatMap CodePoint.utf8

/-- What is written for a sequence that the input breaks off. -/
def cutOff (s : TextDecoder.State) : List Char := if s.bytesNeeded = 0 then [] else ['\ufffd']

/-- The string of bytes, with a replacement character for each ill-formed sequence. -/
def utf8Decode (bs : List UInt8) : JsString :=
  ofChars ((TextDecoder.utf8.feed TextDecoder.ready bs).2
    ++ cutOff (TextDecoder.utf8.feed TextDecoder.ready bs).1)

theorem utf8Encode_ofChars (cs : List Char) :
    utf8Encode (ofChars cs) = cs.flatMap String.utf8EncodeChar := by
  rw [utf8Encode, codePoints_ofChars, List.flatMap_map]
  rfl

theorem feed_flatMap_utf8EncodeChar (cs : List Char) :
    TextDecoder.utf8.feed TextDecoder.ready (cs.flatMap String.utf8EncodeChar)
      = (TextDecoder.ready, cs) := by
  induction cs with
  | nil => rfl
  | cons c cs ih =>
    rw [List.flatMap_cons, TextDecoder.utf8.feed_append, TextDecoder.utf8_encodeChar, ih]
    rfl

/-- A text survives being written as bytes and read again. -/
theorem utf8Decode_utf8Encode {s : JsString} (h : IsText s) : utf8Decode (utf8Encode s) = s := by
  obtain ⟨cs, rfl⟩ := h
  rw [utf8Encode_ofChars, utf8Decode, feed_flatMap_utf8EncodeChar]
  simp [cutOff, TextDecoder.ready]

theorem utf8Encode_append {s : JsString} (hs : IsText s) (t : JsString) :
    utf8Encode (s ++ t) = utf8Encode s ++ utf8Encode t := by
  obtain ⟨cs, rfl⟩ := hs
  have hpoints : codePoints (ofChars cs ++ t) = cs.map .scalar ++ codePoints t := by
    induction cs with
    | nil => rfl
    | cons c cs ih =>
      rw [ofChars, List.flatMap_cons, List.append_assoc, codePoints_charUnits_append, ← ofChars, ih,
        List.map_cons, List.cons_append]
  rw [utf8Encode, hpoints, List.flatMap_append, ← codePoints_ofChars]
  rfl

theorem utf8Encode_flatMap {α : Type*} {f : α → JsString} {l : List α}
    (h : ∀ a ∈ l, IsText (f a)) :
    utf8Encode (l.flatMap f) = l.flatMap fun a => utf8Encode (f a) := by
  induction l with
  | nil => rfl
  | cons a l ih =>
    rw [List.flatMap_cons, utf8Encode_append (h a List.mem_cons_self),
      ih fun b hb => h b (List.mem_cons_of_mem a hb), List.flatMap_cons]

/-! ## One byte for each unit -/

/-- Every unit is smaller than `k`. -/
def Below (k : ℕ) (s : JsString) : Prop := ∀ u ∈ s, u.toNat < k

instance (k : ℕ) : DecidablePred (Below k) := fun s =>
  List.decidableBAll (fun u : UInt16 => u.toNat < k) s

/-- Every unit fits into a byte. -/
abbrev Latin1 (s : JsString) : Prop := Below 0x100 s

abbrev Ascii (s : JsString) : Prop := Below 0x80 s

theorem Below.mono {k l : ℕ} (hkl : k ≤ l) {s : JsString} (h : Below k s) : Below l s :=
  fun u hu => Nat.lt_of_lt_of_le (h u hu) hkl

theorem below_flatMap {α : Type*} {k : ℕ} {f : α → JsString} {l : List α} :
    Below k (l.flatMap f) ↔ ∀ a ∈ l, Below k (f a) := by
  simp only [Below, List.mem_flatMap]
  constructor
  · intro h a ha u hu
    exact h u ⟨a, ha, hu⟩
  · rintro h u ⟨a, ha, hu⟩
    exact h a ha u hu

theorem below_charUnits {k : ℕ} (hk : k ≤ 0xD800) (c : Char) :
    Below k (charUnits c) ↔ c.toNat < k := by
  have hc := char_valid c
  unfold charUnits Below
  split
  · rename_i h
    rw [List.forall_mem_singleton, toNat_unit h]
  · simp only [List.forall_mem_cons]
    rw [toNat_unit (by omega), toNat_unit (by omega)]
    omega

/-- A code point is smaller than `k`, or a surrogate without its partner. -/
def FitsBelow (k : ℕ) : CodePoint → Prop
  | .scalar c => c.toNat < k
  | .lone _ => True

instance (k : ℕ) : DecidablePred (FitsBelow k)
  | .scalar c => inferInstanceAs (Decidable (c.toNat < k))
  | .lone _ => inferInstanceAs (Decidable True)

def latin1Encode (s : JsString) : List UInt8 := s.map UInt16.toUInt8

def latin1Decode (bs : List UInt8) : JsString := bs.map UInt8.toUInt16

theorem latin1Decode_latin1Encode {s : JsString} (h : Latin1 s) :
    latin1Decode (latin1Encode s) = s := by
  rw [latin1Decode, latin1Encode, List.map_map]
  conv_rhs => rw [← List.map_id s]
  apply List.map_congr_left
  intro u hu
  have hlt := h u hu
  apply UInt16.toNat_inj.1
  simp [Nat.mod_eq_of_lt hlt]

theorem latin1Decode_injective {bs cs : List UInt8} (h : latin1Decode bs = latin1Decode cs) :
    bs = cs := by
  refine List.map_injective_iff.2 (fun b c hbc => ?_) h
  apply UInt8.toNat_inj.1
  rw [← UInt8.toNat_toUInt16 b, hbc, UInt8.toNat_toUInt16]

/-- A string of bytes has one character for each unit. -/
theorem eq_ofChars_of_latin1 {s : JsString} (h : Latin1 s) :
    s = ofChars (s.map fun u => Char.ofNat u.toNat) := by
  induction s with
  | nil => rfl
  | cons u s ih =>
    have hu := h u List.mem_cons_self
    have hnat : (Char.ofNat u.toNat).toNat = u.toNat := toNat_ofNat (by omega)
    rw [List.map_cons, ofChars, List.flatMap_cons, ← ofChars,
      ← ih fun v hv => h v (List.mem_cons_of_mem u hv), charUnits, if_pos (by omega), hnat,
      UInt16.ofNat_toNat]
    rfl

theorem isText_of_latin1 {s : JsString} (h : Latin1 s) : IsText s := ⟨_, eq_ofChars_of_latin1 h⟩

theorem utf8EncodeChar_ascii {u : UInt16} (h : u.toNat < 0x80) :
    String.utf8EncodeChar (Char.ofNat u.toNat) = [u.toUInt8] := by
  have hnat : (Char.ofNat u.toNat).val.toNat = u.toNat := toNat_ofNat (by omega)
  rw [String.utf8EncodeChar, hnat, if_pos (by omega)]
  rfl

theorem length_utf8EncodeChar_latin1 {u : UInt16} (h : u.toNat < 0x100) :
    (String.utf8EncodeChar (Char.ofNat u.toNat)).length = 1 + if 0x80 ≤ u.toNat then 1 else 0 := by
  have hnat : (Char.ofNat u.toNat).val.toNat = u.toNat := toNat_ofNat (by omega)
  rw [String.utf8EncodeChar, hnat]
  split
  · rw [if_neg (by omega)]
    rfl
  · rw [if_pos (by omega), if_pos (by omega)]
    rfl

theorem utf8Encode_latin1 {s : JsString} (h : Latin1 s) :
    utf8Encode s = s.flatMap fun u => String.utf8EncodeChar (Char.ofNat u.toNat) := by
  conv_lhs => rw [eq_ofChars_of_latin1 h]
  rw [utf8Encode_ofChars, List.flatMap_map]

/-- Every unit beyond ASCII takes two bytes. -/
theorem length_utf8Encode_latin1 {s : JsString} (h : Latin1 s) :
    (utf8Encode s).length = s.length + s.countP (0x80 ≤ ·.toNat) := by
  rw [utf8Encode_latin1 h]
  induction s with
  | nil => rfl
  | cons u s ih =>
    rw [List.flatMap_cons, List.length_append, ih fun v hv => h v (List.mem_cons_of_mem u hv),
      length_utf8EncodeChar_latin1 (h u List.mem_cons_self), List.countP_cons, List.length_cons]
    simp only [decide_eq_true_eq]
    omega

/-- The bytes of a string are its units exactly when it is ASCII. -/
theorem utf8Encode_eq_latin1_iff {s : JsString} (h : Latin1 s) :
    utf8Encode s = latin1Encode s ↔ Ascii s := by
  constructor
  · intro heq u hu
    have hlength := length_utf8Encode_latin1 h
    rw [heq, latin1Encode, List.length_map] at hlength
    have hcount : s.countP (0x80 ≤ ·.toNat) = 0 := by omega
    have hnone := List.countP_eq_zero.1 hcount u hu
    simp only [decide_eq_true_eq] at hnone
    omega
  · intro hascii
    rw [utf8Encode_latin1 h, latin1Encode, List.flatMap_def,
      List.map_congr_left fun u hu => utf8EncodeChar_ascii (hascii u hu)]
    rw [← List.flatMap_def, ← List.map_eq_flatMap]

/-! ## Order -/

/-- `s` does not come after `t`: strings are compared unit by unit. -/
def le (s t : JsString) : Prop := s.map UInt16.toNat ≤ t.map UInt16.toNat

instance : DecidableRel le := fun s t =>
  inferInstanceAs (Decidable (s.map UInt16.toNat ≤ t.map UInt16.toNat))

instance : Std.Total le := ⟨fun s t => le_total (s.map UInt16.toNat) (t.map UInt16.toNat)⟩

instance : IsTrans JsString le := ⟨fun _ _ _ hst htu => le_trans hst htu⟩

instance : Std.Antisymm le :=
  ⟨fun _ _ hst hts =>
    List.map_injective_iff.2 (fun _ _ h => UInt16.toNat_inj.1 h) (le_antisymm hst hts)⟩

/-- `strings.sort()` -/
def sort (l : List JsString) : List JsString := l.insertionSort le

theorem sort_perm (l : List JsString) : (sort l).Perm l := List.perm_insertionSort le l

/-- Two lists are sorted to one list when they hold the same strings, as often. -/
theorem sort_eq_iff {l l' : List JsString} : sort l = sort l' ↔ l.Perm l' := by
  constructor
  · intro h
    exact ((sort_perm l).symm.trans (h ▸ List.Perm.refl _)).trans (sort_perm l')
  · intro h
    exact ((sort_perm l).trans (h.trans (sort_perm l').symm)).eq_of_pairwise'
      (List.pairwise_insertionSort le l) (List.pairwise_insertionSort le l')

/-- Strings can be left out before they are sorted, or after. -/
theorem sort_filter (p : JsString → Bool) (l : List JsString) :
    (sort l).filter p = sort (l.filter p) := by
  have hperm : ((sort l).filter p).Perm (sort (l.filter p)) :=
    ((sort_perm l).filter p).trans (sort_perm (l.filter p)).symm
  exact hperm.eq_of_pairwise' ((List.pairwise_insertionSort le l).filter p)
    (List.pairwise_insertionSort le (l.filter p))

end JsString
