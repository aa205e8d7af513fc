import SharedTsLibs.Lib.CodeUnits
import SharedTsLibs.Lib.OrderedMap
import Mathlib.Data.Nat.Digits.Defs

/-!
# JSON texts

`JSON.stringify` and `JSON.parse` on values made of JavaScript strings: quotes, backslashes
and control characters are escaped, and so is a surrogate that has lost its partner.

* `Json` — the values, `NumberFormat` — how numbers are written and read.
* `tokens`, `stringify` — the text of a value, token by token.
* `parse` — the value of a text; blanks between tokens are passed over, and of two members
  of an object with one name the later one counts.
* `parse_stringify` — reading what was written gives the value back.
* `isText_stringify`, `below_stringify_iff`, `mem_stringify` — which units a text is made of.
-/

/-- The units of numerals. -/
def isNumeralUnit (u : UInt16) : Bool :=
  (0x30 ≤ u && u ≤ 0x39) || u = 0x2B || u = 0x2D || u = 0x2E || u = 0x45 || u = 0x65

/-- How numbers are written, and read from a numeral; numbers that are equal for `===` are
one number here. -/
structure NumberFormat (N : Type) where
  write : N → JsString
  read : JsString → Option N
  /-- A number is read back from its numeral. -/
  read_write : ∀ n, read (write n) = some n
  write_ne_nil : ∀ n, write n ≠ []
  isNumeralUnit_write : ∀ n, ∀ u ∈ write n, isNumeralUnit u = true

/-- The decimal digits of a whole number. -/
def decimalDigits (n : ℕ) : JsString :=
  if n = 0 then [0x30] else (Nat.digits 10 n).reverse.map fun d => UInt16.ofNat (d + 48)

/-- The whole number with these digits. -/
def ofDecimalDigits (s : JsString) : ℕ := Nat.ofDigits 10 (s.reverse.map fun u => u.toNat - 48)

theorem ofDecimalDigits_decimalDigits (n : ℕ) : ofDecimalDigits (decimalDigits n) = n := by
  unfold ofDecimalDigits decimalDigits
  split
  · rename_i h
    rw [h]
    decide
  · have hdigits : ((Nat.digits 10 n).map fun d => UInt16.ofNat (d + 48)).map
        (fun u => u.toNat - 48) = Nat.digits 10 n := by
      rw [List.map_map]
      conv_rhs => rw [← List.map_id (Nat.digits 10 n)]
      apply List.map_congr_left
      intro d hd
      have hlt := Nat.digits_lt_base (by decide : 1 < 10) hd
      simp only [Function.comp, id]
      rw [JsString.toNat_unit (by omega), Nat.add_sub_cancel]
    rw [← List.map_reverse, List.reverse_reverse, hdigits, Nat.ofDigits_digits]

/-- Whole numbers, which are written so below `10^21`. -/
def decimal : NumberFormat ℕ where
  write := decimalDigits
  read s := if decimalDigits (ofDecimalDigits s) = s then some (ofDecimalDigits s) else none
  read_write n := by rw [ofDecimalDigits_decimalDigits, if_pos rfl]
  write_ne_nil n := by
    unfold decimalDigits
    split
    · simp
    · rename_i h
      simpa using Nat.digits_ne_nil_iff_ne_zero.2 h
  isNumeralUnit_write n := by
    intro u hu
    unfold decimalDigits at hu
    split at hu
    · rw [List.mem_singleton.1 hu]
      decide
    · obtain ⟨d, hd, rfl⟩ := List.mem_map.1 hu
      have hlt := Nat.digits_lt_base (by decide : 1 < 10) (List.mem_reverse.1 hd)
      have hall : ∀ d < 10, isNumeralUnit (UInt16.ofNat (d + 48)) = true := by decide
      exact hall d hlt

inductive Json (N : Type) where
  | null
  | bool (b : Bool)
  | num (n : N)
  | str (s : JsString)
  | arr (elements : List (Json N))
  | obj (members : List (JsString × Json N))

namespace Json

open JsString

variable {N : Type}

/-- Objects have one member under each name. -/
inductive WellFormed : Json N → Prop
  | null : WellFormed null
  | bool (b : Bool) : WellFormed (bool b)
  | num (n : N) : WellFormed (num n)
  | str (s : JsString) : WellFormed (str s)
  | arr {elements : List (Json N)} (h : ∀ x ∈ elements, WellFormed x) : WellFormed (arr elements)
  | obj {members : List (JsString × Json N)} (hnodup : (OrderedMap.keys members).Nodup)
      (h : ∀ m ∈ members, WellFormed m.2) : WellFormed (obj members)

/-! ## Writing -/

/-- The tokens that are always written the same way. -/
inductive Mark where
  | null | true | false | leftBracket | rightBracket | leftBrace | rightBrace | comma | colon
  deriving DecidableEq

def Mark.text : Mark → JsString
  | .null => [0x6E, 0x75, 0x6C, 0x6C]
  | .true => [0x74, 0x72, 0x75, 0x65]
  | .false => [0x66, 0x61, 0x6C, 0x73, 0x65]
  | .leftBracket => [0x5B]
  | .rightBracket => [0x5D]
  | .leftBrace => [0x7B]
  | .rightBrace => [0x7D]
  | .comma => [0x2C]
  | .colon => [0x3A]

inductive Token (N : Type) where
  | mark (m : Mark)
  | numeral (n : N)
  | quoted (s : JsString)

/-- A digit of a `\u` escape. -/
def hexDigit (d : ℕ) : UInt16 := UInt16.ofNat (if d < 10 then 48 + d else 87 + d)

/-- `\uXXXX` -/
def unicodeEscape (u : UInt16) : JsString :=
  [0x5C, 0x75, hexDigit (u.toNat / 4096), hexDigit (u.toNat / 256 % 16),
    hexDigit (u.toNat / 16 % 16), hexDigit (u.toNat % 16)]

/-- A code point inside quotes. -/
def quotePoint : CodePoint → JsString
  | .lone u => unicodeEscape u
  | .scalar c =>
    if c.toNat = 0x22 then [0x5C, 0x22]
    else if c.toNat = 0x5C then [0x5C, 0x5C]
    else if c.toNat = 0x08 then [0x5C, 0x62]
    else if c.toNat = 0x0C then [0x5C, 0x66]
    else if c.toNat = 0x0A then [0x5C, 0x6E]
    else if c.toNat = 0x0D then [0x5C, 0x72]
    else if c.toNat = 0x09 then [0x5C, 0x74]
    else if c.toNat < 0x20 then unicodeEscape (UInt16.ofNat c.toNat)
    else charUnits c

/-- A string in quotes. -/
def quote (s : JsString) : JsString := 0x22 :: (codePoints s).flatMap quotePoint ++ [0x22]

def Token.text (format : NumberFormat N) : Token N → JsString
  | .mark m => m.text
  | .numeral n => format.write n
  | .quoted s => quote s

mutual

/-- The tokens of a value. -/
def tokens : Json N → List (Token N)
  | .null => [.mark .null]
  | .bool b => [.mark (if b then .true else .false)]
  | .num n => [.numeral n]
  | .str s => [.quoted s]
  | .arr [] => [.mark .leftBracket, .mark .rightBracket]
  | .arr (x :: xs) => .mark .leftBracket :: tokens x ++ moreElements xs ++ [.mark .rightBracket]
  | .obj [] => [.mark .leftBrace, .mark .rightBrace]
  | .obj ((k, x) :: ms) =>
    .mark .leftBrace :: .quoted k :: .mark .colon :: tokens x ++ moreMembers ms
      ++ [.mark .rightBrace]

/-- The elements of an array after the first one. -/
def moreElements : List (Json N) → List (Token N)
  | [] => []
  | x :: xs => .mark .comma :: tokens x ++ moreElements xs

/-- The members of an object after the first one. -/
def moreMembers : List (JsString × Json N) → List (Token N)
  | [] => []
  | (k, x) :: ms => .mark .comma :: .quoted k :: .mark .colon :: tokens x ++ moreMembers ms

end

/-- The text of tokens. -/
def text (format : NumberFormat N) (ts : List (Token N)) : JsString :=
  ts.flatMap (Token.text format)

/-- `JSON.stringify(value)` -/
def stringify (format : NumberFormat N) (v : Json N) : JsString := text format v.tokens

/-! ## Reading -/

def isSpace (u : UInt16) : Bool := u = 0x20 || u = 0x09 || u = 0x0A || u = 0x0D

def skipSpace (s : JsString) : JsString := s.dropWhile isSpace

/-- The value of a hexadecimal digit of either case. -/
def hexValue (u : UInt16) : Option ℕ :=
  if 0x30 ≤ u ∧ u ≤ 0x39 then some (u.toNat - 48)
  else if 0x61 ≤ u ∧ u ≤ 0x66 then some (u.toNat - 87)
  else if 0x41 ≤ u ∧ u ≤ 0x46 then some (u.toNat - 55)
  else none

/-- The unit that a letter after a backslash stands for. -/
def escaped (u : UInt16) : Option UInt16 :=
  if u = 0x22 ∨ u = 0x5C ∨ u = 0x2F then some u
  else if u = 0x62 then some 0x08
  else if u = 0x66 then some 0x0C
  else if u = 0x6E then some 0x0A
  else if u = 0x72 then some 0x0D
  else if u = 0x74 then some 0x09
  else none

def fourDigits (a b c d : UInt16) : Option UInt16 := do
  let a ← hexValue a
  let b ← hexValue b
  let c ← hexValue c
  let d ← hexValue d
  return UInt16.ofNat (a * 4096 + b * 256 + c * 16 + d)

/-- Put a unit in front of what was read. -/
def push (u : UInt16) (r : Option (JsString × JsString)) : Option (JsString × JsString) :=
  r.map fun p => (u :: p.1, p.2)

/-- The rest of a string after its first quote, and what comes after the last one. -/
def parseQuoted : JsString → Option (JsString × JsString)
  | [] => none
  | [u] => if u = 0x22 then some ([], []) else none
  | u :: e :: rest =>
    if u = 0x22 then some ([], e :: rest)
    else if u = 0x5C then
      if e = 0x75 then
        match rest with
        | a :: b :: c :: d :: rest => (fourDigits a b c d).bind fun v => push v (parseQuoted rest)
        | _ => none
      else (escaped e).bind fun v => push v (parseQuoted rest)
    else if u < 0x20 then none
    else push u (parseQuoted (e :: rest))

/-- Read a token that is always written the same way. -/
def expect (m : Mark) (s : JsString) : Option JsString :=
  if m.text.isPrefixOf s then some (s.drop m.text.length) else none

/-- Read a string, with blanks in front. -/
def parseString (s : JsString) : Option (JsString × JsString) :=
  match skipSpace s with
  | u :: rest => if u = 0x22 then parseQuoted rest else none
  | [] => none

/-- A value that is no array and no object. -/
def parseScalar (format : NumberFormat N) (s : JsString) : Option (Json N × JsString) :=
  if s.head? = some 0x22 then (parseQuoted s.tail).map fun r => (.str r.1, r.2)
  else if (expect .null s).isSome then (expect .null s).map fun rest => (.null, rest)
  else if (expect .true s).isSome then (expect .true s).map fun rest => (.bool true, rest)
  else if (expect .false s).isSome then (expect .false s).map fun rest => (.bool false, rest)
  else (format.read (s.takeWhile isNumeralUnit)).map fun n => (.num n, s.dropWhile isNumeralUnit)

/-- `CreateDataProperty` for each member in turn. -/
def createMembers (members : List (JsString × Json N)) : Json N :=
  .obj (OrderedMap.spread [] members)

mutual

/-- A value and what comes after it. -/
def parseValue (format : NumberFormat N) : ℕ → JsString → Option (Json N × JsString)
  | 0, _ => none
  | fuel + 1, s =>
    let s := skipSpace s
    if s.head? = some 0x5B then
      match expect .rightBracket (skipSpace s.tail) with
      | some rest => some (.arr [], rest)
      | none => (parseElements format fuel s.tail).map fun r => (.arr r.1, r.2)
    else if s.head? = some 0x7B then
      match expect .rightBrace (skipSpace s.tail) with
      | some rest => some (.obj [], rest)
      | none => (parseMembers format fuel s.tail).map fun r => (createMembers r.1, r.2)
    else parseScalar format s

/-- The elements of an array, up to its bracket. -/
def parseElements (format : NumberFormat N) : ℕ → JsString → Option (List (Json N) × JsString)
  | 0, _ => none
  | fuel + 1, s => do
    let (x, rest) ← parseValue format fuel s
    match expect .comma (skipSpace rest) with
    | some rest =>
      let (xs, rest) ← parseElements format fuel rest
      return (x :: xs, rest)
    | none =>
      let rest ← expect .rightBracket (skipSpace rest)
      return ([x], rest)

/-- The members of an object, up to its brace. -/
def parseMembers (format : NumberFormat N) :
    ℕ → JsString → Option (List (JsString × Json N) × JsString)
  | 0, _ => none
  | fuel + 1, s => do
    let (k, rest) ← parseString s
    let rest ← expect .colon (skipSpace rest)
    let (x, rest) ← parseValue format fuel rest
    match expect .comma (skipSpace rest) with
    | some rest =>
      let (ms, rest) ← parseMembers format fuel rest
      return ((k, x) :: ms, rest)
    | none =>
      let rest ← expect .rightBrace (skipSpace rest)
      return ([(k, x)], rest)

end

/-- `JSON.parse(text)`, `none` where it throws. -/
def parse (format : NumberFormat N) (s : JsString) : Option (Json N) :=
  match parseValue format (s.length + 1) s with
  | some (v, rest) => if skipSpace rest = [] then some v else none
  | none => none

/-! ## Strings are read back -/

theorem hexValue_hexDigit {d : ℕ} (h : d < 16) : hexValue (hexDigit d) = some d := by
  revert d
  decide

theorem fourDigits_hexDigits (u : UInt16) :
    fourDigits (hexDigit (u.toNat / 4096)) (hexDigit (u.toNat / 256 % 16))
      (hexDigit (u.toNat / 16 % 16)) (hexDigit (u.toNat % 16)) = some u := by
  have hu := u.toNat_lt
  have hvalue : u.toNat / 4096 * 4096 + u.toNat / 256 % 16 * 256 + u.toNat / 16 % 16 * 16
      + u.toNat % 16 = u.toNat := by omega
  rw [fourDigits, hexValue_hexDigit (by omega), hexValue_hexDigit (by omega),
    hexValue_hexDigit (by omega), hexValue_hexDigit (by omega)]
  simp only [Option.bind_eq_bind, Option.bind_some, hvalue, UInt16.ofNat_toNat]
  rfl

theorem parseQuoted_plain {u : UInt16} (hquote : u ≠ 0x22) (hescape : u ≠ 0x5C) (h : ¬ u < 0x20)
    (s : JsString) : parseQuoted (u :: s) = push u (parseQuoted s) := by
  cases s with
  | nil => simp [parseQuoted, push, hquote]
  | cons v s => rw [parseQuoted.eq_def]; simp [hquote, hescape, h]

theorem parseQuoted_escaped {e v : UInt16} (hunicode : e ≠ 0x75) (h : escaped e = some v)
    (s : JsString) : parseQuoted (0x5C :: e :: s) = push v (parseQuoted s) := by
  rw [parseQuoted.eq_def]
  simp [hunicode, h]

theorem parseQuoted_unicodeEscape (u : UInt16) (s : JsString) :
    parseQuoted (unicodeEscape u ++ s) = push u (parseQuoted s) := by
  simp [unicodeEscape, parseQuoted, fourDigits_hexDigits]

/-- Put units in front of what was read. -/
def pushAll (us : JsString) (r : Option (JsString × JsString)) : Option (JsString × JsString) :=
  r.map fun p => (us ++ p.1, p.2)

theorem pushAll_singleton (u : UInt16) (r : Option (JsString × JsString)) :
    pushAll [u] r = push u r := rfl

theorem pushAll_pair (u v : UInt16) (r : Option (JsString × JsString)) :
    pushAll [u, v] r = push u (push v r) := by
  cases r <;> rfl

theorem charUnits_of_lt {c : Char} {n : ℕ} (h : c.toNat = n) (hn : n < 0x10000) :
    charUnits c = [UInt16.ofNat n] := by
  rw [charUnits, h, if_pos hn]

/-- A code point inside quotes is read as its units. -/
theorem parseQuoted_quotePoint (p : CodePoint) (s : JsString) :
    parseQuoted (quotePoint p ++ s) = pushAll p.units (parseQuoted s) := by
  cases p with
  | lone u => rw [quotePoint, parseQuoted_unicodeEscape, CodePoint.units, pushAll_singleton]
  | scalar c =>
    have hescape : ∀ (n : ℕ) (e : UInt16), n < 0x10000 → c.toNat = n → e ≠ 0x75 →
        escaped e = some (UInt16.ofNat n) →
        parseQuoted ([0x5C, e] ++ s) = pushAll (charUnits c) (parseQuoted s) := by
      intro n e hn hc hunicode hvalue
      rw [charUnits_of_lt hc hn, pushAll_singleton, List.cons_append, List.singleton_append,
        parseQuoted_escaped hunicode hvalue]
    rw [quotePoint, CodePoint.units]
    split
    · exact hescape 0x22 0x22 (by decide) ‹_› (by decide) (by decide)
    split
    · exact hescape 0x5C 0x5C (by decide) ‹_› (by decide) (by decide)
    split
    · exact hescape 0x08 0x62 (by decide) ‹_› (by decide) (by decide)
    split
    · exact hescape 0x0C 0x66 (by decide) ‹_› (by decide) (by decide)
    split
    · exact hescape 0x0A 0x6E (by decide) ‹_› (by decide) (by decide)
    split
    · exact hescape 0x0D 0x72 (by decide) ‹_› (by decide) (by decide)
    split
    · exact hescape 0x09 0x74 (by decide) ‹_› (by decide) (by decide)
    split
    · rename_i h
      rw [parseQuoted_unicodeEscape, charUnits_of_lt rfl (by omega), pushAll_singleton]
    · -- the character stands for itself, with one unit or two
      rename_i hquote hslash _ _ _ _ _ hcontrol
      have hplain : ∀ n, n < 0x10000 → n ≠ 0x22 → n ≠ 0x5C → ¬ n < 0x20 → ∀ t,
          parseQuoted (UInt16.ofNat n :: t) = push (UInt16.ofNat n) (parseQuoted t) := by
        intro n hn hquote hslash hcontrol t
        have hnat := toNat_unit hn
        apply parseQuoted_plain
        · intro h
          rw [h] at hnat
          exact hquote hnat.symm
        · intro h
          rw [h] at hnat
          exact hslash hnat.symm
        · rw [UInt16.lt_iff_toNat_lt, hnat]
          exact hcontrol
      have hc := char_valid c
      unfold charUnits
      split
      · rename_i hsmall
        rw [List.singleton_append, pushAll_singleton, hplain _ hsmall hquote hslash hcontrol]
      · rw [List.cons_append, List.singleton_append, pushAll_pair,
          hplain _ (by omega) (by omega) (by omega) (by omega),
          hplain _ (by omega) (by omega) (by omega) (by omega)]

/-- A string in quotes is read up to its last quote. -/
theorem parseQuoted_quote (s rest : JsString) :
    parseQuoted ((codePoints s).flatMap quotePoint ++ 0x22 :: rest) = some (s, rest) := by
  have hpoints : ∀ ps : List CodePoint,
      parseQuoted (ps.flatMap quotePoint ++ 0x22 :: rest)
        = some (ps.flatMap CodePoint.units, rest) := by
    intro ps
    induction ps with
    | nil =>
      rw [List.flatMap_nil, List.nil_append, parseQuoted.eq_def]
      cases rest <;> simp
    | cons p ps ih =>
      rw [List.flatMap_cons, List.append_assoc, parseQuoted_quotePoint, ih, pushAll,
        Option.map_some, List.flatMap_cons]
  rw [hpoints, unitsOf_codePoints]

/-! ## Values are read back -/

section Values

variable {format : NumberFormat N}

@[simp] theorem text_nil : text format [] = [] := rfl

theorem text_cons (t : Token N) (ts : List (Token N)) :
    text format (t :: ts) = t.text format ++ text format ts := List.flatMap_cons

theorem text_append (ts us : List (Token N)) :
    text format (ts ++ us) = text format ts ++ text format us := List.flatMap_append

/-- A text after which a numeral cannot go on. -/
def EndsNumeral (rest : JsString) : Prop := ∀ u ∈ rest.head?, isNumeralUnit u = false

theorem endsNumeral_cons {u : UInt16} (h : isNumeralUnit u = false) (rest : JsString) :
    EndsNumeral (u :: rest) := by
  intro v hv
  cases hv
  exact h

theorem takeWhile_numeral {s rest : JsString} (hs : ∀ u ∈ s, isNumeralUnit u = true)
    (hrest : EndsNumeral rest) : (s ++ rest).takeWhile isNumeralUnit = s ∧
      (s ++ rest).dropWhile isNumeralUnit = rest := by
  induction s with
  | nil =>
    cases rest with
    | nil => exact ⟨rfl, rfl⟩
    | cons u rest => simp [hrest u rfl]
  | cons u s ih =>
    obtain ⟨htake, hdrop⟩ := ih fun v hv => hs v (List.mem_cons_of_mem u hv)
    simp [hs u List.mem_cons_self, htake, hdrop]

theorem skipSpace_cons {u : UInt16} (h : isSpace u = false) (s : JsString) :
    skipSpace (u :: s) = u :: s := by
  simp [skipSpace, h]

theorem expect_text (m : Mark) (rest : JsString) : expect m (m.text ++ rest) = some rest := by
  simp [expect]

theorem expect_of_head_ne {m : Mark} {u : UInt16} (h : m.text.head? ≠ some u) (s : JsString) :
    expect m (u :: s) = none := by
  cases m <;> simp_all [expect, Mark.text, List.isPrefixOf]

variable (format) in
/-- The first unit of a value: no blank, and no closing bracket. -/
theorem text_tokens_eq_cons (v : Json N) : ∃ u s, text format v.tokens = u :: s ∧
    isSpace u = false ∧ u ≠ 0x5D := by
  cases v with
  | null => exact ⟨_, _, rfl, by decide, by decide⟩
  | bool b =>
    cases b with
    | false => exact ⟨_, _, rfl, by decide, by decide⟩
    | true => exact ⟨_, _, rfl, by decide, by decide⟩
  | num n =>
    obtain ⟨u, s, hwrite⟩ := List.exists_cons_of_ne_nil (format.write_ne_nil n)
    have hu : isNumeralUnit u = true :=
      format.isNumeralUnit_write n u (by rw [hwrite]; exact List.mem_cons_self)
    refine ⟨u, s, ?_, ?_, ?_⟩
    · simp [tokens, text, Token.text, hwrite]
    · cases hspace : isSpace u with
      | false => rfl
      | true =>
        simp only [isSpace, Bool.or_eq_true, decide_eq_true_eq] at hspace
        obtain ((rfl | rfl) | rfl) | rfl := hspace <;> exact absurd hu (by decide)
    · rintro rfl
      exact absurd hu (by decide)
  | str s => exact ⟨_, _, rfl, by decide, by decide⟩
  | arr xs =>
    cases xs with
    | nil => exact ⟨_, _, rfl, by decide, by decide⟩
    | cons x xs => exact ⟨_, _, rfl, by decide, by decide⟩
  | obj ms =>
    cases ms with
    | nil => exact ⟨_, _, rfl, by decide, by decide⟩
    | cons m ms => exact ⟨_, _, rfl, by decide, by decide⟩

variable (format) in
theorem skipSpace_value (v : Json N) (rest : JsString) :
    skipSpace (text format v.tokens ++ rest) = text format v.tokens ++ rest := by
  obtain ⟨u, s, htext, hu, -⟩ := text_tokens_eq_cons format v
  rw [htext, List.cons_append, skipSpace_cons hu]

/-- The text of a value is read as that value, with enough fuel and whatever comes after. -/
def ReadsBack (format : NumberFormat N) (v : Json N) : Prop :=
  ∀ fuel rest, (text format v.tokens).length ≤ fuel → EndsNumeral rest →
    parseValue format fuel (text format v.tokens ++ rest) = some (v, rest)

theorem parseValue_scalar {s : JsString} (hs : skipSpace s = s) (hbracket : s.head? ≠ some 0x5B)
    (hbrace : s.head? ≠ some 0x7B) (fuel : ℕ) :
    parseValue format (fuel + 1) s = parseScalar format s := by
  rw [parseValue, hs]
  simp [hbracket, hbrace]

theorem exists_fuel {fuel : ℕ} {s : JsString} {u : UInt16} (h : (u :: s).length ≤ fuel) :
    ∃ fuel', fuel = fuel' + 1 ∧ s.length ≤ fuel' := by
  rw [List.length_cons] at h
  exact ⟨fuel - 1, by omega, by omega⟩

/-- The three words of JSON. -/
theorem readsBack_mark {m : Mark} {v : Json N} (htokens : v.tokens = [.mark m])
    (hscalar : ∀ rest, parseScalar format (m.text ++ rest) = some (v, rest))
    (hbracket : m.text.head? ≠ some 0x5B) (hbrace : m.text.head? ≠ some 0x7B) :
    ReadsBack format v := by
  intro fuel rest hfuel hrest
  have htext : text format v.tokens = m.text := by simp [htokens, text, Token.text]
  have hspace := skipSpace_value format v rest
  obtain ⟨u, s, hcons, -, -⟩ := text_tokens_eq_cons format v
  rw [htext] at hcons hspace hfuel ⊢
  rw [hcons] at hfuel
  obtain ⟨fuel, rfl, -⟩ := exists_fuel hfuel
  rw [parseValue_scalar hspace, hscalar]
  · simpa [hcons] using hbracket
  · simpa [hcons] using hbrace

theorem readsBack_null : ReadsBack format .null :=
  readsBack_mark rfl (fun rest => by simp [parseScalar, Mark.text, expect]) (by decide) (by decide)

theorem readsBack_bool (b : Bool) : ReadsBack format (.bool b) := by
  cases b with
  | false =>
    exact readsBack_mark rfl (fun rest => by simp [parseScalar, Mark.text, expect])
      (by decide) (by decide)
  | true =>
    exact readsBack_mark rfl (fun rest => by simp [parseScalar, Mark.text, expect])
      (by decide) (by decide)

theorem readsBack_num (n : N) : ReadsBack format (.num n) := by
  intro fuel rest hfuel hrest
  have htext : text format (tokens (.num n)) = format.write n := by
    simp [tokens, text, Token.text]
  have hspace := skipSpace_value format (.num n) rest
  obtain ⟨u, s, hwrite⟩ := List.exists_cons_of_ne_nil (format.write_ne_nil n)
  have hu : isNumeralUnit u = true :=
    format.isNumeralUnit_write n u (by rw [hwrite]; exact List.mem_cons_self)
  have hne : ∀ v, isNumeralUnit v = false → u ≠ v := by
    rintro v hv rfl
    exact absurd hu (by simp [hv])
  obtain ⟨htake, hdrop⟩ := takeWhile_numeral (format.isNumeralUnit_write n) hrest
  rw [htext] at hfuel hspace ⊢
  rw [hwrite] at hfuel
  obtain ⟨fuel, rfl, -⟩ := exists_fuel hfuel
  rw [parseValue_scalar hspace, parseScalar, htake, hdrop, format.read_write]
  · -- no word and no quote starts like a numeral
    have hmark : ∀ m : Mark, m.text.head?.any isNumeralUnit = false →
        expect m (format.write n ++ rest) = none := by
      intro m hm
      rw [hwrite, List.cons_append]
      apply expect_of_head_ne
      intro hhead
      simp [hhead, hu] at hm
    rw [hmark .null (by decide), hmark .true (by decide), hmark .false (by decide)]
    simp [hwrite, hne 0x22 (by decide)]
  · simp [hwrite, hne 0x5B (by decide)]
  · simp [hwrite, hne 0x7B (by decide)]

theorem readsBack_str (s : JsString) : ReadsBack format (.str s) := by
  intro fuel rest hfuel hrest
  have htext : text format (tokens (.str s)) = quote s := by
    simp [tokens, text, Token.text]
  have hspace := skipSpace_value format (.str s) rest
  have hquoted := parseQuoted_quote s rest
  rw [htext, quote, List.cons_append, List.cons_append, List.append_assoc] at hspace
  rw [htext, quote, List.cons_append] at hfuel
  rw [htext, quote, List.cons_append, List.cons_append, List.append_assoc]
  obtain ⟨fuel, rfl, -⟩ := exists_fuel hfuel
  rw [parseValue_scalar hspace (by simp) (by simp), parseScalar, List.head?_cons, if_pos rfl,
    List.tail_cons, List.singleton_append, hquoted]
  rfl

theorem parseString_quote (s rest : JsString) : parseString (quote s ++ rest) = some (s, rest) := by
  rw [quote, List.cons_append, List.cons_append, List.append_assoc, parseString,
    skipSpace_cons (by decide)]
  simp [parseQuoted_quote]

theorem quote_injective {s t : JsString} (h : quote s = quote t) : s = t := by
  have hs := parseString_quote s []
  rw [h, parseString_quote] at hs
  exact (congrArg Prod.fst (Option.some.inj hs)).symm

/-! ## Arrays and objects -/

/-- What comes after an element: a comma or the closing bracket. -/
theorem parseElements_text {x : Json N} {xs : List (Json N)} (hx : ReadsBack format x)
    (hxs : ∀ y ∈ xs, ReadsBack format y) (fuel : ℕ) (rest : JsString)
    (hfuel : (text format (x.tokens ++ moreElements xs)).length < fuel) :
    parseElements format fuel (text format (x.tokens ++ moreElements xs) ++ 0x5D :: rest)
      = some (x :: xs, rest) := by
  induction xs generalizing x fuel with
  | nil =>
    rw [moreElements, List.append_nil] at hfuel ⊢
    obtain ⟨fuel, rfl⟩ : ∃ n, fuel = n + 1 := ⟨fuel - 1, by omega⟩
    have hfirst := hx fuel (0x5D :: rest) (by omega) (endsNumeral_cons (by decide) rest)
    have hcomma : expect .comma (0x5D :: rest) = none := expect_of_head_ne (by decide) rest
    have hclose : expect .rightBracket (0x5D :: rest) = some rest := expect_text .rightBracket rest
    rw [parseElements, hfirst]
    simp [skipSpace_cons (u := 0x5D) (by decide), hcomma, hclose]
  | cons y ys ih =>
    have hmore : text format (x.tokens ++ moreElements (y :: ys)) = text format x.tokens
        ++ 0x2C :: text format (y.tokens ++ moreElements ys) := by
      simp [moreElements, text_append, text_cons, Token.text, Mark.text]
    rw [hmore, List.length_append, List.length_cons] at hfuel
    rw [hmore, List.append_assoc, List.cons_append]
    obtain ⟨fuel, rfl⟩ : ∃ n, fuel = n + 1 := ⟨fuel - 1, by omega⟩
    have hfirst := hx fuel (0x2C :: (text format (y.tokens ++ moreElements ys) ++ 0x5D :: rest))
      (by omega) (endsNumeral_cons (by decide) _)
    have hothers := ih (hxs y List.mem_cons_self) (fun z hz => hxs z (List.mem_cons_of_mem y hz))
      fuel (by omega)
    have hcomma : ∀ s, expect .comma (0x2C :: s) = some s := expect_text .comma
    rw [parseElements, hfirst]
    simp [skipSpace_cons (u := 0x2C) (by decide), hcomma, hothers]

theorem parseMembers_text {k : JsString} {x : Json N} {ms : List (JsString × Json N)}
    (hx : ReadsBack format x) (hms : ∀ m ∈ ms, ReadsBack format m.2) (fuel : ℕ) (rest : JsString)
    (hfuel :
      (text format (.quoted k :: .mark .colon :: x.tokens ++ moreMembers ms)).length < fuel) :
    parseMembers format fuel
      (text format (.quoted k :: .mark .colon :: x.tokens ++ moreMembers ms) ++ 0x7D :: rest)
      = some ((k, x) :: ms, rest) := by
  induction ms generalizing k x fuel with
  | nil =>
    have htext : text format (.quoted k :: .mark .colon :: x.tokens ++ moreMembers [])
        = quote k ++ 0x3A :: text format x.tokens := by
      simp [moreMembers, text_cons, Token.text, Mark.text]
    rw [htext, List.length_append, List.length_cons] at hfuel
    rw [htext, List.append_assoc, List.cons_append]
    obtain ⟨fuel, rfl⟩ : ∃ n, fuel = n + 1 := ⟨fuel - 1, by omega⟩
    have hfirst := hx fuel (0x7D :: rest) (by omega) (endsNumeral_cons (by decide) rest)
    have hcolon : ∀ s, expect .colon (0x3A :: s) = some s := expect_text .colon
    have hcomma : expect .comma (0x7D :: rest) = none := expect_of_head_ne (by decide) rest
    have hclose : expect .rightBrace (0x7D :: rest) = some rest := expect_text .rightBrace rest
    rw [parseMembers, parseString_quote]
    simp [skipSpace_cons (u := 0x3A) (by decide), skipSpace_cons (u := 0x7D) (by decide), hcolon,
      hfirst, hcomma, hclose]
  | cons m ms ih =>
    obtain ⟨l, y⟩ := m
    have htext : text format (.quoted k :: .mark .colon :: x.tokens ++ moreMembers ((l, y) :: ms))
        = quote k ++ 0x3A :: (text format x.tokens
          ++ 0x2C :: text format (.quoted l :: .mark .colon :: y.tokens ++ moreMembers ms)) := by
      simp [moreMembers, text_cons, text_append, Token.text, Mark.text]
    rw [htext, List.length_append, List.length_cons, List.length_append, List.length_cons] at hfuel
    rw [htext, List.append_assoc, List.cons_append, List.append_assoc, List.cons_append]
    obtain ⟨fuel, rfl⟩ : ∃ n, fuel = n + 1 := ⟨fuel - 1, by omega⟩
    have hfirst := hx fuel (0x2C :: (text format
      (.quoted l :: .mark .colon :: y.tokens ++ moreMembers ms) ++ 0x7D :: rest))
      (by omega) (endsNumeral_cons (by decide) _)
    have hothers := ih (hms (l, y) List.mem_cons_self)
      (fun m hm => hms m (List.mem_cons_of_mem _ hm)) (k := l) (x := y) fuel (by omega)
    have hcolon : ∀ s, expect .colon (0x3A :: s) = some s := expect_text .colon
    have hcomma : ∀ s, expect .comma (0x2C :: s) = some s := expect_text .comma
    rw [parseMembers, parseString_quote]
    simp only [Option.bind_eq_bind, Option.bind_some, skipSpace_cons (u := 0x3A) (by decide),
      skipSpace_cons (u := 0x2C) (by decide), hcolon, hcomma, hfirst, hothers]
    rfl

theorem readsBack_arr {xs : List (Json N)} (h : ∀ x ∈ xs, ReadsBack format x) :
    ReadsBack format (.arr xs) := by
  intro fuel rest hfuel hrest
  cases xs with
  | nil =>
    obtain ⟨fuel, rfl, -⟩ := exists_fuel hfuel
    have hclose : expect .rightBracket (0x5D :: rest) = some rest := expect_text .rightBracket rest
    have htext : text format (tokens (.arr ([] : List (Json N)))) ++ rest
        = 0x5B :: 0x5D :: rest := rfl
    rw [htext, parseValue, skipSpace_cons (by decide), List.head?_cons, if_pos rfl, List.tail_cons,
      skipSpace_cons (by decide), hclose]
  | cons x xs =>
    have htext : text format (tokens (.arr (x :: xs)))
        = 0x5B :: (text format (x.tokens ++ moreElements xs) ++ [0x5D]) := by
      simp [tokens, text_cons, text_append, Token.text, Mark.text]
    rw [htext] at hfuel
    obtain ⟨fuel, rfl, hlength⟩ := exists_fuel hfuel
    rw [List.length_append, List.length_singleton] at hlength
    have hopen : expect .rightBracket (text format (x.tokens ++ moreElements xs) ++ 0x5D :: rest)
        = none := by
      obtain ⟨u, s, hcons, -, hu⟩ := text_tokens_eq_cons format x
      rw [text_append, hcons, List.cons_append, List.cons_append]
      exact expect_of_head_ne (by simpa [Mark.text] using hu.symm) _
    have hspace : skipSpace (text format (x.tokens ++ moreElements xs) ++ 0x5D :: rest)
        = text format (x.tokens ++ moreElements xs) ++ 0x5D :: rest := by
      rw [text_append, List.append_assoc, skipSpace_value format]
    have helements := parseElements_text (h x List.mem_cons_self)
      (fun y hy => h y (List.mem_cons_of_mem x hy)) fuel rest hlength
    rw [htext, List.cons_append, List.append_assoc, List.singleton_append, parseValue,
      skipSpace_cons (by decide), List.head?_cons, if_pos rfl, List.tail_cons, hspace, hopen,
      helements]
    rfl

theorem readsBack_obj {ms : List (JsString × Json N)} (hnodup : (OrderedMap.keys ms).Nodup)
    (h : ∀ m ∈ ms, ReadsBack format m.2) : ReadsBack format (.obj ms) := by
  intro fuel rest hfuel hrest
  cases ms with
  | nil =>
    obtain ⟨fuel, rfl, -⟩ := exists_fuel hfuel
    have hclose : expect .rightBrace (0x7D :: rest) = some rest := expect_text .rightBrace rest
    have htext : text format (tokens (.obj ([] : List (JsString × Json N)))) ++ rest
        = 0x7B :: 0x7D :: rest := rfl
    rw [htext, parseValue, skipSpace_cons (by decide), List.head?_cons, if_neg (by decide),
      if_pos rfl, List.tail_cons, skipSpace_cons (by decide), hclose]
  | cons m ms =>
    obtain ⟨k, x⟩ := m
    have htext : text format (tokens (.obj ((k, x) :: ms)))
        = 0x7B :: (text format (.quoted k :: .mark .colon :: x.tokens ++ moreMembers ms)
          ++ [0x7D]) := by
      simp [tokens, text_cons, text_append, Token.text, Mark.text]
    have hquote : text format (.quoted k :: .mark .colon :: x.tokens ++ moreMembers ms)
        = 0x22 :: ((codePoints k).flatMap quotePoint ++ 0x22 :: 0x3A :: text format
          (x.tokens ++ moreMembers ms)) := by
      simp [text_cons, text_append, Token.text, Mark.text, quote]
    have hcreate : createMembers ((k, x) :: ms) = .obj ((k, x) :: ms) := by
      rw [createMembers, OrderedMap.spread_nil hnodup]
    rw [htext] at hfuel
    obtain ⟨fuel, rfl, hlength⟩ := exists_fuel hfuel
    rw [List.length_append, List.length_singleton] at hlength
    have hmembers := parseMembers_text (x := x) (h (k, x) List.mem_cons_self)
      (fun m hm => h m (List.mem_cons_of_mem _ hm)) (k := k) fuel rest hlength
    have hopen : expect .rightBrace (skipSpace (text format
        (.quoted k :: .mark .colon :: x.tokens ++ moreMembers ms) ++ 0x7D :: rest)) = none := by
      rw [hquote, List.cons_append, skipSpace_cons (by decide)]
      exact expect_of_head_ne (by decide) _
    rw [htext, List.cons_append, List.append_assoc, List.singleton_append, parseValue,
      skipSpace_cons (by decide), List.head?_cons, if_neg (by decide), if_pos rfl, List.tail_cons,
      hopen]
    dsimp only
    rw [hmembers, Option.map_some, hcreate]

variable (format) in
theorem readsBack {v : Json N} (hv : v.WellFormed) : ReadsBack format v := by
  induction hv with
  | null => exact readsBack_null
  | bool b => exact readsBack_bool b
  | num n => exact readsBack_num n
  | str s => exact readsBack_str s
  | arr h ih => exact readsBack_arr ih
  | obj hnodup h ih => exact readsBack_obj hnodup ih

variable (format) in
/-- **What was written is read back.** -/
theorem parse_stringify {v : Json N} (hv : v.WellFormed) :
    parse format (stringify format v) = some v := by
  have hread := readsBack format hv ((stringify format v).length + 1) []
    (Nat.le_succ _) (by simp [EndsNumeral])
  rw [List.append_nil, ← stringify] at hread
  rw [parse, hread]
  rfl

/-! ## The units of a text -/

def Token.string? : Token N → Option JsString
  | .quoted s => some s
  | .mark _ | .numeral _ => none

/-- The strings of a value and the names of its members. -/
def strings (v : Json N) : List JsString := v.tokens.filterMap Token.string?

theorem mem_strings {v : Json N} {s : JsString} : s ∈ v.strings ↔ .quoted s ∈ v.tokens := by
  rw [strings, List.mem_filterMap]
  constructor
  · rintro ⟨t, ht, hs⟩
    cases t with
    | quoted s' =>
      cases hs
      exact ht
    | mark m => cases hs
    | numeral n => cases hs
  · intro h
    exact ⟨_, h, rfl⟩

theorem hexDigit_lt (d : ℕ) (h : d < 16) : (hexDigit d).toNat < 0x80 := by
  revert d
  decide

theorem ascii_unicodeEscape (u : UInt16) : Ascii (unicodeEscape u) := by
  have hu := u.toNat_lt
  simp only [Below, unicodeEscape, List.forall_mem_cons]
  refine ⟨by decide, by decide, hexDigit_lt _ (by omega), hexDigit_lt _ (by omega),
    hexDigit_lt _ (by omega), hexDigit_lt _ (by omega), by simp⟩

theorem ascii_mark (m : Mark) : Ascii m.text := by
  cases m <;> decide

variable (format) in
theorem ascii_write (n : N) : Ascii (format.write n) := by
  intro u hu
  have hnumeral := format.isNumeralUnit_write n u hu
  simp only [isNumeralUnit, Bool.or_eq_true, Bool.and_eq_true, decide_eq_true_eq,
    UInt16.le_iff_toNat_le] at hnumeral
  obtain ((((⟨-, h⟩ | rfl) | rfl) | rfl) | rfl) | rfl := hnumeral
  · exact Nat.lt_of_le_of_lt h (by decide)
  all_goals decide

/-- A character is written as it is, or it is ASCII and so is what is written for it. -/
theorem quotePoint_scalar (c : Char) : quotePoint (.scalar c) = charUnits c ∨
    Ascii (quotePoint (.scalar c)) ∧ c.toNat < 0x80 := by
  by_cases hc : c.toNat < 0x80
  · right
    refine ⟨?_, hc⟩
    have hplain : Ascii (charUnits c) := (below_charUnits (by decide) c).2 hc
    have hcontrol := ascii_unicodeEscape (UInt16.ofNat c.toNat)
    rw [quotePoint]
    generalize charUnits c = plain at hplain ⊢
    repeat' apply iteInduction <;> intro _
    all_goals first | decide | exact hcontrol | exact hplain
  · left
    rw [quotePoint, if_neg (by omega), if_neg (by omega), if_neg (by omega), if_neg (by omega),
      if_neg (by omega), if_neg (by omega), if_neg (by omega), if_neg (by omega)]

theorem below_quotePoint {k : ℕ} (hk : 0x80 ≤ k) (hk' : k ≤ 0xD800) (p : CodePoint) :
    Below k (quotePoint p) ↔ FitsBelow k p := by
  cases p with
  | lone u => exact iff_of_true ((ascii_unicodeEscape u).mono hk) trivial
  | scalar c =>
    rcases quotePoint_scalar c with hplain | ⟨hascii, hc⟩
    · rw [hplain]
      exact below_charUnits hk' c
    · exact iff_of_true (hascii.mono hk) (Nat.lt_of_lt_of_le hc hk)

variable (format) in
/-- The text of a value has only small units when all of its characters are small. -/
theorem below_stringify_iff {k : ℕ} (hk : 0x80 ≤ k) (hk' : k ≤ 0xD800) (v : Json N) :
    Below k (stringify format v) ↔ ∀ s ∈ v.strings, ∀ p ∈ codePoints s, FitsBelow k p := by
  have hquote : ∀ s, Below k (quote s) ↔ ∀ p ∈ codePoints s, FitsBelow k p := by
    intro s
    have hmark : (0x22 : UInt16).toNat < k := Nat.lt_of_lt_of_le (by decide) hk
    have hbody : Below k (quote s) ↔ Below k ((codePoints s).flatMap quotePoint) := by
      simp only [Below, quote, List.cons_append, List.forall_mem_cons, List.forall_mem_append,
        List.not_mem_nil, false_imp_iff, implies_true, hmark, true_and, and_true]
    rw [hbody, below_flatMap]
    exact forall₂_congr fun p _ => below_quotePoint hk hk' p
  rw [stringify, text, below_flatMap]
  constructor
  · intro h s hs
    exact (hquote s).1 (h _ (mem_strings.1 hs))
  · intro h t ht
    cases t with
    | mark m => exact (ascii_mark m).mono hk
    | numeral n => exact (ascii_write format n).mono hk
    | quoted s => exact (hquote s).2 (h s (mem_strings.2 ht))

theorem isText_of_ascii {s : JsString} (h : Ascii s) : IsText s :=
  isText_of_latin1 (h.mono (by decide))

theorem isText_quotePoint (p : CodePoint) : IsText (quotePoint p) := by
  cases p with
  | lone u => exact isText_of_ascii (ascii_unicodeEscape u)
  | scalar c =>
    rcases quotePoint_scalar c with hplain | ⟨hascii, -⟩
    · rw [hplain]
      exact isText_charUnits c
    · exact isText_of_ascii hascii

theorem isText_quote (s : JsString) : IsText (quote s) := by
  have hmark : IsText [0x22] := isText_of_ascii (by decide)
  exact (hmark.append (isText_flatMap fun p _ => isText_quotePoint p)).append hmark

variable (format) in
/-- No text has a lone surrogate: they are escaped. -/
theorem isText_stringify (v : Json N) : IsText (stringify format v) := by
  apply isText_flatMap
  intro t _
  cases t with
  | mark m => exact isText_of_ascii (ascii_mark m)
  | numeral n => exact isText_of_ascii (ascii_write format n)
  | quoted s => exact isText_quote s

/-! ## Where the units of a text come from -/

/-- The units of quotes and of what is written for a character inside them. -/
def isEscapeUnit (u : UInt16) : Bool :=
  u = 0x22 || u = 0x5C || u = 0x6E || u = 0x72 || u = 0x74 || u = 0x75
    || (0x30 ≤ u && u ≤ 0x39) || (0x61 ≤ u && u ≤ 0x66)

theorem isEscapeUnit_hexDigit {d : ℕ} (h : d < 16) : isEscapeUnit (hexDigit d) = true := by
  revert d
  decide

theorem isEscapeUnit_unicodeEscape (u : UInt16) :
    ∀ v ∈ unicodeEscape u, isEscapeUnit v = true := by
  have hu := u.toNat_lt
  simp only [unicodeEscape, List.forall_mem_cons]
  exact ⟨by decide, by decide, isEscapeUnit_hexDigit (by omega),
    isEscapeUnit_hexDigit (by omega), isEscapeUnit_hexDigit (by omega),
    isEscapeUnit_hexDigit (by omega), by simp⟩

theorem mem_quotePoint {p : CodePoint} {u : UInt16} (h : u ∈ quotePoint p) :
    u ∈ p.units ∨ isEscapeUnit u = true := by
  cases p with
  | lone v => exact Or.inr (isEscapeUnit_unicodeEscape v u h)
  | scalar c =>
    have hpair : ∀ e : UInt16, isEscapeUnit e = true → u ∈ [0x5C, e] →
        isEscapeUnit u = true := by
      intro e he hu
      rcases List.mem_cons.1 hu with rfl | hu
      · decide
      · exact List.mem_singleton.1 hu ▸ he
    rw [quotePoint] at h
    split at h
    · exact Or.inr (hpair _ (by decide) h)
    split at h
    · exact Or.inr (hpair _ (by decide) h)
    split at h
    · exact Or.inr (hpair _ (by decide) h)
    split at h
    · exact Or.inr (hpair _ (by decide) h)
    split at h
    · exact Or.inr (hpair _ (by decide) h)
    split at h
    · exact Or.inr (hpair _ (by decide) h)
    split at h
    · exact Or.inr (hpair _ (by decide) h)
    split at h
    · exact Or.inr (isEscapeUnit_unicodeEscape _ u h)
    · exact Or.inl h

theorem mem_quote {s : JsString} {u : UInt16} (h : u ∈ quote s) :
    u ∈ s ∨ isEscapeUnit u = true := by
  rw [quote, List.cons_append, List.mem_cons, List.mem_append, List.mem_flatMap] at h
  rcases h with rfl | ⟨p, hp, hu⟩ | hu
  · exact Or.inr (by decide)
  · refine (mem_quotePoint hu).imp_left fun hunits => ?_
    rw [← unitsOf_codePoints s]
    exact List.mem_flatMap.2 ⟨p, hp, hunits⟩
  · rw [List.mem_singleton.1 hu]
    exact Or.inr (by decide)

/-- A unit of a text comes from a string in the value, or belongs to how values are
written. -/
theorem mem_stringify {v : Json N} {u : UInt16} (h : u ∈ stringify format v) :
    (∃ s ∈ v.strings, u ∈ s) ∨ isEscapeUnit u = true ∨ isNumeralUnit u = true ∨
      ∃ m : Mark, u ∈ m.text := by
  obtain ⟨t, ht, hu⟩ := List.mem_flatMap.1 h
  cases t with
  | mark m => exact Or.inr (Or.inr (Or.inr ⟨m, hu⟩))
  | numeral n => exact Or.inr (Or.inr (Or.inl (format.isNumeralUnit_write n u hu)))
  | quoted s =>
    rcases mem_quote hu with hs | hescape
    · exact Or.inl ⟨s, mem_strings.2 ht, hs⟩
    · exact Or.inr (Or.inl hescape)

theorem strings_moreMembers (ms : List (JsString × Json N)) :
    (moreMembers ms).filterMap Token.string? = ms.flatMap fun m => m.1 :: m.2.strings := by
  induction ms with
  | nil => rfl
  | cons m ms ih =>
    rw [moreMembers, List.cons_append, List.filterMap_cons, Token.string?, List.flatMap_cons,
      ← ih]
    simp [Token.string?, strings, List.filterMap_cons]

theorem strings_obj (ms : List (JsString × Json N)) :
    (obj ms).strings = ms.flatMap fun m => m.1 :: m.2.strings := by
  cases ms with
  | nil => rfl
  | cons m ms =>
    rw [List.flatMap_cons, ← strings_moreMembers]
    simp [strings, tokens, Token.string?, List.filterMap_cons]

end Values

end Json
