import SharedTsLibs.Lib.JsRounding
import SharedTsLibs.Lib.JsText

/-!
# Numbers in text

`Number(text)`: what the runtime reads a text as, white space around it left out.  The number
that a text denotes is exact; a `Rounding` makes it a number of the runtime.

* `ofText` — the number that a text denotes, `NaN` when it denotes none.
* `ofText_digits`, `number_toDigits` — a sequence of digits denotes its value.
* `number_of_blank` — a text with a blank inside denotes none.
-/

namespace NumericText

/-! ## Numerals -/

/-- `DecimalDigits`. -/
def readDigits (cs : List Char) : Option ℕ :=
  if cs ≠ [] ∧ cs.all Char.isDigit = true then some (Nat.ofDigitChars 10 cs 0) else none

/-- A digit of a numeral in some base, at most 16. -/
def digitValue (c : Char) : ℕ :=
  if c.isDigit then c.toNat - 48 else if c.isUpper then c.toNat - 55 else c.toNat - 87

/-- A letter or digit that is a digit in a base. -/
def isDigitIn (base : ℕ) (c : Char) : Bool :=
  (c.isDigit || ('a' ≤ c && c ≤ 'f') || ('A' ≤ c && c ≤ 'F')) && digitValue c < base

/-- The digits of a `NonDecimalIntegerLiteral`. -/
def readInteger (base : ℕ) (cs : List Char) : JsNumber :=
  if cs ≠ [] ∧ cs.all (isDigitIn base) = true then
    .finite (cs.foldl (fun n c => base * n + digitValue c) 0 : ℕ)
  else .nan

/-- The exponent of a numeral. -/
def readExponent : List Char → Option ℤ
  | '+' :: cs => (readDigits cs).map Int.ofNat
  | '-' :: cs => (readDigits cs).map fun n => -Int.ofNat n
  | cs => (readDigits cs).map Int.ofNat

/-- A numeral without an exponent. -/
def readMantissa (cs : List Char) : Option ℚ :=
  match cs.span (· ≠ '.') with
  | (whole, []) => (readDigits whole).map fun n : ℕ => (n : ℚ)
  | (whole, _ :: fraction) =>
    (readDigits (whole ++ fraction)).map fun n : ℕ => (n : ℚ) / 10 ^ fraction.length

/-- `q * 10 ** exponent` -/
def scale (q : ℚ) (exponent : ℤ) : ℚ :=
  if 0 ≤ exponent then q * 10 ^ exponent.toNat else q / 10 ^ (-exponent).toNat

/-- A decimal numeral without a sign. -/
def readDecimal (cs : List Char) : Option ℚ :=
  match cs.span (fun c => c ≠ 'e' ∧ c ≠ 'E') with
  | (mantissa, []) => readMantissa mantissa
  | (mantissa, _ :: exponent) => do return scale (← readMantissa mantissa) (← readExponent exponent)

/-- `StrUnsignedDecimalLiteral`. -/
def readUnsigned (cs : List Char) : JsNumber :=
  if cs = "Infinity".toList then .infinity false
  else
    match readDecimal cs with
    | some q => .finite q
    | none => .nan

/-- A numeral without white space around it; the empty one denotes zero. -/
def readNumeral : List Char → JsNumber
  | [] => 0
  | '0' :: 'x' :: cs | '0' :: 'X' :: cs => readInteger 16 cs
  | '0' :: 'o' :: cs | '0' :: 'O' :: cs => readInteger 8 cs
  | '0' :: 'b' :: cs | '0' :: 'B' :: cs => readInteger 2 cs
  | '+' :: cs => readUnsigned cs
  | '-' :: cs => (readUnsigned cs).neg
  | cs => readUnsigned cs

/-- The number that a text denotes. -/
def ofText (s : List Char) : JsNumber := readNumeral (JsText.trim s)

/-- `Number(text)`. -/
def number (rounding : JsNumber.Rounding) (s : String) : JsNumber :=
  (ofText s.toList).rounded rounding

example : ofText " 0x10\n".toList = 16 ∧ ofText "-2.5e1".toList = .finite (-25) ∧
    ofText "1 2".toList = .nan ∧ ofText ".".toList = .nan := by decide +kernel

/-! ## What numerals are made of -/

theorem readDigits_eq_some {cs : List Char} {n : ℕ} (h : readDigits cs = some n) :
    ∀ c ∈ cs, c.isDigit = true := by
  unfold readDigits at h
  split at h
  · rename_i hdigits
    exact List.all_eq_true.1 hdigits.2
  · cases h

/-- A text is split where a character fails the test. -/
theorem span_spec {p : Char → Bool} {cs a b : List Char} (h : cs.span p = (a, b)) :
    cs = a ++ b ∧ ∀ c ∈ b.head?, p c = false := by
  rw [List.span_eq_takeWhile_dropWhile, Prod.mk.injEq] at h
  obtain ⟨rfl, rfl⟩ := h
  refine ⟨List.takeWhile_append_dropWhile.symm, fun c hc => ?_⟩
  have hhead := List.head?_dropWhile_not p cs
  rw [Option.mem_def.1 hc] at hhead
  exact hhead

theorem span_eq_self {p : Char → Bool} {cs : List Char} (h : ∀ c ∈ cs, p c = true) :
    cs.span p = (cs, []) := by
  rw [List.span_eq_takeWhile_dropWhile, List.takeWhile_eq_self_iff.2 h,
    List.dropWhile_eq_nil_iff.2 h]

theorem readMantissa_eq_some {cs : List Char} {q : ℚ} (h : readMantissa cs = some q) :
    ∀ c ∈ cs, c.isDigit = true ∨ c = '.' := by
  unfold readMantissa at h
  split at h
  · rename_i whole hspan
    obtain ⟨hcs, -⟩ := span_spec hspan
    obtain ⟨n, hn, -⟩ := Option.map_eq_some_iff.1 h
    intro c hc
    rw [hcs, List.append_nil] at hc
    exact .inl (readDigits_eq_some hn c hc)
  · rename_i whole point fraction hspan
    obtain ⟨hcs, hpoint⟩ := span_spec hspan
    obtain ⟨n, hn, -⟩ := Option.map_eq_some_iff.1 h
    have hdigits := readDigits_eq_some hn
    intro c hc
    rw [hcs, List.mem_append, List.mem_cons] at hc
    rcases hc with hc | rfl | hc
    · exact .inl (hdigits c (List.mem_append_left _ hc))
    · exact .inr (by simpa using hpoint c rfl)
    · exact .inl (hdigits c (List.mem_append_right _ hc))

theorem readExponent_eq_some {cs : List Char} {e : ℤ} (h : readExponent cs = some e) :
    ∀ c ∈ cs, c.isDigit = true ∨ c = '+' ∨ c = '-' := by
  unfold readExponent at h
  split at h
  · obtain ⟨n, hn, -⟩ := Option.map_eq_some_iff.1 h
    intro c hc
    rcases List.mem_cons.1 hc with rfl | hc
    · exact .inr (.inl rfl)
    · exact .inl (readDigits_eq_some hn c hc)
  · obtain ⟨n, hn, -⟩ := Option.map_eq_some_iff.1 h
    intro c hc
    rcases List.mem_cons.1 hc with rfl | hc
    · exact .inr (.inr rfl)
    · exact .inl (readDigits_eq_some hn c hc)
  · obtain ⟨n, hn, -⟩ := Option.map_eq_some_iff.1 h
    exact fun c hc => .inl (readDigits_eq_some hn c hc)

/-- The characters of a decimal numeral. -/
def IsNumeralChar (c : Char) : Prop :=
  c.isDigit = true ∨ c ∈ ['.', 'e', 'E', '+', '-']

theorem readDecimal_eq_some {cs : List Char} {q : ℚ} (h : readDecimal cs = some q) :
    ∀ c ∈ cs, IsNumeralChar c := by
  have hmantissa : ∀ {ds : List Char} {p : ℚ}, readMantissa ds = some p →
      ∀ c ∈ ds, IsNumeralChar c := by
    intro ds p hp c hc
    exact (readMantissa_eq_some hp c hc).imp_right fun hpoint => by simp [hpoint]
  unfold readDecimal at h
  split at h
  · rename_i mantissa hspan
    obtain ⟨hcs, -⟩ := span_spec hspan
    intro c hc
    rw [hcs, List.append_nil] at hc
    exact hmantissa h c hc
  · rename_i mantissa letter exponent hspan
    obtain ⟨hcs, hletter⟩ := span_spec hspan
    obtain ⟨p, hp, h⟩ := Option.bind_eq_some_iff.1 h
    obtain ⟨e, he, -⟩ := Option.bind_eq_some_iff.1 h
    intro c hc
    rw [hcs, List.mem_append, List.mem_cons] at hc
    rcases hc with hc | rfl | hc
    · exact hmantissa hp c hc
    · have hcase : c = 'e' ∨ c = 'E' := by simpa [imp_iff_not_or] using hletter c rfl
      rcases hcase with rfl | rfl
      · exact .inr (by simp)
      · exact .inr (by simp)
    · refine (readExponent_eq_some he c hc).imp_right fun hsign => ?_
      rcases hsign with rfl | rfl
      · simp
      · simp

/-! ## Digits and blanks -/

/-- A text with a blank inside denotes no number. -/
theorem readUnsigned_of_blank {cs : List Char} (h : ' ' ∈ cs) : readUnsigned cs = .nan := by
  have hinfinity : cs ≠ "Infinity".toList := by
    rintro rfl
    exact absurd h (by decide)
  rw [readUnsigned, if_neg hinfinity]
  cases hread : readDecimal cs with
  | none => rfl
  | some q =>
    rcases readDecimal_eq_some hread ' ' h with hdigit | hmem
    · exact absurd hdigit (by decide)
    · exact absurd hmem (by decide)

theorem readInteger_of_blank {base : ℕ} {cs : List Char} (h : ' ' ∈ cs) :
    readInteger base cs = .nan := by
  rw [readInteger, if_neg]
  rintro ⟨-, hall⟩
  have hblank := List.all_eq_true.1 hall ' ' h
  simp [isDigitIn] at hblank

theorem readNumeral_of_blank {cs : List Char} (h : ' ' ∈ cs) : readNumeral cs = .nan := by
  unfold readNumeral
  split
  · simp at h
  case h_8 => rw [readUnsigned_of_blank (by simpa using h)]
  case h_9 =>
    rw [readUnsigned_of_blank (by simpa using h)]
    rfl
  case h_10 => exact readUnsigned_of_blank h
  all_goals exact readInteger_of_blank (by simpa using h)

theorem isDigit_iff {c : Char} : c.isDigit = true ↔ 48 ≤ c.toNat ∧ c.toNat ≤ 57 := by
  simp [Char.isDigit, UInt32.le_iff_toNat_le, ← Char.toNat_val]

theorem not_isWhitespace_of_isDigit {c : Char} (h : c.isDigit = true) :
    JsText.isWhitespace c = false := by
  rw [isDigit_iff] at h
  have hne : ∀ d : Char, (d.toNat < 48 ∨ 57 < d.toNat) → c ≠ d := by
    rintro d hd rfl
    omega
  have hle : ¬ '\u2000' ≤ c := by
    intro hle
    have hnat : (8192 : ℕ) ≤ c.toNat := Char.le_def.1 hle
    omega
  simp only [JsText.isWhitespace, List.mem_cons, List.not_mem_nil, hle]
  simp (disch := decide) [hne]

/-- A sequence of digits is left as it is. -/
theorem trim_of_isDigit {cs : List Char} (h : ∀ c ∈ cs, c.isDigit = true) :
    JsText.trim cs = cs :=
  JsText.trim_eq_self
    (fun c hc => not_isWhitespace_of_isDigit (h c (List.mem_of_mem_head? hc)))
    (fun c hc => not_isWhitespace_of_isDigit (h c (List.mem_of_mem_getLast? hc)))

theorem readUnsigned_digits {cs : List Char} (hne : cs ≠ []) (h : ∀ c ∈ cs, c.isDigit = true) :
    readUnsigned cs = .finite (Nat.ofDigitChars 10 cs 0 : ℕ) := by
  have hinfinity : cs ≠ "Infinity".toList := by
    rintro rfl
    exact absurd (h 'I' (by decide)) (by decide)
  have hother : ∀ d : Char, d.isDigit = false → ∀ c ∈ cs, c ≠ d := by
    rintro d hd c hc rfl
    rw [h c hc] at hd
    cases hd
  have hmantissa : cs.span (fun c => decide (c ≠ 'e' ∧ c ≠ 'E')) = (cs, []) :=
    span_eq_self fun c hc =>
      decide_eq_true ⟨hother 'e' (by decide) c hc, hother 'E' (by decide) c hc⟩
  have hwhole : cs.span (fun c => decide (c ≠ '.')) = (cs, []) :=
    span_eq_self fun c hc => decide_eq_true (hother '.' (by decide) c hc)
  have hdigits : readDigits cs = some (Nat.ofDigitChars 10 cs 0) :=
    if_pos ⟨hne, List.all_eq_true.2 h⟩
  have hdecimal : readDecimal cs = some ((Nat.ofDigitChars 10 cs 0 : ℕ) : ℚ) := by
    rw [readDecimal, hmantissa]
    dsimp only
    rw [readMantissa, hwhole]
    dsimp only
    rw [hdigits]
    rfl
  rw [readUnsigned, if_neg hinfinity, hdecimal]

/-- A sequence of digits denotes its value. -/
theorem ofText_digits {cs : List Char} (hne : cs ≠ []) (h : ∀ c ∈ cs, c.isDigit = true) :
    ofText cs = .finite (Nat.ofDigitChars 10 cs 0 : ℕ) := by
  have hletter : ∀ {d e : Char} {ds : List Char}, e.isDigit = false → cs ≠ d :: e :: ds := by
    rintro d e ds he rfl
    rw [h e (by simp)] at he
    cases he
  have hsign : ∀ {d : Char} {ds : List Char}, d.isDigit = false → cs ≠ d :: ds := by
    rintro d ds hd rfl
    rw [h d (by simp)] at hd
    cases hd
  rw [ofText, trim_of_isDigit h, ← readUnsigned_digits hne h]
  unfold readNumeral
  split
  · exact (hne rfl).elim
  case h_8 => exact (hsign (by decide) rfl).elim
  case h_9 => exact (hsign (by decide) rfl).elim
  case h_10 => rfl
  all_goals exact (hletter (by decide) rfl).elim

theorem ofText_of_readDigits {cs : List Char} {n : ℕ} (h : readDigits cs = some n) :
    ofText cs = .finite n := by
  unfold readDigits at h
  split at h
  · rename_i hdigits
    rw [ofText_digits hdigits.1 (List.all_eq_true.1 hdigits.2), Option.some.inj h]
  · cases h

/-- A number written in decimal digits denotes itself. -/
theorem ofText_toDigits (n : ℕ) : ofText (Nat.toDigits 10 n) = .finite n := by
  rw [ofText_digits Nat.toDigits_ne_nil fun c hc =>
    Nat.isDigit_of_mem_toDigits (by decide) (by decide) hc, Nat.ofDigitChars_ten_toDigits]

theorem number_toDigits (rounding : JsNumber.Rounding) {n : ℕ} (h : n ≤ 2 ^ 53) :
    number rounding (.ofList (Nat.toDigits 10 n)) = .finite n := by
  rw [number, String.toList_ofList, ofText_toDigits]
  exact rounding.round_natCast h

/-- A text with a blank inside is no number. -/
theorem number_of_blank (rounding : JsNumber.Rounding) {cs : List Char}
    (h : ' ' ∈ JsText.trim cs) : number rounding (.ofList cs) = .nan := by
  rw [number, String.toList_ofList, ofText, readNumeral_of_blank h]
  rfl

end NumericText
