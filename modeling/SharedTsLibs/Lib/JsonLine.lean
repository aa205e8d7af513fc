import SharedTsLibs.Lib.JsonText
import SharedTsLibs.Lib.JsText

/-!
# JSON texts on one line

What `JSON.stringify` writes without indentation has no control character in it and no
white space at its ends: it can stand on a line of its own, and is found there again.

* `chars` — the characters of the text of a value.
* `ofChars_chars` — no unit is lost on the way to the characters.
* `control_not_mem_chars`, `trim_chars` — the text stays on its line.
* `parse_chars` — and is read back.
-/

namespace Json

open JsString JsText

variable {N : Type}

/-! ## The ends of a text -/

/-- A unit that is printed, and is no blank. -/
def IsVisible (u : UInt16) : Prop := 0x20 < u.toNat ∧ u.toNat < 0x7F

theorem isVisible_of_isNumeralUnit {u : UInt16} (h : isNumeralUnit u = true) : IsVisible u := by
  simp only [isNumeralUnit, Bool.or_eq_true, Bool.and_eq_true, decide_eq_true_eq,
    UInt16.le_iff_toNat_le] at h
  obtain ((((⟨h, h'⟩ | rfl) | rfl) | rfl) | rfl) | rfl := h
  · exact ⟨Nat.lt_of_lt_of_le (by decide) h, Nat.lt_of_le_of_lt h' (by decide)⟩
  all_goals exact ⟨by decide, by decide⟩

variable {format : NumberFormat N}

theorem Token.text_ne_nil (t : Token N) : t.text format ≠ [] := by
  cases t with
  | mark m => cases m <;> simp [Token.text, Mark.text]
  | numeral n => exact format.write_ne_nil n
  | quoted s => simp [Token.text, quote]

/-- A token begins and ends with a visible unit. -/
theorem Token.isVisible_ends (t : Token N) :
    (∀ u ∈ (t.text format).head?, IsVisible u) ∧ ∀ u ∈ (t.text format).getLast?, IsVisible u := by
  cases t with
  | mark m =>
    cases m <;> constructor <;> intro u hu <;>
      simp [Token.text, Mark.text] at hu <;> subst hu <;> exact ⟨by decide, by decide⟩
  | numeral n =>
    have hall := fun u hu => isVisible_of_isNumeralUnit (format.isNumeralUnit_write n u hu)
    exact ⟨fun u hu => hall u (List.mem_of_mem_head? hu),
      fun u hu => hall u (List.mem_of_mem_getLast? hu)⟩
  | quoted s =>
    refine ⟨fun u hu => ?_, fun u hu => ?_⟩
    · cases hu
      exact ⟨by decide, by decide⟩
    · rw [Token.text, quote, List.getLast?_append_of_ne_nil _ (by simp)] at hu
      cases hu
      exact ⟨by decide, by decide⟩

theorem tokens_ne_nil (v : Json N) : v.tokens ≠ [] := by
  unfold tokens
  split <;> simp

variable (format) in
/-- The text of a value begins and ends with a visible unit. -/
theorem isVisible_ends (v : Json N) :
    (∀ u ∈ (stringify format v).head?, IsVisible u) ∧
      ∀ u ∈ (stringify format v).getLast?, IsVisible u := by
  constructor
  · obtain ⟨t, ts, hts⟩ := List.exists_cons_of_ne_nil (tokens_ne_nil v)
    rw [stringify, hts, text_cons, List.head?_append_of_ne_nil _ t.text_ne_nil]
    exact t.isVisible_ends.1
  · have hts := List.dropLast_append_getLast (tokens_ne_nil v)
    have hlast : text format [v.tokens.getLast (tokens_ne_nil v)]
        = (v.tokens.getLast (tokens_ne_nil v)).text format := by
      rw [text_cons, text_nil, List.append_nil]
    rw [stringify, ← hts, text_append, hlast,
      List.getLast?_append_of_ne_nil _ (Token.text_ne_nil _)]
    exact (Token.isVisible_ends _).2

/-! ## No control characters -/

/-- No unit is that of a control character below the blank. -/
def NoControl (s : JsString) : Prop := ∀ u ∈ s, 0x20 ≤ u.toNat

/-- Units given one by one. -/
theorem noControl_of_forall {s : JsString} (h : s.Forall fun u => 0x20 ≤ u.toNat) : NoControl s :=
  List.forall_iff_forall_mem.1 h

theorem noControl_flatMap {α : Type*} {f : α → JsString} {l : List α}
    (h : ∀ a ∈ l, NoControl (f a)) : NoControl (l.flatMap f) := by
  intro u hu
  obtain ⟨a, ha, hu⟩ := List.mem_flatMap.1 hu
  exact h a ha u hu

theorem noControl_of_isEscapeUnit {s : JsString} (h : ∀ u ∈ s, isEscapeUnit u = true) :
    NoControl s := by
  intro u hu
  have hescape := h u hu
  simp only [isEscapeUnit, Bool.or_eq_true, Bool.and_eq_true, decide_eq_true_eq,
    UInt16.le_iff_toNat_le] at hescape
  obtain (((((((rfl | rfl) | rfl) | rfl) | rfl) | rfl) | ⟨h, -⟩) | ⟨h, -⟩) := hescape
  all_goals first | exact Nat.le_trans (by decide) h | decide

theorem noControl_charUnits {c : Char} (h : 0x20 ≤ c.toNat) : NoControl (charUnits c) := by
  have hc := char_valid c
  unfold charUnits NoControl
  split
  · next hsmall => rwa [List.forall_mem_singleton, toNat_unit hsmall]
  · simp only [List.forall_mem_cons]
    rw [toNat_unit (by omega), toNat_unit (by omega)]
    exact ⟨by omega, by omega, by simp⟩

theorem noControl_quotePoint (p : CodePoint) : NoControl (quotePoint p) := by
  cases p with
  | lone u => exact noControl_of_isEscapeUnit (isEscapeUnit_unicodeEscape u)
  | scalar c =>
    by_cases hc : c.toNat < 0x20
    · -- a control character is escaped
      have hcontrol := noControl_of_isEscapeUnit (isEscapeUnit_unicodeEscape (UInt16.ofNat c.toNat))
      rw [quotePoint, if_neg (by omega), if_neg (by omega), if_pos hc]
      repeat' apply iteInduction <;> intro _
      all_goals first | exact hcontrol | exact noControl_of_forall (by decide)
    · have hplain := noControl_charUnits (Nat.not_lt.1 hc)
      rw [quotePoint, if_neg hc]
      generalize charUnits c = plain at hplain ⊢
      repeat' apply iteInduction <;> intro _
      all_goals first | exact hplain | exact noControl_of_forall (by decide)

variable (format) in
/-- Control characters are escaped. -/
theorem noControl_stringify (v : Json N) : NoControl (stringify format v) := by
  apply noControl_flatMap
  intro t _
  cases t with
  | mark m =>
    show NoControl m.text
    cases m <;> exact noControl_of_forall (by decide)
  | numeral n =>
    exact fun u hu =>
      Nat.le_of_lt (isVisible_of_isNumeralUnit (format.isNumeralUnit_write n u hu)).1
  | quoted s =>
    have hmark : (0x20 : ℕ) ≤ (0x22 : UInt16).toNat := by decide
    have hbody : NoControl ((codePoints s).flatMap quotePoint) :=
      noControl_flatMap fun p _ => noControl_quotePoint p
    intro u hu
    rw [Token.text, quote, List.cons_append, List.mem_cons, List.mem_append,
      List.mem_singleton] at hu
    obtain rfl | hu | rfl := hu
    · exact hmark
    · exact hbody u hu
    · exact hmark

/-! ## Characters -/

variable (format) in
/-- The characters of the text of a value. -/
def chars (v : Json N) : List Char :=
  (codePoints (stringify format v)).filterMap fun
    | .scalar c => some c
    | .lone _ => none

variable (format) in
theorem ofChars_chars (v : Json N) : ofChars (chars format v) = stringify format v := by
  obtain ⟨cs, hcs⟩ := isText_stringify format v
  rw [chars, hcs, codePoints_ofChars, List.filterMap_map]
  exact congrArg ofChars List.filterMap_some

variable (format) in
theorem parse_chars {v : Json N} (hv : v.WellFormed) :
    parse format (ofChars (chars format v)) = some v := by
  rw [ofChars_chars, parse_stringify format hv]

theorem control_not_mem_chars {v : Json N} {c : Char} (hc : c.toNat < 0x20) :
    c ∉ chars format v := by
  intro hmem
  have hunits : ∀ u ∈ charUnits c, u ∈ stringify format v := by
    intro u hu
    rw [← ofChars_chars format v]
    exact List.mem_flatMap.2 ⟨c, hmem, hu⟩
  have hunit := noControl_stringify format v _
    (hunits (UInt16.ofNat c.toNat) (by rw [charUnits, if_pos (by omega)]; exact List.mem_cons_self))
  rw [toNat_unit (by omega)] at hunit
  omega

theorem chars_ne_nil (v : Json N) : chars format v ≠ [] := by
  intro hnil
  have hempty := ofChars_chars format v
  rw [hnil] at hempty
  obtain ⟨t, ts, hts⟩ := List.exists_cons_of_ne_nil (tokens_ne_nil v)
  rw [stringify, hts, text_cons] at hempty
  exact List.append_ne_nil_of_left_ne_nil (Token.text_ne_nil t) _ hempty.symm

/-- A visible character is no white space. -/
theorem isWhitespace_of_isVisible {c : Char} (h : 0x20 < c.toNat ∧ c.toNat < 0x7F) :
    isWhitespace c = false := by
  have hall : ∀ n < 0x7F, 0x20 < n → isWhitespace (Char.ofNat n) = false := by decide
  rw [← Char.ofNat_toNat c]
  exact hall c.toNat h.2 h.1

/-- A character with a visible unit is that unit, and no white space. -/
theorem isWhitespace_of_mem_charUnits {c : Char} {u : UInt16} (h : IsVisible u)
    (hu : u ∈ charUnits c) : isWhitespace c = false := by
  have hc := char_valid c
  have hsame : c.toNat = u.toNat := by
    unfold charUnits at hu
    split at hu
    · next hsmall => rw [List.mem_singleton.1 hu, toNat_unit hsmall]
    · -- half of a pair is not visible
      obtain ⟨-, hlt⟩ := h
      obtain rfl | hu := List.mem_cons.1 hu
      · rw [toNat_unit (by omega)] at hlt
        omega
      · rw [List.mem_singleton.1 hu, toNat_unit (by omega)] at hlt
        omega
  exact isWhitespace_of_isVisible (hsame ▸ h)

theorem charUnits_ne_nil (c : Char) : charUnits c ≠ [] := by
  unfold charUnits
  split <;> exact List.cons_ne_nil _ _

/-- No white space is at the ends of a text. -/
theorem trim_chars (v : Json N) : trim (chars format v) = chars format v := by
  obtain ⟨hhead, hlast⟩ := isVisible_ends format v
  rw [← ofChars_chars format v] at hhead hlast
  refine trim_eq_self (fun c hc => ?_) (fun c hc => ?_)
  · obtain ⟨cs, hcs⟩ := List.head?_eq_some_iff.1 hc
    rw [hcs, ofChars, List.flatMap_cons,
      List.head?_append_of_ne_nil _ (charUnits_ne_nil c)] at hhead
    obtain ⟨u, hu⟩ := Option.ne_none_iff_exists'.1
      (mt List.head?_eq_none_iff.1 (charUnits_ne_nil c))
    exact isWhitespace_of_mem_charUnits (hhead u hu) (List.mem_of_mem_head? hu)
  · obtain ⟨cs, hcs⟩ := List.getLast?_eq_some_iff.1 hc
    rw [hcs, ofChars_append, List.getLast?_append_of_ne_nil] at hlast
    · obtain ⟨u, hu⟩ := Option.ne_none_iff_exists'.1
        (mt List.getLast?_eq_none_iff.1 (charUnits_ne_nil c))
      exact isWhitespace_of_mem_charUnits (hlast u (by simpa [ofChars] using hu))
        (List.mem_of_mem_getLast? hu)
    · simpa [ofChars] using charUnits_ne_nil c

end Json
