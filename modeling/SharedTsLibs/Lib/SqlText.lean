import Mathlib.Data.List.Basic

/-!
# Text literals of SQL

A text literal stands between apostrophes, and an apostrophe inside it is written twice.
Some servers also read escape sequences, which a backslash starts.

* `lexBody`, `readLiteral` — what a server makes of the text of a literal.
* `lexLiteral` — the literal a text starts with, and what follows it.
* `doubled`, `literal` — a text with its apostrophes written twice, and its literal.
* `Verbatim` — no backslash of a text starts an escape sequence that is replaced.
* `readLiteral_literal` — the literal of a text is read as the text.
* `verbatim_of_lexBody_doubled` — where escape sequences are read, only then.
* `escapedLiteral`, `lexLiteral_escapedLiteral` — with its backslashes written twice as well,
  every text is read back.
-/

namespace SqlText

/-- `'`. -/
def quote : Char := Char.ofNat 39

/-- `\`. -/
def backslash : Char := Char.ofNat 92

/-- What stands for `\c`: of `\%` and `\_` the backslash is kept. -/
def escapeSequence (c : Char) : List Char :=
  if c = '0' then [Char.ofNat 0]
  else if c = 'b' then [Char.ofNat 8]
  else if c = 'n' then [Char.ofNat 10]
  else if c = 'r' then [Char.ofNat 13]
  else if c = 't' then [Char.ofNat 9]
  else if c = 'Z' then [Char.ofNat 26]
  else if c = '%' ∨ c = '_' then [backslash, c]
  else [c]

/-- Put text before what is read. -/
def push (text : List Char) (read : List Char × List Char) : List Char × List Char :=
  (text ++ read.1, read.2)

/-- What the last character read was, where it counts for the next one. -/
inductive Pending where
  | text
  | apostrophe
  | backslash

/-- The text up to the closing apostrophe, and what follows it; `none` where no apostrophe
closes the literal. -/
def lexBody (escapes : Bool) : Pending → List Char → Option (List Char × List Char)
  | .text, [] => none
  | .apostrophe, [] => some ([], [])
  | .backslash, [] => none
  | .text, c :: cs =>
    if c = quote then lexBody escapes .apostrophe cs
    else if escapes = true ∧ c = backslash then lexBody escapes .backslash cs
    else (lexBody escapes .text cs).map (push [c])
  | .apostrophe, c :: cs =>
    if c = quote then (lexBody escapes .text cs).map (push [quote]) else some ([], c :: cs)
  | .backslash, c :: cs => (lexBody escapes .text cs).map (push (escapeSequence c))

/-- The text of a literal that nothing follows. -/
def readLiteral (escapes : Bool) : List Char → Option (List Char)
  | [] => none
  | c :: cs =>
    if c = quote then
      match lexBody escapes .text cs with
      | some (text, []) => some text
      | _ => none
    else none

/-- Write every apostrophe twice. -/
def doubled (text : List Char) : List Char :=
  text.flatMap fun c => if c = quote then [quote, quote] else [c]

/-- The literal of a text. -/
def literal (text : List Char) : List Char := quote :: doubled text ++ [quote]

/-- Every backslash is followed by `%` or `_`; `escaped` says that one was just read. -/
def verbatimFrom : Bool → List Char → Bool
  | escaped, [] => !escaped
  | true, c :: cs => (c = '%' || c = '_') && verbatimFrom false cs
  | false, c :: cs => verbatimFrom (c = backslash) cs

def Verbatim (text : List Char) : Bool := verbatimFrom false text

section Lex

variable {escapes : Bool} {c : Char} {cs text rest : List Char}

theorem doubled_cons_ne (hquote : c ≠ quote) : doubled (c :: cs) = c :: doubled cs := by
  simp [doubled, hquote]

theorem doubled_cons_quote : doubled (quote :: cs) = quote :: quote :: doubled cs := by
  simp [doubled]

theorem escapeSequence_kept (hc : c = '%' ∨ c = '_') : escapeSequence c = [backslash, c] := by
  rcases hc with rfl | rfl <;> rfl

theorem lexBody_close (hrest : rest.head? ≠ some quote) :
    lexBody escapes .text (quote :: rest) = some ([], rest) := by
  cases rest with
  | nil => simp [lexBody]
  | cons c' cs' =>
    have hc' : c' ≠ quote := by simpa using hrest
    simp [lexBody, hc']

theorem lexBody_doubled_quote :
    lexBody escapes .text (quote :: quote :: cs) =
      (lexBody escapes .text cs).map (push [quote]) := by
  simp [lexBody]

theorem lexBody_plain (hquote : c ≠ quote) (hescape : ¬(escapes = true ∧ c = backslash)) :
    lexBody escapes .text (c :: cs) = (lexBody escapes .text cs).map (push [c]) := by
  simp only [lexBody, if_neg hquote, if_neg hescape]

/-- Without escape sequences every text is read back. -/
theorem lexBody_doubled_standard (hrest : rest.head? ≠ some quote) :
    lexBody false .text (doubled text ++ quote :: rest) = some (text, rest) := by
  induction text with
  | nil => exact lexBody_close hrest
  | cons c cs ih =>
    by_cases hquote : c = quote
    · subst hquote
      rw [doubled_cons_quote, List.cons_append, List.cons_append, lexBody_doubled_quote, ih]
      rfl
    · rw [doubled_cons_ne hquote, List.cons_append, lexBody_plain hquote (by simp), ih]
      rfl

/-- With escape sequences a text is read back where no backslash starts one that is
replaced; `escaped` says that a backslash was just read. -/
theorem lexBody_doubled_escapes (hrest : rest.head? ≠ some quote) {escaped : Bool}
    (htext : verbatimFrom escaped text = true) :
    lexBody true (if escaped = true then .backslash else .text) (doubled text ++ quote :: rest) =
      some ((if escaped = true then [backslash] else []) ++ text, rest) := by
  induction text generalizing escaped with
  | nil =>
    cases escaped with
    | true => simp [verbatimFrom] at htext
    | false => exact lexBody_close hrest
  | cons c cs ih =>
    cases escaped with
    | true =>
      have hkept : (c = '%' ∨ c = '_') ∧ verbatimFrom false cs = true := by
        simpa [verbatimFrom] using htext
      have hquote : c ≠ quote := by rcases hkept.1 with rfl | rfl <;> decide
      have hcs := ih hkept.2
      rw [doubled_cons_ne hquote]
      simp only [if_true, List.cons_append, lexBody, escapeSequence_kept hkept.1]
      simp only [Bool.false_eq_true, if_false] at hcs
      rw [hcs]
      rfl
    | false =>
      have hcs := ih (show verbatimFrom (c = backslash) cs = true from htext)
      by_cases hslash : c = backslash
      · have hquote : c ≠ quote := by rw [hslash]; decide
        rw [doubled_cons_ne hquote]
        simpa [hslash, lexBody, show backslash ≠ quote by decide] using hcs
      · simp only [hslash, decide_false, Bool.false_eq_true, if_false, List.nil_append] at hcs ⊢
        by_cases hquote : c = quote
        · subst hquote
          rw [doubled_cons_quote, List.cons_append, List.cons_append, lexBody_doubled_quote, hcs]
          rfl
        · rw [doubled_cons_ne hquote, List.cons_append, lexBody_plain hquote (by simp [hslash]),
            hcs]
          rfl

theorem verbatim_of_no_backslash (htext : ∀ c ∈ text, c ≠ backslash) : Verbatim text = true := by
  induction text with
  | nil => rfl
  | cons c cs ih =>
    have hc : c ≠ backslash := htext c List.mem_cons_self
    have hcs := ih fun d hd => htext d (List.mem_cons_of_mem _ hd)
    simpa [Verbatim, verbatimFrom, hc] using hcs

theorem readLiteral_eq_some (hbody : lexBody escapes .text cs = some (text, [])) :
    readLiteral escapes (quote :: cs) = some text := by
  simp [readLiteral, hbody]

/-- The literal of a text is read as the text, where no backslash in it starts an escape
sequence that is replaced. -/
theorem readLiteral_literal (htext : escapes = true → Verbatim text = true) :
    readLiteral escapes (literal text) = some text := by
  have hrest : ([] : List Char).head? ≠ some quote := by simp
  apply readLiteral_eq_some
  cases escapes with
  | false => exact lexBody_doubled_standard hrest
  | true => exact lexBody_doubled_escapes hrest (htext rfl)

/-! ### What follows a literal -/

variable (escapes) in
/-- The text of the literal at the start, and what follows it. -/
def lexLiteral : List Char → Option (List Char × List Char)
  | [] => none
  | c :: cs => if c = quote then lexBody escapes .text cs else none

theorem lexLiteral_quote : lexLiteral escapes (quote :: cs) = lexBody escapes .text cs := by
  rw [lexLiteral, if_pos rfl]

/-- The literal of a text is read as the text up to its end, where no backslash in it starts
an escape sequence that is replaced. -/
theorem lexLiteral_literal (htext : escapes = true → Verbatim text = true)
    (hrest : rest.head? ≠ some quote) :
    lexLiteral escapes (literal text ++ rest) = some (text, rest) := by
  rw [literal, List.append_assoc, List.cons_append, lexLiteral_quote, List.singleton_append]
  cases escapes with
  | false => exact lexBody_doubled_standard hrest
  | true => exact lexBody_doubled_escapes hrest (htext rfl)

/-! ### Only verbatim texts -/

/-- How many characters are not apostrophes. -/
def others (text : List Char) : ℕ := text.countP fun c => c ≠ quote

@[simp] theorem others_cons_quote : others (quote :: cs) = others cs :=
  List.countP_cons_of_neg (by simp)

@[simp] theorem others_cons_ne (hquote : c ≠ quote) : others (c :: cs) = others cs + 1 :=
  List.countP_cons_of_pos (by simpa using hquote)

theorem others_append (text text' : List Char) :
    others (text ++ text') = others text + others text' := List.countP_append

theorem others_doubled (text : List Char) : others (doubled text) = others text := by
  induction text with
  | nil => rfl
  | cons c cs ih =>
    by_cases hquote : c = quote
    · subst hquote
      rw [doubled_cons_quote, others_cons_quote, others_cons_quote, others_cons_quote, ih]
    · rw [doubled_cons_ne hquote, others_cons_ne hquote, others_cons_ne hquote, ih]

theorem others_escapeSequence_le (c : Char) : others (escapeSequence c) ≤ others [c] + 1 := by
  unfold escapeSequence
  split_ifs with h0 hb hn hr ht hZ hkept
  · subst h0; decide
  · subst hb; decide
  · subst hn; decide
  · subst hr; decide
  · subst ht; decide
  · subst hZ; decide
  · rcases hkept with rfl | rfl <;> decide
  · exact Nat.le_succ _

/-- A backslash just read counts as a character to come. -/
def Pending.owed : Pending → ℕ
  | .backslash => 1
  | .text | .apostrophe => 0

/-- Reading a literal makes no more characters but apostrophes than there are. -/
theorem others_le_of_lexBody {p : Pending} {read : List Char × List Char}
    (h : lexBody true p cs = some read) : others read.1 ≤ others cs + p.owed := by
  induction cs generalizing p read with
  | nil =>
    cases p with
    | text => cases h
    | backslash => cases h
    | apostrophe =>
      cases h
      exact Nat.zero_le _
  | cons c cs ih =>
    cases p with
    | text =>
      by_cases hquote : c = quote
      · subst hquote
        rw [lexBody, if_pos rfl] at h
        rw [others_cons_quote]
        have hle := ih h
        exact hle
      · rw [others_cons_ne hquote]
        rw [lexBody, if_neg hquote] at h
        by_cases hslash : c = backslash
        · rw [if_pos ⟨rfl, hslash⟩] at h
          exact ih h
        · rw [if_neg (by simp [hslash]), Option.map_eq_some_iff] at h
          obtain ⟨read', hread', rfl⟩ := h
          have hle := ih hread'
          rw [push, others_append, others_cons_ne hquote]
          simp only [Pending.owed] at hle ⊢
          have hnil : others [] = 0 := rfl
          omega
    | apostrophe =>
      rw [lexBody] at h
      split_ifs at h with hquote
      · obtain ⟨read', hread', rfl⟩ := Option.map_eq_some_iff.1 h
        have hle := ih hread'
        subst hquote
        rw [push, List.singleton_append, others_cons_quote, others_cons_quote]
        exact hle
      · cases h
        exact Nat.zero_le _
    | backslash =>
      rw [lexBody] at h
      obtain ⟨read', hread', rfl⟩ := Option.map_eq_some_iff.1 h
      have hle := ih hread'
      have hescape := others_escapeSequence_le c
      have hcons : others (c :: cs) = others [c] + others cs := others_append [c] cs
      rw [push, others_append, hcons]
      simp only [Pending.owed] at hle ⊢
      omega

/-- A text whose literal is read back, where escape sequences are read, is verbatim;
`escaped` says that a backslash was just read. -/
theorem verbatim_of_lexBody_doubled {escaped : Bool}
    (h : lexBody true (if escaped = true then .backslash else .text) (doubled text ++ [quote]) =
      some ((if escaped = true then [backslash] else []) ++ text, rest)) :
    verbatimFrom escaped text = true := by
  induction text generalizing escaped with
  | nil =>
    cases escaped with
    | false => rfl
    | true => simp [doubled, lexBody] at h
  | cons c cs ih =>
    cases escaped with
    | true =>
      simp only [if_true] at h
      by_cases hquote : c = quote
      · -- the backslash is lost before an apostrophe
        subst hquote
        rw [doubled_cons_quote, List.cons_append, lexBody, Option.map_eq_some_iff] at h
        obtain ⟨read, -, hread⟩ := h
        have hhead : quote = backslash := (List.cons.inj (congrArg Prod.fst hread)).1
        exact absurd hhead (by decide)
      · rw [doubled_cons_ne hquote, List.cons_append, lexBody, Option.map_eq_some_iff] at h
        obtain ⟨⟨read, rest'⟩, hlex, hread⟩ := h
        obtain ⟨htext, rfl⟩ := Prod.mk.inj hread
        by_cases hkept : c = '%' ∨ c = '_'
        · rw [escapeSequence_kept hkept] at htext
          have hcs : read = cs := by simpa using htext
          have hverbatim : verbatimFrom false cs = true := @ih false (hcs ▸ hlex)
          simp only [verbatimFrom, Bool.and_eq_true, Bool.or_eq_true, decide_eq_true_eq]
          exact ⟨hkept, hverbatim⟩
        · -- one character is left of the backslash and the one after it
          have hlength : ∃ e, escapeSequence c = [e] := by
            unfold escapeSequence
            split_ifs <;> exact ⟨_, rfl⟩
          obtain ⟨e, he⟩ := hlength
          rw [he] at htext
          have hrest : read = c :: cs := (List.cons.inj htext).2
          have hle := others_le_of_lexBody hlex
          rw [hrest, others_cons_ne hquote, others_append, others_doubled] at hle
          have hclose : others [quote] = 0 := rfl
          simp only [Pending.owed] at hle
          omega
    | false =>
      simp only [Bool.false_eq_true, if_false, List.nil_append] at h
      show verbatimFrom (c = backslash) cs = true
      by_cases hslash : c = backslash
      · have hquote : c ≠ quote := by rw [hslash]; decide
        rw [doubled_cons_ne hquote, List.cons_append, lexBody, if_neg hquote,
          if_pos ⟨rfl, hslash⟩] at h
        rw [decide_eq_true hslash]
        exact @ih true (hslash ▸ h)
      · rw [decide_eq_false hslash]
        have hplain : ∃ read, lexBody true .text (doubled cs ++ [quote]) = some read ∧
            push [c] read = (c :: cs, rest) := by
          by_cases hquote : c = quote
          · subst hquote
            rw [doubled_cons_quote, List.cons_append, List.cons_append, lexBody_doubled_quote,
              Option.map_eq_some_iff] at h
            exact h
          · rw [doubled_cons_ne hquote, List.cons_append, lexBody_plain hquote (by simp [hslash]),
              Option.map_eq_some_iff] at h
            exact h
        obtain ⟨⟨read, rest'⟩, hlex, hread⟩ := hplain
        obtain ⟨htext, rfl⟩ := Prod.mk.inj hread
        have hcs : read = cs := (List.cons.inj htext).2
        exact @ih false (hcs ▸ hlex)

/-! ### Backslashes written twice -/

/-- Write every backslash twice. -/
def backslashesDoubled (text : List Char) : List Char :=
  text.flatMap fun c => if c = backslash then [backslash, backslash] else [c]

/-- The literal of a text with its backslashes written twice as well. -/
def escapedLiteral (text : List Char) : List Char :=
  quote :: backslashesDoubled (doubled text) ++ [quote]

theorem backslashesDoubled_cons_ne (hslash : c ≠ backslash) :
    backslashesDoubled (c :: cs) = c :: backslashesDoubled cs := by
  simp [backslashesDoubled, hslash]

theorem backslashesDoubled_cons_backslash :
    backslashesDoubled (backslash :: cs) = backslash :: backslash :: backslashesDoubled cs := by
  simp [backslashesDoubled]

theorem lexBody_doubled_backslash :
    lexBody true .text (backslash :: backslash :: cs) =
      (lexBody true .text cs).map (push [backslash]) := by
  have hne : backslash ≠ quote := by decide
  have hescape : escapeSequence backslash = [backslash] := by decide
  simp [lexBody, hne, hescape]

theorem lexBody_escaped (hrest : rest.head? ≠ some quote) :
    lexBody true .text (backslashesDoubled (doubled text) ++ quote :: rest) =
      some (text, rest) := by
  induction text with
  | nil => exact lexBody_close hrest
  | cons c cs ih =>
    by_cases hquote : c = quote
    · subst hquote
      have hne : quote ≠ backslash := by decide
      rw [doubled_cons_quote, backslashesDoubled_cons_ne hne, backslashesDoubled_cons_ne hne,
        List.cons_append, List.cons_append, lexBody_doubled_quote, ih]
      rfl
    · rw [doubled_cons_ne hquote]
      by_cases hslash : c = backslash
      · subst hslash
        rw [backslashesDoubled_cons_backslash, List.cons_append, List.cons_append,
          lexBody_doubled_backslash, ih]
        rfl
      · rw [backslashesDoubled_cons_ne hslash, List.cons_append,
          lexBody_plain hquote (by simp [hslash]), ih]
        rfl

/-- It is read as the text, where escape sequences are read. -/
theorem lexLiteral_escapedLiteral (hrest : rest.head? ≠ some quote) :
    lexLiteral true (escapedLiteral text ++ rest) = some (text, rest) := by
  rw [escapedLiteral, List.append_assoc, List.cons_append, lexLiteral_quote,
    List.singleton_append]
  exact lexBody_escaped hrest

/-- **The literal of a text is read as the text, whatever follows it but an apostrophe,
exactly when no escape sequences are read or the text is verbatim.** -/
theorem lexLiteral_literal_iff (text : List Char) :
    (∀ rest, rest.head? ≠ some quote →
        lexLiteral escapes (literal text ++ rest) = some (text, rest)) ↔
      (escapes = true → Verbatim text = true) := by
  constructor
  · rintro h rfl
    have hread := h [] (by simp)
    rw [List.append_nil, literal, List.cons_append, lexLiteral_quote] at hread
    exact @verbatim_of_lexBody_doubled text [] false hread
  · exact fun htext rest hrest => lexLiteral_literal htext hrest

end Lex

end SqlText
