import SharedTsLibs.FrontendHttpClient.SseUtils

/-!
# Event streams

What the standard says an event stream means, apart from the code: a text is read
line by line, where a line ends at LF, CR or CRLF; a line sets a field, is a
comment or is blank; a blank line dispatches what the fields have built.  `id` and
`retry` fields set nothing that a dispatched `{ event, data }` pair carries.

* `IsEventStream` — the grammar of a well-formed stream.
* `streamLines`, `interpretLine`, `interpret` — the lines of a stream, what one of
  them does, and the events a whole stream dispatches.
* `streamLines_eq` — the lines, read off a text cut at its LFs.
* `interpret_eq` — the events, read off the lines cut at the blank ones.
-/

namespace SharedTsLibs.FrontendHttpClient

open Lines

/-! ## The grammar -/

inductive IsEndOfLine : Text → Prop where
  | lf : IsEndOfLine ['\n']
  | cr : IsEndOfLine ['\r']
  | crlf : IsEndOfLine ['\r', '\n']

/-- What `any-char` excludes: a line end. -/
def IsLineChar (c : Char) : Prop := c ≠ '\n' ∧ c ≠ '\r'

/-- A comment, or a field with or without a value. -/
inductive IsLineBody : Text → Prop where
  | comment {text : Text} : (∀ c ∈ text, IsLineChar c) → IsLineBody (':' :: text)
  | field {name : Text} : name ≠ [] → (∀ c ∈ name, IsLineChar c ∧ c ≠ ':') → IsLineBody name
  | fieldValue {name value : Text} : name ≠ [] → (∀ c ∈ name, IsLineChar c ∧ c ≠ ':') →
      (∀ c ∈ value, IsLineChar c) → IsLineBody (name ++ ':' :: value)

/-- An event: its lines, and the blank line that ends it. -/
inductive IsEvent : Text → Prop where
  | blank {eol : Text} : IsEndOfLine eol → IsEvent eol
  | line {body eol event : Text} : IsLineBody body → IsEndOfLine eol → IsEvent event →
      IsEvent (body ++ (eol ++ event))

inductive IsEventStream : Text → Prop where
  | nil : IsEventStream []
  | cons {event stream : Text} : IsEvent event → IsEventStream stream →
      IsEventStream (event ++ stream)

/-! ## The interpretation -/

/-- The lines of a stream that are ended, the first of them going on from `line`. -/
def streamLinesFrom (line : Text) : Text → List Text
  | [] => []
  | '\r' :: '\n' :: text => line :: streamLinesFrom [] text
  | '\r' :: text => line :: streamLinesFrom [] text
  | '\n' :: text => line :: streamLinesFrom [] text
  | c :: text => streamLinesFrom (line ++ [c]) text

def streamLines (text : Text) : List Text := streamLinesFrom [] text

/-- The data and the event type that a stream has set since its last blank line. -/
structure EventBuffers where
  eventType : Text := []
  data : Text := []

/-- At most one space is stripped. -/
def dropSpace : Text → Text
  | ' ' :: value => value
  | value => value

/-- The field a line sets, and the value; a comment sets none. -/
def lineField (line : Text) : Option (Text × Text) :=
  if line.head? = some ':' then none
  else match line.dropWhile (· ≠ ':') with
    | [] => some (line, [])
    | _ :: value => some (line.takeWhile (· ≠ ':'), dropSpace value)

/-- The value a line gives to one of the fields. -/
def fieldValue (name line : Text) : Option Text :=
  (lineField line).bind fun field => if field.1 = name then some field.2 else none

def dataValue : Text → Option Text := fieldValue "data".toList

def eventValue : Text → Option Text := fieldValue "event".toList

/-- The event a blank line dispatches. -/
def EventBuffers.dispatch (b : EventBuffers) : Option SseEvent :=
  if b.data = [] then none
  else some ⟨if b.eventType = [] then "message".toList else b.eventType, b.data.dropLast⟩

/-- What one line does. -/
def interpretLine (b : EventBuffers) (line : Text) : EventBuffers × List SseEvent :=
  if line = [] then ({}, b.dispatch.toList)
  else match eventValue line, dataValue line with
    | some value, _ => ({ b with eventType := value }, [])
    | none, some value => ({ b with data := b.data ++ (value ++ ['\n']) }, [])
    | none, none => (b, [])

def interpreter : Transducer EventBuffers Text SseEvent := Transducer.ofStep interpretLine

/-- The events an event stream dispatches. -/
def interpret (text : Text) : List SseEvent := (interpreter.feed {} (streamLines text)).2

/-! ## Lines -/

/-- The lines that end in or at the end of a piece of text between two LFs: a CR in
front of the LF belongs to it. -/
def crLines (line : Text) : List Text :=
  if line.getLast? = some '\r' then line.dropLast.splitOn '\r' else line.splitOn '\r'

theorem crLines_nil : crLines [] = [[]] := rfl

theorem crLines_of_not_mem {line : Text} (h : '\r' ∉ line) : crLines line = [line] := by
  have hlast : line.getLast? ≠ some '\r' := fun hl => h (List.mem_of_getLast? hl)
  rw [crLines, if_neg hlast, splitOn_of_not_mem h]

/-- A CR that is not the last character ends a line. -/
theorem crLines_append_cons {line : Text} (h : '\r' ∉ line) {text : Text} (ht : text ≠ []) :
    crLines (line ++ '\r' :: text) = line :: crLines text := by
  have hsplit : ∀ t : Text, (line ++ '\r' :: t).splitOn '\r' = line :: t.splitOn '\r' :=
    fun t => List.splitOn_append_cons_self_of_not_mem h t
  have hlast : (line ++ '\r' :: text).getLast? = text.getLast? := by
    rw [List.getLast?_append, List.getLast?_cons, List.getLast?_eq_some_getLast ht]
    rfl
  have hdrop : (line ++ '\r' :: text).dropLast = line ++ '\r' :: text.dropLast := by
    rw [List.dropLast_append_of_ne_nil (by simp), List.dropLast_cons_of_ne_nil ht]
  rw [crLines, crLines, hlast, hdrop, hsplit, hsplit]
  split <;> rfl

theorem crLines_append_cr {line : Text} (h : '\r' ∉ line) :
    crLines (line ++ ['\r']) = [line] := by
  rw [crLines, if_pos (by simp), List.dropLast_concat, splitOn_of_not_mem h]

theorem streamLinesFrom_cr {line text : Text} (h : text.head? ≠ some '\n') :
    streamLinesFrom line ('\r' :: text) = line :: streamLinesFrom [] text := by
  cases text with
  | nil => simp [streamLinesFrom]
  | cons c text =>
    have hc : c ≠ '\n' := by simpa using h
    rw [streamLinesFrom]
    rintro _ ⟨⟩
    exact hc rfl

theorem streamLinesFrom_char {line text : Text} {c : Char} (hcr : c ≠ '\r') (hlf : c ≠ '\n') :
    streamLinesFrom line (c :: text) = streamLinesFrom (line ++ [c]) text := by
  rw [streamLinesFrom] <;> simp_all

/-- The lines up to an LF. -/
theorem streamLinesFrom_append_lf {line text : Text} (hline : '\r' ∉ line) (ht : '\n' ∉ text)
    (later : Text) :
    streamLinesFrom line (text ++ '\n' :: later) =
      crLines (line ++ text) ++ streamLinesFrom [] later := by
  induction text generalizing line with
  | nil =>
    rw [List.append_nil, crLines_of_not_mem hline, List.nil_append, streamLinesFrom,
      List.singleton_append]
  | cons c text ih =>
    have hlf : c ≠ '\n' := fun he => ht (by simp [he])
    have ht' : '\n' ∉ text := fun hm => ht (by simp [hm])
    by_cases hcr : c = '\r'
    · subst hcr
      by_cases htext : text = []
      · subst htext
        rw [crLines_append_cr hline, List.singleton_append, streamLinesFrom, List.singleton_append]
      · have hhead : (text ++ '\n' :: later).head? ≠ some '\n' := by
          cases text with
          | nil => exact absurd rfl htext
          | cons d text =>
            intro hd
            exact ht' (by simpa using Or.inl hd.symm)
        rw [crLines_append_cons hline htext, List.cons_append, streamLinesFrom_cr hhead,
          ih List.not_mem_nil ht', List.nil_append, List.cons_append]
    · have hline' : '\r' ∉ line ++ [c] := by simp [hline, Ne.symm hcr]
      rw [List.cons_append, streamLinesFrom_char hcr hlf, ih hline' ht', List.append_assoc,
        List.singleton_append]

/-- The lines of a text without LF. -/
theorem streamLinesFrom_of_not_mem {line text : Text} (hline : '\r' ∉ line) (ht : '\n' ∉ text) :
    streamLinesFrom line text = terminated '\r' (line ++ text) := by
  induction text generalizing line with
  | nil => rw [List.append_nil, terminated_of_not_mem hline, streamLinesFrom]
  | cons c text ih =>
    have hlf : c ≠ '\n' := fun he => ht (by simp [he])
    have ht' : '\n' ∉ text := fun hm => ht (by simp [hm])
    by_cases hcr : c = '\r'
    · subst hcr
      have hhead : text.head? ≠ some '\n' := fun hd => ht' (List.mem_of_head? hd)
      rw [streamLinesFrom_cr hhead, ih List.not_mem_nil ht', List.nil_append,
        terminated_append_cons, splitOn_of_not_mem hline, List.singleton_append]
    · have hline' : '\r' ∉ line ++ [c] := by simp [hline, Ne.symm hcr]
      rw [streamLinesFrom_char hcr hlf, ih hline' ht', List.append_assoc, List.singleton_append]

/-- The lines of a text cut at its LFs. -/
theorem streamLines_eq (text : Text) :
    streamLines text =
      (terminated '\n' text).flatMap crLines ++ terminated '\r' (rest '\n' text) := by
  have hlines : ∀ ls : List Text, (∀ l ∈ ls, '\n' ∉ l) → ∀ r : Text, '\n' ∉ r →
      streamLinesFrom [] (ls.flatMap (· ++ ['\n']) ++ r) =
        ls.flatMap crLines ++ terminated '\r' r := by
    intro ls hls r hr
    induction ls with
    | nil => exact streamLinesFrom_of_not_mem List.not_mem_nil hr
    | cons l ls ih =>
      rw [List.flatMap_cons, List.append_assoc, List.append_assoc, List.singleton_append,
        streamLinesFrom_append_lf List.not_mem_nil (hls l List.mem_cons_self),
        ih fun m hm => hls m (List.mem_cons_of_mem l hm), List.nil_append, List.flatMap_cons,
        List.append_assoc]
  conv_lhs => rw [streamLines, ← flatMap_terminated_append_rest '\n' text]
  exact hlines _ (fun l hl => not_mem_of_mem_terminated hl) _ (not_mem_rest '\n' text)

/-! ## Blocks -/

/-- The event type in force at the end of a block of lines. -/
def blockType (block : List Text) : Text :=
  match (block.filterMap eventValue).getLast? with
  | none | some [] => "message".toList
  | some name => name

/-- What the blank line after a block of lines dispatches. -/
def blockEvent (block : List Text) : Option SseEvent :=
  if block.filterMap dataValue = [] then none
  else some ⟨blockType block, ['\n'].intercalate (block.filterMap dataValue)⟩

/-- The buffers after the lines of a block. -/
def blockBuffers (block : List Text) : EventBuffers :=
  ⟨((block.filterMap eventValue).getLast?).getD [],
    (block.filterMap dataValue).flatMap (· ++ ['\n'])⟩

theorem blockBuffers_dispatch (block : List Text) :
    (blockBuffers block).dispatch = blockEvent block := by
  rw [EventBuffers.dispatch, blockEvent, blockBuffers]
  by_cases hdata : block.filterMap dataValue = []
  · rw [if_pos hdata, hdata, if_pos List.flatMap_nil]
  · rw [if_neg hdata, ← intercalate_append_sep '\n' hdata, if_neg (by simp), List.dropLast_concat]
    congr 2
    rw [blockType]
    cases (block.filterMap eventValue).getLast? with
    | none => rfl
    | some name => cases name <;> rfl

/-- A line sets one field. -/
theorem dataValue_eq_none {line value : Text} (h : eventValue line = some value) :
    dataValue line = none := by
  obtain ⟨field, hfield, hname⟩ := Option.bind_eq_some_iff.1 h
  have hevent : field.1 = "event".toList := by
    by_contra hne
    rw [if_neg hne] at hname
    cases hname
  rw [dataValue, fieldValue, hfield, Option.bind_some, if_neg (by rw [hevent]; decide)]

/-- A line that is not blank joins the block. -/
theorem interpretLine_blockBuffers (block : List Text) {line : Text} (h : line ≠ []) :
    interpretLine (blockBuffers block) line = (blockBuffers (block ++ [line]), []) := by
  rw [interpretLine, if_neg h, blockBuffers, blockBuffers, List.filterMap_append,
    List.filterMap_append]
  cases hevent : eventValue line with
  | some value =>
    have hdata := dataValue_eq_none hevent
    simp [hevent, hdata]
  | none =>
    cases hdata : dataValue line with
    | some value => simp [hevent, hdata]
    | none => simp [hevent, hdata]

/-- The lines of a block and the blank line after it. -/
theorem interpreter_block (block : List Text) {lines : List Text} (h : ∀ l ∈ lines, l ≠ []) :
    interpreter.feed (blockBuffers block) lines = (blockBuffers (block ++ lines), []) := by
  induction lines generalizing block with
  | nil => rw [List.append_nil]; rfl
  | cons l lines ih =>
    rw [interpreter, Transducer.ofStep_feed_cons,
      interpretLine_blockBuffers block (h l List.mem_cons_self)]
    show ((interpreter.feed (blockBuffers (block ++ [l])) lines).1,
      [] ++ (interpreter.feed (blockBuffers (block ++ [l])) lines).2) = _
    rw [ih (block ++ [l]) fun m hm => h m (List.mem_cons_of_mem l hm), List.append_assoc]
    rfl

/-- The events that a list of lines dispatches are those of its blocks, each ended
by a blank line. -/
theorem interpreter_feed_eq (lines : List Text) :
    (interpreter.feed {} lines).2 = (terminated [] lines).filterMap blockEvent := by
  have hblocks : ∀ blocks : List (List Text), (∀ b ∈ blocks, [] ∉ b) → ∀ r : List Text, [] ∉ r →
      (interpreter.feed {} (blocks.flatMap (· ++ [[]]) ++ r)).2 = blocks.filterMap blockEvent := by
    intro blocks hb r hr
    have hlines : ∀ {ls : List Text}, [] ∉ ls → interpreter.feed {} ls = (blockBuffers ls, []) :=
      fun h => interpreter_block [] fun l hl he => h (he ▸ hl)
    induction blocks with
    | nil => rw [List.flatMap_nil, List.nil_append, hlines hr, List.filterMap_nil]
    | cons b blocks ih =>
      have hblank : interpreter.feed (blockBuffers b) [[]] = ({}, (blockEvent b).toList) := by
        rw [← blockBuffers_dispatch]
        simp [interpreter, Transducer.ofStep_feed_cons, interpretLine]
      rw [List.flatMap_cons, List.append_assoc, List.append_assoc, interpreter.feed_append,
        hlines (hb b List.mem_cons_self), interpreter.feed_append, hblank,
        ih fun c hc => hb c (List.mem_cons_of_mem b hc)]
      cases hevent : blockEvent b <;> simp [hevent]
  conv_lhs => rw [← flatMap_terminated_append_rest [] lines]
  exact hblocks _ (fun b hb => not_mem_of_mem_terminated hb) _ (not_mem_rest [] lines)

/-- The events of a stream, read off the text cut at its LFs. -/
theorem interpret_eq (text : Text) :
    interpret text = (terminated [] ((terminated '\n' text).flatMap crLines ++
      terminated '\r' (rest '\n' text))).filterMap blockEvent := by
  rw [interpret, interpreter_feed_eq, streamLines_eq]

end SharedTsLibs.FrontendHttpClient
