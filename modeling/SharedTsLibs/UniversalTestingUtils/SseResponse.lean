import SharedTsLibs.FrontendHttpClient.SseConnectionRuns
import SharedTsLibs.Lib.JsonLine
import SharedTsLibs.Lib.TextDecoder

/-!
# Mocked SSE streams

The mock helpers write SSE streams: `mockSseStream` emits one event at a time, and
`formatSseResponse` writes a whole response body.  The client's `parseSseStream` reads
them.

* `emitted`, `formatSseResponse` — what is written.
* `eventsOf_emitted`, `eventsOf_formatSseResponse` — what the client makes of the text:
  every event that was emitted, but not the last one of a response body.
* `isEventName_of_mem_eventsOf` — the names that the client can receive at all.
* `emitted_round_trip_iff` — over bytes, in chunks of any kind: names and data are received
  as they were emitted exactly when the names can be received.
* `mockSseStream_connection` — the calls of a connection that reads a mocked stream.
-/

namespace SharedTsLibs.UniversalTestingUtils

open FrontendHttpClient JsText Lines StepSystem

variable {N : Type} (format : NumberFormat N)

/-! ## Writing -/

/-- An event given to a mock; its name is a text without lone surrogates. -/
structure SseMockEvent (N : Type) where
  event : Text
  data : Json N

/-- The line of the name, and that of the data. -/
def SseMockEvent.lines (e : SseMockEvent N) : List Text :=
  ["event: ".toList ++ e.event, "data: ".toList ++ Json.chars format e.data]

/-- `event: ${event}\ndata: ${JSON.stringify(data)}\n` -/
def SseMockEvent.text (e : SseMockEvent N) : Text := (e.lines format).flatMap (· ++ ['\n'])

/-- What `emit` of `mockSseStream` enqueues. -/
def SseMockEvent.chunk (e : SseMockEvent N) : List UInt8 :=
  (e.text format ++ ['\n']).flatMap String.utf8EncodeChar

/-- `formatSseResponse(events)`: the texts of the events, joined by an empty line. -/
def formatSseResponse (events : List (SseMockEvent N)) : Text :=
  ['\n'].intercalate (events.map (·.text format))

/-- The text of events that are emitted one after the other. -/
def emitted (events : List (SseMockEvent N)) : Text :=
  events.flatMap fun e => e.text format ++ ['\n']

/-- A received event, with its data read by `JSON.parse`. -/
def readEvent (e : SseEvent) : Text × Option (Json N) :=
  (e.event, Json.parse format (JsString.ofChars e.data))

/-! ## Reading a text -/

variable {format}

theorem trim_blank_append (text : Text) : trim (' ' :: text) = trim text :=
  trim_cons_of_isWhitespace (by decide) text

/-- The line of a name. -/
theorem processLine_event (p : SseParser) (name : Text) :
    p.processLine ("event: ".toList ++ name) = ({ p with currentEvent := trim name }, none) := by
  have hprefix : "event:".toList.isPrefixOf ("event: ".toList ++ name) = true := by
    simp [List.isPrefixOf]
  have hrest : ("event: ".toList ++ name).drop 6 = ' ' :: name := rfl
  rw [SseParser.processLine, if_pos hprefix, hrest, trim_blank_append]

/-- The line of the data, where there is none before it. -/
theorem processLine_data (p : SseParser) (hp : p.currentData = []) (v : Json N) :
    p.processLine ("data: ".toList ++ Json.chars format v)
      = ({ p with currentData := Json.chars format v }, none) := by
  have hevent : ¬ "event:".toList.isPrefixOf ("data: ".toList ++ Json.chars format v) = true := by
    simp [List.isPrefixOf]
  have hprefix : "data:".toList.isPrefixOf ("data: ".toList ++ Json.chars format v) = true := by
    simp [List.isPrefixOf]
  have hrest : ("data: ".toList ++ Json.chars format v).drop 5 = ' ' :: Json.chars format v := rfl
  rw [SseParser.processLine, if_neg hevent, if_pos hprefix, hrest, trim_blank_append,
    Json.trim_chars, if_neg (by simp [hp]), hp]
  rfl

/-- The lines of an event are read without an effect yet. -/
theorem lineReader_lines (e : SseMockEvent N) :
    lineReader.feed {} (e.lines format) = (⟨trim e.event, Json.chars format e.data⟩, []) := by
  rw [SseMockEvent.lines, lineReader, Transducer.ofStep_feed_cons, processLine_event,
    Transducer.ofStep_feed_cons, processLine_data _ rfl]
  rfl

/-- The empty line after them dispatches the event. -/
theorem lineReader_event (e : SseMockEvent N) :
    lineReader.feed {} (e.lines format ++ [[]])
      = ({}, [⟨trim e.event, Json.chars format e.data⟩]) := by
  have hdispatch : SseParser.processLine ⟨trim e.event, Json.chars format e.data⟩ []
      = ({}, some ⟨trim e.event, Json.chars format e.data⟩) := by
    have hevent : ¬ "event:".toList.isPrefixOf ([] : Text) = true := by decide
    have hdata : ¬ "data:".toList.isPrefixOf ([] : Text) = true := by decide
    rw [SseParser.processLine, if_neg hevent, if_neg hdata,
      if_pos ⟨rfl, Json.chars_ne_nil e.data⟩]
  rw [lineReader.feed_append, lineReader_lines]
  show (lineReader.feed _ [[]]) = _
  rw [lineReader, Transducer.ofStep_feed_cons, hdispatch]
  rfl

/-- Events one after the other, and what comes after them. -/
theorem lineReader_events (events : List (SseMockEvent N)) (lines : List Text) :
    lineReader.feed {} ((events.flatMap fun e => e.lines format ++ [[]]) ++ lines)
      = ((lineReader.feed {} lines).1,
        events.map (fun e => ⟨trim e.event, Json.chars format e.data⟩)
          ++ (lineReader.feed {} lines).2) := by
  induction events with
  | nil => rfl
  | cons e events ih =>
    rw [List.flatMap_cons, List.append_assoc, lineReader.feed_append, lineReader_event, ih,
      List.map_cons, List.singleton_append, List.cons_append]

theorem newline_not_mem_chars (v : Json N) : '\n' ∉ Json.chars format v :=
  Json.control_not_mem_chars (by decide)

/-- The lines of an event are lines, if its name is. -/
theorem newline_not_mem_lines {e : SseMockEvent N} (h : '\n' ∉ e.event) :
    ∀ l ∈ e.lines format, '\n' ∉ l := by
  intro l hl
  rw [SseMockEvent.lines, List.mem_cons, List.mem_singleton] at hl
  obtain rfl | rfl := hl
  · rw [List.mem_append, not_or]
    exact ⟨by decide, h⟩
  · rw [List.mem_append, not_or]
    exact ⟨by decide, newline_not_mem_chars e.data⟩

theorem emitted_eq (events : List (SseMockEvent N)) :
    emitted format events
      = (events.flatMap fun e => e.lines format ++ [[]]).flatMap (· ++ ['\n']) := by
  rw [emitted, List.flatMap_assoc]
  refine List.flatMap_congr fun e _ => ?_
  rw [List.flatMap_append, SseMockEvent.text]
  rfl

theorem terminated_emitted_append {events : List (SseMockEvent N)}
    (h : ∀ e ∈ events, '\n' ∉ e.event) (text : Text) :
    terminated '\n' (emitted format events ++ text)
      = (events.flatMap fun e => e.lines format ++ [[]]) ++ terminated '\n' text := by
  have hlines : ∀ l ∈ events.flatMap fun e => e.lines format ++ [[]], '\n' ∉ l := by
    intro l hl
    obtain ⟨e, he, hl⟩ := List.mem_flatMap.1 hl
    rw [List.mem_append, List.mem_singleton] at hl
    obtain hl | rfl := hl
    · exact newline_not_mem_lines (h e he) l hl
    · exact List.not_mem_nil
  rw [terminated, emitted_eq, splitOn_flatMap_append hlines,
    List.dropLast_append_of_ne_nil (List.splitOn_ne_nil _ _), terminated]

/-- **Emitted events** are all received, in their order, with their names trimmed. -/
theorem eventsOf_emitted {events : List (SseMockEvent N)} (h : ∀ e ∈ events, '\n' ∉ e.event) :
    eventsOf (emitted format events)
      = events.map fun e => ⟨trim e.event, Json.chars format e.data⟩ := by
  have hlines : terminated '\n' (emitted format events ++ [])
      = (events.flatMap fun e => e.lines format ++ [[]]) ++ terminated '\n' [] :=
    terminated_emitted_append h []
  rw [List.append_nil] at hlines
  rw [eventsOf, hlines, lineReader_events]
  exact List.append_nil _

/-- A response body is what was emitted before the last event, and the text of that one. -/
theorem formatSseResponse_append (events : List (SseMockEvent N)) (last : SseMockEvent N) :
    formatSseResponse format (events ++ [last]) = emitted format events ++ last.text format := by
  rw [formatSseResponse, List.map_append, List.map_singleton, intercalate_append_singleton,
    List.flatMap_map]
  rfl

/-- The text of one event leaves the event undispatched. -/
theorem terminated_text {e : SseMockEvent N} (h : '\n' ∉ e.event) :
    terminated '\n' (e.text format) = e.lines format := by
  have hlines : ∀ l ∈ e.lines format, '\n' ∉ l := newline_not_mem_lines h
  have hsplit := splitOn_flatMap_append hlines []
  rw [List.append_nil] at hsplit
  rw [terminated, SseMockEvent.text, hsplit, List.splitOn_nil, List.dropLast_concat]

/-- **A mocked response body loses its last event**: no empty line ends it, and the client
receives all events but that one. -/
theorem eventsOf_formatSseResponse {events : List (SseMockEvent N)}
    (h : ∀ e ∈ events, '\n' ∉ e.event) :
    eventsOf (formatSseResponse format events)
      = events.dropLast.map fun e => ⟨trim e.event, Json.chars format e.data⟩ := by
  obtain rfl | ⟨initial, last, rfl⟩ := List.eq_nil_or_concat events
  · rfl
  rw [List.concat_eq_append] at h ⊢
  have hinitial : ∀ e ∈ initial, '\n' ∉ e.event := fun e he => h e (List.mem_append_left _ he)
  have hlast : '\n' ∉ last.event := h last (List.mem_append_right _ (List.mem_singleton_self _))
  rw [formatSseResponse_append, eventsOf, terminated_emitted_append hinitial,
    terminated_text hlast, lineReader_events, lineReader_lines, List.append_nil,
    List.dropLast_concat]

/-! ## The names that can be received -/

/-- A line without white space at its ends. -/
def IsEventName (name : Text) : Prop := '\n' ∉ name ∧ trim name = name

theorem isEventName_trim {line : Text} (h : '\n' ∉ line) : IsEventName (trim line) :=
  ⟨fun hmem => h (mem_of_mem_trim hmem), trim_trim line⟩

theorem isEventName_message : IsEventName "message".toList := ⟨by decide, by decide⟩

/-- A line leaves the parser with such a name, and dispatches an event that has one. -/
theorem processLine_isEventName {p : SseParser} (hp : IsEventName p.currentEvent) {line : Text}
    (h : '\n' ∉ line) : IsEventName (p.processLine line).1.currentEvent ∧
      ∀ e ∈ (p.processLine line).2, IsEventName e.event := by
  rw [SseParser.processLine]
  split
  · exact ⟨isEventName_trim fun hmem => h (List.mem_of_mem_drop hmem), fun e he => by cases he⟩
  split
  · exact ⟨hp, fun e he => by cases he⟩
  split
  · refine ⟨isEventName_message, fun e he => ?_⟩
    cases he
    exact hp
  · exact ⟨hp, fun e he => by cases he⟩

/-- The events of any lines have such names. -/
theorem lineReader_isEventName {p : SseParser} (hp : IsEventName p.currentEvent)
    {lines : List Text} (h : ∀ l ∈ lines, '\n' ∉ l) :
    ∀ e ∈ (lineReader.feed p lines).2, IsEventName e.event := by
  induction lines generalizing p with
  | nil => exact fun e he => by cases he
  | cons l lines ih =>
    obtain ⟨hstate, hevent⟩ := processLine_isEventName hp (h l List.mem_cons_self)
    intro e he
    rw [lineReader, Transducer.ofStep_feed_cons, List.mem_append] at he
    obtain he | he := he
    · exact hevent e (Option.mem_toList.1 he)
    · exact ih hstate (fun m hm => h m (List.mem_cons_of_mem l hm)) e he

theorem isEventName_of_mem_eventsOf {text : Text} : ∀ e ∈ eventsOf text, IsEventName e.event :=
  lineReader_isEventName isEventName_message fun _ hl => not_mem_of_mem_terminated hl

/-! ## Over bytes -/

/-- What starts with the name of the first event is decoded to the text it encodes. -/
theorem decodedText_encoded {text : Text} (htext : ∀ c ∈ text.head?, c = 'e')
    {chunks : List (List UInt8)} (h : chunks.flatten = text.flatMap String.utf8EncodeChar) :
    decodedText TextDecoder.utf8 {} chunks = text := by
  rw [decodedText, h]
  cases text with
  | nil => rfl
  | cons c text =>
    have hc : c = 'e' := htext c rfl
    rw [TextDecoder.utf8_encode_cons (by rw [hc]; decide)]

theorem head?_emitted (events : List (SseMockEvent N)) :
    ∀ c ∈ (emitted format events).head?, c = 'e' := by
  cases events with
  | nil => exact fun c hc => by cases hc
  | cons e events => exact fun c hc => (Option.some.inj hc).symm

/-- The bytes that were emitted are decoded to the text that was emitted. -/
theorem decodedText_emitted {events : List (SseMockEvent N)} {chunks : List (List UInt8)}
    (h : chunks.flatten = events.flatMap (·.chunk format)) :
    decodedText TextDecoder.utf8 {} chunks = emitted format events := by
  refine decodedText_encoded (head?_emitted events) ?_
  rw [h, emitted, List.flatMap_assoc]
  rfl

theorem head?_formatSseResponse (events : List (SseMockEvent N)) :
    ∀ c ∈ (formatSseResponse format events).head?, c = 'e' := by
  obtain rfl | ⟨initial, last, rfl⟩ := List.eq_nil_or_concat events
  · exact fun c hc => by cases hc
  rw [List.concat_eq_append, formatSseResponse_append]
  cases initial with
  | nil => exact fun c hc => (Option.some.inj hc).symm
  | cons e events => exact fun c hc => (Option.some.inj hc).symm

/-- Events with such names and their data. -/
theorem map_readEvent {events : List (SseMockEvent N)} (hdata : ∀ e ∈ events, e.data.WellFormed)
    (hnames : ∀ e ∈ events, IsEventName e.event) :
    (events.map fun e => (⟨trim e.event, Json.chars format e.data⟩ : SseEvent)).map
        (readEvent format)
      = events.map fun e => (e.event, some e.data) := by
  rw [List.map_map]
  refine List.map_congr_left fun e he => ?_
  show (trim e.event, Json.parse format (JsString.ofChars (Json.chars format e.data))) = _
  rw [(hnames e he).2, Json.parse_chars format (hdata e he)]

variable (format) in
/-- **The round trip of a mocked stream**: however the emitted bytes are cut into chunks, the
client receives the names and the data of the events, and no other events, exactly when every
name is a line without white space at its ends. -/
theorem emitted_round_trip_iff {ε : Type} {events : List (SseMockEvent N)}
    (hdata : ∀ e ∈ events, e.data.WellFormed) {chunks : List (List UInt8)}
    (h : chunks.flatten = events.flatMap (·.chunk format)) :
    (parseSseStream (ε := ε) TextDecoder.utf8 {}
        (arrivals chunks ++ [{ read := .done }])).yielded.map (readEvent format)
      = events.map (fun e => (e.event, some e.data)) ↔ ∀ e ∈ events, IsEventName e.event := by
  rw [yielded_eq, decodedText_emitted h]
  constructor
  · intro hreceived e he
    have hmem : (e.event, some e.data)
        ∈ (eventsOf (emitted format events)).map (readEvent format) := by
      rw [hreceived]
      exact List.mem_map_of_mem he
    obtain ⟨received, hmem, heq⟩ := List.mem_map.1 hmem
    have hname : received.event = e.event := congrArg Prod.fst heq
    exact hname ▸ isEventName_of_mem_eventsOf received hmem
  · intro hnames
    rw [eventsOf_emitted fun e he => (hnames e he).1, map_readEvent hdata hnames]

/-- Two events whose bytes arrive in two chunks, cut inside the first event. -/
def mockedEvents : List (SseMockEvent ℕ) :=
  [⟨"item.updated".toList, .arr [.num 4, .bool true]⟩, ⟨"done".toList, .null⟩]

theorem wellFormed_mockedEvents : ∀ e ∈ mockedEvents, e.data.WellFormed := by
  intro e he
  simp only [mockedEvents, List.mem_cons, List.not_mem_nil, or_false] at he
  obtain rfl | rfl := he
  · refine .arr fun x hx => ?_
    simp only [List.mem_cons, List.not_mem_nil, or_false] at hx
    obtain rfl | rfl := hx
    · exact .num 4
    · exact .bool true
  · exact .null

theorem isEventName_mockedEvents : ∀ e ∈ mockedEvents, IsEventName e.event := by
  intro e he
  simp only [mockedEvents, List.mem_cons, List.not_mem_nil, or_false] at he
  obtain rfl | rfl := he
  · exact ⟨by decide, by decide⟩
  · exact ⟨by decide, by decide⟩

theorem emitted_round_trip_iff_mocked :
    (parseSseStream (ε := Unit) TextDecoder.utf8 {} (arrivals
        [(mockedEvents.flatMap (·.chunk decimal)).take 9,
          (mockedEvents.flatMap (·.chunk decimal)).drop 9]
        ++ [{ read := .done }])).yielded.map (readEvent decimal)
      = mockedEvents.map fun e => (e.event, some e.data) :=
  (emitted_round_trip_iff decimal wellFormed_mockedEvents
    (by rw [List.flatten_cons, List.flatten_singleton, List.take_append_drop])).2
    isEventName_mockedEvents

variable (format) in
/-- **The last event of a mocked response body is lost**: however the body is cut into chunks,
the client receives all its events but the last, as no empty line ends that one. -/
theorem formatSseResponse_received {ε : Type} {events : List (SseMockEvent N)}
    (hdata : ∀ e ∈ events, e.data.WellFormed) (hnames : ∀ e ∈ events, IsEventName e.event)
    {chunks : List (List UInt8)}
    (h : chunks.flatten = (formatSseResponse format events).flatMap String.utf8EncodeChar) :
    (parseSseStream (ε := ε) TextDecoder.utf8 {}
        (arrivals chunks ++ [{ read := .done }])).yielded.map (readEvent format)
      = events.dropLast.map fun e => (e.event, some e.data) := by
  have hinitial := (List.dropLast_sublist events).subset
  rw [yielded_eq, decodedText_encoded (head?_formatSseResponse events) h,
    eventsOf_formatSseResponse fun e he => (hnames e he).1,
    map_readEvent (fun e he => hdata e (hinitial he)) fun e he => hnames e (hinitial he)]

theorem formatSseResponse_received_mocked :
    (parseSseStream (ε := Unit) TextDecoder.utf8 {} (arrivals
        [(formatSseResponse decimal mockedEvents).flatMap String.utf8EncodeChar]
        ++ [{ read := .done }])).yielded.map (readEvent decimal)
      = [("item.updated".toList, some (.arr [.num 4, .bool true]))] :=
  formatSseResponse_received decimal wellFormed_mockedEvents isEventName_mockedEvents
    (List.flatten_singleton)

/-! ## A connection to a mocked stream -/

/-- An emitted event is handled, if its schema takes the data. -/
theorem outcome_emitted {σ D : Type} {client : SseClient σ N D} {e : SseMockEvent N}
    (hdata : e.data.WellFormed) (hname : IsEventName e.event) {schema : Json N → SafeParse D}
    (hschema : client.schema? e.event = some schema) {data : D}
    (hvalid : schema e.data = .success data) :
    client.outcome ⟨trim e.event, Json.chars client.format e.data⟩
      = some (.onEvent e.event data) := by
  rw [SseClient.outcome, hname.2, hschema, Option.map_some, Json.parse_chars client.format hdata]
  simp only [hvalid]

/-- **From `emit` to the handlers**: of a connection that has read what a mock emitted, in any
chunks and with any steps in between, `onClose` tells that the calls were `onOpen`, the handler
of each event with the data its schema makes of the emitted data, and `onClose`. -/
theorem mockSseStream_connection {D : Type} {client : SseClient TextDecoder.State N D}
    (hdecoder : client.decoder = TextDecoder.utf8) (hd₀ : client.d₀ = {}) (hquiet : client.Quiet)
    {events : List (SseMockEvent N)} (hdata : ∀ e ∈ events, e.data.WellFormed)
    (hnames : ∀ e ∈ events, IsEventName e.event) {data : SseMockEvent N → D}
    (hvalid : ∀ e ∈ events, ∃ schema, client.schema? e.event = some schema ∧
      schema e.data = .success (data e))
    {moves : List SseMove} {c : SseConnection TextDecoder.State D}
    (hrun : run (sseStep client) (connectSseByContract client (.ok ()) (.ok ())).1 moves = some c)
    (hbytes : bytesRead moves = events.flatMap (·.chunk client.format))
    (hclose : .onClose ∈ calls c.log) :
    calls c.log = .onOpen :: (events.map (fun e => .onEvent e.event (data e)) ++ [.onClose]) := by
  have htext : (client.decoder.feed client.d₀ (bytesRead moves)).2
      = emitted client.format events := by
    have hdecoded : decodedText TextDecoder.utf8 {} [bytesRead moves]
        = emitted client.format events :=
      decodedText_emitted (by rw [List.flatten_singleton, hbytes])
    rwa [decodedText, List.flatten_singleton, ← hdecoder, ← hd₀] at hdecoded
  rw [log_of_onClose hquiet hrun hclose, eventsIn, htext,
    eventsOf_emitted fun e he => (hnames e he).1, List.filterMap_map]
  refine congrArg (fun handled => Call.onOpen :: (handled ++ [.onClose])) ?_
  rw [← List.filterMap_eq_map]
  refine List.filterMap_congr fun e he => ?_
  obtain ⟨schema, hschema, hsuccess⟩ := hvalid e he
  exact outcome_emitted (hdata e he) (hnames e he) hschema hsuccess

/-- A client for the mocked events. -/
def mockedClient : SseClient TextDecoder.State ℕ Bool where
  decoder := TextDecoder.utf8
  d₀ := {}
  format := decimal
  syntaxError _ := "Unexpected token".toList
  schemas := ⟨[("tick", fun _ => .success true)], List.nodup_singleton _⟩
  callbacks _ _ := {}

def tick : SseMockEvent ℕ := ⟨"tick".toList, .null⟩

/-- The event arrives in two chunks. -/
def mockedMoves : List SseMove :=
  [.response (.ok true), .advance, .read (.value ((tick.chunk decimal).take 9)), .advance,
    .read (.value ((tick.chunk decimal).drop 9)), .advance, .advance, .read .done]

theorem mockSseStream_connection_tick :
    ∃ c, run (sseStep mockedClient) (connectSseByContract mockedClient (.ok ()) (.ok ())).1
        mockedMoves = some c ∧
      calls c.log = [.onOpen, .onEvent "tick".toList true, .onClose] := by
  have hsome : ((run (sseStep mockedClient)
      (connectSseByContract mockedClient (.ok ()) (.ok ())).1 mockedMoves).any
        fun c => .onClose ∈ calls c.log) = true := by decide +kernel
  obtain ⟨c, hrun, hclose⟩ := (Option.any_eq_true _ _).1 hsome
  have htick : ∀ e ∈ [tick], e = tick := fun e he => List.mem_singleton.1 he
  have hdata : ∀ e ∈ [tick], e.data.WellFormed := fun e he => htick e he ▸ .null
  have hname : IsEventName tick.event := ⟨by decide, by decide⟩
  have hvalid : ∀ e ∈ [tick], ∃ schema, mockedClient.schema? e.event = some schema ∧
      schema e.data = .success true :=
    fun e he => htick e he ▸ ⟨fun _ => .success true, rfl, rfl⟩
  have hbytes : bytesRead mockedMoves = [tick].flatMap (·.chunk mockedClient.format) := by
    decide +kernel
  exact ⟨c, hrun, mockSseStream_connection rfl rfl (fun _ _ => rfl) hdata
    (fun e he => htick e he ▸ hname) hvalid hrun hbytes (of_decide_eq_true hclose)⟩

end SharedTsLibs.UniversalTestingUtils
