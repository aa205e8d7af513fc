import SharedTsLibs.Lib.Lines
import SharedTsLibs.Lib.JsText

/-!
# The SSE parser

`SseParser` and `parseSseStream` of `utils/sseUtils.ts`.  The generator is run
turn by turn: a turn of its loop looks at the abort signal, waits for one read
and yields the events of the lines that the read completes.

The platform's decoder is a parameter, a `Transducer` from bytes to characters:
what a streaming decoder is called with is read as one input.

* `parseSseStream` — what the generator yields over a list of turns, and how it
  leaves its loop.
* `streamReader` — the reader of the loop as one transducer: decoder, line
  buffer and parser, one after the other.
* `yielded_eq` — what a stream without abort yields, from its decoded text.
* `parseSseStream_chunking` — how the bytes were cut into chunks does not show.
-/

namespace SharedTsLibs.FrontendHttpClient

open JsText Lines

abbrev Text := List Char

structure SseEvent where
  event : Text
  data : Text
  deriving DecidableEq

/-- `private currentEvent` and `private currentData`. -/
structure SseParser where
  currentEvent : Text := "message".toList
  currentData : Text := []
  deriving DecidableEq

namespace SseParser

def processLine (p : SseParser) (line : Text) : SseParser × Option SseEvent :=
  if "event:".toList.isPrefixOf line then
    ({ p with currentEvent := trim (line.drop 6) }, none)
  else if "data:".toList.isPrefixOf line then
    let currentData := if p.currentData ≠ [] then p.currentData ++ ['\n'] else p.currentData
    ({ p with currentData := currentData ++ trim (line.drop 5) }, none)
  else if line = [] ∧ p.currentData ≠ [] then
    ({ currentEvent := "message".toList, currentData := [] },
      some { event := p.currentEvent, data := p.currentData })
  else (p, none)

end SseParser

/-- `for (const line of lines)`: the events of the lines, in their order. -/
def lineReader : Transducer SseParser Text SseEvent :=
  Transducer.ofStep fun p line => ((p.processLine line).1, (p.processLine line).2.toList)

section Stream

variable {σ ε : Type}

/-- The variables of `parseSseStream`. -/
structure StreamState (σ : Type) where
  decoder : σ
  buffer : Partial '\n'
  parser : SseParser

/-- The body of the loop on the bytes of one read. -/
def readChunk (decoder : Transducer σ UInt8 Char) (s : StreamState σ) (value : List UInt8) :
    StreamState σ × List SseEvent :=
  let (decoderState, text) := decoder.feed s.decoder value
  -- `buffer` is joined to the text, split, and becomes the last piece again
  let (buffer, lines) := (lineSplitter '\n').feed s.buffer text
  let (parser, events) := lineReader.feed s.parser lines
  (⟨decoderState, buffer, parser⟩, events)

/-- What `reader.read()` settles with. -/
inductive ReadResult (ε : Type) where
  | value (bytes : List UInt8)
  | done
  | rejected (error : ε)

/-- One turn of the loop: the signal as the turn finds it, and its read. -/
structure Turn (ε : Type) where
  aborted : Bool := false
  read : ReadResult ε

/-- How the loop is left.  Every way but `waiting` runs `reader.releaseLock()`. -/
inductive Exit (ε : Type) where
  | waiting
  | aborted
  | done
  | failed (error : ε)

/-- What the consumer of the generator sees. -/
structure Outcome (ε : Type) where
  yielded : List SseEvent
  exit : Exit ε

/-- The loop from some state on. -/
def parseFrom (decoder : Transducer σ UInt8 Char) : StreamState σ → List (Turn ε) → Outcome ε
  | _, [] => ⟨[], .waiting⟩
  | s, turn :: turns =>
    if turn.aborted then ⟨[], .aborted⟩
    else match turn.read with
      | .done => ⟨[], .done⟩
      | .rejected error => ⟨[], .failed error⟩
      | .value bytes =>
        let (s', events) := readChunk decoder s bytes
        let later := parseFrom decoder s' turns
        ⟨events ++ later.yielded, later.exit⟩

/-- `parseSseStream(reader, signal)`, with the decoder in the state `new TextDecoder()`
has. -/
def parseSseStream (decoder : Transducer σ UInt8 Char) (d₀ : σ) (turns : List (Turn ε)) :
    Outcome ε :=
  parseFrom decoder ⟨d₀, Partial.empty, {}⟩ turns

/-- The turns on which these chunks arrive, with no abort. -/
def arrivals (chunks : List (List UInt8)) : List (Turn ε) :=
  chunks.map fun chunk => { read := .value chunk }

/-! ## The loop as a transducer -/

/-- The decoder, the line buffer and the parser, each reading what the one before
it writes. -/
def streamReader (decoder : Transducer σ UInt8 Char) :
    Transducer (σ × Partial '\n' × SseParser) UInt8 SseEvent :=
  decoder.comp ((lineSplitter '\n').comp lineReader)

/-- The variables as the state of `streamReader`. -/
def StreamState.parts (s : StreamState σ) : σ × Partial '\n' × SseParser :=
  (s.decoder, s.buffer, s.parser)

theorem readChunk_eq (decoder : Transducer σ UInt8 Char) (s : StreamState σ)
    (value : List UInt8) :
    (readChunk decoder s value).1.parts = ((streamReader decoder).feed s.parts value).1 ∧
      (readChunk decoder s value).2 = ((streamReader decoder).feed s.parts value).2 :=
  ⟨rfl, rfl⟩

theorem StreamState.parts_injective {s t : StreamState σ} (h : s.parts = t.parts) : s = t := by
  obtain ⟨_, _, _⟩ := s
  obtain ⟨_, _, _⟩ := t
  simpa [parts] using h

/-- Reading two chunks is reading them joined. -/
theorem readChunk_append (decoder : Transducer σ UInt8 Char) (s : StreamState σ)
    (xs ys : List UInt8) :
    readChunk decoder s (xs ++ ys) = ((readChunk decoder (readChunk decoder s xs).1 ys).1,
      (readChunk decoder s xs).2 ++ (readChunk decoder (readChunk decoder s xs).1 ys).2) := by
  have hjoin := (streamReader decoder).feed_append s.parts xs ys
  obtain ⟨hx, hxe⟩ := readChunk_eq decoder s xs
  obtain ⟨hy, hye⟩ := readChunk_eq decoder (readChunk decoder s xs).1 ys
  obtain ⟨hxy, hxye⟩ := readChunk_eq decoder s (xs ++ ys)
  refine Prod.ext (StreamState.parts_injective ?_) ?_
  · rw [hxy, hjoin, hy, hx]
  · rw [hxye, hjoin, hxe, hye, hx]

theorem readChunk_nil (decoder : Transducer σ UInt8 Char) (s : StreamState σ) :
    readChunk decoder s [] = (s, []) := by
  obtain ⟨hs, he⟩ := readChunk_eq decoder s []
  rw [(streamReader decoder).feed_nil] at hs he
  exact Prod.ext (StreamState.parts_injective hs) he

/-- The loop over chunks that arrive without abort, and over what follows them. -/
theorem parseFrom_arrivals (decoder : Transducer σ UInt8 Char) (s : StreamState σ)
    (chunks : List (List UInt8)) (turns : List (Turn ε)) :
    parseFrom decoder s (arrivals chunks ++ turns) =
      ⟨(readChunk decoder s chunks.flatten).2 ++
          (parseFrom decoder (readChunk decoder s chunks.flatten).1 turns).yielded,
        (parseFrom decoder (readChunk decoder s chunks.flatten).1 turns).exit⟩ := by
  induction chunks generalizing s with
  | nil => simp [arrivals, readChunk_nil]
  | cons chunk chunks ih =>
    have hstep : parseFrom decoder s (arrivals (chunk :: chunks) ++ turns) =
        ⟨(readChunk decoder s chunk).2 ++
            (parseFrom decoder (readChunk decoder s chunk).1 (arrivals chunks ++ turns)).yielded,
          (parseFrom decoder (readChunk decoder s chunk).1 (arrivals chunks ++ turns)).exit⟩ := rfl
    rw [hstep, ih, List.flatten_cons, readChunk_append, List.append_assoc]

/-- **How a stream was cut into chunks does not show**: the generator yields the
same events, and goes on the same way, as if they had arrived as one chunk. -/
theorem parseSseStream_chunking (decoder : Transducer σ UInt8 Char) (d₀ : σ)
    (chunks : List (List UInt8)) (turns : List (Turn ε)) :
    parseSseStream decoder d₀ (arrivals chunks ++ turns) =
      parseSseStream decoder d₀ (arrivals [chunks.flatten] ++ turns) := by
  rw [parseSseStream, parseSseStream, parseFrom_arrivals, parseFrom_arrivals,
    List.flatten_singleton]

/-- The text that the decoder makes of the chunks. -/
def decodedText (decoder : Transducer σ UInt8 Char) (d₀ : σ) (chunks : List (List UInt8)) : Text :=
  (decoder.feed d₀ chunks.flatten).2

/-- What the parser makes of a whole text. -/
def eventsOf (text : Text) : List SseEvent := (lineReader.feed {} (terminated '\n' text)).2

/-- What a stream without abort yields is what the parser makes of its text. -/
theorem yielded_eq (decoder : Transducer σ UInt8 Char) (d₀ : σ) (chunks : List (List UInt8)) :
    (parseSseStream (ε := ε) decoder d₀ (arrivals chunks ++ [{ read := .done }])).yielded =
      eventsOf (decodedText decoder d₀ chunks) := by
  rw [parseSseStream, parseFrom_arrivals]
  exact List.append_nil _

end Stream

end SharedTsLibs.FrontendHttpClient
