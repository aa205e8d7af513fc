import SharedTsLibs.FrontendHttpClient.SseUtils
import SharedTsLibs.Lib.JsonLine
import SharedTsLibs.Lib.PlainObject
import SharedTsLibs.Lib.StepSystem

/-!
# SSE connections

`connectSseByContract` of `sse.ts`: a request is sent, its response is read by
`parseSseStream`, and the events of the stream are handed to the caller's callbacks.  The
caller may call `close()` at any time, also from a callback, and a callback may throw.

* `SseClient` — the contract, the callbacks and the platform.
* `handleSseEvent`, `opened`, `endOfStream`, `fail` — the parts of `runSseConnection`.
* `sseStep` — the connection with its network and its caller, one step at a time.
* `outcome`, `handleSseEvent_cases` — the call an event leads to, whatever the callbacks do,
  and the one that may follow it.
-/

namespace SharedTsLibs.FrontendHttpClient

open JsText JsString Lines StepSystem

/-! ## The client -/

/-- What `safeParse` of a schema does. -/
inductive SafeParse (D : Type) where
  | success (data : D)
  | failure (message : Text)
  | thrown (message : Text)

/-- A call of one of the callbacks; an error is known by its message. -/
inductive Call (D : Type) where
  | onOpen
  | onEvent (name : Text) (data : D)
  | onError (message : Text)
  | onClose
  deriving DecidableEq

/-- What a callback does to the connection: it may call `close()`, and may throw then. -/
structure Reaction where
  closes : Bool := false
  thrown : Option Text := none

/-- A call that was made, and whether the signal was aborted at that time. -/
structure CallEntry (D : Type) where
  call : Call D
  aborted : Bool
  deriving DecidableEq

structure SseClient (σ N D : Type) where
  decoder : Transducer σ UInt8 Char
  /-- The state of `new TextDecoder()`. -/
  d₀ : σ
  format : NumberFormat N
  /-- The message of what `JSON.parse` throws on a text. -/
  syntaxError : Text → Text
  /-- `contract.serverSentEventSchemas` -/
  schemas : PlainObject (Json N → SafeParse D)
  /-- What a callback does, which may depend on all calls before. -/
  callbacks : List (CallEntry D) → Call D → Reaction

/-! ## The connection -/

inductive SsePhase where
  /-- The response is waited for. -/
  | connecting
  /-- The generator has these events left to yield before its next turn. -/
  | dispatching (pending : List SseEvent)
  /-- `reader.read()` is waited for. -/
  | reading
  | ended
  deriving DecidableEq

structure SseConnection (σ D : Type) where
  phase : SsePhase
  /-- `abortController.signal.aborted` -/
  aborted : Bool := false
  /-- The variables of the generator. -/
  stream : StreamState σ
  log : List (CallEntry D) := []
  /-- The unhandled rejection of `runSseConnection`. -/
  unhandled : Option Text := none

section Operations

variable {σ N D : Type} (client : SseClient σ N D)

namespace SseConnection

/-- Call a callback; the second part is what it throws. -/
def call (c : SseConnection σ D) (x : Call D) : SseConnection σ D × Option Text :=
  ({ c with
      aborted := c.aborted || (client.callbacks c.log x).closes
      log := c.log ++ [⟨x, c.aborted⟩] },
    (client.callbacks c.log x).thrown)

/-- The `catch` of `runSseConnection`. -/
def fail (c : SseConnection σ D) (message : Text) : SseConnection σ D :=
  if c.aborted then { c with phase := .ended }
  else
    let (c', thrown) := c.call client (.onError message)
    { c' with phase := .ended, unhandled := thrown }

end SseConnection

def validationFailed (event message : Text) : Text :=
  "Validation failed for event \"".toList ++ event ++ "\": ".toList ++ message

def parseFailed (event message : Text) : Text :=
  "Failed to parse event data for \"".toList ++ event ++ "\": ".toList ++ message

/-- `contract.serverSentEventSchemas[event]`, where `event in` the schemas: a property that
the object inherits has no `safeParse`. -/
def SseClient.schema? (event : Text) : Option (Json N → SafeParse D) :=
  match client.schemas.access (String.ofList event) with
  | .own schema => some schema
  | .inherited => some fun _ => .thrown "schema.safeParse is not a function".toList
  | .absent => none

/-- The `try` block of `handleSseEvent`. -/
def tryEvent (schema : Json N → SafeParse D) (c : SseConnection σ D) (e : SseEvent) :
    SseConnection σ D × Option Text :=
  match Json.parse client.format (ofChars e.data) with
  | none => (c, some (client.syntaxError e.data))
  | some parsed =>
    match schema parsed with
    | .thrown message => (c, some message)
    | .failure message => c.call client (.onError (validationFailed e.event message))
    | .success data => c.call client (.onEvent e.event data)

/-- `handleSseEvent(event, data, contract, callbacks)`; the second part is what it throws. -/
def handleSseEvent (c : SseConnection σ D) (e : SseEvent) : SseConnection σ D × Option Text :=
  match client.schema? e.event with
  | none => (c, none)
  | some schema =>
    match tryEvent client schema c e with
    | (c', none) => (c', none)
    | (c', some message) => c'.call client (.onError (parseFailed e.event message))

namespace SseConnection

/-- The response is there: `onOpen`, whether or not the signal is aborted. -/
def opened (c : SseConnection σ D) (hasBody : Bool) : SseConnection σ D :=
  match c.call client .onOpen with
  | (c', some message) => c'.fail client message
  | (c', none) =>
    if hasBody then { c' with phase := .dispatching [] }
    else c'.fail client "Response body is null".toList

/-- The loop over the stream is over. -/
def endOfStream (c : SseConnection σ D) : SseConnection σ D :=
  if c.aborted then { c with phase := .ended }
  else match c.call client .onClose with
    | (c', none) => { c' with phase := .ended }
    | (c', some message) => c'.fail client message

/-- The next event is yielded and handled. -/
def dispatch (c : SseConnection σ D) (e : SseEvent) (pending : List SseEvent) :
    SseConnection σ D :=
  if c.aborted then { c with phase := .ended }
  else match handleSseEvent client c e with
    | (c', none) => { c' with phase := .dispatching pending }
    | (c', some message) => c'.fail client message

end SseConnection

/-- `connectSseByContract`: the connection, and what its `onError` throws to the caller.  The
parameters say whether the query parameters and the body pass their schemas. -/
def connectSseByContract (queryParams body : Except Text Unit) :
    SseConnection σ D × Option Text :=
  let c : SseConnection σ D := { phase := .ended, stream := ⟨client.d₀, Partial.empty, {}⟩ }
  match queryParams, body with
  | .error message, _ =>
    c.call client (.onError ("Query params validation failed: ".toList ++ message))
  | .ok _, .error message =>
    c.call client (.onError ("Request body validation failed: ".toList ++ message))
  | .ok _, .ok _ => ({ c with phase := .connecting }, none)

/-- Who moves: the caller closes, the request is answered, the loop goes on, a read settles. -/
inductive SseMove where
  | close
  | response (result : Except Text Bool)
  | advance
  | read (result : ReadResult Text)

def sseStep (c : SseConnection σ D) : SseMove → Option (SseConnection σ D)
  | .close => some { c with aborted := true }
  | .response result =>
    match c.phase, result with
    | .connecting, .ok hasBody => some (c.opened client hasBody)
    | .connecting, .error message => some (c.fail client message)
    | _, _ => none
  | .advance =>
    match c.phase with
    -- `while (!signal.aborted)`
    | .dispatching [] => some { c with phase := if c.aborted then .ended else .reading }
    | .dispatching (e :: pending) => some (c.dispatch client e pending)
    | _ => none
  | .read result =>
    match c.phase, result with
    | .reading, .value bytes =>
      let (stream, events) := readChunk client.decoder c.stream bytes
      some { c with stream := stream, phase := .dispatching events }
    | .reading, .done => some (c.endOfStream client)
    | .reading, .rejected message => some (c.fail client message)
    | _, _ => none

/-- What a step can do. -/
inductive SseStepped (c : SseConnection σ D) : SseMove → SseConnection σ D → Prop where
  | close : SseStepped c .close { c with aborted := true }
  | opened (hphase : c.phase = .connecting) (hasBody : Bool) :
      SseStepped c (.response (.ok hasBody)) (c.opened client hasBody)
  | refused (hphase : c.phase = .connecting) (message : Text) :
      SseStepped c (.response (.error message)) (c.fail client message)
  | turn (hphase : c.phase = .dispatching []) :
      SseStepped c .advance { c with phase := if c.aborted then .ended else .reading }
  | dispatch {e : SseEvent} {pending : List SseEvent}
      (hphase : c.phase = .dispatching (e :: pending)) :
      SseStepped c .advance (c.dispatch client e pending)
  | value (hphase : c.phase = .reading) (bytes : List UInt8) :
      SseStepped c (.read (.value bytes))
        { c with
          stream := (readChunk client.decoder c.stream bytes).1
          phase := .dispatching (readChunk client.decoder c.stream bytes).2 }
  | done (hphase : c.phase = .reading) : SseStepped c (.read .done) (c.endOfStream client)
  | rejected (hphase : c.phase = .reading) (message : Text) :
      SseStepped c (.read (.rejected message)) (c.fail client message)

theorem sseStepped_of_sseStep {c c' : SseConnection σ D} {move : SseMove}
    (h : sseStep client c move = some c') : SseStepped client c move c' := by
  cases move with
  | close =>
    cases h
    exact .close
  | response result =>
    unfold sseStep at h
    dsimp only at h
    split at h
    · rename_i hasBody hphase
      cases h
      exact .opened hphase hasBody
    · rename_i message hphase
      cases h
      exact .refused hphase message
    · cases h
  | advance =>
    unfold sseStep at h
    dsimp only at h
    split at h
    · rename_i hphase
      cases h
      exact .turn hphase
    · rename_i e pending hphase
      cases h
      exact .dispatch hphase
    · cases h
  | read result =>
    unfold sseStep at h
    dsimp only at h
    split at h
    · rename_i bytes hphase
      cases h
      exact .value hphase bytes
    · rename_i hphase
      cases h
      exact .done hphase
    · rename_i message hphase
      cases h
      exact .rejected hphase message
    · cases h

/-! ## What an event leads to -/

/-- An event or an error. -/
def Call.IsReport : Call D → Prop
  | .onEvent _ _ | .onError _ => True
  | .onOpen | .onClose => False

theorem Call.isReport_onError (message : Text) : (Call.onError message : Call D).IsReport := trivial

/-- The first call that an event leads to. -/
def SseClient.outcome (e : SseEvent) : Option (Call D) :=
  (client.schema? e.event).map fun schema =>
    match Json.parse client.format (ofChars e.data) with
    | none => .onError (parseFailed e.event (client.syntaxError e.data))
    | some parsed =>
      match schema parsed with
      | .thrown message => .onError (parseFailed e.event message)
      | .failure message => .onError (validationFailed e.event message)
      | .success data => .onEvent e.event data

theorem SseClient.isReport_of_outcome {e : SseEvent} {x : Call D} (h : client.outcome e = some x) :
    x.IsReport := by
  obtain ⟨schema, -, rfl⟩ := Option.map_eq_some_iff.1 h
  split
  · trivial
  · split <;> trivial

/-- An event is passed over, or leads to its call; where this one throws in the `try` block,
`onError` is called as well. -/
theorem handleSseEvent_cases (c : SseConnection σ D) (e : SseEvent) :
    (client.outcome e = none ∧ handleSseEvent client c e = (c, none)) ∨
      ∃ x, client.outcome e = some x ∧ (handleSseEvent client c e = c.call client x ∨
        ∃ message, (client.callbacks c.log x).thrown.isSome ∧
          handleSseEvent client c e = (c.call client x).1.call client (.onError message)) := by
  have hcall : ∀ x : Call D, (match c.call client x with
      | (c', none) => (c', none)
      | (c', some message) => c'.call client (.onError (parseFailed e.event message)))
        = c.call client x ∨ ∃ message, (client.callbacks c.log x).thrown.isSome ∧
          (match c.call client x with
            | (c', none) => (c', none)
            | (c', some message) => c'.call client (.onError (parseFailed e.event message)))
              = (c.call client x).1.call client (.onError message) := by
    intro x
    cases hthrown : (client.callbacks c.log x).thrown with
    | none => exact .inl (by simp only [SseConnection.call, hthrown])
    | some message => exact .inr ⟨parseFailed e.event message, rfl, by
        simp only [SseConnection.call, hthrown]⟩
  rw [handleSseEvent, SseClient.outcome]
  cases client.schema? e.event with
  | none => exact .inl ⟨rfl, rfl⟩
  | some schema =>
    refine .inr ⟨_, rfl, ?_⟩
    simp only [tryEvent]
    cases Json.parse client.format (ofChars e.data) with
    | none => exact .inl rfl
    | some parsed =>
      dsimp only
      cases schema parsed with
      | thrown message => exact .inl rfl
      | failure message => exact hcall _
      | success data => exact hcall _

end Operations

end SharedTsLibs.FrontendHttpClient
