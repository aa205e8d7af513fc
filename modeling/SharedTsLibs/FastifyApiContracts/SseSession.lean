import SharedTsLibs.FastifyApiContracts.BuildFastifyApiRoute
import SharedTsLibs.Lib.StepSystem

/-!
# SSE sessions of a route

`handleApiRoute` of `buildFastifyApiRoute.ts` and `buildApiSSEContext` of `sseUtils.ts`: a
handler runs, may start sessions, send events on them and pipe streams into them; then its
result is streamed or sent, unless it has started a session.  The connection may close at any
time.

* `SseServer` — the contract and its schemas.
* `checkEvent` — what `send` does before it writes.
* `StreamRun.pull`, `StreamRun.sendEnds` — the loop of `sendStream`.
* `RouteState.startSession`, `RouteState.handled` — `sse.start()`, and what follows the handler.
* `routeStep` — the route with its handler and its network, one step at a time.
-/

namespace SharedTsLibs.FastifyApiContracts

open SharedTsLibs.ApiContracts StepSystem

/-! ## The server -/

structure SseServer (Schema Data : Type) where
  runtime : JsRuntime
  responses : ResponsesByStatusCode Schema
  /-- `schema.safeParse(data)`: the message of the error, if it does not succeed. -/
  safeParse : Schema → Data → Option String

inductive SSESessionMode where
  | autoClose
  | keepAlive
  deriving DecidableEq

inductive SSECloseInitiator where
  | server
  | client
  deriving DecidableEq

/-- An event as it is handed to `reply.sse.send`. -/
structure SSEMessage (Data : Type) where
  event : Option String
  data : Data
  id : Option String
  retry : Option ℚ

/-- An event of a stream that is piped into a session. -/
structure SSEStreamMessage (Data : Type) where
  event : String
  data : Data
  id : Option String := none
  retry : Option ℚ := none

def SSEStreamMessage.message {Data : Type} (message : SSEStreamMessage Data) : SSEMessage Data :=
  { message with event := some message.event }

/-- What the route, a call of `send` or a call of `start` throws. -/
inductive RouteError where
  | selection (error : SseSelectionError)
  | resolve (error : ResolveError)
  | responseHeaders
  | invalidEvent (eventName message : String)
  /-- A property that every object inherits is taken for a schema. -/
  | notASchema (eventName : String)
  | source
  | handler
  | invalidHandlerResult

/-! ## Streams -/

/-- What the source of a stream brings. -/
inductive SourceTurn (Data : Type) where
  | message (message : SSEStreamMessage Data)
  | done
  | fails

inductive StreamPhase (Data : Type) where
  /-- The next message of the source is waited for. -/
  | pulling
  /-- The write of a message is waited for. -/
  | sending (message : SSEStreamMessage Data)
  | exhausted
  | stopped
  | rejected (error : RouteError)

/-- A call of `sendStream` on a session. -/
structure StreamRun (Data : Type) where
  session : ℕ
  phase : StreamPhase Data := .pulling
  pulled : List (SSEStreamMessage Data) := []
  sent : List (SSEStreamMessage Data) := []
  /-- The `return()` of the source was called. -/
  released : Bool := false

section Operations

variable {Schema Data Body : Type} (server : SseServer Schema Data)

/-- The validation of `send`: the error it throws. -/
def checkEvent (eventSchemas : SseSchemaByEventName Schema) (eventName : String) (data : Data) :
    Option RouteError :=
  match eventSchemas.access eventName with
  | .own schema => (server.safeParse schema data).map (.invalidEvent eventName)
  | .inherited => some (.notASchema eventName)
  | .absent => none

namespace StreamRun

/-- The source brings a message, which is validated, or it ends. -/
def pull (eventSchemas : SseSchemaByEventName Schema) (r : StreamRun Data) :
    SourceTurn Data → StreamRun Data
  | .done => { r with phase := .exhausted }
  | .fails => { r with phase := .rejected .source }
  | .message message =>
    let r := { r with pulled := r.pulled ++ [message] }
    match checkEvent server eventSchemas message.event message.data with
    | some error => { r with phase := .rejected error, released := true }
    | none => { r with phase := .sending message }

/-- The write of a message has ended. -/
def sendEnds (r : StreamRun Data) (message : SSEStreamMessage Data) (sent connected : Bool) :
    StreamRun Data :=
  let r := if sent then { r with sent := r.sent ++ [message] } else r
  if !sent || !connected then { r with phase := .stopped, released := true }
  else { r with phase := .pulling }

end StreamRun

/-! ## The route -/

/-- An event on the wire, and the session it was sent on; a replayed one was sent on none. -/
structure Written (Data : Type) where
  session : Option ℕ
  message : SSEMessage Data

inductive RoutePhase where
  | handling
  /-- The stream that the handler has returned is piped. -/
  | streaming (stream : ℕ)
  | done
  | failed (error : RouteError)

structure RouteState (Schema Data Body : Type) where
  phase : RoutePhase := .handling
  /-- The event schemas of the sessions started. -/
  sessions : List (SseSchemaByEventName Schema) := []
  sessionMode : Option SSESessionMode := none
  closedByServer : Bool := false
  connected : Bool := true
  streams : List (StreamRun Data) := []
  written : List (Written Data) := []
  /-- The calls of `onClose`. -/
  closes : List SSECloseInitiator := []
  response : Option (ResolvedApiResponse Body) := none

/-- What is read of the reply: whether its headers are valid, and whether it has been sent. -/
structure ReplyState where
  headersFit : Bool
  sent : Bool := false

/-- A move of the handler, its callbacks and its streams, or of the connection. -/
inductive RouteLabel (Data Body : Type) where
  | start (mode : SSESessionMode) (startOptions : SseStartOptions) (reply : ReplyState)
  | send (session : ℕ) (message : SSEStreamMessage Data) (sent : Bool)
  | sendStream (session : ℕ)
  | pull (stream : ℕ) (turn : SourceTurn Data)
  | sendEnds (stream : ℕ) (sent : Bool)
  | close (session : ℕ)
  | replay (message : SSEMessage Data) (sent : Bool)
  | connectionCloses
  | handlerReturns (result : Option (ApiHandlerResult Body)) (reply : ReplyState)
  | handlerThrows
  | streamed

namespace RouteState

/-- `sse.start()`. -/
def startSession (s : RouteState Schema Data Body) (mode : SSESessionMode)
    (startOptions : SseStartOptions) (reply : ReplyState) :
    Except RouteError (RouteState Schema Data Body) :=
  match resolveSseSelection server.runtime (getSseSelections server.responses) startOptions with
  | .error error => .error (.selection error)
  | .ok selection =>
    if reply.headersFit then
      .ok { s with sessions := s.sessions ++ [selection.events], sessionMode := some mode }
    else .error .responseHeaders

/-- A message is written, unless the write fails. -/
def write (s : RouteState Schema Data Body) (session : Option ℕ) (message : SSEMessage Data)
    (sent : Bool) : RouteState Schema Data Body :=
  if sent then { s with written := s.written ++ [⟨session, message⟩] } else s

def markHandlerDone (s : RouteState Schema Data Body) : RouteState Schema Data Body :=
  if s.sessionMode = some .autoClose then { s with closedByServer := true } else s

def fail (s : RouteState Schema Data Body) (error : RouteError) : RouteState Schema Data Body :=
  { s with phase := .failed error }

/-- `sendResponse`. -/
def sendResponse (s : RouteState Schema Data Body) (resolved : ResolvedApiResponse Body)
    (reply : ReplyState) : RouteState Schema Data Body :=
  if reply.sent then { s with phase := .done }
  else if reply.headersFit then { s with response := some resolved, phase := .done }
  else s.fail .responseHeaders

/-- What follows the handler. -/
def handled (s : RouteState Schema Data Body) (result : Option (ApiHandlerResult Body))
    (reply : ReplyState) : RouteState Schema Data Body :=
  if s.sessions ≠ [] then { s.markHandlerDone with phase := .done }
  else
    match result with
    | none => s.fail .invalidHandlerResult
    | some result =>
      match resolveResponseRepresentation server.runtime server.responses result with
      | .error error => s.fail (.resolve error)
      | .ok resolved =>
        if getSseSelections server.responses ≠ [] ∧ resolved.isSse = true then
          match s.startSession server .autoClose
            ⟨some (.number resolved.status), resolved.contentType⟩ reply with
          | .error error => s.fail error
          | .ok started =>
            { started with
              streams := started.streams ++ [{ session := s.sessions.length }]
              phase := .streaming started.streams.length }
        else s.sendResponse resolved reply

end RouteState

/-! ## Steps -/

/-- The step a label stands for. -/
def routeStep (s : RouteState Schema Data Body) :
    RouteLabel Data Body → Option (RouteState Schema Data Body)
  | .start mode startOptions reply =>
    match s.startSession server mode startOptions reply with
    | .error _ => some s
    | .ok started => some started
  | .send session message sent =>
    s.sessions[session]?.map fun eventSchemas =>
      match checkEvent server eventSchemas message.event message.data with
      | some _ => s
      | none => s.write (some session) message.message sent
  | .sendStream session =>
    s.sessions[session]?.map fun _ => { s with streams := s.streams ++ [{ session := session }] }
  | .pull stream turn =>
    s.streams[stream]?.bind fun r =>
      match r.phase with
      | .pulling =>
        s.sessions[r.session]?.map fun eventSchemas =>
          { s with streams := s.streams.set stream (r.pull server eventSchemas turn) }
      | _ => none
  | .sendEnds stream sent =>
    s.streams[stream]?.bind fun r =>
      match r.phase with
      | .sending message =>
        some
          { s.write (some r.session) message.message sent with
            streams := s.streams.set stream (r.sendEnds message sent s.connected) }
      | _ => none
  | .close session => s.sessions[session]?.map fun _ => { s with closedByServer := true }
  | .replay message sent => if s.sessions = [] then none else some (s.write none message sent)
  | .connectionCloses =>
    if s.connected then
      let initiator := if s.closedByServer then .server else .client
      some
        { s with
          connected := false
          closes := s.closes ++ List.replicate s.sessions.length initiator }
    else none
  | .handlerReturns result reply =>
    match s.phase with
    | .handling => some (s.handled server result reply)
    | _ => none
  | .handlerThrows =>
    match s.phase with
    | .handling => some (s.fail .handler)
    | _ => none
  | .streamed =>
    match s.phase with
    | .streaming stream =>
      s.streams[stream]?.bind fun r =>
        match r.phase with
        | .exhausted | .stopped => some { s.markHandlerDone with phase := .done }
        | .rejected error => some (s.fail error)
        | _ => none
    | _ => none

end Operations

end SharedTsLibs.FastifyApiContracts
