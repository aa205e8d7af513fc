import SharedTsLibs.ApiContracts.ContractResponse
import SharedTsLibs.BackendHttpClient.RetryRuns

/-!
# Calls by contract

`sendByApiContract.ts`: a request is sent, with retries or without, the response it ends with
is read the way the contract says, and the caller gets an `Either`.  A blob or an event stream
is handed over unread; the caller reads it later, or does not.

* `ContractClient` — the contract, the options and the platform.
* `normalizeResponseHeaders`, `resolvedResponseEntry` — what the response is taken for.
* `receiveResponse`, `readBody`, `finish` — the parts of `sendByApiContract` after the request.
* `LazyBody.access`, `LazyBody.next`, `LazyBody.stop` — the handle of a blob and the generator of
  an event stream.
* `sendStep` — the call with its network and its caller, one step at a time.
-/

namespace SharedTsLibs.BackendHttpClient

open ApiContracts StepSystem

/-! ## The client -/

/-- What a call goes by.  Values read as JSON are of a type `J`, what schemas make of them of a
type `D`, and what is thrown on the way of a type `E`. -/
structure ContractClient (Schema J D E : Type) where
  runtime : JsRuntime
  readers : TextReaders
  /-- `schema.parse` -/
  parse : Schema → J → Except E D
  /-- `JSON.parse` -/
  jsonParse : String → Except E J
  /-- A text as a value. -/
  ofText : String → D
  responsesByStatusCode : ResponsesByStatusCode Schema
  summary : String
  /-- `responseHeaderSchema.parse` -/
  responseHeaderSchema : Option (List (String × String) → Except E (List (String × D)))
  /-- `retry`, where `some none` is `true`. -/
  retry : Option (Option RetryConfig)
  strictContentType : Option Bool
  captureAsError : Option Bool

/-- The methods of a response body that take what it holds. -/
inductive BodyMethod where
  | dump
  | text
  | json
  | blob
  | arrayBuffer
  | toWeb
  deriving DecidableEq

/-- The accessors of a `BlobResponseHandle`. -/
inductive Accessor where
  | stream
  | blob
  | text
  | arrayBuffer
  | cancel
  deriving DecidableEq

/-- The method of the body that an accessor goes to. -/
def Accessor.method : Accessor → BodyMethod
  | .stream => .toWeb
  | .blob => .blob
  | .text => .text
  | .arrayBuffer => .arrayBuffer
  | .cancel => .dump

/-- An event of a stream, its data as text or parsed. -/
structure SseMessage (α : Type) where
  type : String
  data : α
  lastEventId : String
  retry : Option ℚ
  deriving DecidableEq

/-! ## Lazy bodies -/

/-- Where an async generator stands. -/
inductive GeneratorState where
  | suspendedStart
  | suspendedYield
  | completed
  deriving DecidableEq

/-- A body handed over unread: the handle of a blob with its variable `consumed`, or the
generator of an event stream. -/
inductive LazyBody (Schema : Type) where
  | handle (consumed : Bool)
  | events (schemaByEventName : SseSchemaByEventName Schema) (generator : GeneratorState)

/-- What the generator of an event stream throws: an error of its own, or what was thrown by the
body, `JSON.parse` or a schema. -/
inductive StreamError (E : Type) where
  | schemaNotFound (type : String)
  /-- A property that every object inherits is taken for a schema. -/
  | notASchema (type : String)
  | thrown (err : E)

/-- What the body's stream brings. -/
inductive Arrival (E : Type) where
  | event (message : SseMessage String)
  | done
  | failed (err : E)

variable {Schema J D E : Type}

/-- The body of the loop of `parseSseStream`: the value yielded for an event. -/
def parseEvent (client : ContractClient Schema J D E)
    (schemaByEventName : SseSchemaByEventName Schema) (message : SseMessage String) :
    Except (StreamError E) (SseMessage D) :=
  match schemaByEventName.access message.type with
  | .absent => .error (.schemaNotFound message.type)
  | .inherited =>
    match client.jsonParse message.data with
    | .error err => .error (.thrown err)
    | .ok _ => .error (.notASchema message.type)
  | .own schema =>
    match client.jsonParse message.data >>= client.parse schema with
    | .error err => .error (.thrown err)
    | .ok data => .ok { message with data }

/-! ## Outcomes -/

inductive ParsedBody (Schema D : Type) where
  | null
  | data (value : D)
  | handle
  | events (schemaByEventName : SseSchemaByEventName Schema)

/-- The body that is handed over unread, as it is at first. -/
def ParsedBody.handedOver : ParsedBody Schema D → Option (LazyBody Schema)
  | .null | .data _ => none
  | .handle => some (.handle false)
  | .events schemaByEventName => some (.events schemaByEventName .suspendedStart)

structure ParsedResponse (Schema D : Type) where
  statusCode : ℚ
  headers : List (String × D)
  body : ParsedBody Schema D

structure UnexpectedResponseError where
  statusCode : ℚ
  headers : List (String × String)
  body : String
  summary : String
  deriving DecidableEq

/-- What a call throws: what the request ended with, what the reading of the body failed with, or
what a schema threw. -/
inductive ThrownReason (E : Type) where
  | request (reason : RejectReason)
  | body (err : E)
  | bodySchema (err : E)
  | headerSchema (err : E)

inductive SendOutcome (Schema D E : Type) where
  | result (response : ParsedResponse Schema D)
  | error (response : ParsedResponse Schema D)
  | unexpected (error : UnexpectedResponseError)
  | thrown (reason : ThrownReason E)

/-! ## States -/

inductive SendPhase (Schema D E : Type) where
  | requesting
  /-- The content of the response's body is waited for. -/
  | reading (response : ResponseData) (kind : Option (ResponseKind Schema))
  | settled (outcome : SendOutcome Schema D E)

structure SendState (Schema D E : Type) where
  request : RetryState
  phase : SendPhase Schema D E
  /-- The methods called on the body of the response that the request ended with. -/
  calls : List BodyMethod := []
  /-- The body the caller was given, where it was not read for it. -/
  given : Option (LazyBody Schema) := none
  /-- The events the generator has pulled from the body, and those it has yielded. -/
  pulled : List (SseMessage String) := []
  yielded : List (SseMessage D) := []

/-- What the body brings to the call that reads it. -/
inductive Reading (J E : Type) where
  | dumped
  | text (text : String)
  | json (value : J)
  | failed (err : E)

/-- A step of the request, the end of a reading, or a move of the caller that was given a body:
an accessor of the handle, or `next()`, with what it brings, and `return()` of the generator. -/
inductive SendLabel (J E : Type) where
  | request (l : Label)
  | read (reading : Reading J E)
  | access (accessor : Accessor)
  | next (arrival : Arrival E)
  | stop

namespace SendState

variable (client : ContractClient Schema J D E)

def start : SendState Schema D E := { request := RetryState.start, phase := .requesting }

def settle (s : SendState Schema D E) (outcome : SendOutcome Schema D E) :
    SendState Schema D E :=
  { s with phase := .settled outcome }

/-- A method of the body is called. -/
def take (s : SendState Schema D E) (method : BodyMethod) : SendState Schema D E :=
  { s with calls := s.calls ++ [method] }

end SendState

/-! ## The call -/

section Call

variable (client : ContractClient Schema J D E)

/-- The value of a header, several joined into one. -/
def HeaderValue.joined : HeaderValue → String
  | .one value => value
  | .many values => ", ".intercalate values

def normalizeResponseHeaders (rawHeaders : List (String × HeaderValue)) :
    List (String × String) :=
  rawHeaders.map fun header => (header.1, header.2.joined)

/-- `resolvedResponseEntry`. -/
def resolvedResponseEntry (response : ResponseData) : Option (ResponseKind Schema) :=
  resolveResponseEntry client.runtime client.responsesByStatusCode (.finite response.statusCode)
    (OrderedMap.get? (normalizeResponseHeaders response.headers) "content-type")
    (client.strictContentType.getD true)

/-- `parsedHeaders`. -/
def parseHeaders (response : ResponseData) : Except E (List (String × D)) :=
  let normalizedHeaders := normalizeResponseHeaders response.headers
  let values := normalizedHeaders.map fun header => (header.1, client.ofText header.2)
  match client.responseHeaderSchema with
  | none => .ok values
  | some parse => (parse normalizedHeaders).map (OrderedMap.spread values)

/-- A response that is delivered as an error. -/
def isCaptured (statusCode : ℚ) : Bool :=
  client.captureAsError.getD true && (decide (statusCode < 200) || decide (299 < statusCode))

/-- What follows once the body is parsed; the caller is given it only with the headers. -/
def finish (s : SendState Schema D E) (response : ResponseData) (body : ParsedBody Schema D) :
    SendState Schema D E :=
  match parseHeaders client response with
  | .error err => s.settle (.thrown (.headerSchema err))
  | .ok headers =>
    let parsedResponse := ⟨response.statusCode, headers, body⟩
    let s := { s with given := body.handedOver }
    if isCaptured client response.statusCode then s.settle (.error parsedResponse)
    else s.settle (.result parsedResponse)

/-- The request has resolved: the body is to be read, or handed over. -/
def receiveResponse (s : SendState Schema D E) (response : ResponseData) :
    SendState Schema D E :=
  match resolvedResponseEntry client response with
  | none => { s.take .text with phase := .reading response none }
  | some .noContent => { s.take .dump with phase := .reading response (some .noContent) }
  | some (.json schema) => { s.take .json with phase := .reading response (some (.json schema)) }
  | some .blob => finish client s response .handle
  | some (.sse schemaByEventName) => finish client s response (.events schemaByEventName)

/-- The reading of the body has ended. -/
def readBody (s : SendState Schema D E) (response : ResponseData)
    (kind : Option (ResponseKind Schema)) : Reading J E → Option (SendState Schema D E)
  | .failed err => some (s.settle (.thrown (.body err)))
  | .text body =>
    match kind with
    | none => some (s.settle (.unexpected ⟨response.statusCode,
        normalizeResponseHeaders response.headers, body, client.summary⟩))
    | some _ => none
  | .dumped =>
    match kind with
    | some .noContent => some (finish client s response .null)
    | _ => none
  | .json json =>
    match kind with
    | some (.json schema) =>
      match client.parse schema json with
      | .error err => some (s.settle (.thrown (.bodySchema err)))
      | .ok data => some (finish client s response (.data data))
    | _ => none

/-- The request that is sent once: it ends as the attempt does. -/
def requestOnce (s : RetryState) : Label → Option RetryState
  | .answers answer =>
    match s.phase with
    | .attempting =>
      let s := { s with current := { s.current with answer := some answer } }
      match answer.outcome with
      | .response response => some (s.settle (.resolved response))
      | .error err => some (s.settle (.rejected (.attemptError err)))
    | _ => none
  | .abort => if s.aborted then none else some { s with aborted := true }
  | .dumped | .dumpRejects | .slept => none

/-- A step of `withRetry`, or of the request without it. -/
def requestStep (s : RetryState) (l : Label) : Option RetryState :=
  match client.retry with
  | some config => step client.readers (resolveRetryConfig config) s l
  | none => requestOnce s l

/-- The call goes on when the request has ended. -/
def SendState.proceed (s : SendState Schema D E) (request : RetryState) : SendState Schema D E :=
  let s := { s with request }
  match s.phase with
  | .requesting =>
    match request.phase with
    | .settled (.resolved response) => receiveResponse client s response
    | .settled (.rejected reason) => s.settle (.thrown (.request reason))
    | _ => s
  | _ => s

/-! ## The caller's reading -/

/-- `guard` of `toBlobHandle`: the second part is what the accessor throws. -/
def SendState.access (s : SendState Schema D E) (consumed : Bool) (accessor : Accessor) :
    SendState Schema D E × Option String :=
  if consumed then (s, some "Response body already consumed")
  else ({ s.take accessor.method with given := some (.handle true) }, none)

/-- The generator is resumed: at first it takes the body. -/
def SendState.resume (s : SendState Schema D E) (generator : GeneratorState) :
    SendState Schema D E :=
  if generator = .suspendedStart then s.take .toWeb else s

/-- `next()` of the generator `parseSseStream`: the second part is what it throws. -/
def SendState.next (s : SendState Schema D E) (schemaByEventName : SseSchemaByEventName Schema)
    (generator : GeneratorState) (arrival : Arrival E) :
    SendState Schema D E × Option (StreamError E) :=
  match generator with
  | .completed => (s, none)
  | .suspendedStart | .suspendedYield =>
    let s := s.resume generator
    let completed := { s with given := some (.events schemaByEventName .completed) }
    match arrival with
    | .done => (completed, none)
    | .failed err => (completed, some (.thrown err))
    | .event message =>
      match parseEvent client schemaByEventName message with
      | .error err => ({ completed with pulled := s.pulled ++ [message] }, some err)
      | .ok value =>
        ({ s with
            given := some (.events schemaByEventName .suspendedYield)
            pulled := s.pulled ++ [message]
            yielded := s.yielded ++ [value] }, none)

/-! ## Steps -/

/-- The step a label stands for. -/
def sendStep (s : SendState Schema D E) : SendLabel J E → Option (SendState Schema D E)
  | .request l => (requestStep client s.request l).map (s.proceed client)
  | .read reading =>
    match s.phase with
    | .reading response kind => readBody client s response kind reading
    | _ => none
  | .access accessor =>
    match s.given with
    | some (.handle consumed) => some (s.access consumed accessor).1
    | _ => none
  | .next arrival =>
    match s.given with
    | some (.events schemaByEventName generator) =>
      some (s.next client schemaByEventName generator arrival).1
    | _ => none
  | .stop =>
    match s.given with
    | some (.events schemaByEventName _) =>
      some { s with given := some (.events schemaByEventName .completed) }
    | _ => none

end Call

end SharedTsLibs.BackendHttpClient
