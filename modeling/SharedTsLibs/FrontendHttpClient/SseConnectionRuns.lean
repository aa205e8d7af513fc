import SharedTsLibs.FrontendHttpClient.SseConnection
import SharedTsLibs.Lib.TextDecoder

/-!
# Runs of an SSE connection

The steps of a connection come in any order its caller and its network bring about, and the
callbacks may close it and may throw.

* `callback_protocol` — the order of the callbacks, and what is still called after `close()`.
* `delivered_run` — the handlers get the events of a prefix of the stream, and `onClose`
  means that they got all of them.
* `log_of_onClose` — the calls of a run that ends in `onClose`, if no callback throws.
-/

namespace SharedTsLibs.FrontendHttpClient

open JsText JsString Lines StepSystem

variable {σ N D : Type} {client : SseClient σ N D}

/-! ## After `close()` -/

variable (client) in
/-- The calls that are still made after `close()`. -/
inductive LateCall : List (CallEntry D) → Call D → Prop where
  /-- The response was there before. -/
  | onOpen : LateCall [] .onOpen
  /-- The callback that called `close()` has thrown. -/
  | onError {log : List (CallEntry D)} {x : Call D} {message : Text}
      (hcloses : (client.callbacks log x).closes = true)
      (hthrown : (client.callbacks log x).thrown.isSome) :
      LateCall (log ++ [⟨x, false⟩]) (.onError message)

variable (client) in
/-- No call is made after `close()`, but for one at the end. -/
inductive Orderly : Bool → List (CallEntry D) → Prop where
  | early {aborted : Bool} {log : List (CallEntry D)} (h : ∀ e ∈ log, e.aborted = false) :
      Orderly aborted log
  | late {log : List (CallEntry D)} {x : Call D} (h : ∀ e ∈ log, e.aborted = false)
      (hx : LateCall client log x) : Orderly true (log ++ [⟨x, true⟩])

theorem Orderly.of_not_aborted {log : List (CallEntry D)} (h : Orderly client false log) :
    ∀ e ∈ log, e.aborted = false := by
  cases h with
  | early h => exact h

theorem Orderly.close {aborted : Bool} {log : List (CallEntry D)}
    (h : Orderly client aborted log) : Orderly client true log := by
  cases h with
  | early h => exact .early h
  | late h hx => exact .late h hx

/-- The connection is in order. -/
abbrev SseConnection.Orderly (client : SseClient σ N D) (c : SseConnection σ D) : Prop :=
  FrontendHttpClient.Orderly client c.aborted c.log

theorem SseConnection.orderly_call {c : SseConnection σ D} (h : c.Orderly client)
    (hc : c.aborted = false) (x : Call D) : (c.call client x).1.Orderly client := by
  refine .early fun e he => ?_
  obtain he | he := List.mem_append.1 he
  · rw [SseConnection.Orderly, hc] at h
    exact h.of_not_aborted e he
  · rw [List.mem_singleton.1 he, hc]

/-- A callback has thrown, and the error is reported. -/
theorem SseConnection.orderly_call_call {c : SseConnection σ D} (h : c.Orderly client)
    (hc : c.aborted = false) {x : Call D} (hx : (client.callbacks c.log x).thrown.isSome)
    (message : Text) : ((c.call client x).1.call client (.onError message)).1.Orderly client := by
  have hcall := orderly_call h hc x
  cases hcloses : (client.callbacks c.log x).closes with
  | false =>
    refine orderly_call hcall ?_ _
    show (c.aborted || (client.callbacks c.log x).closes) = false
    rw [hc, hcloses, Bool.or_false]
  | true =>
    have haborted : (c.call client x).1.aborted = true := by
      show (c.aborted || (client.callbacks c.log x).closes) = true
      rw [hcloses, Bool.or_true]
    rw [SseConnection.Orderly, hc] at h
    have hlog : ((c.call client x).1.call client (.onError message)).1.log
        = (c.log ++ [⟨x, false⟩]) ++ [⟨.onError message, true⟩] := by
      show (c.log ++ [⟨x, c.aborted⟩]) ++ [⟨.onError message, (c.call client x).1.aborted⟩] = _
      rw [haborted, hc]
    rw [SseConnection.Orderly, hlog]
    have hflag : ((c.call client x).1.call client (.onError message)).1.aborted = true := by
      show ((c.call client x).1.aborted || _) = true
      rw [haborted, Bool.true_or]
    rw [hflag]
    refine .late (fun e he => ?_) (.onError hcloses hx)
    obtain he | he := List.mem_append.1 he
    · exact h.of_not_aborted e he
    · rw [List.mem_singleton.1 he]

theorem SseConnection.orderly_fail {c : SseConnection σ D} (h : c.Orderly client)
    (message : Text) : (c.fail client message).Orderly client := by
  rw [SseConnection.fail]
  split
  · exact h
  · rename_i hc
    exact orderly_call h (Bool.not_eq_true _ ▸ hc) (.onError message)

theorem orderly_handleSseEvent {c : SseConnection σ D} (h : c.Orderly client)
    (hc : c.aborted = false) (e : SseEvent) : (handleSseEvent client c e).1.Orderly client := by
  obtain ⟨-, heq⟩ | ⟨x, -, heq | ⟨message, hthrown, heq⟩⟩ := handleSseEvent_cases client c e
  · rw [heq]
    exact h
  · rw [heq]
    exact SseConnection.orderly_call h hc x
  · rw [heq]
    exact SseConnection.orderly_call_call h hc hthrown message

theorem SseConnection.orderly_opened {c : SseConnection σ D} (hlog : c.log = [])
    (hasBody : Bool) : (c.opened client hasBody).Orderly client := by
  have hcall : (c.call client .onOpen).1.Orderly client := by
    rw [SseConnection.Orderly]
    show FrontendHttpClient.Orderly client (c.aborted || _) (c.log ++ [⟨.onOpen, c.aborted⟩])
    rw [hlog]
    cases c.aborted with
    | false => exact .early fun e he => by rw [List.mem_singleton.1 he]
    | true => exact .late (fun e he => by cases he) .onOpen
  rw [SseConnection.opened]
  split
  · rename_i c' message heq
    rw [heq] at hcall
    exact orderly_fail hcall message
  · rename_i c' heq
    rw [heq] at hcall
    split
    · exact hcall
    · exact orderly_fail hcall _

theorem SseConnection.orderly_endOfStream {c : SseConnection σ D} (h : c.Orderly client) :
    (c.endOfStream client).Orderly client := by
  rw [SseConnection.endOfStream]
  split
  · exact h
  rename_i hc
  have hcall := orderly_call h (Bool.not_eq_true _ ▸ hc) .onClose
  split
  · rename_i c' heq
    rw [heq] at hcall
    exact hcall
  · rename_i c' message heq
    rw [heq] at hcall
    exact orderly_fail hcall message

theorem SseConnection.orderly_dispatch {c : SseConnection σ D} (h : c.Orderly client)
    (e : SseEvent) (pending : List SseEvent) : (c.dispatch client e pending).Orderly client := by
  rw [SseConnection.dispatch]
  split
  · exact h
  rename_i hc
  have hhandled := orderly_handleSseEvent h (Bool.not_eq_true _ ▸ hc) e
  split
  · rename_i c' heq
    rw [heq] at hhandled
    exact hhandled
  · rename_i c' message heq
    rw [heq] at hhandled
    exact orderly_fail hhandled message

/-! ## The order of the calls -/

/-- `onOpen`, and events and errors after it. -/
def InSession (log : List (CallEntry D)) : Prop :=
  ∃ opening reports, log = opening :: reports ∧ opening.call = .onOpen ∧
    ∀ r ∈ reports, r.call.IsReport

theorem inSession_onOpen (aborted : Bool) : InSession [(⟨.onOpen, aborted⟩ : CallEntry D)] :=
  ⟨_, [], rfl, rfl, fun r hr => by cases hr⟩

theorem InSession.report {log : List (CallEntry D)} (h : InSession log) {x : Call D}
    (hx : x.IsReport) (aborted : Bool) : InSession (log ++ [⟨x, aborted⟩]) := by
  obtain ⟨opening, reports, rfl, hopen, hreports⟩ := h
  refine ⟨opening, reports ++ [⟨x, aborted⟩], rfl, hopen, fun r hr => ?_⟩
  obtain hr | hr := List.mem_append.1 hr
  · exact hreports r hr
  · rw [List.mem_singleton.1 hr]
    exact hx

variable (client) in
/-- The calls that were made by a phase. -/
inductive Protocol : SsePhase → List (CallEntry D) → Prop where
  | connecting : Protocol .connecting []
  | session {phase : SsePhase} {log : List (CallEntry D)} (hphase : phase ≠ .connecting)
      (h : InSession log) : Protocol phase log
  /-- Closed before anything was called. -/
  | silent : Protocol .ended []
  /-- No response was opened. -/
  | refused {message : Text} {aborted : Bool} : Protocol .ended [⟨.onError message, aborted⟩]
  | closed {log : List (CallEntry D)} (h : InSession log) :
      Protocol .ended (log ++ [⟨.onClose, false⟩])
  /-- `onClose` has thrown. -/
  | closedThrew {log : List (CallEntry D)} {message : Text} (h : InSession log)
      (hthrown : (client.callbacks log .onClose).thrown = some message) :
      Protocol .ended (log ++ [⟨.onClose, false⟩, ⟨.onError message, false⟩])

/-- The calls of a connection follow the protocol. -/
abbrev SseConnection.Protocol (client : SseClient σ N D) (c : SseConnection σ D) : Prop :=
  FrontendHttpClient.Protocol client c.phase c.log

theorem SseConnection.phase_fail (c : SseConnection σ D) (message : Text) :
    (c.fail client message).phase = .ended := by
  rw [SseConnection.fail]
  split <;> rfl

theorem SseConnection.log_fail (c : SseConnection σ D) (message : Text) :
    (c.fail client message).log
      = if c.aborted then c.log else c.log ++ [⟨.onError message, false⟩] := by
  rw [SseConnection.fail]
  split
  · rfl
  · rename_i hc
    rw [Bool.not_eq_true] at hc
    show c.log ++ [⟨.onError message, c.aborted⟩] = _
    rw [hc]

/-- What fails in a session ends it. -/
theorem SseConnection.protocol_fail {c : SseConnection σ D} (h : InSession c.log)
    (message : Text) : (c.fail client message).Protocol client := by
  rw [SseConnection.Protocol, phase_fail, log_fail]
  refine .session (by simp) ?_
  split
  · exact h
  · exact h.report (Call.isReport_onError message) false

theorem inSession_handleSseEvent {c : SseConnection σ D} (h : InSession c.log) (e : SseEvent) :
    InSession (handleSseEvent client c e).1.log := by
  obtain ⟨-, heq⟩ | ⟨x, hx, heq | ⟨message, -, heq⟩⟩ := handleSseEvent_cases client c e
  · rw [heq]
    exact h
  · rw [heq]
    exact h.report (client.isReport_of_outcome hx) c.aborted
  · rw [heq]
    exact (h.report (client.isReport_of_outcome hx) c.aborted).report
      (Call.isReport_onError message) _

theorem SseConnection.protocol_dispatch {c : SseConnection σ D} (h : InSession c.log)
    (e : SseEvent) (pending : List SseEvent) : (c.dispatch client e pending).Protocol client := by
  have hhandled : InSession (handleSseEvent client c e).1.log := inSession_handleSseEvent h e
  rw [SseConnection.dispatch]
  split
  · exact .session (by simp) h
  split
  · rename_i c' heq
    rw [heq] at hhandled
    exact .session (by simp) hhandled
  · rename_i c' message heq
    rw [heq] at hhandled
    exact protocol_fail hhandled message

theorem SseConnection.protocol_opened {c : SseConnection σ D} (hlog : c.log = [])
    (hasBody : Bool) : (c.opened client hasBody).Protocol client := by
  have hcall : InSession (c.call client .onOpen).1.log := by
    show InSession (c.log ++ [⟨.onOpen, c.aborted⟩])
    rw [hlog]
    exact inSession_onOpen c.aborted
  rw [SseConnection.opened]
  split
  · rename_i c' message heq
    rw [heq] at hcall
    exact protocol_fail hcall message
  · rename_i c' heq
    rw [heq] at hcall
    split
    · exact .session (by simp) hcall
    · exact protocol_fail hcall _

theorem SseConnection.protocol_endOfStream {c : SseConnection σ D} (h : InSession c.log) :
    (c.endOfStream client).Protocol client := by
  rw [SseConnection.endOfStream]
  split
  · exact .session (by simp) h
  rename_i hc
  rw [Bool.not_eq_true] at hc
  have hlog : (c.call client .onClose).1.log = c.log ++ [⟨.onClose, false⟩] := by
    show c.log ++ [⟨.onClose, c.aborted⟩] = _
    rw [hc]
  split
  · rename_i c' heq
    rw [heq] at hlog
    rw [SseConnection.Protocol]
    show FrontendHttpClient.Protocol client .ended c'.log
    rw [hlog]
    exact .closed h
  · rename_i c' message heq
    have hthrown : (client.callbacks c.log .onClose).thrown = some message := congrArg Prod.snd heq
    rw [heq] at hlog
    rw [SseConnection.Protocol, phase_fail, log_fail, hlog]
    split
    · exact .closed h
    · rw [List.append_assoc]
      exact .closedThrew h hthrown

/-! ## Every run -/

theorem Protocol.log_of_connecting {log : List (CallEntry D)}
    (h : Protocol client .connecting log) : log = [] := by
  cases h with
  | connecting => rfl
  | session hphase h => exact absurd rfl hphase

theorem Protocol.inSession {phase : SsePhase} {log : List (CallEntry D)}
    (h : Protocol client phase log) (hconnecting : phase ≠ .connecting) (hended : phase ≠ .ended) :
    InSession log := by
  cases h with
  | connecting => exact absurd rfl hconnecting
  | session hphase h => exact h
  | silent | refused | closed | closedThrew => exact absurd rfl hended

variable (client) in
/-- What holds of a connection at all times. -/
structure SseConnection.Invariant (c : SseConnection σ D) : Prop where
  orderly : c.Orderly client
  protocol : c.Protocol client

/-- A step keeps the connection in order, and its calls in the protocol. -/
theorem SseConnection.Invariant.step {c c' : SseConnection σ D} {move : SseMove}
    (h : c.Invariant client) (hstep : sseStep client c move = some c') :
    c'.Invariant client := by
  obtain ⟨horderly, hprotocol⟩ := h
  rw [SseConnection.Protocol] at hprotocol
  cases sseStepped_of_sseStep client hstep with
  | close => exact ⟨horderly.close, hprotocol⟩
  | opened hphase hasBody =>
    rw [hphase] at hprotocol
    exact ⟨orderly_opened hprotocol.log_of_connecting hasBody,
      protocol_opened hprotocol.log_of_connecting hasBody⟩
  | refused hphase message =>
    rw [hphase] at hprotocol
    refine ⟨orderly_fail horderly message, ?_⟩
    rw [SseConnection.Protocol, phase_fail, log_fail, hprotocol.log_of_connecting]
    split
    · exact .silent
    · exact .refused
  | turn hphase =>
    have hsession := hprotocol.inSession (by simp [hphase]) (by simp [hphase])
    exact ⟨horderly, .session (by dsimp only; split <;> simp) hsession⟩
  | dispatch hphase =>
    have hsession := hprotocol.inSession (by simp [hphase]) (by simp [hphase])
    exact ⟨orderly_dispatch horderly _ _, protocol_dispatch hsession _ _⟩
  | value hphase bytes =>
    have hsession := hprotocol.inSession (by simp [hphase]) (by simp [hphase])
    exact ⟨horderly, .session (by simp) hsession⟩
  | done hphase =>
    have hsession := hprotocol.inSession (by simp [hphase]) (by simp [hphase])
    exact ⟨orderly_endOfStream horderly, protocol_endOfStream hsession⟩
  | rejected hphase message =>
    have hsession := hprotocol.inSession (by simp [hphase]) (by simp [hphase])
    exact ⟨orderly_fail horderly message, protocol_fail hsession message⟩

/-- It holds when the connection is made. -/
theorem invariant_connectSseByContract (queryParams body : Except Text Unit) :
    (connectSseByContract client queryParams body).1.Invariant client := by
  have hrefused : ∀ message : Text, SseConnection.Invariant client
      (SseConnection.call client { phase := .ended, stream := ⟨client.d₀, Partial.empty, {}⟩ }
        (.onError message)).1 :=
    fun message => ⟨SseConnection.orderly_call (.early fun e he => by cases he) rfl _, .refused⟩
  unfold connectSseByContract
  split
  · exact hrefused _
  · exact hrefused _
  · exact ⟨.early fun e he => (by cases he), .connecting⟩

variable (client) in
/-- **The order of the callbacks**, in every run of a connection and whatever its callbacks
do: `onOpen` is called first and once, `onClose` at most once and after all events, with no
call after it but the `onError` for what it throws itself.  After `close()` no callback is
called any more, with two exceptions, which are then the last call of all: `onOpen`, if the
response was there before, and `onError`, if the callback that called `close()` has thrown. -/
theorem callback_protocol (queryParams body : Except Text Unit) {moves : List SseMove}
    {c : SseConnection σ D}
    (hrun : run (sseStep client) (connectSseByContract client queryParams body).1 moves = some c) :
    Protocol client c.phase c.log ∧ Orderly client c.aborted c.log := by
  have h : c.Invariant client := invariant_run (fun s l s' hs _ hstep => hs.step hstep)
    (invariant_connectSseByContract queryParams body) (allSteps_true _ moves) hrun
  exact ⟨h.protocol, h.orderly⟩

/-- A contract with one event, whose handler calls `close()` and throws. -/
def closingClient : SseClient TextDecoder.State ℕ Unit where
  decoder := TextDecoder.utf8
  d₀ := {}
  format := decimal
  syntaxError _ := "Unexpected token".toList
  schemas := ⟨[("message", fun _ => .success ())], List.nodup_singleton _⟩
  callbacks _ x :=
    match x with
    | .onEvent _ _ => ⟨true, some "stop".toList⟩
    | _ => {}

/-- The bytes of an event: `data:null` and an empty line. -/
def nullEvent : List UInt8 := [100, 97, 116, 97, 58, 110, 117, 108, 108, 10, 10]

/-- The event arrives in two chunks. -/
def closingMoves : List SseMove :=
  [.response (.ok true), .advance, .read (.value (nullEvent.take 4)), .advance,
    .read (.value (nullEvent.drop 4)), .advance]

def closingRun : Option (SseConnection TextDecoder.State Unit) :=
  run (sseStep closingClient) (connectSseByContract closingClient (.ok ()) (.ok ())).1 closingMoves

theorem isSome_closingRun : closingRun.isSome = true := by decide +kernel

theorem callback_protocol_closing :
    ∃ c, closingRun = some c ∧ Protocol closingClient c.phase c.log ∧
      Orderly closingClient c.aborted c.log := by
  obtain ⟨c, hc⟩ := Option.isSome_iff_exists.1 isSome_closingRun
  exact ⟨c, hc, callback_protocol closingClient (.ok ()) (.ok ()) hc⟩

/-! ## What the handlers get -/

/-- The calls of a log. -/
def calls (log : List (CallEntry D)) : List (Call D) := log.map (·.call)

theorem calls_append (log : List (CallEntry D)) (x : Call D) (aborted : Bool) :
    calls (log ++ [⟨x, aborted⟩]) = calls log ++ [x] := List.map_append

/-- What a handler gets. -/
def Call.event? : Call D → Option (Text × D)
  | .onEvent name data => some (name, data)
  | _ => none

/-- What the handlers get. -/
def handled (log : List (CallEntry D)) : List (Text × D) := (calls log).filterMap Call.event?

/-- What the handler of an event gets of it, if it gets anything. -/
def SseClient.accepted (client : SseClient σ N D) (e : SseEvent) : Option (Text × D) :=
  (client.outcome e).bind Call.event?

/-- No callback throws. -/
def SseClient.Quiet (client : SseClient σ N D) : Prop :=
  ∀ log x, (client.callbacks log x).thrown = none

/-- Between two events or two reads. -/
def SsePhase.Running : SsePhase → Prop
  | .dispatching _ | .reading => True
  | .connecting | .ended => False

/-- The events that were read and not handled. -/
def SsePhase.Left : SsePhase → List SseEvent → Prop
  | .dispatching pending, rest => rest = pending
  | .connecting, rest | .reading, rest => rest = []
  | .ended, _ => True

variable (client) in
/-- The variables of the generator when it has read some bytes, and the events it has yielded. -/
def readBytes (bytes : List UInt8) : StreamState σ × List SseEvent :=
  readChunk client.decoder ⟨client.d₀, Partial.empty, {}⟩ bytes

variable (client) in
/-- The connection has read these bytes, and has handled some of the events in them. -/
structure Progress (bytes : List UInt8) (c : SseConnection σ D) (consumed rest : List SseEvent) :
    Prop where
  stream : c.phase ≠ .ended → c.stream = (readBytes client bytes).1
  events : consumed ++ rest = (readBytes client bytes).2
  left : c.phase.Left rest
  connecting : c.phase = .connecting → consumed = []
  handled_eq : handled c.log = consumed.filterMap client.accepted
  closed : .onClose ∈ calls c.log → rest = []
  /-- All calls, where no callback throws. -/
  session : client.Quiet → c.phase.Running →
    calls c.log = .onOpen :: consumed.filterMap client.outcome
  closedSession : client.Quiet → .onClose ∈ calls c.log →
    calls c.log = .onOpen :: (consumed.filterMap client.outcome ++ [.onClose])

theorem handled_append (log : List (CallEntry D)) (x : Call D) (aborted : Bool) :
    handled (log ++ [⟨x, aborted⟩]) = handled log ++ x.event?.toList := by
  rw [handled, calls_append, List.filterMap_append]
  cases x <;> rfl

theorem InSession.onClose_notMem {log : List (CallEntry D)} (h : InSession log) :
    .onClose ∉ calls log := by
  obtain ⟨opening, reports, rfl, hopen, hreports⟩ := h
  intro hmem
  obtain ⟨e, he, hcall⟩ := List.mem_map.1 hmem
  obtain rfl | he := List.mem_cons.1 he
  · rw [hopen] at hcall
    cases hcall
  · have hreport := hreports e he
    rw [hcall] at hreport
    exact hreport

/-- What fails leaves the events that are not handled yet. -/
theorem Progress.fail {bytes : List UInt8} {c : SseConnection σ D} {consumed rest : List SseEvent}
    (h : Progress client bytes c consumed rest) (hclose : .onClose ∉ calls c.log)
    (message : Text) : Progress client bytes (c.fail client message) consumed rest := by
  have hphase : (c.fail client message).phase = .ended := c.phase_fail message
  have hcalls : .onClose ∉ calls (c.fail client message).log := by
    rw [SseConnection.log_fail]
    split
    · exact hclose
    · rw [calls_append, List.mem_append, not_or]
      exact ⟨hclose, by simp⟩
  refine ⟨fun hp => absurd hphase hp, h.events, ?_, fun hp => ?_, ?_, fun hc => absurd hc hcalls,
    fun _ hp => ?_, fun _ hc => absurd hc hcalls⟩
  · rw [hphase]
    trivial
  · rw [hphase] at hp
    cases hp
  · rw [SseConnection.log_fail]
    split
    · exact h.handled_eq
    · rw [handled_append, h.handled_eq]
      exact List.append_nil _
  · rw [hphase] at hp
    exact hp.elim

variable (client) in
/-- The calls of an event: its outcome, and `onError` for what this one throws. -/
theorem handleSseEvent_calls (c : SseConnection σ D) (e : SseEvent) :
    (handleSseEvent client c e).1.stream = c.stream ∧
      ∃ extra, calls (handleSseEvent client c e).1.log
          = calls c.log ++ ((client.outcome e).toList ++ extra) ∧
        (∀ x ∈ extra, ∃ message, x = Call.onError message) ∧
        (client.Quiet → extra = [] ∧ (handleSseEvent client c e).2 = none) := by
  obtain ⟨hx, heq⟩ | ⟨x, hx, heq | ⟨message, hthrown, heq⟩⟩ := handleSseEvent_cases client c e
  · rw [heq, hx]
    exact ⟨rfl, [], (List.append_nil _).symm, fun x hmem => (by cases hmem),
      fun _ => ⟨rfl, rfl⟩⟩
  · rw [heq, hx]
    refine ⟨rfl, [], ?_, fun x hmem => (by cases hmem), fun hquiet => ⟨rfl, hquiet c.log x⟩⟩
    exact calls_append c.log x c.aborted
  · rw [heq, hx]
    refine ⟨rfl, [.onError message], ?_, fun y hy => ⟨message, List.mem_singleton.1 hy⟩,
      fun hquiet => ?_⟩
    · show calls ((c.log ++ [⟨x, c.aborted⟩]) ++ [⟨.onError message, _⟩]) = _
      rw [calls_append, calls_append, List.append_assoc]
      rfl
    · rw [hquiet c.log x] at hthrown
      cases hthrown

/-- The next event is handled. -/
theorem Progress.handle {bytes : List UInt8} {c : SseConnection σ D}
    {consumed pending : List SseEvent} {e : SseEvent}
    (h : Progress client bytes c consumed (e :: pending))
    (hphase : c.phase = .dispatching (e :: pending)) :
    .onClose ∉ calls (handleSseEvent client c e).1.log ∧
      Progress client bytes
        { (handleSseEvent client c e).1 with phase := .dispatching pending } (consumed ++ [e])
        pending := by
  obtain ⟨hstream, extra, hcalls, hextra, hquiet⟩ := handleSseEvent_calls client c e
  have hopen : .onClose ∉ calls c.log := fun hmem => by cases h.closed hmem
  have hclose : .onClose ∉ calls (handleSseEvent client c e).1.log := by
    rw [hcalls, List.mem_append, List.mem_append, not_or, not_or]
    refine ⟨hopen, fun hmem => ?_, fun hmem => ?_⟩
    · exact client.isReport_of_outcome (Option.mem_toList.1 hmem)
    · obtain ⟨message, hx⟩ := hextra _ hmem
      cases hx
  refine ⟨hclose, ⟨fun _ => ?_, ?_, rfl, fun hp => (by cases hp), ?_,
    fun hc => absurd hc hclose, fun hq _ => ?_, fun _ hc => absurd hc hclose⟩⟩
  · show (handleSseEvent client c e).1.stream = _
    rw [hstream]
    exact h.stream (by simp [hphase])
  · rw [List.append_assoc]
    exact h.events
  · have hnone : extra.filterMap Call.event? = [] := by
      refine List.filterMap_eq_nil_iff.2 fun x hx => ?_
      obtain ⟨message, rfl⟩ := hextra x hx
      rfl
    show (calls (handleSseEvent client c e).1.log).filterMap Call.event? = _
    rw [hcalls, List.filterMap_append, List.filterMap_append, hnone, List.append_nil,
      List.filterMap_append]
    refine congrArg₂ _ h.handled_eq ?_
    cases hx : client.outcome e with
    | none => simp [SseClient.accepted, hx]
    | some x => cases hevent : x.event? <;> simp [SseClient.accepted, hx, hevent]
  · show calls (handleSseEvent client c e).1.log = _
    rw [hcalls, (hquiet hq).1, List.append_nil, h.session hq (by rw [hphase]; trivial),
      List.filterMap_append, List.cons_append]
    cases hx : client.outcome e <;> simp [hx]

theorem Progress.dispatch {bytes : List UInt8} {c : SseConnection σ D}
    {consumed pending : List SseEvent} {e : SseEvent}
    (h : Progress client bytes c consumed (e :: pending))
    (hphase : c.phase = .dispatching (e :: pending)) :
    ∃ consumed rest, Progress client bytes (c.dispatch client e pending) consumed rest := by
  have hopen : .onClose ∉ calls c.log := fun hmem => by cases h.closed hmem
  obtain ⟨hclose, hhandled⟩ := h.handle hphase
  rw [SseConnection.dispatch]
  split
  · exact ⟨consumed, e :: pending, fun hp => absurd rfl hp, h.events, trivial,
      fun hp => (by cases hp), h.handled_eq, h.closed, fun _ hp => hp.elim, h.closedSession⟩
  split
  · rename_i c' heq
    rw [heq] at hhandled
    exact ⟨consumed ++ [e], pending, hhandled⟩
  · rename_i c' message heq
    rw [heq] at hhandled hclose
    exact ⟨consumed ++ [e], pending, hhandled.fail hclose message⟩

/-- The response is opened before anything is read. -/
theorem Progress.opened {bytes : List UInt8} {c : SseConnection σ D} {consumed rest : List SseEvent}
    (h : Progress client bytes c consumed rest) (hphase : c.phase = .connecting)
    (hlog : c.log = []) (hasBody : Bool) :
    ∃ consumed rest, Progress client bytes (c.opened client hasBody) consumed rest := by
  have hrest : rest = [] := by
    have hleft := h.left
    rw [hphase] at hleft
    exact hleft
  have hconsumed := h.connecting hphase
  subst hrest hconsumed
  have hcalls : calls (c.call client .onOpen).1.log = [.onOpen] := by
    show calls (c.log ++ [⟨.onOpen, c.aborted⟩]) = _
    rw [hlog]
    rfl
  have hclose : .onClose ∉ calls (c.call client .onOpen).1.log := by
    rw [hcalls]
    simp
  have hopened : Progress client bytes
      { (c.call client .onOpen).1 with phase := .dispatching [] } [] [] := by
    refine ⟨fun _ => h.stream (by simp [hphase]), h.events, rfl, fun hp => (by cases hp), ?_,
      fun _ => rfl, fun _ _ => hcalls, fun _ hc => absurd hc hclose⟩
    show (calls (c.call client .onOpen).1.log).filterMap Call.event? = _
    rw [hcalls]
    rfl
  rw [SseConnection.opened]
  split
  · rename_i c' message heq
    rw [heq] at hopened hclose
    exact ⟨[], [], hopened.fail hclose message⟩
  · rename_i c' heq
    rw [heq] at hopened hclose
    split
    · exact ⟨[], [], hopened⟩
    · exact ⟨[], [], hopened.fail hclose _⟩

/-- The stream ends when all its events have been handled. -/
theorem Progress.endOfStream {bytes : List UInt8} {c : SseConnection σ D}
    {consumed rest : List SseEvent} (h : Progress client bytes c consumed rest)
    (hphase : c.phase = .reading) :
    Progress client bytes (c.endOfStream client) consumed rest := by
  have hrest : rest = [] := by
    have hleft := h.left
    rw [hphase] at hleft
    exact hleft
  rw [SseConnection.endOfStream]
  split
  · exact ⟨fun hp => absurd rfl hp, h.events, trivial, fun hp => (by cases hp), h.handled_eq,
      h.closed, fun _ hp => hp.elim, h.closedSession⟩
  have hcalls : calls (c.call client .onClose).1.log = calls c.log ++ [.onClose] :=
    calls_append c.log .onClose c.aborted
  have hhandled : handled (c.call client .onClose).1.log = handled c.log :=
    (handled_append c.log .onClose c.aborted).trans (List.append_nil _)
  have hsession : client.Quiet → calls (c.call client .onClose).1.log
      = .onOpen :: (consumed.filterMap client.outcome ++ [.onClose]) := by
    intro hquiet
    rw [hcalls, h.session hquiet (by rw [hphase]; trivial), List.cons_append]
  split
  · rename_i c' heq
    rw [heq] at hhandled hsession
    exact ⟨fun hp => absurd rfl hp, h.events, trivial, fun hp => (by cases hp),
      hhandled.trans h.handled_eq, fun _ => hrest, fun _ hp => hp.elim, fun hq _ => hsession hq⟩
  · rename_i c' message heq
    have hthrows : ¬ client.Quiet := by
      intro hquiet
      have hthrown : (client.callbacks c.log .onClose).thrown = some message :=
        congrArg Prod.snd heq
      rw [hquiet c.log .onClose] at hthrown
      cases hthrown
    rw [heq] at hhandled
    have hfailed : (c'.fail client message).phase = .ended := c'.phase_fail message
    refine ⟨fun hp => absurd hfailed hp, h.events, by rw [hfailed]; trivial, fun hp => ?_, ?_,
      fun _ => hrest, fun hq _ => absurd hq hthrows, fun hq _ => absurd hq hthrows⟩
    · rw [hfailed] at hp
      cases hp
    · rw [SseConnection.log_fail]
      split
      · exact hhandled.trans h.handled_eq
      · rw [handled_append, hhandled, h.handled_eq]
        exact List.append_nil _

/-- More bytes are read, and their events are pending. -/
theorem Progress.value {bytes : List UInt8} {c : SseConnection σ D}
    {consumed rest : List SseEvent} (h : Progress client bytes c consumed rest)
    (hphase : c.phase = .reading) (hopen : .onClose ∉ calls c.log) (value : List UInt8) :
    Progress client (bytes ++ value)
      { c with
        stream := (readChunk client.decoder c.stream value).1
        phase := .dispatching (readChunk client.decoder c.stream value).2 }
      consumed (readChunk client.decoder c.stream value).2 := by
  have hrest : rest = [] := by
    have hleft := h.left
    rw [hphase] at hleft
    exact hleft
  have hstream := h.stream (by simp [hphase])
  have hread := readChunk_append client.decoder ⟨client.d₀, Partial.empty, {}⟩ bytes value
  have hevents := h.events
  rw [hrest, List.append_nil] at hevents
  refine ⟨fun _ => ?_, ?_, rfl, fun hp => (by cases hp), h.handled_eq,
    fun hc => absurd hc hopen, fun hq _ => h.session hq (by rw [hphase]; trivial),
    fun _ hc => absurd hc hopen⟩
  · rw [readBytes, hread, hstream]
    rfl
  · rw [readBytes, hread, hevents, hstream]
    rfl

/-- The bytes that a step reads. -/
def SseMove.bytes : SseMove → List UInt8
  | .read (.value bytes) => bytes
  | _ => []

/-- The bytes that were read. -/
def bytesRead (moves : List SseMove) : List UInt8 := moves.flatMap SseMove.bytes

/-- A step handles the next event, reads more of them, or leaves them alone. -/
theorem Progress.step {bytes : List UInt8} {c c' : SseConnection σ D}
    {consumed rest : List SseEvent} {move : SseMove} (hinv : c.Invariant client)
    (h : Progress client bytes c consumed rest) (hstep : sseStep client c move = some c') :
    ∃ consumed rest, Progress client (bytes ++ move.bytes) c' consumed rest := by
  have hprotocol : Protocol client c.phase c.log := hinv.protocol
  have hopen : c.phase = .reading → .onClose ∉ calls c.log := fun hphase =>
    (hprotocol.inSession (by simp [hphase]) (by simp [hphase])).onClose_notMem
  cases sseStepped_of_sseStep client hstep with
  | close =>
    simp only [SseMove.bytes, List.append_nil]
    exact ⟨consumed, rest, h.stream, h.events, h.left, h.connecting, h.handled_eq, h.closed,
      h.session, h.closedSession⟩
  | opened hphase hasBody =>
    simp only [SseMove.bytes, List.append_nil]
    rw [hphase] at hprotocol
    exact h.opened hphase hprotocol.log_of_connecting hasBody
  | refused hphase message =>
    simp only [SseMove.bytes, List.append_nil]
    rw [hphase] at hprotocol
    refine ⟨consumed, rest, h.fail ?_ message⟩
    rw [hprotocol.log_of_connecting]
    exact List.not_mem_nil
  | turn hphase =>
    simp only [SseMove.bytes, List.append_nil]
    have hleft : rest = [] := by
      have hleft := h.left
      rw [hphase] at hleft
      exact hleft
    refine ⟨consumed, rest, fun _ => h.stream (by simp [hphase]), h.events, ?_, fun hp => ?_,
      h.handled_eq, h.closed, fun hq _ => h.session hq (by rw [hphase]; trivial),
      h.closedSession⟩
    · dsimp only
      split
      · trivial
      · exact hleft
    · dsimp only at hp
      split at hp <;> cases hp
  | dispatch hphase =>
    simp only [SseMove.bytes, List.append_nil]
    have hleft := h.left
    rw [hphase] at hleft
    obtain rfl : rest = _ := hleft
    exact h.dispatch hphase
  | value hphase value => exact ⟨consumed, _, h.value hphase (hopen hphase) value⟩
  | done hphase =>
    simp only [SseMove.bytes, List.append_nil]
    exact ⟨consumed, rest, h.endOfStream hphase⟩
  | rejected hphase message =>
    simp only [SseMove.bytes, List.append_nil]
    exact ⟨consumed, rest, h.fail (hopen hphase) message⟩

/-- Along a run, of a connection that has read some bytes before. -/
theorem Progress.run {bytes : List UInt8} {c t : SseConnection σ D}
    {consumed rest : List SseEvent} {moves : List SseMove} (hinv : c.Invariant client)
    (h : Progress client bytes c consumed rest) (hrun : run (sseStep client) c moves = some t) :
    ∃ consumed rest, Progress client (bytes ++ bytesRead moves) t consumed rest := by
  induction moves generalizing c bytes consumed rest with
  | nil =>
    cases hrun
    rw [bytesRead, List.flatMap_nil, List.append_nil]
    exact ⟨consumed, rest, h⟩
  | cons move moves ih =>
    obtain ⟨c', hstep, hrun⟩ := run_cons_eq_some.1 hrun
    obtain ⟨consumed', rest', h'⟩ := h.step hinv hstep
    have hrest := ih (hinv.step hstep) h' hrun
    rwa [List.append_assoc] at hrest

theorem progress_connectSseByContract (queryParams body : Except Text Unit) :
    Progress client [] (connectSseByContract client queryParams body).1 [] [] := by
  have hread : readBytes client [] = (⟨client.d₀, Partial.empty, {}⟩, []) := readChunk_nil _ _
  have hrefused : ∀ message : Text, Progress client []
      (SseConnection.call client { phase := .ended, stream := ⟨client.d₀, Partial.empty, {}⟩ }
        (.onError message)).1 [] [] := by
    intro message
    have hopen : .onClose ∉ calls [(⟨.onError message, false⟩ : CallEntry D)] := by
      simp [calls]
    exact ⟨fun hp => absurd rfl hp, by rw [hread]; rfl, trivial, fun _ => rfl, rfl, fun _ => rfl,
      fun _ hp => hp.elim, fun _ hc => absurd hc hopen⟩
  unfold connectSseByContract
  split
  · exact hrefused _
  · exact hrefused _
  · exact ⟨fun _ => by rw [hread], by rw [hread]; rfl, rfl, fun _ => rfl, rfl, fun _ => rfl,
      fun _ hp => hp.elim, fun _ hc => (by cases hc)⟩

variable (client) in
/-- The events in some bytes, as the generator reads them. -/
def eventsIn (bytes : List UInt8) : List SseEvent :=
  eventsOf (client.decoder.feed client.d₀ bytes).2

theorem readBytes_events (bytes : List UInt8) :
    (readBytes client bytes).2 = eventsIn client bytes := rfl

theorem progress_run {queryParams body : Except Text Unit} {moves : List SseMove}
    {c : SseConnection σ D}
    (hrun : run (sseStep client) (connectSseByContract client queryParams body).1 moves = some c) :
    ∃ consumed rest, Progress client (bytesRead moves) c consumed rest :=
  (progress_connectSseByContract queryParams body).run
    (invariant_connectSseByContract queryParams body) hrun

variable (client) in
/-- **What the handlers get**, in every run: of the events in the bytes that were read, they
get those of a first part, each once and in their order, as far as the events are known and
valid; and where `onClose` has been called, they have got all of them. -/
theorem delivered_run (queryParams body : Except Text Unit) {moves : List SseMove}
    {c : SseConnection σ D}
    (hrun : run (sseStep client) (connectSseByContract client queryParams body).1 moves = some c) :
    ∃ consumed rest, consumed ++ rest = eventsIn client (bytesRead moves) ∧
      handled c.log = consumed.filterMap client.accepted ∧
      (.onClose ∈ calls c.log → rest = []) := by
  obtain ⟨consumed, rest, h⟩ := progress_run hrun
  exact ⟨consumed, rest, h.events, h.handled_eq, h.closed⟩

theorem delivered_run_closing :
    ∃ c, closingRun = some c ∧
      ∃ consumed rest, consumed ++ rest = eventsIn closingClient (bytesRead closingMoves) ∧
        handled c.log = consumed.filterMap closingClient.accepted ∧
        (.onClose ∈ calls c.log → rest = []) := by
  obtain ⟨c, hc⟩ := Option.isSome_iff_exists.1 isSome_closingRun
  exact ⟨c, hc, delivered_run closingClient (.ok ()) (.ok ()) hc⟩

/-- All calls of a run that `onClose` ends, if no callback throws. -/
theorem log_of_onClose (hquiet : client.Quiet) {queryParams body : Except Text Unit}
    {moves : List SseMove} {c : SseConnection σ D}
    (hrun : run (sseStep client) (connectSseByContract client queryParams body).1 moves = some c)
    (hclose : .onClose ∈ calls c.log) :
    calls c.log = .onOpen ::
      ((eventsIn client (bytesRead moves)).filterMap client.outcome ++ [.onClose]) := by
  obtain ⟨consumed, rest, h⟩ := progress_run hrun
  have hevents := h.events
  rw [h.closed hclose, List.append_nil, readBytes_events] at hevents
  rw [h.closedSession hquiet hclose, hevents]

end SharedTsLibs.FrontendHttpClient
