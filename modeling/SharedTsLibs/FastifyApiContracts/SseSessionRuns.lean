import SharedTsLibs.FastifyApiContracts.SseSelection
import SharedTsLibs.FastifyApiContracts.SseSession

/-!
# Runs of a route with sessions

What a route has written after any number of moves of its handler, its streams and its
connection, and what its streams have pulled from their sources.

* `Admits` — an event that a session may write: valid for the schema of its name, or of a name
  without a schema.
* `StreamRun.Accounted` — what a stream has pulled, and what it has sent.
* `RouteInvariant` — every event of a session is admitted, every stream accounted for.
* `written_run`, `streams_run` — along every run.
* `ended_run` — a stream that has ended pulls nothing any more.
-/

namespace SharedTsLibs.FastifyApiContracts

open SharedTsLibs.ApiContracts StepSystem

variable {Schema Data Body : Type}

/-! ## What is expected -/

section

variable (server : SseServer Schema Data)

/-- A session with these schemas may write the event. -/
def Admits (eventSchemas : SseSchemaByEventName Schema) (eventName : String) (data : Data) :
    Prop :=
  (∃ schema, eventSchemas.own? eventName = some schema ∧
    server.safeParse schema data = none) ∨
  eventSchemas.own? eventName = none ∧ eventName ∉ PlainObject.inheritedNames

/-- What a stream has pulled and sent in a phase, and whether its source was released. -/
def StreamRun.AccountedIn (eventSchemas : SseSchemaByEventName Schema) (r : StreamRun Data) :
    StreamPhase Data → Prop
  | .pulling | .exhausted => r.pulled = r.sent ∧ r.released = false
  | .sending message =>
    r.pulled = r.sent ++ [message] ∧ r.released = false ∧
      checkEvent server eventSchemas message.event message.data = none
  | .stopped =>
    r.released = true ∧ (r.pulled = r.sent ∨ ∃ message, r.pulled = r.sent ++ [message])
  | .rejected error =>
    error = .source ∧ r.pulled = r.sent ∧ r.released = false ∨
      ∃ message, r.pulled = r.sent ++ [message] ∧ r.released = true ∧
        checkEvent server eventSchemas message.event message.data = some error

/-- What a stream has sent is what it has pulled, but for at most the last message, and its
source is released when the stream ends before it does. -/
def StreamRun.Accounted (eventSchemas : SseSchemaByEventName Schema) (r : StreamRun Data) : Prop :=
  r.AccountedIn server eventSchemas r.phase

/-- The stream is over. -/
def StreamRun.ended (r : StreamRun Data) : Bool :=
  match r.phase with
  | .pulling | .sending _ => false
  | .exhausted | .stopped | .rejected _ => true

/-- The events that a session has put on the wire. -/
def RouteState.writtenOn (s : RouteState Schema Data Body) (session : ℕ) :
    List (SSEMessage Data) :=
  (s.written.filter fun w => w.session = some session).map Written.message

/-- The sessions are of the contract, what they have written is admitted, and their streams are
accounted for. -/
structure RouteInvariant (s : RouteState Schema Data Body) : Prop where
  sessions : ∀ eventSchemas ∈ s.sessions,
    ∃ selection ∈ getSseSelections server.responses, selection.events = eventSchemas
  written : ∀ session, ∀ message ∈ s.writtenOn session, ∃ eventSchemas eventName,
    s.sessions[session]? = some eventSchemas ∧ message.event = some eventName ∧
      Admits server eventSchemas eventName message.data
  streams : ∀ r ∈ s.streams, ∃ eventSchemas, s.sessions[r.session]? = some eventSchemas ∧
    r.Accounted server eventSchemas ∧
    (r.sent.map SSEStreamMessage.message).Sublist (s.writtenOn r.session)

end

/-! ## Steps of a stream -/

section

variable {server : SseServer Schema Data} {eventSchemas : SseSchemaByEventName Schema}
  {r : StreamRun Data}

theorem checkEvent_eq_none_iff {eventName : String} {data : Data} :
    checkEvent server eventSchemas eventName data = none ↔
      Admits server eventSchemas eventName data := by
  unfold checkEvent Admits PlainObject.access
  cases hown : eventSchemas.own? eventName with
  | some schema => simp
  | none =>
    by_cases hname : eventName ∈ PlainObject.inheritedNames
    · simp [hname]
    · simp [hname]

theorem StreamRun.pull_session (turn : SourceTurn Data) :
    (r.pull server eventSchemas turn).session = r.session ∧
      (r.pull server eventSchemas turn).sent = r.sent := by
  unfold StreamRun.pull
  cases turn with
  | done => exact ⟨rfl, rfl⟩
  | fails => exact ⟨rfl, rfl⟩
  | message message =>
    dsimp only
    split
    · exact ⟨rfl, rfl⟩
    · exact ⟨rfl, rfl⟩

/-- A turn of the source is accounted for. -/
theorem StreamRun.pull_accounted (hr : r.Accounted server eventSchemas) (hp : r.phase = .pulling)
    (turn : SourceTurn Data) : (r.pull server eventSchemas turn).Accounted server eventSchemas := by
  rw [StreamRun.Accounted, hp] at hr
  obtain ⟨hpulled, hreleased⟩ := hr
  unfold StreamRun.pull
  cases turn with
  | done => exact ⟨hpulled, hreleased⟩
  | fails => exact .inl ⟨rfl, hpulled, hreleased⟩
  | message message =>
    dsimp only
    have hlast : r.pulled ++ [message] = r.sent ++ [message] := by rw [hpulled]
    cases hcheck : checkEvent server eventSchemas message.event message.data with
    | some error => exact .inr ⟨message, hlast, rfl, hcheck⟩
    | none => exact ⟨hlast, hreleased, hcheck⟩

theorem StreamRun.sendEnds_session (message : SSEStreamMessage Data) (sent connected : Bool) :
    (r.sendEnds message sent connected).session = r.session ∧
      (r.sendEnds message sent connected).sent = r.sent ++ if sent then [message] else [] := by
  unfold StreamRun.sendEnds
  cases sent with
  | false => exact ⟨rfl, (List.append_nil _).symm⟩
  | true =>
    cases connected with
    | false => exact ⟨rfl, rfl⟩
    | true => exact ⟨rfl, rfl⟩

/-- The end of a write is accounted for. -/
theorem StreamRun.sendEnds_accounted {message : SSEStreamMessage Data}
    (hr : r.Accounted server eventSchemas) (hp : r.phase = .sending message)
    (sent connected : Bool) :
    (r.sendEnds message sent connected).Accounted server eventSchemas := by
  rw [StreamRun.Accounted, hp] at hr
  obtain ⟨hpulled, hreleased, -⟩ := hr
  unfold StreamRun.sendEnds
  cases sent with
  | false => exact ⟨rfl, .inr ⟨message, hpulled⟩⟩
  | true =>
    cases connected with
    | false => exact ⟨rfl, .inl hpulled⟩
    | true => exact ⟨hpulled, hreleased⟩

end

/-! ## Steps of the route -/

section

variable {server : SseServer Schema Data} {s s' : RouteState Schema Data Body}

theorem mem_of_resolveSseSelection {runtime : JsRuntime}
    {selections : List (SseRuntimeSelection Schema)} {startOptions : SseStartOptions}
    {selection : SseRuntimeSelection Schema}
    (h : resolveSseSelection runtime selections startOptions = .ok selection) :
    selection ∈ selections := by
  unfold resolveSseSelection at h
  split at h
  · cases h
  · cases h
    exact List.mem_singleton_self _
  · split at h
    · dsimp only at h
      split at h
      · rename_i found hfound
        cases h
        rcases Option.or_eq_some_iff.1 hfound with hfirst | ⟨-, hdefault⟩
        · rcases Option.or_eq_some_iff.1 hfirst with hexact | ⟨-, hrange⟩
          · exact List.mem_of_find?_eq_some hexact
          · obtain ⟨key, -, hkey⟩ := Option.bind_eq_some_iff.1 hrange
            exact List.mem_of_find?_eq_some hkey
        · exact List.mem_of_find?_eq_some hdefault
      · cases h
    · cases h

theorem startSession_eq_ok {mode : SSESessionMode} {startOptions : SseStartOptions}
    {reply : ReplyState} (h : s.startSession server mode startOptions reply = .ok s') :
    ∃ selection ∈ getSseSelections server.responses,
      s' = { s with
        sessions := s.sessions ++ [selection.events]
        sessionMode := some mode } := by
  unfold RouteState.startSession at h
  split at h
  · cases h
  · rename_i selection hselection
    split_ifs at h
    cases h
    exact ⟨selection, mem_of_resolveSseSelection hselection, rfl⟩

theorem writtenOn_write (session : Option ℕ) (message : SSEMessage Data) (sent : Bool)
    (other : ℕ) : (s.write session message sent).writtenOn other =
      s.writtenOn other ++ if sent = true ∧ session = some other then [message] else [] := by
  unfold RouteState.write RouteState.writtenOn
  cases sent with
  | false => simp
  | true =>
    by_cases hsession : session = some other
    · simp [hsession]
    · simp [hsession]

theorem writtenOn_eq_of_written (h : s'.written = s.written) (session : ℕ) :
    s'.writtenOn session = s.writtenOn session := by
  rw [RouteState.writtenOn, h, RouteState.writtenOn]

/-- The invariant is about the sessions, the wire and the streams. -/
theorem RouteInvariant.congr (h : RouteInvariant server s) (hsessions : s'.sessions = s.sessions)
    (hwritten : s'.written = s.written) (hstreams : s'.streams = s.streams) :
    RouteInvariant server s' := by
  refine ⟨?_, ?_, ?_⟩
  · rw [hsessions]
    exact h.sessions
  · intro session
    rw [writtenOn_eq_of_written hwritten, hsessions]
    exact h.written session
  · intro r hr
    rw [hstreams] at hr
    rw [writtenOn_eq_of_written hwritten, hsessions]
    exact h.streams r hr

/-- A session more changes nothing of those before. -/
theorem addSession_invariant (h : RouteInvariant server s)
    {selection : SseRuntimeSelection Schema}
    (hselection : selection ∈ getSseSelections server.responses)
    (hsessions : s'.sessions = s.sessions ++ [selection.events]) (hwritten : s'.written = s.written)
    (hstreams : s'.streams = s.streams) : RouteInvariant server s' := by
  have hkeep : ∀ {session : ℕ} {eventSchemas : SseSchemaByEventName Schema},
      s.sessions[session]? = some eventSchemas → s'.sessions[session]? = some eventSchemas := by
    intro session eventSchemas hsession
    rw [hsessions, List.getElem?_append_left (List.getElem?_eq_some_iff.1 hsession).1, hsession]
  refine ⟨?_, ?_, ?_⟩
  · intro eventSchemas hmem
    rw [hsessions] at hmem
    rcases List.mem_append.1 hmem with hmem | hmem
    · exact h.sessions eventSchemas hmem
    · exact ⟨selection, hselection, (List.mem_singleton.1 hmem).symm⟩
  · intro session message hmessage
    rw [writtenOn_eq_of_written hwritten] at hmessage
    obtain ⟨eventSchemas, eventName, hsession, hevent⟩ := h.written session message hmessage
    exact ⟨eventSchemas, eventName, hkeep hsession, hevent⟩
  · intro r hr
    rw [hstreams] at hr
    obtain ⟨eventSchemas, hsession, haccounted⟩ := h.streams r hr
    rw [writtenOn_eq_of_written hwritten]
    exact ⟨eventSchemas, hkeep hsession, haccounted⟩

theorem write_frame (session : Option ℕ) (message : SSEMessage Data) (sent : Bool) :
    (s.write session message sent).sessions = s.sessions ∧
      (s.write session message sent).streams = s.streams := by
  unfold RouteState.write
  split_ifs
  · exact ⟨rfl, rfl⟩
  · exact ⟨rfl, rfl⟩

/-- An event that the session admits, or one that is replayed. -/
theorem write_invariant (h : RouteInvariant server s) {session : Option ℕ}
    {message : SSEMessage Data} {sent : Bool}
    (hadmits : ∀ i, session = some i → ∃ eventSchemas eventName,
      s.sessions[i]? = some eventSchemas ∧ message.event = some eventName ∧
        Admits server eventSchemas eventName message.data) :
    RouteInvariant server (s.write session message sent) := by
  obtain ⟨hsessions, hstreams⟩ := write_frame (s := s) session message sent
  refine ⟨?_, ?_, ?_⟩
  · rw [hsessions]
    exact h.sessions
  · intro other message' hmessage
    rw [hsessions]
    rw [writtenOn_write] at hmessage
    rcases List.mem_append.1 hmessage with hmessage | hmessage
    · exact h.written other message' hmessage
    · split_ifs at hmessage with hwritten
      · cases List.mem_singleton.1 hmessage
        exact hadmits other hwritten.2
      · cases hmessage
  · intro r hr
    rw [hstreams] at hr
    obtain ⟨eventSchemas, hsession, haccounted, hsublist⟩ := h.streams r hr
    rw [hsessions, writtenOn_write]
    exact ⟨eventSchemas, hsession, haccounted, hsublist.trans (List.sublist_append_left _ _)⟩

/-- A stream is accounted for after its step as the others are. -/
theorem setStream_invariant (h : RouteInvariant server s) {stream : ℕ} {r : StreamRun Data}
    (hr : ∃ eventSchemas, s.sessions[r.session]? = some eventSchemas ∧
      r.Accounted server eventSchemas ∧
      (r.sent.map SSEStreamMessage.message).Sublist (s.writtenOn r.session)) :
    RouteInvariant server { s with streams := s.streams.set stream r } := by
  refine ⟨h.sessions, h.written, fun r' hr' => ?_⟩
  rcases List.mem_or_eq_of_mem_set hr' with hold | rfl
  · exact h.streams r' hold
  · exact hr

/-- A call of `sendStream` on a session. -/
theorem addStream_invariant (h : RouteInvariant server s) {session : ℕ}
    {eventSchemas : SseSchemaByEventName Schema}
    (hsession : s.sessions[session]? = some eventSchemas) (hsessions : s'.sessions = s.sessions)
    (hwritten : s'.written = s.written)
    (hstreams : s'.streams = s.streams ++ [{ session := session }]) : RouteInvariant server s' := by
  refine ⟨?_, ?_, ?_⟩
  · rw [hsessions]
    exact h.sessions
  · intro other
    rw [writtenOn_eq_of_written hwritten, hsessions]
    exact h.written other
  · intro r hr
    rw [writtenOn_eq_of_written hwritten, hsessions]
    rw [hstreams] at hr
    rcases List.mem_append.1 hr with hr | hr
    · exact h.streams r hr
    · cases List.mem_singleton.1 hr
      exact ⟨eventSchemas, hsession, ⟨rfl, rfl⟩, List.nil_sublist _⟩

theorem markHandlerDone_frame : s.markHandlerDone.sessions = s.sessions ∧
    s.markHandlerDone.written = s.written ∧ s.markHandlerDone.streams = s.streams := by
  unfold RouteState.markHandlerDone
  split_ifs
  · exact ⟨rfl, rfl, rfl⟩
  · exact ⟨rfl, rfl, rfl⟩

theorem handled_streams (result : Option (ApiHandlerResult Body)) (reply : ReplyState) :
    (s.handled server result reply).streams = s.streams ∨
      ∃ r, (s.handled server result reply).streams = s.streams ++ [r] := by
  unfold RouteState.handled
  split_ifs with hstarted
  · exact .inl markHandlerDone_frame.2.2
  · split
    · exact .inl rfl
    · split
      · exact .inl rfl
      · split_ifs with hsse
        · split
          · exact .inl rfl
          · rename_i started hok
            obtain ⟨selection, -, rfl⟩ := startSession_eq_ok hok
            exact .inr ⟨_, rfl⟩
        · unfold RouteState.sendResponse
          split_ifs
          · exact .inl rfl
          · exact .inl rfl
          · exact .inl rfl

/-- What follows the handler. -/
theorem handled_invariant (h : RouteInvariant server s) (result : Option (ApiHandlerResult Body))
    (reply : ReplyState) : RouteInvariant server (s.handled server result reply) := by
  unfold RouteState.handled
  split_ifs with hstarted
  · exact h.congr markHandlerDone_frame.1 markHandlerDone_frame.2.1 markHandlerDone_frame.2.2
  · split
    · exact h.congr rfl rfl rfl
    · split
      · exact h.congr rfl rfl rfl
      · split_ifs with hsse
        · split
          · exact h.congr rfl rfl rfl
          · rename_i started hok
            obtain ⟨selection, hselection, rfl⟩ := startSession_eq_ok hok
            have hsession : RouteInvariant server
                { s with
                  sessions := s.sessions ++ [selection.events]
                  sessionMode := some SSESessionMode.autoClose } :=
              addSession_invariant h hselection rfl rfl rfl
            have hlast : (s.sessions ++ [selection.events])[s.sessions.length]? =
                some selection.events := List.getElem?_concat_length
            exact addStream_invariant hsession hlast rfl rfl rfl
        · unfold RouteState.sendResponse
          split_ifs
          · exact h.congr rfl rfl rfl
          · exact h.congr rfl rfl rfl
          · exact h.congr rfl rfl rfl

/-- A stream pulls from its source. -/
theorem pull_invariant (h : RouteInvariant server s) {stream : ℕ} {r : StreamRun Data}
    {eventSchemas : SseSchemaByEventName Schema} (hr : s.streams[stream]? = some r)
    (hp : r.phase = .pulling) (hsession : s.sessions[r.session]? = some eventSchemas)
    (turn : SourceTurn Data) :
    RouteInvariant server
      { s with streams := s.streams.set stream (r.pull server eventSchemas turn) } := by
  obtain ⟨eventSchemas', hsession', haccounted, hsublist⟩ :=
    h.streams r (List.mem_of_getElem? hr)
  cases hsession.symm.trans hsession'
  have hsame : (r.pull server eventSchemas turn).session = r.session :=
    (StreamRun.pull_session turn).1
  have hsent : (r.pull server eventSchemas turn).sent = r.sent := (StreamRun.pull_session turn).2
  refine setStream_invariant h ⟨eventSchemas, by rw [hsame, hsession],
    StreamRun.pull_accounted haccounted hp turn, ?_⟩
  rw [hsame, hsent]
  exact hsublist

/-- The write of a stream has ended. -/
theorem sendEnds_invariant (h : RouteInvariant server s) {stream : ℕ} {r : StreamRun Data}
    {message : SSEStreamMessage Data} (hr : s.streams[stream]? = some r)
    (hp : r.phase = .sending message) (sent : Bool) :
    RouteInvariant server
      { s.write (some r.session) message.message sent with
        streams := s.streams.set stream (r.sendEnds message sent s.connected) } := by
  obtain ⟨eventSchemas, hsession, haccounted, hsublist⟩ := h.streams r (List.mem_of_getElem? hr)
  have hcheck : checkEvent server eventSchemas message.event message.data = none := by
    have hsending := haccounted
    rw [StreamRun.Accounted, hp] at hsending
    exact hsending.2.2
  have hwritten : RouteInvariant server (s.write (some r.session) message.message sent) := by
    refine write_invariant h fun i hi => ?_
    cases hi
    exact ⟨eventSchemas, message.event, hsession, rfl, checkEvent_eq_none_iff.1 hcheck⟩
  obtain ⟨hsessions, hstreams⟩ := write_frame (s := s) (some r.session) message.message sent
  obtain ⟨hsame, hsent⟩ := StreamRun.sendEnds_session (r := r) message sent s.connected
  rw [← hstreams]
  refine setStream_invariant hwritten ⟨eventSchemas, by rw [hsame, hsessions, hsession],
    StreamRun.sendEnds_accounted haccounted hp sent s.connected, ?_⟩
  rw [hsame, hsent, writtenOn_write, List.map_append]
  refine hsublist.append ?_
  cases sent with
  | false => exact List.nil_sublist _
  | true =>
    rw [if_pos rfl, if_pos ⟨rfl, rfl⟩]
    exact List.Sublist.refl _

/-- **A step keeps the invariant.** -/
theorem routeStep_invariant (h : RouteInvariant server s) (l : RouteLabel Data Body)
    (hstep : routeStep server s l = some s') : RouteInvariant server s' := by
  cases l with
  | start mode startOptions reply =>
    simp only [routeStep] at hstep
    split at hstep
    · cases hstep
      exact h
    · rename_i started hok
      cases hstep
      obtain ⟨selection, hselection, rfl⟩ := startSession_eq_ok hok
      exact addSession_invariant h hselection rfl rfl rfl
  | send session message sent =>
    obtain ⟨eventSchemas, hsession, rfl⟩ := Option.map_eq_some_iff.1 hstep
    split
    · exact h
    · rename_i hcheck
      refine write_invariant h fun i hi => ?_
      cases hi
      exact ⟨eventSchemas, message.event, hsession, rfl, checkEvent_eq_none_iff.1 hcheck⟩
  | sendStream session =>
    obtain ⟨eventSchemas, hsession, rfl⟩ := Option.map_eq_some_iff.1 hstep
    exact addStream_invariant h hsession rfl rfl rfl
  | pull stream turn =>
    obtain ⟨r, hr, hpull⟩ := Option.bind_eq_some_iff.1 hstep
    cases hp : r.phase with
    | pulling =>
      simp only [hp] at hpull
      obtain ⟨eventSchemas, hsession, rfl⟩ := Option.map_eq_some_iff.1 hpull
      exact pull_invariant h hr hp hsession turn
    | sending message => simp [hp] at hpull
    | exhausted => simp [hp] at hpull
    | stopped => simp [hp] at hpull
    | rejected error => simp [hp] at hpull
  | sendEnds stream sent =>
    obtain ⟨r, hr, hend⟩ := Option.bind_eq_some_iff.1 hstep
    cases hp : r.phase with
    | pulling => simp [hp] at hend
    | sending message =>
      simp only [hp] at hend
      cases hend
      exact sendEnds_invariant h hr hp sent
    | exhausted => simp [hp] at hend
    | stopped => simp [hp] at hend
    | rejected error => simp [hp] at hend
  | close session =>
    obtain ⟨eventSchemas, -, rfl⟩ := Option.map_eq_some_iff.1 hstep
    exact h.congr rfl rfl rfl
  | replay message sent =>
    simp only [routeStep] at hstep
    split_ifs at hstep
    cases hstep
    exact write_invariant h fun i hi => by cases hi
  | connectionCloses =>
    simp only [routeStep] at hstep
    split at hstep
    · cases hstep
      exact h.congr rfl rfl rfl
    · cases hstep
  | handlerReturns result reply =>
    cases hp : s.phase with
    | handling =>
      simp only [routeStep, hp] at hstep
      cases hstep
      exact handled_invariant h result reply
    | streaming stream => simp [routeStep, hp] at hstep
    | done => simp [routeStep, hp] at hstep
    | failed error => simp [routeStep, hp] at hstep
  | handlerThrows =>
    cases hp : s.phase with
    | handling =>
      simp only [routeStep, hp] at hstep
      cases hstep
      exact h.congr rfl rfl rfl
    | streaming stream => simp [routeStep, hp] at hstep
    | done => simp [routeStep, hp] at hstep
    | failed error => simp [routeStep, hp] at hstep
  | streamed =>
    cases hp : s.phase with
    | streaming stream =>
      simp only [routeStep, hp] at hstep
      obtain ⟨r, -, hend⟩ := Option.bind_eq_some_iff.1 hstep
      split at hend
      · cases hend
        exact h.congr markHandlerDone_frame.1 markHandlerDone_frame.2.1 markHandlerDone_frame.2.2
      · cases hend
        exact h.congr markHandlerDone_frame.1 markHandlerDone_frame.2.1 markHandlerDone_frame.2.2
      · cases hend
        exact h.congr rfl rfl rfl
      · cases hend
    | handling => simp [routeStep, hp] at hstep
    | done => simp [routeStep, hp] at hstep
    | failed error => simp [routeStep, hp] at hstep

theorem start_routeInvariant : RouteInvariant server ({} : RouteState Schema Data Body) :=
  ⟨by simp, fun session message hmessage => by simp [RouteState.writtenOn] at hmessage, by simp⟩

/-- It holds along every run. -/
theorem routeInvariant_run {ls : List (RouteLabel Data Body)}
    (hrun : run (routeStep server) {} ls = some s) : RouteInvariant server s :=
  invariant_run (fun _ l _ hinvariant _ hstep => routeStep_invariant hinvariant l hstep)
    start_routeInvariant (allSteps_true _ _) hrun

/-! ## Streams that have ended -/

/-- A step leaves the streams alone, starts one, or changes one that is not over. -/
theorem routeStep_streams {l : RouteLabel Data Body} (hstep : routeStep server s l = some s') :
    s'.streams = s.streams ∨ (∃ r, s'.streams = s.streams ++ [r]) ∨
      ∃ i r r', s.streams[i]? = some r ∧ r.ended = false ∧ s'.streams = s.streams.set i r' := by
  cases l with
  | start mode startOptions reply =>
    simp only [routeStep] at hstep
    split at hstep
    · cases hstep
      exact .inl rfl
    · rename_i started hok
      cases hstep
      obtain ⟨selection, -, rfl⟩ := startSession_eq_ok hok
      exact .inl rfl
  | send session message sent =>
    obtain ⟨eventSchemas, -, rfl⟩ := Option.map_eq_some_iff.1 hstep
    split
    · exact .inl rfl
    · exact .inl (write_frame _ _ _).2
  | sendStream session =>
    obtain ⟨eventSchemas, -, rfl⟩ := Option.map_eq_some_iff.1 hstep
    exact .inr (.inl ⟨_, rfl⟩)
  | pull stream turn =>
    obtain ⟨r, hr, hpull⟩ := Option.bind_eq_some_iff.1 hstep
    cases hp : r.phase with
    | pulling =>
      simp only [hp] at hpull
      obtain ⟨eventSchemas, -, rfl⟩ := Option.map_eq_some_iff.1 hpull
      exact .inr (.inr ⟨stream, r, _, hr, by simp [StreamRun.ended, hp], rfl⟩)
    | sending message => simp [hp] at hpull
    | exhausted => simp [hp] at hpull
    | stopped => simp [hp] at hpull
    | rejected error => simp [hp] at hpull
  | sendEnds stream sent =>
    obtain ⟨r, hr, hend⟩ := Option.bind_eq_some_iff.1 hstep
    cases hp : r.phase with
    | sending message =>
      simp only [hp] at hend
      cases hend
      exact .inr (.inr ⟨stream, r, _, hr, by simp [StreamRun.ended, hp], rfl⟩)
    | pulling => simp [hp] at hend
    | exhausted => simp [hp] at hend
    | stopped => simp [hp] at hend
    | rejected error => simp [hp] at hend
  | close session =>
    obtain ⟨eventSchemas, -, rfl⟩ := Option.map_eq_some_iff.1 hstep
    exact .inl rfl
  | replay message sent =>
    simp only [routeStep] at hstep
    split_ifs at hstep
    cases hstep
    exact .inl (write_frame _ _ _).2
  | connectionCloses =>
    simp only [routeStep] at hstep
    split at hstep
    · cases hstep
      exact .inl rfl
    · cases hstep
  | handlerReturns result reply =>
    cases hp : s.phase with
    | handling =>
      simp only [routeStep, hp] at hstep
      cases hstep
      exact (handled_streams result reply).imp_right .inl
    | streaming stream => simp [routeStep, hp] at hstep
    | done => simp [routeStep, hp] at hstep
    | failed error => simp [routeStep, hp] at hstep
  | handlerThrows =>
    cases hp : s.phase with
    | handling =>
      simp only [routeStep, hp] at hstep
      cases hstep
      exact .inl rfl
    | streaming stream => simp [routeStep, hp] at hstep
    | done => simp [routeStep, hp] at hstep
    | failed error => simp [routeStep, hp] at hstep
  | streamed =>
    cases hp : s.phase with
    | streaming stream =>
      simp only [routeStep, hp] at hstep
      obtain ⟨r, -, hend⟩ := Option.bind_eq_some_iff.1 hstep
      split at hend
      · cases hend
        exact .inl markHandlerDone_frame.2.2
      · cases hend
        exact .inl markHandlerDone_frame.2.2
      · cases hend
        exact .inl rfl
      · cases hend
    | handling => simp [routeStep, hp] at hstep
    | done => simp [routeStep, hp] at hstep
    | failed error => simp [routeStep, hp] at hstep

/-- A stream that is over stays as it is. -/
theorem routeStep_ended {l : RouteLabel Data Body} {stream : ℕ} {r : StreamRun Data}
    (hr : s.streams[stream]? = some r) (hended : r.ended = true)
    (hstep : routeStep server s l = some s') : s'.streams[stream]? = some r := by
  rcases routeStep_streams hstep with hsame | ⟨r', hadded⟩ | ⟨i, r', r'', hr', hrunning, hset⟩
  · rw [hsame, hr]
  · rw [hadded, List.getElem?_append_left (List.getElem?_eq_some_iff.1 hr).1, hr]
  · have hne : i ≠ stream := by
      rintro rfl
      cases hr.symm.trans hr'
      rw [hended] at hrunning
      cases hrunning
    rw [hset, List.getElem?_set_ne hne, hr]

theorem ended_run {ls : List (RouteLabel Data Body)} {stream : ℕ} {r : StreamRun Data}
    (hr : s.streams[stream]? = some r) (hended : r.ended = true)
    (hrun : run (routeStep server) s ls = some s') : s'.streams[stream]? = some r := by
  induction ls generalizing s with
  | nil =>
    cases hrun
    exact hr
  | cons l ls ih =>
    obtain ⟨t, ht, hrun'⟩ := run_cons_eq_some.1 hrun
    exact ih (routeStep_ended hr hended ht) hrun'

/-! ## The main results -/

/-- **Along every run, what a session has written is valid for the schema that the
representation it was started with declares for the event's name, or of a name without a
schema.** -/
theorem written_run {ls : List (RouteLabel Data Body)}
    (hrun : run (routeStep server) {} ls = some s) {session : ℕ} {message : SSEMessage Data}
    (hmessage : message ∈ s.writtenOn session) :
    ∃ selection ∈ getSseSelections server.responses, ∃ eventName,
      s.sessions[session]? = some selection.events ∧ message.event = some eventName ∧
        Admits server selection.events eventName message.data := by
  have hinvariant := routeInvariant_run hrun
  obtain ⟨eventSchemas, eventName, hsession, hevent, hadmits⟩ :=
    hinvariant.written session message hmessage
  obtain ⟨selection, hselection, rfl⟩ :=
    hinvariant.sessions eventSchemas (List.mem_of_getElem? hsession)
  exact ⟨selection, hselection, eventName, hsession, hevent, hadmits⟩

/-- **Along every run, what a stream has sent is what it has pulled from its source, in order and
but for at most a last message, at which it has ended and released the source; a stream that has
ended pulls nothing any more.** -/
theorem streams_run {ls : List (RouteLabel Data Body)}
    (hrun : run (routeStep server) {} ls = some s) {stream : ℕ} {r : StreamRun Data}
    (hr : s.streams[stream]? = some r) :
    (∃ eventSchemas, s.sessions[r.session]? = some eventSchemas ∧
      r.Accounted server eventSchemas) ∧
    (r.sent.map SSEStreamMessage.message).Sublist (s.writtenOn r.session) ∧
    (r.ended = true → ∀ ls' t, run (routeStep server) s ls' = some t →
      t.streams[stream]? = some r) := by
  obtain ⟨eventSchemas, hsession, haccounted, hsublist⟩ :=
    (routeInvariant_run hrun).streams r (List.mem_of_getElem? hr)
  exact ⟨⟨eventSchemas, hsession, haccounted⟩, hsublist,
    fun hended _ _ hrun' => ended_run hr hended hrun'⟩

end

/-! ## A stream with an invalid event -/

/-- A server that streams ticks below ten. -/
def tickServer : SseServer ℕ ℕ where
  runtime := JsRuntime.ascii
  responses := ⟨[("200", streamEntry "text/event-stream" 0)], by decide⟩
  safeParse _ data := if data < 10 then none else some "Too big"

/-- The handler returns a stream whose second tick is too big. -/
def bigTick : List (RouteLabel ℕ Unit) :=
  [.handlerReturns (some { status := .finite 200, body := some () }) { headersFit := true },
    .pull 0 (.message { event := "tick", data := 1 }), .sendEnds 0 true,
    .pull 0 (.message { event := "tick", data := 12 })]

/-- The first tick is on the wire. -/
theorem bigTick_written :
    ∃ s message, run (routeStep tickServer) {} bigTick = some s ∧ message ∈ s.writtenOn 0 ∧
      ∃ selection ∈ getSseSelections tickServer.responses, ∃ eventName,
        s.sessions[0]? = some selection.events ∧ message.event = some eventName ∧
          Admits tickServer selection.events eventName message.data := by
  have hwritten : (run (routeStep tickServer) {} bigTick).any
      (fun s => !(s.writtenOn 0).isEmpty) = true := by decide +kernel
  obtain ⟨s, hrun, hs⟩ := (Option.any_eq_true _ _).1 hwritten
  cases hon : s.writtenOn 0 with
  | nil => simp [hon] at hs
  | cons message messages =>
    have hmessage : message ∈ s.writtenOn 0 := by simp [hon]
    exact ⟨s, message, hrun, hmessage, written_run hrun hmessage⟩

/-- The stream has ended at the second one. -/
theorem bigTick_stream :
    ∃ s r, run (routeStep tickServer) {} bigTick = some s ∧ s.streams[0]? = some r ∧
      r.ended = true ∧
      (∃ eventSchemas, s.sessions[r.session]? = some eventSchemas ∧
        r.Accounted tickServer eventSchemas) ∧
      (r.sent.map SSEStreamMessage.message).Sublist (s.writtenOn r.session) ∧
      (r.ended = true → ∀ ls' t, run (routeStep tickServer) s ls' = some t →
        t.streams[0]? = some r) := by
  have hended : (run (routeStep tickServer) {} bigTick).any
      (fun s => s.streams[0]?.any StreamRun.ended) = true := by decide +kernel
  obtain ⟨s, hrun, hs⟩ := (Option.any_eq_true _ _).1 hended
  obtain ⟨r, hr, hover⟩ := (Option.any_eq_true _ _).1 hs
  exact ⟨s, r, hrun, hr, hover, streams_run hrun hr⟩

end SharedTsLibs.FastifyApiContracts
