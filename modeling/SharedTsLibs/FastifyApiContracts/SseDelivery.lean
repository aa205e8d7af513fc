import SharedTsLibs.BackendHttpClient.SendAccounts
import SharedTsLibs.FastifyApiContracts.SseSessionRuns
import SharedTsLibs.Lib.Fallible

/-!
# Streams from a server to a client

A session of a route writes events, and a client of the same contract, which has taken the
response for the representation of the session, parses them.  The server lets events through
whose names have no schema; the client does not.

* `Linked` — the client's schemas are those of the server.
* `ReadsBack` — the data that `JSON.parse` reads back from what the server serializes.
* `SSEMessage.content`, `eventContent` — what the wire has to carry of an event: its name
  and the text of its data.  Its id and its delay play no part.
* `parseEvent_content` — the client's reading of an event that a session may write.
* `delivered_iff` — the client yields every event that it has pulled exactly when the names of
  all of them are declared.
-/

namespace SharedTsLibs.FastifyApiContracts

open SharedTsLibs.ApiContracts SharedTsLibs.BackendHttpClient StepSystem

variable {Schema Data D E Body : Type}

/-! ## Client and server -/

/-- The client parses what the server's schemas accept. -/
def Linked (server : SseServer Schema Data) (client : ContractClient Schema Data D E) : Prop :=
  ∀ schema data, server.safeParse schema data = none ↔ ∃ value, client.parse schema data = .ok value

section

variable (serialize : Data → String)

/-- The client reads the datum back from its text: a value of JSON, where the serializer is
`JSON.stringify`. -/
def ReadsBack (client : ContractClient Schema Data D E) (data : Data) : Prop :=
  client.jsonParse (serialize data) = .ok data

/-- The name of an event that was written, and the text of its data. -/
def SSEMessage.content (message : SSEMessage Data) : Option String × String :=
  (message.event, serialize message.data)

end

/-- The same of an event that the client's parser of event streams has brought. -/
def eventContent (message : SseMessage String) : Option String × String :=
  (some message.type, message.data)

section

variable {serialize : Data → String} {server : SseServer Schema Data}
  {client : ContractClient Schema Data D E} {eventSchemas : SseSchemaByEventName Schema}

/-- An event that a session may write is parsed by the client exactly when its name is
declared. -/
theorem parseEvent_content (hlinked : Linked server client) {message : SSEMessage Data}
    {eventName : String} (hevent : message.event = some eventName)
    (hreads : ReadsBack serialize client message.data)
    (hadmits : Admits server eventSchemas eventName message.data) {arrived : SseMessage String}
    (harrived : eventContent arrived = message.content serialize) :
    (∃ value, parseEvent client eventSchemas arrived = .ok value) ↔
      eventName ∈ eventSchemas.keys := by
  have htype : arrived.type = eventName := by
    have hname := congrArg Prod.fst harrived
    exact Option.some.inj (hname.trans hevent)
  have hdata : arrived.data = serialize message.data := congrArg Prod.snd harrived
  unfold parseEvent
  rw [htype, hdata]
  rcases hadmits with ⟨schema, hown, hvalid⟩ | ⟨hown, hname⟩
  · obtain ⟨value, hvalue⟩ := (hlinked schema message.data).1 hvalid
    have hparse : client.jsonParse (serialize message.data) >>= client.parse schema =
        .ok value := Fallible.bind_eq_ok.2 ⟨message.data, hreads, hvalue⟩
    have hkey : eventName ∈ eventSchemas.keys := PlainObject.own?_isSome_iff.1 (by simp [hown])
    simp only [PlainObject.access_eq_own_iff.2 hown, hparse]
    exact iff_of_true ⟨_, rfl⟩ hkey
  · have hkey : eventName ∉ eventSchemas.keys := PlainObject.own?_eq_none_iff.1 hown
    have habsent : eventSchemas.access eventName = .absent := by
      simp [PlainObject.access, hown, hname]
    simp only [habsent]
    exact iff_of_false (by simp) hkey

/-! ## The main result -/

/-- **A client yields all that it has pulled of a session's events exactly when the
representation declares the names of all of them**, after any run of the route and any run of
the client, if the names and the texts of the data arrive as they were written. -/
theorem delivered_iff (hlinked : Linked server client)
    {s : RouteState Schema Data Body} {ls : List (RouteLabel Data Body)}
    (hserver : run (routeStep server) {} ls = some s)
    {t : SendState Schema D E} {ls' : List (SendLabel Data E)}
    (hclient : run (sendStep client) SendState.start ls' = some t)
    {session : ℕ} (hsession : s.sessions[session]? = some eventSchemas)
    (hreads : ∀ message ∈ s.writtenOn session, ReadsBack serialize client message.data)
    {generator : GeneratorState} (hgiven : t.given = some (.events eventSchemas generator))
    (hpulled : t.pulled.map eventContent <+:
      (s.writtenOn session).map (SSEMessage.content serialize)) :
    ParsedTo client eventSchemas t.pulled t.yielded ↔
      ∀ message ∈ t.pulled, message.type ∈ eventSchemas.keys := by
  have hread : ∀ message ∈ t.pulled, ((∃ value, parseEvent client eventSchemas message =
      .ok value) ↔ message.type ∈ eventSchemas.keys) := by
    intro message hmessage
    obtain ⟨written, hwritten, hcontent⟩ :=
      List.mem_map.1 (hpulled.subset (List.mem_map_of_mem hmessage))
    obtain ⟨selection, -, eventName, hsession', hevent, hadmits⟩ := written_run hserver hwritten
    cases hsession.symm.trans hsession'
    have htype : message.type = eventName := by
      have hname : some message.type = written.event := congrArg Prod.fst hcontent.symm
      exact Option.some.inj (hname.trans hevent)
    rw [parseEvent_content hlinked hevent (hreads written hwritten) hadmits hcontent.symm, htype]
  obtain ⟨-, haccounted⟩ := stream_run hclient hgiven
  constructor
  · intro hparsed message hmessage
    obtain ⟨i, rfl⟩ := List.mem_iff_get.1 hmessage
    exact (hread _ hmessage).1 ⟨_, hparsed.get i.2 (hparsed.length_eq ▸ i.2)⟩
  · intro hdeclared
    rcases haccounted with hparsed | ⟨-, read, message, err, hlast, -, herr⟩
    · exact hparsed
    · have hmessage : message ∈ t.pulled := by simp [hlast]
      obtain ⟨value, hvalue⟩ := (hread message hmessage).2 (hdeclared message hmessage)
      rw [hvalue] at herr
      cases herr

end

/-! ## An event without a schema -/

/-- A server of the notes. -/
def notesServer : SseServer Unit String where
  runtime := JsRuntime.ascii
  responses := notesClient.responsesByStatusCode
  safeParse _ _ := none

/-- A session that sends a note, and then an event of an unknown name. -/
def memoSession : List (RouteLabel String Unit) :=
  [.start .keepAlive {} { headersFit := true }, .send 0 { event := "note", data := "a" } true,
    .send 0 { event := "memo", data := "b" } true]

theorem notes_linked : Linked notesServer notesClient :=
  fun _ data => iff_of_true rfl ⟨data, rfl⟩

/-- Both events are on the wire, and the client has pulled both, but not parsed both. -/
theorem memoSession_delivered :
    ∃ s t eventSchemas generator, run (routeStep notesServer) {} memoSession = some s ∧
      run (sendStep notesClient) SendState.start unknownEvent = some t ∧
      s.sessions[0]? = some eventSchemas ∧ t.given = some (.events eventSchemas generator) ∧
      t.pulled.map eventContent <+: (s.writtenOn 0).map (SSEMessage.content id) ∧
      ¬ ParsedTo notesClient eventSchemas t.pulled t.yielded := by
  have hserver : (run (routeStep notesServer) {} memoSession).any (fun s =>
      s.sessions[0]?.map PlainObject.entries = some [("note", ())] ∧
      (s.writtenOn 0).map (SSEMessage.content id) =
        [(some "note", "a"), (some "memo", "b")]) = true := by decide +kernel
  have hclient : (run (sendStep notesClient) SendState.start unknownEvent).any (fun t =>
      t.pulled = [⟨"note", "a", "", none⟩, ⟨"memo", "b", "", none⟩] ∧
      (t.given.bind LazyBody.stream?).map (fun stream => stream.1.entries) =
        some [("note", ())]) = true := by decide +kernel
  obtain ⟨s, hs, hstate⟩ := (Option.any_eq_true _ _).1 hserver
  obtain ⟨hsession, hwritten⟩ := of_decide_eq_true hstate
  obtain ⟨t, ht, hread⟩ := (Option.any_eq_true _ _).1 hclient
  obtain ⟨hpulled, hevents⟩ := of_decide_eq_true hread
  obtain ⟨⟨entries, hnodup⟩, hstarted, hentries⟩ := Option.map_eq_some_iff.1 hsession
  obtain ⟨⟨⟨entries', hnodup'⟩, generator⟩, hbind, hentries'⟩ := Option.map_eq_some_iff.1 hevents
  obtain ⟨body, hbody, hstream⟩ := Option.bind_eq_some_iff.1 hbind
  cases hentries
  cases hentries'
  have hgiven := hbody.trans (congrArg some (LazyBody.eq_events hstream))
  have hwire : t.pulled.map eventContent <+: (s.writtenOn 0).map (SSEMessage.content id) := by
    rw [hpulled, hwritten]
    exact List.prefix_rfl
  refine ⟨s, t, _, generator, hs, ht, hstarted, hgiven, hwire, fun hparsed => ?_⟩
  have hreads : ∀ message ∈ s.writtenOn 0, ReadsBack id notesClient message.data :=
    fun _ _ => rfl
  have hdeclared := (delivered_iff notes_linked hs ht hstarted hreads hgiven hwire).1 hparsed
    ⟨"memo", "b", "", none⟩ (by simp [hpulled])
  have hundeclared : "memo" ∉ ["note"] := by decide
  exact hundeclared hdeclared

end SharedTsLibs.FastifyApiContracts
