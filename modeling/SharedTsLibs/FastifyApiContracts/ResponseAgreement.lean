import SharedTsLibs.FastifyApiContracts.SseSelection
import Mathlib.Data.List.Nodup

/-!
# Servers and clients of a contract

What a server sends for a handler result, read by a client of the same contract with
strict content types.

* `client_agrees_iff` — when the client takes a response for the kind that was selected.
* `stream_understood_iff` — when the client reads a streamed response with the event
  schemas that the server validates it against.

Both sides look the status up alike (`resolveResponseEntry_eq`), but the server compares
media types as they are written and the client parameters, case and white space aside.
-/

namespace SharedTsLibs.FastifyApiContracts

open SharedTsLibs.ApiContracts

variable {Schema Body : Type}

/-! ## Plain responses -/

/-- The kind of what a resolved response has selected: nothing, the bare schema of the
entry, or the selected descriptor. -/
def selectedKind (entry : ResponseEntry Schema) (result : ApiHandlerResult Body)
    (resolved : ResolvedApiResponse Body) : Option (ResponseKind Schema) :=
  match resolved.contentType, entry with
  | none, _ => some .noContent
  | some _, .json schema => some (.json schema)
  | some _, entry => (selectedDescriptor entry result).map fun e => descriptorToKind e.2

/-- The client takes the response for the kind that the server has selected. -/
def ClientAgrees (runtime : JsRuntime) (responses : ResponsesByStatusCode Schema)
    (result : ApiHandlerResult Body) (resolved : ResolvedApiResponse Body) : Prop :=
  ∃ entry kind, entryFor runtime responses result.status = some entry ∧
    selectedKind entry result resolved = some kind ∧
    resolveResponseEntry runtime responses resolved.status resolved.contentType true = some kind

/-- A resolved content type is a media type that the content map declares and that is not
empty, and the first media type that is the same, parameters, case and white space aside,
has the same kind of body. -/
def LeadsItsKind (runtime : JsRuntime) (entry : ResponseEntry Schema)
    (contentType : Option String) : Prop :=
  ∀ content given, entry.content = some content → contentType = some given →
    given ≠ "" ∧ ∃ descriptor first, content.own? given = some descriptor ∧
      matchDescriptor runtime content given = some first ∧
      descriptorToKind first.2 = descriptorToKind descriptor

theorem resolveContractResponse_content {runtime : JsRuntime} {entry : ResponseEntry Schema}
    {content : ResponseContentMap Schema} (h : entry.content = some content)
    (contentType : Option String) (strict : Bool) :
    resolveContractResponse runtime entry contentType strict =
      resolveContentEntry runtime entry contentType strict := by
  cases entry with
  | json | noBody => cases h
  | body => rfl

theorem onlyDescriptorKind_strict (content : ResponseContentMap Schema) :
    onlyDescriptorKind content true = none := by
  unfold onlyDescriptorKind
  split <;> rfl

/-- Under a content map and strict content types, a content type is answered by the first
media type that is the same. -/
theorem resolveContentEntry_given {runtime : JsRuntime} {entry : ResponseEntry Schema}
    {content : ResponseContentMap Schema} (h : entry.content = some content) {given : String}
    (hgiven : given ≠ "") :
    resolveContentEntry runtime entry (some given) true =
      (matchDescriptor runtime content given).map fun first => descriptorToKind first.2 := by
  simp only [resolveContentEntry, h, givenContentType_some hgiven]
  cases hmatch : matchDescriptor runtime content given with
  | none => exact onlyDescriptorKind_strict content
  | some first => rfl

/-- An empty content type is answered as a missing one. -/
theorem resolveContentEntry_empty {runtime : JsRuntime} {entry : ResponseEntry Schema}
    {content : ResponseContentMap Schema} (h : entry.content = some content) :
    resolveContentEntry runtime entry (some "") true =
      if entry.allowNoBody = true then some .noContent else none := by
  have hgiven : givenContentType (some "") = none := by simp [givenContentType]
  simp only [resolveContentEntry, h, hgiven, onlyDescriptorKind_strict]

/-- A response without a body is taken for one. -/
theorem resolveContractResponse_noBody {runtime : JsRuntime} {entry : ResponseEntry Schema}
    (h : entry.allowNoBody = true) :
    resolveContractResponse runtime entry none true = some .noContent := by
  cases entry with
  | json => cases h
  | noBody => rfl
  | body content allowNoBody =>
    have hallow : allowNoBody = true := h
    subst hallow
    rfl

/-- A bare schema is JSON. -/
theorem resolveContractResponse_json (runtime : JsRuntime) (schema : Schema) :
    resolveContractResponse runtime (.json schema) (some "application/json") true =
      some (.json schema) := by
  have hgiven := givenContentType_some (by decide : "application/json" ≠ "")
  simp only [resolveContractResponse, hgiven, matchTypedResponse, normalizeMediaType_json]
  rfl

theorem descriptorToKind_ne_noContent (descriptor : BodyDescriptor Schema) :
    descriptorToKind descriptor ≠ .noContent := by
  cases descriptor <;> exact nofun

/-- Agreement under the entry of the status. -/
theorem clientAgrees_iff_under {runtime : JsRuntime} {responses : ResponsesByStatusCode Schema}
    {result : ApiHandlerResult Body} {resolved : ResolvedApiResponse Body}
    {entry : ResponseEntry Schema} (hentry : entryFor runtime responses result.status = some entry)
    (hstatus : resolved.status = result.status) :
    ClientAgrees runtime responses result resolved ↔
      ∃ kind, selectedKind entry result resolved = some kind ∧
        resolveContractResponse runtime entry resolved.contentType true = some kind := by
  simp [ClientAgrees, resolveResponseEntry_eq, hstatus, hentry]

/-- Agreement on a descriptor. -/
theorem clientAgrees_descriptor_iff {runtime : JsRuntime} {entry : ResponseEntry Schema}
    {result : ApiHandlerResult Body} {resolved : ResolvedApiResponse Body}
    {content : ResponseContentMap Schema} {contentType : String}
    {descriptor : BodyDescriptor Schema} (hcontent : entry.content = some content)
    (hselected : selectedDescriptor entry result = some (contentType, descriptor))
    (hown : content.own? contentType = some descriptor)
    (hcontentType : resolved.contentType = some contentType) :
    (∃ kind, selectedKind entry result resolved = some kind ∧
        resolveContractResponse runtime entry resolved.contentType true = some kind) ↔
      LeadsItsKind runtime entry resolved.contentType := by
  have hkind : selectedKind entry result resolved = some (descriptorToKind descriptor) := by
    cases entry with
    | json => cases hcontent
    | body | noBody => simp [selectedKind, hcontentType, hselected]
  have hleads : LeadsItsKind runtime entry resolved.contentType ↔
      contentType ≠ "" ∧ ∃ first, matchDescriptor runtime content contentType = some first ∧
        descriptorToKind first.2 = descriptorToKind descriptor := by
    constructor
    · intro h
      obtain ⟨hne, descriptor', first, hown', hfirst, heq⟩ :=
        h content contentType hcontent hcontentType
      rw [hown] at hown'
      cases hown'
      exact ⟨hne, first, hfirst, heq⟩
    · rintro ⟨hne, first, hfirst, heq⟩ content' given hcontent' hgiven
      rw [hcontent] at hcontent'
      rw [hcontentType] at hgiven
      cases hcontent'
      cases hgiven
      exact ⟨hne, descriptor, first, hown, hfirst, heq⟩
  rw [hleads, hkind, hcontentType, resolveContractResponse_content hcontent]
  by_cases hne : contentType = ""
  · subst hne
    rw [resolveContentEntry_empty hcontent]
    constructor
    · rintro ⟨kind, hk, hclient⟩
      cases hk
      split at hclient
      · exact absurd (Option.some.inj hclient).symm (descriptorToKind_ne_noContent descriptor)
      · cases hclient
    · rintro ⟨hne, -⟩
      exact absurd rfl hne
  · rw [resolveContentEntry_given hcontent hne]
    simp [hne, Option.map_eq_some_iff]

/-- **Server and client agree on a response**, streamed or not, exactly when a content type resolved
under a content map leads its kind: it is declared and not empty, and no media type before
it that is the same, parameters, case and white space aside, has another kind of body.
Responses without a body and bare schemas are always agreed on. -/
theorem client_agrees_iff {runtime : JsRuntime} {responses : ResponsesByStatusCode Schema}
    {result : ApiHandlerResult Body} {resolved : ResolvedApiResponse Body}
    (h : resolveResponseRepresentation runtime responses result = .ok resolved) :
    ClientAgrees runtime responses result resolved ↔
      ∀ entry, entryFor runtime responses result.status = some entry →
        LeadsItsKind runtime entry resolved.contentType := by
  obtain ⟨entry, hentry, hunder⟩ := resolveResponseRepresentation_eq_ok.1 h
  rw [clientAgrees_iff_under hentry (resolveUnder_status hunder)]
  simp only [hentry, Option.some.injEq, forall_eq']
  cases selected_of_resolveUnder hunder with
  | noBody hcontentType hallow _ =>
    refine iff_of_true ⟨.noContent, ?_, ?_⟩ ?_
    · simp [selectedKind, hcontentType]
    · rw [hcontentType]
      exact resolveContractResponse_noBody hallow
    · intro content given _ hgiven
      rw [hcontentType] at hgiven
      cases hgiven
  | @json schema hjson hcontentType _ =>
    subst hjson
    refine iff_of_true ⟨.json schema, ?_, ?_⟩ ?_
    · simp [selectedKind, hcontentType]
    · rw [hcontentType]
      exact resolveContractResponse_json runtime schema
    · intro content given hcontent _
      cases hcontent
  | descriptor hcontent hselected hown hcontentType _ =>
    exact clientAgrees_descriptor_iff hcontent hselected hown hcontentType
  | @inherited content contentType hcontent hselected hown hcontentType _ =>
    refine iff_of_false ?_ ?_
    · rintro ⟨kind, hkind, -⟩
      cases entry with
      | json => cases hcontent
      | body | noBody => simp [selectedKind, hcontentType, hselected] at hkind
    · intro hleads
      obtain ⟨-, descriptor, first, hdescriptor, -⟩ :=
        hleads content contentType hcontent hcontentType
      rw [hown] at hdescriptor
      cases hdescriptor

/-- Two JSON variants, kept apart by their media types. -/
def variantResponses : ResponsesByStatusCode ℕ :=
  ⟨[("200", .body ⟨[("application/json", .json 0), ("application/json+01", .json 1)], by decide⟩
    false)], by decide⟩

def variantResult : ApiHandlerResult Unit :=
  { status := .finite 200, contentType := some "application/json+01", body := some () }

theorem variantResult_agreed :
    ∃ resolved, resolveResponseRepresentation JsRuntime.ascii variantResponses variantResult =
        .ok resolved ∧ resolved.isSse = false ∧
      ClientAgrees JsRuntime.ascii variantResponses variantResult resolved := by
  have hresolved : resolveResponseRepresentation JsRuntime.ascii variantResponses variantResult =
      .ok ⟨.finite 200, some "application/json+01", some (), false⟩ := rfl
  refine ⟨_, hresolved, rfl, (client_agrees_iff hresolved).2 ?_⟩
  rintro entry hentry content given hcontent hgiven
  cases hentry
  cases hcontent
  cases hgiven
  exact ⟨by decide, .json 1, ("application/json+01", .json 1), rfl, rfl, rfl⟩

/-- Two media types that a parameter tells apart. -/
def charsetResponses : ResponsesByStatusCode ℕ :=
  ⟨[("200", .body ⟨[("application/json; charset=utf-8", .blob), ("application/json", .json 0)],
    by decide⟩ false)], by decide⟩

def charsetResult : ApiHandlerResult Unit :=
  { status := .finite 200, contentType := some "application/json", body := some () }

/-- The server sends JSON, and the client takes it for the blob declared before it. -/
theorem charsetResult_misread :
    ∃ resolved, resolveResponseRepresentation JsRuntime.ascii charsetResponses charsetResult =
        .ok resolved ∧ resolved.isSse = false ∧
      resolveResponseEntry JsRuntime.ascii charsetResponses resolved.status resolved.contentType
          true = some .blob ∧
      ¬ ClientAgrees JsRuntime.ascii charsetResponses charsetResult resolved := by
  have hblob : resolveResponseEntry JsRuntime.ascii charsetResponses (.finite 200)
      (some "application/json") true = some .blob := rfl
  refine ⟨⟨.finite 200, some "application/json", some (), false⟩, rfl, rfl, hblob, ?_⟩
  rintro ⟨entry, kind, hentry, hkind, hclient⟩
  cases hentry
  cases hkind
  rw [hblob] at hclient
  cases hclient

/-! ## Streamed responses -/

/-- The status on the wire: 200 unless the reply was given another. -/
def wireStatus (replyStatus : Option JsNumber) : JsNumber := replyStatus.getD (.finite 200)

/-- The content type on the wire. -/
def wireContentType : String := "text/event-stream"

/-- The client reads the stream with the event schemas of the session. -/
def StreamUnderstood (runtime : JsRuntime) (responses : ResponsesByStatusCode Schema)
    (resolved : ResolvedApiResponse Body) (replyStatus : Option JsNumber) : Prop :=
  ∃ selection, streamResult runtime responses resolved = .ok selection ∧
    resolveResponseEntry runtime responses (wireStatus replyStatus) (some wireContentType) true =
      some (.sse selection.events)

/-- The entry of the status on the wire has, under its first media type that is
`text/event-stream`, the SSE body that the result selects. -/
def DeclaredOnTheWire (runtime : JsRuntime) (responses : ResponsesByStatusCode Schema)
    (result : ApiHandlerResult Body) (replyStatus : Option JsNumber) : Prop :=
  ∃ entry contentType events wireEntry content first,
    entryFor runtime responses result.status = some entry ∧
      selectedDescriptor entry result = some (contentType, .sse events) ∧
      entryFor runtime responses (wireStatus replyStatus) = some wireEntry ∧
      wireEntry.content = some content ∧
      matchDescriptor runtime content wireContentType = some first ∧ first.2 = .sse events

theorem descriptorToKind_eq_sse_iff {descriptor : BodyDescriptor Schema}
    {events : SseSchemaByEventName Schema} :
    descriptorToKind descriptor = .sse events ↔ descriptor = .sse events := by
  cases descriptor <;> simp [descriptorToKind]

/-- The client reads a stream exactly under a content map with an SSE body for it. -/
theorem resolveContractResponse_eq_sse_iff {runtime : JsRuntime} {entry : ResponseEntry Schema}
    {events : SseSchemaByEventName Schema} :
    resolveContractResponse runtime entry (some wireContentType) true = some (.sse events) ↔
      ∃ content first, entry.content = some content ∧
        matchDescriptor runtime content wireContentType = some first ∧ first.2 = .sse events := by
  have hne : wireContentType ≠ "" := by decide
  cases hcontent : entry.content with
  | some content =>
    rw [resolveContractResponse_content hcontent, resolveContentEntry_given hcontent hne]
    simp [Option.map_eq_some_iff, descriptorToKind_eq_sse_iff]
  | none =>
    refine iff_of_false ?_ (by simp)
    cases entry with
    | body => cases hcontent
    | noBody => exact nofun
    | json schema =>
      simp only [resolveContractResponse, givenContentType_some hne, matchTypedResponse]
      split <;> exact nofun

/-- **A streamed response is understood** exactly when the entry of the status on the wire,
200 unless the reply was given another, has the selected SSE body under its first media
type that is `text/event-stream`. -/
theorem stream_understood_iff {runtime : JsRuntime} {responses : ResponsesByStatusCode Schema}
    {result : ApiHandlerResult Body} {resolved : ResolvedApiResponse Body}
    (h : resolveResponseRepresentation runtime responses result = .ok resolved)
    (hsse : resolved.isSse = true) (replyStatus : Option JsNumber) :
    StreamUnderstood runtime responses resolved replyStatus ↔
      DeclaredOnTheWire runtime responses result replyStatus := by
  obtain ⟨entry, contentType, events, selection, hentry, hselected, hstream, hevents⟩ :=
    streamResult_events h hsse
  subst hevents
  have hunderstood : StreamUnderstood runtime responses resolved replyStatus ↔
      ∃ wireEntry, entryFor runtime responses (wireStatus replyStatus) = some wireEntry ∧
        resolveContractResponse runtime wireEntry (some wireContentType) true =
          some (.sse selection.events) := by
    simp [StreamUnderstood, hstream, resolveResponseEntry_eq, Option.bind_eq_some_iff]
  rw [hunderstood]
  constructor
  · rintro ⟨wireEntry, hwire, hclient⟩
    obtain ⟨content, first, hcontent, hfirst, hsame⟩ :=
      resolveContractResponse_eq_sse_iff.1 hclient
    exact ⟨entry, contentType, selection.events, wireEntry, content, first, hentry, hselected,
      hwire, hcontent, hfirst, hsame⟩
  · rintro ⟨entry', contentType', events', wireEntry, content, first, hentry', hselected', hwire,
      hcontent, hfirst, hsame⟩
    rw [hentry] at hentry'
    cases hentry'
    rw [hselected] at hselected'
    cases hselected'
    exact ⟨wireEntry, hwire,
      resolveContractResponse_eq_sse_iff.2 ⟨content, first, hcontent, hfirst, hsame⟩⟩

/-- A stream declared under one status. -/
def streamResponses (status : String) : ResponsesByStatusCode ℕ :=
  ⟨[(status, streamEntry "text/event-stream" 0)], List.nodup_singleton status⟩

def streamedResult (status : ℚ) : ApiHandlerResult Unit :=
  { status := .finite status, body := some () }

theorem streamedResult_understood :
    ∃ resolved, resolveResponseRepresentation JsRuntime.ascii (streamResponses "200")
        (streamedResult 200) = .ok resolved ∧ resolved.isSse = true ∧
      StreamUnderstood JsRuntime.ascii (streamResponses "200") resolved none := by
  have hresolved : resolveResponseRepresentation JsRuntime.ascii (streamResponses "200")
      (streamedResult 200) = .ok ⟨.finite 200, some "text/event-stream", some (), true⟩ := rfl
  refine ⟨_, hresolved, rfl, (stream_understood_iff hresolved rfl none).2 ?_⟩
  exact ⟨_, _, _, _, _, _, rfl, rfl, rfl, rfl, rfl, rfl⟩

/-- A stream declared under 201 goes out as 200, for which the contract has no entry. -/
theorem streamedResult_not_understood :
    ∃ resolved, resolveResponseRepresentation JsRuntime.ascii (streamResponses "201")
        (streamedResult 201) = .ok resolved ∧ resolved.isSse = true ∧
      ¬ StreamUnderstood JsRuntime.ascii (streamResponses "201") resolved none := by
  refine ⟨⟨.finite 201, some "text/event-stream", some (), true⟩, rfl, rfl, ?_⟩
  rintro ⟨selection, -, hclient⟩
  have hentry : entryFor JsRuntime.ascii (streamResponses "201") (.finite 200) = none := by
    rw [entryFor, statusKeys_ok]
    rfl
  have hwire : wireStatus none = .finite 200 := rfl
  rw [resolveResponseEntry_eq, hwire, hentry] at hclient
  cases hclient

end SharedTsLibs.FastifyApiContracts
