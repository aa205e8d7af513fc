import SharedTsLibs.FastifyApiContracts.BuildFastifyApiRoute
import SharedTsLibs.Lib.Precedence

/-!
# SSE selection and the lookup of the contract

`sse.start()` searches the SSE representations of a contract key by key; the contract
itself stops at the first entry it has for a status.

* `findSelection_eq` — what is found under one status key.
* `resolveSseSelection_events` — selecting among several representations is searching.
* `streamResult_events` — a streamed result is validated against the descriptor it
  selects.
* `start_respects_lookup_iff` — when a selection is the contract's own.
-/

namespace SharedTsLibs.FastifyApiContracts

open SharedTsLibs.ApiContracts

variable {Schema Body : Type}

/-! ## Representations under a status key -/

/-- The event schemas of an SSE body. -/
def sseEvents : BodyDescriptor Schema → Option (SseSchemaByEventName Schema)
  | .sse schemaByEventName => some schemaByEventName
  | _ => none

/-- The event schemas of the SSE body that an entry declares under a media type. -/
def sseEventsAt (contentType : String) (entry : ResponseEntry Schema) :
    Option (SseSchemaByEventName Schema) :=
  entry.content.bind fun content => (content.own? contentType).bind sseEvents

theorem sseEvents_eq_some_iff {descriptor : BodyDescriptor Schema}
    {events : SseSchemaByEventName Schema} :
    sseEvents descriptor = some events ↔ descriptor = .sse events := by
  cases descriptor <;> simp [sseEvents]

theorem sseEventsAt_eq_some_iff {contentType : String} {entry : ResponseEntry Schema}
    {events : SseSchemaByEventName Schema} :
    sseEventsAt contentType entry = some events ↔
      ∃ content, entry.content = some content ∧ content.own? contentType = some (.sse events) := by
  simp [sseEventsAt, Option.bind_eq_some_iff, sseEvents_eq_some_iff]

/-- The selections are the SSE bodies that the entries declare. -/
theorem mem_getSseSelections {responses : ResponsesByStatusCode Schema}
    {selection : SseRuntimeSelection Schema} :
    selection ∈ getSseSelections responses ↔
      (responses.own? selection.statusCode).bind (sseEventsAt selection.contentType) =
        some selection.events := by
  obtain ⟨statusCode, contentType, events⟩ := selection
  rw [Option.bind_eq_some_iff, getSseSelections, List.mem_flatMap]
  constructor
  · rintro ⟨⟨key, entry⟩, hentry, hmem⟩
    cases hcontent : entry.content with
    | none => simp [hcontent] at hmem
    | some content =>
      simp only [hcontent, List.mem_filterMap] at hmem
      obtain ⟨⟨mediaType, descriptor⟩, hdescriptor, heq⟩ := hmem
      cases descriptor with
      | sse schemaByEventName =>
        cases heq
        exact ⟨entry, PlainObject.own?_eq_some_iff.2 hentry,
          sseEventsAt_eq_some_iff.2 ⟨content, hcontent, PlainObject.own?_eq_some_iff.2 hdescriptor⟩⟩
      | json | blob => cases heq
  · rintro ⟨entry, hentry, hevents⟩
    obtain ⟨content, hcontent, hown⟩ := sseEventsAt_eq_some_iff.1 hevents
    refine ⟨(statusCode, entry), PlainObject.own?_eq_some_iff.1 hentry, ?_⟩
    simp only [hcontent, List.mem_filterMap]
    exact ⟨(contentType, .sse events), PlainObject.own?_eq_some_iff.1 hown, rfl⟩

/-- What is found under a status key: the SSE body that its entry declares. -/
theorem findSelection_eq (responses : ResponsesByStatusCode Schema) (contentType key : String) :
    (findSelection (getSseSelections responses) contentType key).map (·.events) =
      (responses.own? key).bind (sseEventsAt contentType) := by
  cases hfind : findSelection (getSseSelections responses) contentType key with
  | some selection =>
    have hmem := mem_getSseSelections.1 (List.mem_of_find?_eq_some hfind)
    have hkeys : selection.statusCode = key ∧ selection.contentType = contentType := by
      simpa using List.find?_some hfind
    rw [hkeys.1, hkeys.2] at hmem
    rw [hmem]
    rfl
  | none =>
    cases hevents : (responses.own? key).bind (sseEventsAt contentType) with
    | none => rfl
    | some events =>
      have hmem : (⟨key, contentType, events⟩ : SseRuntimeSelection Schema) ∈
          getSseSelections responses := mem_getSseSelections.2 hevents
      exact absurd (List.find?_eq_none.1 hfind _ hmem) (by simp)

/-! ## Several representations -/

/-- The status keys a selection looks under, the most specific first. -/
def StatusCode.keys (runtime : JsRuntime) (statusCode : StatusCode) : List String :=
  statusCode.exactKey runtime :: statusCode.rangeKey.toList ++ ["default"]

theorem StatusCode.keys_number (runtime : JsRuntime) (n : JsNumber) :
    (StatusCode.number n).keys runtime = statusKeys runtime n := by
  rw [keys, rangeKey, floorRangeKey_eq]
  rfl

/-- The events a call of `sse.start()` selects, if it does not throw. -/
def startedEvents (runtime : JsRuntime) (responses : ResponsesByStatusCode Schema)
    (startOptions : SseStartOptions) : Option (SseSchemaByEventName Schema) :=
  (resolveSseSelection runtime (getSseSelections responses) startOptions).toOption.map (·.events)

/-- Among several representations the one is selected that a search of the status keys
finds. -/
theorem startedEvents_eq {runtime : JsRuntime} {responses : ResponsesByStatusCode Schema}
    (hseveral : 2 ≤ (getSseSelections responses).length) (statusCode : StatusCode)
    (contentType : String) :
    startedEvents runtime responses ⟨some statusCode, some contentType⟩ =
      Precedence.searching responses.own? (sseEventsAt contentType)
        (statusCode.keys runtime) := by
  have hresolve : startedEvents runtime responses ⟨some statusCode, some contentType⟩ =
      (((findSelection (getSseSelections responses) contentType (statusCode.exactKey runtime)).or
        (statusCode.rangeKey.bind (findSelection (getSseSelections responses) contentType))).or
          (findSelection (getSseSelections responses) contentType "default")).map
            SseRuntimeSelection.events := by
    unfold startedEvents resolveSseSelection
    generalize getSseSelections responses = selections at hseveral ⊢
    obtain _ | ⟨first, _ | ⟨second, rest⟩⟩ := selections
    · simp at hseveral
    · simp at hseveral
    · simp only
      split
      · rename_i selection hfound
        rw [hfound]
        rfl
      · rename_i hfound
        rw [hfound]
        rfl
  have hrange : (statusCode.rangeKey.bind
      (findSelection (getSseSelections responses) contentType)).map SseRuntimeSelection.events =
        statusCode.rangeKey.bind fun key =>
          (responses.own? key).bind (sseEventsAt contentType) := by
    rw [Option.map_bind]
    exact congrArg statusCode.rangeKey.bind (funext (findSelection_eq responses contentType))
  rw [hresolve, Option.map_or, Option.map_or, findSelection_eq, findSelection_eq, hrange,
    Precedence.searching, StatusCode.keys, Precedence.findSome?_specific]

/-! ## Streamed results -/

/-- The selection a result is streamed as has the events of the descriptor the result
selects. -/
theorem streamResult_events {runtime : JsRuntime} {responses : ResponsesByStatusCode Schema}
    {result : ApiHandlerResult Body} {resolved : ResolvedApiResponse Body}
    (h : resolveResponseRepresentation runtime responses result = .ok resolved)
    (hsse : resolved.isSse = true) :
    ∃ entry contentType events selection,
      entryFor runtime responses result.status = some entry ∧
        selectedDescriptor entry result = some (contentType, .sse events) ∧
        streamResult runtime responses resolved = .ok selection ∧ selection.events = events := by
  obtain ⟨entry, hentry, hunder⟩ := resolveResponseRepresentation_eq_ok.1 h
  have hstatus := resolveUnder_status hunder
  cases selected_of_resolveUnder hunder with
  | noBody _ _ hnot | json _ _ hnot | inherited _ _ _ _ hnot =>
    rw [hnot] at hsse
    cases hsse
  | @descriptor content contentType descriptor hcontent hselected hown hcontentType hdescriptor =>
    obtain ⟨events, rfl⟩ : ∃ events, descriptor = .sse events := by
      cases descriptor with
      | sse events => exact ⟨events, rfl⟩
      | json | blob =>
        rw [hdescriptor] at hsse
        cases hsse
    have hevents : sseEventsAt contentType entry = some events :=
      sseEventsAt_eq_some_iff.2 ⟨content, hcontent, hown⟩
    obtain ⟨key, -, hkey⟩ : ∃ key ∈ statusKeys runtime result.status,
        responses.own? key = some entry := List.exists_of_findSome?_eq_some hentry
    have hmem : (⟨key, contentType, events⟩ : SseRuntimeSelection Schema) ∈
        getSseSelections responses := by
      rw [mem_getSseSelections, hkey]
      exact hevents
    have hstream : streamResult runtime responses resolved =
        resolveSseSelection runtime (getSseSelections responses)
          ⟨some (.number result.status), some contentType⟩ := by
      rw [streamResult, hstatus, hcontentType]
    refine ⟨entry, contentType, events, ?_⟩
    rw [hstream]
    by_cases hseveral : 2 ≤ (getSseSelections responses).length
    · -- searching finds what the lookup stops at
      have hstop : Precedence.stopping responses.own? (sseEventsAt contentType)
          ((StatusCode.number result.status).keys runtime) = some events := by
        rw [StatusCode.keys_number, Precedence.stopping, ← entryFor, hentry]
        exact hevents
      have hstarted : startedEvents runtime responses
          ⟨some (.number result.status), some contentType⟩ = some events := by
        rw [startedEvents_eq hseveral, Precedence.searching_eq_of_stopping hstop]
      rw [startedEvents, Option.map_eq_some_iff] at hstarted
      obtain ⟨selection, hselection, heq⟩ := hstarted
      refine ⟨selection, hentry, hselected, ?_, heq⟩
      cases hresolve : resolveSseSelection runtime (getSseSelections responses)
          ⟨some (.number result.status), some contentType⟩ with
      | error e =>
        rw [hresolve] at hselection
        cases hselection
      | ok selection' =>
        rw [hresolve] at hselection
        cases hselection
        rfl
    · -- the only representation is the selected one
      generalize getSseSelections responses = selections at hmem hseveral ⊢
      obtain _ | ⟨only, _ | ⟨second, rest⟩⟩ := selections
      · cases hmem
      · rw [List.mem_singleton] at hmem
        exact ⟨only, hentry, hselected, rfl, by rw [← hmem]⟩
      · exact absurd (by simp) hseveral

/-! ## Selections -/

/-- The entry that the contract's own lookup chooses for the status of a selection. -/
def chosenEntry (runtime : JsRuntime) (responses : ResponsesByStatusCode Schema)
    (statusCode : StatusCode) : Option (ResponseEntry Schema) :=
  (statusCode.keys runtime).findSome? responses.own?

/-- The chosen entry declares an SSE body under the media type, or no entry of the status
does. -/
def NoFallThrough (runtime : JsRuntime) (responses : ResponsesByStatusCode Schema)
    (statusCode : StatusCode) (contentType : String) : Prop :=
  ((chosenEntry runtime responses statusCode).bind (sseEventsAt contentType)).isSome ∨
    ∀ key ∈ statusCode.keys runtime,
      (responses.own? key).bind (sseEventsAt contentType) = none

/-- **SSE selection respects the lookup of the contract**: a streamed result is validated
against the event schemas of the descriptor it selects, and a call of `sse.start()` on a
contract with several representations selects the events that the chosen entry declares
under the media type, and throws where it declares none, exactly when the search does not
fall through to an entry that is less specific. -/
theorem start_respects_lookup_iff (runtime : JsRuntime) (responses : ResponsesByStatusCode Schema) :
    (∀ (result : ApiHandlerResult Body) (resolved : ResolvedApiResponse Body),
      resolveResponseRepresentation runtime responses result = .ok resolved →
      resolved.isSse = true → ∃ entry contentType events selection,
        entryFor runtime responses result.status = some entry ∧
          selectedDescriptor entry result = some (contentType, .sse events) ∧
          streamResult runtime responses resolved = .ok selection ∧ selection.events = events) ∧
      ∀ (statusCode : StatusCode) (contentType : String),
        2 ≤ (getSseSelections responses).length →
        (startedEvents runtime responses ⟨some statusCode, some contentType⟩ =
            (chosenEntry runtime responses statusCode).bind (sseEventsAt contentType) ↔
          NoFallThrough runtime responses statusCode contentType) := by
  refine ⟨fun result resolved h hsse => streamResult_events h hsse, ?_⟩
  intro statusCode contentType hseveral
  rw [startedEvents_eq hseveral]
  exact Precedence.searching_eq_stopping_iff

/-! ## Concrete contracts -/

theorem statusKeys_ok : statusKeys JsRuntime.ascii (.finite 200) = ["200", "2xx", "default"] := by
  have hrange : getRangeKey (.finite 200) = some "2xx" := by norm_num [getRangeKey]
  rw [statusKeys, hrange]
  rfl

/-- One event, under a schema. -/
def tickEvents (schema : ℕ) : SseSchemaByEventName ℕ := ⟨[("tick", schema)], by simp⟩

def streamEntry (contentType : String) (schema : ℕ) : ResponseEntry ℕ :=
  .body ⟨[(contentType, .sse (tickEvents schema))], by simp⟩ false

/-- Three streams: two under exact codes, one under `default`. -/
def feedResponses : ResponsesByStatusCode ℕ :=
  ⟨[("200", streamEntry "text/event-stream" 0), ("202", streamEntry "application/x-ndjson" 1),
    ("default", streamEntry "application/x-ndjson" 2)], by decide⟩

theorem feedResponses_several : 2 ≤ (getSseSelections feedResponses).length := by decide

theorem feedResponses_accepted :
    2 ≤ (getSseSelections feedResponses).length ∧
      startedEvents JsRuntime.ascii feedResponses
          ⟨some (.number (.finite 202)), some "application/x-ndjson"⟩ = some (tickEvents 1) :=
  ⟨feedResponses_several,
    ((@start_respects_lookup_iff ℕ Unit JsRuntime.ascii feedResponses).2
      (.number (.finite 202)) "application/x-ndjson" feedResponses_several).2 (Or.inl rfl)⟩

/-- The entry for 200 declares no `application/x-ndjson`, but the search falls through to
`default` and starts its stream. -/
theorem feedResponses_falls_through :
    2 ≤ (getSseSelections feedResponses).length ∧
      (chosenEntry JsRuntime.ascii feedResponses (.number (.finite 200))).bind
          (sseEventsAt "application/x-ndjson") = none ∧
      startedEvents JsRuntime.ascii feedResponses
          ⟨some (.number (.finite 200)), some "application/x-ndjson"⟩ = some (tickEvents 2) := by
  refine ⟨feedResponses_several, rfl, ?_⟩
  rw [startedEvents_eq feedResponses_several, StatusCode.keys_number, statusKeys_ok]
  rfl

end SharedTsLibs.FastifyApiContracts
