import SharedTsLibs.FastifyApiContracts.SseUtils

/-!
# Resolving a handler result

`buildFastifyApiRoute.ts`: which representation of the contract the result of a handler
selects, and whether it is streamed.

* `resolveResponseRepresentation` — the effective content type of a result.
* `getSseSelections` — the SSE representations of a contract.
* `streamResult` — the SSE representation that a result is streamed as.
* `selectedDescriptor`, `resolveResponseRepresentation_eq_ok` — the descriptor that a
  result selects, and what the resolved response says of it.
-/

namespace SharedTsLibs.FastifyApiContracts

open SharedTsLibs.ApiContracts

variable {Schema Body : Type}

/-- What a handler returns; `none` is the body `null`. -/
structure ApiHandlerResult (Body : Type) where
  status : JsNumber
  contentType : Option String := none
  body : Option Body

structure ResolvedApiResponse (Body : Type) where
  status : JsNumber
  /-- `none` for a body-less response. -/
  contentType : Option String
  body : Option Body
  isSse : Bool

inductive ResolveError where
  | noResponse (status : JsNumber)
  | noSuchContentType (contentType : String) (status : JsNumber)
  | noContentType (status : JsNumber)

def ResolveError.message (runtime : JsRuntime) : ResolveError → String
  | .noResponse status =>
    "Contract does not declare a response for status " ++ runtime.numberToString status ++ "."
  | .noSuchContentType contentType status =>
    "Contract does not declare content-type \"" ++ contentType ++ "\" for status " ++
      runtime.numberToString status ++ "."
  | .noContentType status =>
    "Contract does not declare a content-type for status " ++ runtime.numberToString status ++ "."

/-- `entry.content?.[contentType]`. -/
def contentProperty (entry : ResponseEntry Schema) (contentType : String) :
    Property (BodyDescriptor Schema) :=
  match entry.content with
  | some content => content.access contentType
  | none => .absent

/-- The representation that a result selects under the entry of its status. -/
def resolveUnder (entry : ResponseEntry Schema) (result : ApiHandlerResult Body) :
    Except ResolveError (ResolvedApiResponse Body) :=
  match result.contentType with
  | some contentType =>
    match contentProperty entry contentType with
    | .own descriptor =>
      .ok ⟨result.status, some contentType, result.body, isSseBody descriptor⟩
    | .inherited => .ok ⟨result.status, some contentType, result.body, false⟩
    | .absent => .error (.noSuchContentType contentType result.status)
  | none =>
    if isJsonResponse entry = true then
      .ok ⟨result.status, some "application/json", result.body, false⟩
    else if entry.allowNoBody = true ∧ result.body.isNone = true then
      .ok ⟨result.status, none, result.body, false⟩
    else
      match entry.content.bind fun content => content.entries.head? with
      | some (contentType, descriptor) =>
        .ok ⟨result.status, some contentType, result.body, isSseBody descriptor⟩
      | none => .error (.noContentType result.status)

def resolveResponseRepresentation (runtime : JsRuntime) (responses : ResponsesByStatusCode Schema)
    (result : ApiHandlerResult Body) : Except ResolveError (ResolvedApiResponse Body) :=
  let exactEntry := responses.own? (runtime.numberToString result.status)
  let rangeEntry := (floorRangeKey result.status).bind responses.own?
  match (exactEntry.or rangeEntry).or (responses.own? "default") with
  | none => .error (.noResponse result.status)
  | some entry => resolveUnder entry result

def getSseSelections (responses : ResponsesByStatusCode Schema) :
    List (SseRuntimeSelection Schema) :=
  responses.entries.flatMap fun (statusCode, entry) =>
    match entry.content with
    | none => []
    | some content =>
      content.entries.filterMap fun (contentType, descriptor) =>
        match descriptor with
        | .sse schemaByEventName => some ⟨statusCode, contentType, schemaByEventName⟩
        | _ => none

/-- The branch of `handleApiRoute` that streams: the representation whose event schemas
the session validates. -/
def streamResult (runtime : JsRuntime) (responses : ResponsesByStatusCode Schema)
    (resolved : ResolvedApiResponse Body) :
    Except SseSelectionError (SseRuntimeSelection Schema) :=
  resolveSseSelection runtime (getSseSelections responses)
    { statusCode := some (.number resolved.status), contentType := resolved.contentType }

/-! ## The selected descriptor -/

/-- The descriptor that a result selects, with its media type: the one of its content type,
or else the first. -/
def selectedDescriptor (entry : ResponseEntry Schema) (result : ApiHandlerResult Body) :
    Option (String × BodyDescriptor Schema) :=
  match result.contentType with
  | some contentType =>
    entry.content.bind fun content => (content.own? contentType).map fun d => (contentType, d)
  | none => entry.content.bind fun content => content.entries.head?

/-- What a resolved response has selected under its entry: nothing to send, a bare schema, a
descriptor, or a property that every content map inherits. -/
inductive Selected (entry : ResponseEntry Schema) (result : ApiHandlerResult Body)
    (resolved : ResolvedApiResponse Body) : Prop where
  | noBody : resolved.contentType = none → entry.allowNoBody = true → resolved.isSse = false →
      Selected entry result resolved
  | json {schema : Schema} : entry = .json schema →
      resolved.contentType = some "application/json" → resolved.isSse = false →
      Selected entry result resolved
  | descriptor {content : ResponseContentMap Schema} {contentType : String}
      {descriptor : BodyDescriptor Schema} : entry.content = some content →
      selectedDescriptor entry result = some (contentType, descriptor) →
      content.own? contentType = some descriptor → resolved.contentType = some contentType →
      resolved.isSse = isSseBody descriptor → Selected entry result resolved
  | inherited {content : ResponseContentMap Schema} {contentType : String} :
      entry.content = some content → selectedDescriptor entry result = none →
      content.own? contentType = none → resolved.contentType = some contentType →
      resolved.isSse = false → Selected entry result resolved

theorem floorRangeKey_eq (n : JsNumber) : floorRangeKey n = getRangeKey n := by
  cases n with
  | infinity | nan => rfl
  | finite q =>
    have hfloor : ∀ k : ℤ, (100 * k : ℚ) ≤ q → q < 100 * k + 100 → ⌊q / 100⌋ = k := by
      intro k hle hlt
      rw [Int.floor_eq_iff]
      constructor
      · linarith
      · linarith
    simp only [floorRangeKey, getRangeKey]
    split_ifs with hall h1 h2 h3 h4 h5 h1 h2 h3 h4 h5
    · rw [hfloor 1 (by norm_num; exact h1.1) (by norm_num; exact h1.2)]
      rfl
    · rw [hfloor 2 (by norm_num; exact h2.1) (by norm_num; exact h2.2)]
      rfl
    · rw [hfloor 3 (by norm_num; exact h3.1) (by norm_num; exact h3.2)]
      rfl
    · rw [hfloor 4 (by norm_num; exact h4.1) (by norm_num; exact h4.2)]
      rfl
    · rw [hfloor 5 (by norm_num; exact h5.1) (by norm_num; exact h5.2)]
      rfl
    all_goals grind

/-- A result is resolved under the entry that the contract has for its status. -/
theorem resolveResponseRepresentation_eq_ok {runtime : JsRuntime}
    {responses : ResponsesByStatusCode Schema} {result : ApiHandlerResult Body}
    {resolved : ResolvedApiResponse Body} :
    resolveResponseRepresentation runtime responses result = .ok resolved ↔
      ∃ entry, entryFor runtime responses result.status = some entry ∧
        resolveUnder entry result = .ok resolved := by
  have hentry : ((responses.own? (runtime.numberToString result.status)).or
      ((floorRangeKey result.status).bind responses.own?)).or (responses.own? "default") =
      entryFor runtime responses result.status := by
    rw [floorRangeKey_eq, entryFor, statusKeys, Precedence.findSome?_specific]
  unfold resolveResponseRepresentation
  simp only [hentry]
  cases entryFor runtime responses result.status with
  | none => simp
  | some entry => simp

theorem resolveUnder_status {entry : ResponseEntry Schema} {result : ApiHandlerResult Body}
    {resolved : ResolvedApiResponse Body} (h : resolveUnder entry result = .ok resolved) :
    resolved.status = result.status := by
  unfold resolveUnder at h
  repeat' split at h
  all_goals cases h
  all_goals rfl

/-- What a resolved response has selected. -/
theorem selected_of_resolveUnder {entry : ResponseEntry Schema} {result : ApiHandlerResult Body}
    {resolved : ResolvedApiResponse Body} (h : resolveUnder entry result = .ok resolved) :
    Selected entry result resolved := by
  unfold resolveUnder at h
  split at h
  · rename_i contentType hcontentType
    unfold contentProperty at h
    cases hcontent : entry.content with
    | none =>
      rw [hcontent] at h
      cases h
    | some content =>
      simp only [hcontent] at h
      cases haccess : content.access contentType with
      | own descriptor =>
        have hown := PlainObject.access_eq_own_iff.1 haccess
        simp only [haccess] at h
        cases h
        refine .descriptor hcontent ?_ hown rfl rfl
        simp [selectedDescriptor, hcontentType, hcontent, hown]
      | inherited =>
        have hown := (PlainObject.access_eq_inherited_iff.1 haccess).1
        simp only [haccess] at h
        cases h
        refine .inherited hcontent ?_ hown rfl rfl
        simp [selectedDescriptor, hcontentType, hcontent, hown]
      | absent =>
        simp only [haccess] at h
        cases h
  · rename_i hcontentType
    split at h
    · rename_i hjson
      cases h
      cases entry with
      | json schema => exact .json rfl rfl rfl
      | body | noBody => cases hjson
    · split at h
      · rename_i hbody
        cases h
        exact .noBody rfl hbody.1 rfl
      · split at h
        · rename_i contentType descriptor hhead
          cases h
          obtain ⟨content, hcontent, hfirst⟩ := Option.bind_eq_some_iff.1 hhead
          refine .descriptor hcontent ?_ ?_ rfl rfl
          · simp [selectedDescriptor, hcontentType, hcontent, hfirst]
          · exact PlainObject.own?_eq_some_iff.2 (List.mem_of_head? hfirst)
        · cases h

end SharedTsLibs.FastifyApiContracts
