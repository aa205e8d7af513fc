import SharedTsLibs.BackendHttpClient.SendByApiContract

/-!
# Runs of a call by contract

Where a call stands after any number of steps of its network and its caller: what its request
has come to, what the caller is told, and who has the body of the response.

* `RequestInvariant` — the request, with retries or without, has come here by its steps.
* `Represents` — an outcome is what the contract makes of a response.
* `SendInvariant` — where the call stands, and who has the body.
* `sendInvariant_run` — it holds along every run.
-/

namespace SharedTsLibs.BackendHttpClient

open ApiContracts StepSystem

variable {Schema J D E : Type}

/-! ## The request -/

section Request

/-- A request sent once is where its phase says. -/
def OncePhase (s : RetryState) : Phase → Prop
  | .attempting => ∃ aborted, s.current = Attempt.start aborted
  | .settled (.resolved response) => s.current.Answered (.response response)
  | .settled (.rejected (.attemptError err)) => s.current.Answered (.error err)
  | _ => False

/-- A request sent once has one attempt, and nothing disposes of its body. -/
structure OnceInvariant (s : RetryState) : Prop where
  earlier : s.earlier = []
  dumps : s.current.dumps = 0
  phase : OncePhase s s.phase

variable (client : ContractClient Schema J D E)

/-- The request has come here by its steps. -/
def RequestInvariant (s : RetryState) : Prop :=
  match client.retry with
  | some config => RetryInvariant (resolveRetryConfig config) s
  | none => OnceInvariant s

/-- The request may end with the response: it is not one to be retried, or there is no attempt
left. -/
def IsFinal (s : RetryState) (response : ResponseData) : Prop :=
  ∀ config, client.retry = some config →
    isLastAttempt (resolveRetryConfig config) s.earlier.length = true ∨
      response.statusCode ∉ (resolveRetryConfig config).statusCodes

/-- What the call relies on of the request: the body of the response it resolves with is left to
the call, and that of every other response was disposed of once. -/
structure RequestAccounted (s : RetryState) : Prop where
  earlier : ∀ a ∈ s.earlier, a.HasResponse → a.dumps = 1
  resolved : ∀ response, s.phase = .settled (.resolved response) →
    s.current.Answered (.response response) ∧ s.current.dumps = 0 ∧ IsFinal client s response
  other : (∀ response, s.phase ≠ .settled (.resolved response)) → s.current.HasResponse →
    s.current.dumps = 1
  unanswered : ¬ s.current.HasResponse → s.current.dumps = 0

variable {client} {s s' : RetryState}

theorem Attempt.hasResponse_of_isResponse {a : Attempt} {answer : Answer}
    (hanswer : a.answer = some answer) (h : answer.outcome.isResponse = true) :
    a.HasResponse := by
  cases houtcome : answer.outcome with
  | response response => exact ⟨response, answer, hanswer, houtcome⟩
  | error err =>
    rw [houtcome] at h
    cases h

theorem Attempt.isResponse_of_hasResponse {a : Attempt} {answer : Answer}
    (hanswer : a.answer = some answer) (h : a.HasResponse) :
    answer.outcome.isResponse = true := by
  obtain ⟨response, answer', hanswer', houtcome⟩ := h
  cases hanswer.symm.trans hanswer'
  rw [houtcome]
  rfl

/-- The body of an attempt that was retried was disposed of once, if there was one. -/
theorem Attempt.Retried.dumps_eq {config : ResolvedRetryConfig} {number : ℕ} {a : Attempt}
    (h : a.Retried config number) :
    (a.HasResponse → a.dumps = 1) ∧ (¬ a.HasResponse → a.dumps = 0) := by
  obtain ⟨answer, hanswer, -, hdumps⟩ := h.answer
  refine ⟨fun hresponse => ?_, fun hresponse => ?_⟩
  · rw [hdumps, if_pos (Attempt.isResponse_of_hasResponse hanswer hresponse)]
  · rw [hdumps, if_neg (mt (Attempt.hasResponse_of_isResponse hanswer) hresponse)]

theorem Attempt.start_not_hasResponse (aborted : Bool) :
    ¬ (Attempt.start aborted).HasResponse := by
  rintro ⟨response, answer, hanswer, -⟩
  cases hanswer

theorem retry_accounted {config : Option RetryConfig} (hretry : client.retry = some config)
    (h : RetryInvariant (resolveRetryConfig config) s) : RequestAccounted client s := by
  have hearlier : ∀ a ∈ s.earlier, a.HasResponse → a.dumps = 1 := by
    intro a ha
    obtain ⟨i, hi⟩ := List.mem_iff_getElem?.1 ha
    exact (h.earlier i a hi).1.dumps_eq.1
  have hretried : s.current.Retried (resolveRetryConfig config) s.earlier.length →
      (∀ response, s.phase ≠ .settled (.resolved response)) → RequestAccounted client s :=
    fun hcurrent hphase =>
      ⟨hearlier, fun response hp => absurd hp (hphase response),
        fun _ => hcurrent.dumps_eq.1, hcurrent.dumps_eq.2⟩
  cases hp : s.phase with
  | attempting =>
    obtain ⟨aborted, hcurrent⟩ := h.at hp
    refine ⟨hearlier, by simp [hp], fun _ hresponse => ?_, fun _ => ?_⟩
    · exact absurd (hcurrent ▸ hresponse) (Attempt.start_not_hasResponse aborted)
    · simp [hcurrent, Attempt.start]
  | sleeping => exact hretried (h.at hp).1 (by simp [hp])
  | discarding dumpPending sleepPending => exact hretried (h.at hp).1 (by simp [hp])
  | settled settlement =>
    rcases settlement with response | (err | _ | _)
    · obtain ⟨hanswered, hdumps, -, hfinal⟩ := h.at hp
      refine ⟨hearlier, ?_, fun hne => absurd hp (hne response), fun _ => hdumps⟩
      intro response' hp'
      cases hp.symm.trans hp'
      refine ⟨hanswered, hdumps, fun config' hconfig => ?_⟩
      cases hretry.symm.trans hconfig
      exact hfinal.imp_right of_decide_eq_false
    · obtain ⟨hanswered, hdumps, -⟩ := h.at hp
      refine ⟨hearlier, by simp [hp], fun _ hresponse => ?_, fun _ => hdumps⟩
      exact absurd hresponse (answered_error_not_hasResponse hanswered)
    · exact hretried (h.at hp).1 (by simp [hp])
    · exact hretried (h.at hp).1 (by simp [hp])

/-- What the invariant says in a phase. -/
theorem OnceInvariant.at {phase : Phase} (h : OnceInvariant s) (hp : s.phase = phase) :
    OncePhase s phase := hp ▸ h.phase

theorem once_accounted (hretry : client.retry = none) (h : OnceInvariant s) :
    RequestAccounted client s := by
  refine ⟨by simp [h.earlier], ?_, ?_, fun _ => h.dumps⟩
  · intro response hp
    exact ⟨h.at hp, h.dumps, fun config hconfig => by simp [hretry] at hconfig⟩
  · intro hne hresponse
    cases hp : s.phase with
    | attempting =>
      obtain ⟨aborted, hcurrent⟩ := h.at hp
      exact absurd (hcurrent ▸ hresponse) (Attempt.start_not_hasResponse aborted)
    | sleeping => exact (h.at hp).elim
    | discarding dumpPending sleepPending => exact (h.at hp).elim
    | settled settlement =>
      rcases settlement with response | (err | _ | _)
      · exact absurd hp (hne response)
      · exact absurd hresponse (answered_error_not_hasResponse (h.at hp))
      · exact (h.at hp).elim
      · exact (h.at hp).elim

theorem requestAccounted_of_invariant (h : RequestInvariant client s) :
    RequestAccounted client s := by
  unfold RequestInvariant at h
  cases hretry : client.retry with
  | some config =>
    rw [hretry] at h
    exact retry_accounted hretry h
  | none =>
    rw [hretry] at h
    exact once_accounted hretry h

theorem start_requestInvariant : RequestInvariant client RetryState.start := by
  unfold RequestInvariant
  cases client.retry with
  | some config => exact start_invariant
  | none => exact ⟨rfl, rfl, false, rfl⟩

theorem requestOnce_invariant (h : OnceInvariant s) {l : Label}
    (hstep : requestOnce s l = some s') : OnceInvariant s' := by
  cases l with
  | answers answer =>
    rcases hp : s.phase with _ | _ | _ | _ <;>
      simp only [requestOnce, hp, reduceCtorEq] at hstep
    cases houtcome : answer.outcome with
    | response response =>
      simp only [houtcome] at hstep
      cases hstep
      exact ⟨h.earlier, h.dumps, answer, rfl, houtcome⟩
    | error err =>
      simp only [houtcome] at hstep
      cases hstep
      exact ⟨h.earlier, h.dumps, answer, rfl, houtcome⟩
  | abort =>
    simp only [requestOnce] at hstep
    split_ifs at hstep
    cases hstep
    exact ⟨h.earlier, h.dumps, h.phase⟩
  | dumped => cases hstep
  | dumpRejects => cases hstep
  | slept => cases hstep

/-- A step of the request keeps its invariant. -/
theorem requestStep_invariant (h : RequestInvariant client s) {l : Label}
    (hstep : requestStep client s l = some s') : RequestInvariant client s' := by
  unfold RequestInvariant at h ⊢
  unfold requestStep at hstep
  cases hretry : client.retry with
  | some config =>
    rw [hretry] at h hstep
    exact step_invariant h l hstep
  | none =>
    rw [hretry] at h hstep
    exact requestOnce_invariant h hstep

/-- A request that has ended stays as it has ended. -/
theorem requestStep_settled {settlement : Settlement} (hp : s.phase = .settled settlement)
    {l : Label} (hstep : requestStep client s l = some s') :
    s'.phase = .settled settlement := by
  unfold requestStep at hstep
  cases hretry : client.retry with
  | some config =>
    rw [hretry] at hstep
    cases l with
    | abort =>
      simp only [step, hp] at hstep
      split_ifs at hstep
      cases hstep
      rfl
    | answers answer => simp [step, hp] at hstep
    | dumped => simp [step, hp] at hstep
    | dumpRejects => simp [step, hp] at hstep
    | slept => simp [step, hp] at hstep
  | none =>
    rw [hretry] at hstep
    cases l with
    | abort =>
      simp only [requestOnce] at hstep
      split_ifs at hstep
      cases hstep
      exact hp
    | answers answer => simp [requestOnce, hp] at hstep
    | dumped => cases hstep
    | dumpRejects => cases hstep
    | slept => cases hstep

end Request

/-! ## What is expected -/

section

variable (client : ContractClient Schema J D E)

/-- The method that the call reads the body with, unless the body is handed over unread. -/
def readingMethod : Option (ResponseKind Schema) → Option BodyMethod
  | none => some .text
  | some .noContent => some .dump
  | some (.json _) => some .json
  | some .blob | some (.sse _) => none

/-- The body of the response is handed over unread. -/
def HandsOver (response : ResponseData) : Prop :=
  readingMethod (resolvedResponseEntry client response) = none

/-- The parsed body is one of the kind. -/
inductive BodyFits : ResponseKind Schema → ParsedBody Schema D → Prop where
  | noContent : BodyFits .noContent .null
  | json {schema : Schema} {json : J} {value : D} (hparse : client.parse schema json = .ok value) :
      BodyFits (.json schema) (.data value)
  | blob : BodyFits .blob .handle
  | sse (schemaByEventName : SseSchemaByEventName Schema) :
      BodyFits (.sse schemaByEventName) (.events schemaByEventName)

/-- A response delivered is the one that came, its headers and its body parsed. -/
structure Delivers (response : ResponseData) (parsed : ParsedResponse Schema D) : Prop where
  statusCode : parsed.statusCode = response.statusCode
  headers : parseHeaders client response = .ok parsed.headers
  body : ∃ kind, resolvedResponseEntry client response = some kind ∧
    BodyFits client kind parsed.body

/-- An outcome is what the contract makes of a response. -/
def Represents (response : ResponseData) : SendOutcome Schema D E → Prop
  | .result parsed =>
    isCaptured client response.statusCode = false ∧ Delivers client response parsed
  | .error parsed =>
    isCaptured client response.statusCode = true ∧ Delivers client response parsed
  | .unexpected error =>
    resolvedResponseEntry client response = none ∧
      ∃ body, error = ⟨response.statusCode, normalizeResponseHeaders response.headers, body,
        client.summary⟩
  | .thrown (.request _) => False
  | .thrown (.body _) => ¬ HandsOver client response
  | .thrown (.bodySchema err) =>
    ∃ schema json, resolvedResponseEntry client response = some (.json schema) ∧
      client.parse schema json = .error err
  | .thrown (.headerSchema err) =>
    (resolvedResponseEntry client response).isSome ∧ parseHeaders client response = .error err

/-! ## The invariant -/

/-- What was done with the content of a body that was handed over. -/
def LazyAccounted (calls : List BodyMethod) : LazyBody Schema → Prop
  | .handle false => calls = []
  | .handle true => ∃ accessor : Accessor, calls = [accessor.method]
  | .events _ .suspendedStart => calls = []
  | .events _ .suspendedYield => calls = [.toWeb]
  | .events _ .completed => calls = [] ∨ calls = [.toWeb]

/-- The body handed over is of the kind. -/
inductive LazyFits : ResponseKind Schema → LazyBody Schema → Prop where
  | blob (consumed : Bool) : LazyFits .blob (.handle consumed)
  | sse (schemaByEventName : SseSchemaByEventName Schema) (generator : GeneratorState) :
      LazyFits (.sse schemaByEventName) (.events schemaByEventName generator)

/-- Who has the body, once the call has settled: the call has read it, or the caller was given
it, or the headers were refused. -/
inductive BodySettled (response : ResponseData) (s : SendState Schema D E) : Prop where
  | read (method : BodyMethod)
      (hmethod : readingMethod (resolvedResponseEntry client response) = some method)
      (hcalls : s.calls = [method]) (hgiven : s.given = none)
  | given (kind : ResponseKind Schema) (body : LazyBody Schema)
      (hkind : resolvedResponseEntry client response = some kind) (hfits : LazyFits kind body)
      (hheaders : ∃ headers, parseHeaders client response = .ok headers)
      (hgiven : s.given = some body) (haccounted : LazyAccounted s.calls body)
  | refused (hover : HandsOver client response)
      (hheaders : ∃ err, parseHeaders client response = .error err)
      (hcalls : s.calls = []) (hgiven : s.given = none)

/-- The call is where its phase says. -/
def SendPhaseInvariant (s : SendState Schema D E) : SendPhase Schema D E → Prop
  | .requesting =>
    (∀ settlement, s.request.phase ≠ .settled settlement) ∧ s.calls = [] ∧ s.given = none
  | .reading response kind =>
    s.request.phase = .settled (.resolved response) ∧
      resolvedResponseEntry client response = kind ∧ s.given = none ∧
      ∃ method, readingMethod kind = some method ∧ s.calls = [method]
  | .settled outcome =>
    (∃ reason, outcome = .thrown (.request reason) ∧
      s.request.phase = .settled (.rejected reason) ∧ s.calls = [] ∧ s.given = none) ∨
    ∃ response, s.request.phase = .settled (.resolved response) ∧
      Represents client response outcome ∧ BodySettled client response s

/-- The request and the call are where they should be. -/
structure SendInvariant (s : SendState Schema D E) : Prop where
  request : RequestInvariant client s.request
  phase : SendPhaseInvariant client s s.phase

end

section Invariant

variable {client : ContractClient Schema J D E} {s s' : SendState Schema D E}

theorem LazyFits.readingMethod_eq {kind : ResponseKind Schema} {body : LazyBody Schema}
    (h : LazyFits kind body) : readingMethod (some kind) = none := by
  cases h with
  | blob consumed => rfl
  | sse schemaByEventName generator => rfl

/-- A body of its kind, read or handed over. -/
theorem bodySettled_of_bodyFits {response : ResponseData} {kind : ResponseKind Schema}
    {body : ParsedBody Schema D} (hkind : resolvedResponseEntry client response = some kind)
    (hbody : BodyFits client kind body)
    (hheaders : ∃ headers, parseHeaders client response = .ok headers)
    (hcalls : s.calls = (readingMethod (some kind)).toList) (hgiven : s.given = body.handedOver) :
    BodySettled client response s := by
  cases hbody with
  | noContent => exact .read .dump (by rw [hkind]; rfl) hcalls hgiven
  | json hparse => exact .read .json (by rw [hkind]; rfl) hcalls hgiven
  | blob => exact .given _ _ hkind (.blob false) hheaders hgiven hcalls
  | sse schemaByEventName =>
    exact .given _ _ hkind (.sse schemaByEventName .suspendedStart) hheaders hgiven hcalls

/-- A parsed body that is delivered with its headers, the content taken as its kind asks. -/
theorem finish_invariant {response : ResponseData} {kind : ResponseKind Schema}
    {body : ParsedBody Schema D} (hrequest : RequestInvariant client s.request)
    (hresolved : s.request.phase = .settled (.resolved response))
    (hkind : resolvedResponseEntry client response = some kind) (hbody : BodyFits client kind body)
    (hcalls : s.calls = (readingMethod (some kind)).toList) (hgiven : s.given = none) :
    SendInvariant client (finish client s response body) := by
  unfold finish
  cases hheaders : parseHeaders client response with
  | error err =>
    refine ⟨hrequest, .inr ⟨response, hresolved, ⟨by simp [hkind], hheaders⟩, ?_⟩⟩
    cases hmethod : readingMethod (some kind) with
    | none =>
      rw [hmethod] at hcalls
      exact .refused (by rw [HandsOver, hkind, hmethod]) ⟨err, hheaders⟩ hcalls hgiven
    | some method =>
      rw [hmethod] at hcalls
      exact .read method (by rw [hkind, hmethod]) hcalls hgiven
  | ok headers =>
    have hdelivers : Delivers client response ⟨response.statusCode, headers, body⟩ :=
      ⟨rfl, hheaders, kind, hkind, hbody⟩
    dsimp only
    split_ifs with hcaptured
    · refine ⟨hrequest, .inr ⟨response, hresolved, ⟨hcaptured, hdelivers⟩, ?_⟩⟩
      exact bodySettled_of_bodyFits hkind hbody ⟨headers, hheaders⟩ hcalls rfl
    · refine ⟨hrequest, .inr ⟨response, hresolved, ⟨eq_false_of_ne_true hcaptured, hdelivers⟩, ?_⟩⟩
      exact bodySettled_of_bodyFits hkind hbody ⟨headers, hheaders⟩ hcalls rfl

/-- The request has resolved. -/
theorem receiveResponse_invariant {response : ResponseData}
    (hrequest : RequestInvariant client s.request)
    (hresolved : s.request.phase = .settled (.resolved response)) (hcalls : s.calls = [])
    (hgiven : s.given = none) : SendInvariant client (receiveResponse client s response) := by
  unfold receiveResponse
  have htake : ∀ method, (s.take method).calls = [method] := fun method => by
    simp [SendState.take, hcalls]
  cases hkind : resolvedResponseEntry client response with
  | none => exact ⟨hrequest, hresolved, hkind, hgiven, .text, rfl, htake _⟩
  | some kind =>
    cases kind with
    | noContent => exact ⟨hrequest, hresolved, hkind, hgiven, .dump, rfl, htake _⟩
    | json schema => exact ⟨hrequest, hresolved, hkind, hgiven, .json, rfl, htake _⟩
    | blob => exact finish_invariant hrequest hresolved hkind .blob hcalls hgiven
    | sse schemaByEventName =>
      exact finish_invariant hrequest hresolved hkind (.sse _) hcalls hgiven

/-- The call goes on with its request. -/
theorem proceed_invariant {request : RetryState} (hinvariant : SendInvariant client s)
    (hrequest : RequestInvariant client request)
    (hsettled : ∀ settlement, s.request.phase = .settled settlement →
      request.phase = .settled settlement) :
    SendInvariant client (s.proceed client request) := by
  unfold SendState.proceed
  dsimp only
  have hphase := hinvariant.phase
  cases hp : s.phase with
  | requesting =>
    rw [hp] at hphase
    obtain ⟨-, hcalls, hgiven⟩ := hphase
    dsimp only
    split
    · rename_i response hresolved
      exact receiveResponse_invariant hrequest hresolved hcalls hgiven
    · rename_i reason hrejected
      exact ⟨hrequest, .inl ⟨reason, rfl, hrejected, hcalls, hgiven⟩⟩
    · rename_i hresolved hrejected
      refine ⟨hrequest, fun settlement hrequested => ?_, hcalls, hgiven⟩
      cases settlement with
      | resolved response => exact hresolved response hrequested
      | rejected reason => exact hrejected reason hrequested
  | reading response kind =>
    rw [hp] at hphase
    obtain ⟨hresolved, hrest⟩ := hphase
    exact ⟨hrequest, hsettled _ hresolved, hrest⟩
  | settled outcome =>
    rw [hp] at hphase
    rcases hphase with ⟨reason, houtcome, hrejected, hrest⟩ | ⟨response, hresolved, houtcome, hbody⟩
    · exact ⟨hrequest, .inl ⟨reason, houtcome, hsettled _ hrejected, hrest⟩⟩
    · refine ⟨hrequest, .inr ⟨response, hsettled _ hresolved, houtcome, ?_⟩⟩
      cases hbody with
      | read method hmethod hcalls hgiven => exact .read method hmethod hcalls hgiven
      | given kind body hkind hfits hheaders hgiven haccounted =>
        exact .given kind body hkind hfits hheaders hgiven haccounted
      | refused hover hheaders hcalls hgiven => exact .refused hover hheaders hcalls hgiven

/-- The body has been read for the call. -/
theorem readBody_invariant {response : ResponseData} {kind : Option (ResponseKind Schema)}
    {reading : Reading J E} (hinvariant : SendInvariant client s)
    (hp : s.phase = .reading response kind)
    (hstep : readBody client s response kind reading = some s') : SendInvariant client s' := by
  have hphase := hinvariant.phase
  rw [hp] at hphase
  obtain ⟨hresolved, rfl, hgiven, method, hmethod, hcalls⟩ := hphase
  have hread : ∀ outcome : SendOutcome Schema D E, BodySettled client response
      (s.settle outcome) := fun outcome => .read method hmethod hcalls hgiven
  have hfinish : ∀ {kind : ResponseKind Schema} {body : ParsedBody Schema D},
      resolvedResponseEntry client response = some kind → BodyFits client kind body →
      SendInvariant client (finish client s response body) := by
    intro kind body hkind hbody
    refine finish_invariant hinvariant.request hresolved hkind hbody ?_ hgiven
    rw [← hkind, hmethod, hcalls]
    rfl
  unfold readBody at hstep
  cases reading with
  | failed err =>
    cases hstep
    refine ⟨hinvariant.request, .inr ⟨response, hresolved, ?_, hread _⟩⟩
    show ¬ HandsOver client response
    simp [HandsOver, hmethod]
  | text body =>
    cases hkind : resolvedResponseEntry client response with
    | some kind => simp [hkind] at hstep
    | none =>
      rw [hkind] at hstep
      cases hstep
      exact ⟨hinvariant.request, .inr ⟨response, hresolved, ⟨hkind, body, rfl⟩, hread _⟩⟩
  | dumped =>
    dsimp only at hstep
    split at hstep
    · rename_i hkind
      cases hstep
      exact hfinish hkind .noContent
    · cases hstep
  | json json =>
    dsimp only at hstep
    split at hstep
    · rename_i schema hkind
      split at hstep
      · rename_i err hparse
        cases hstep
        exact ⟨hinvariant.request,
          .inr ⟨response, hresolved, ⟨schema, json, hkind, hparse⟩, hread _⟩⟩
      · rename_i data hparse
        cases hstep
        exact hfinish hkind (.json hparse)
    · cases hstep

/-- A call that has given a body to its caller has settled with a response. -/
theorem SendInvariant.of_given {body : LazyBody Schema} (hinvariant : SendInvariant client s)
    (hgiven : s.given = some body) :
    ∃ outcome response kind, s.phase = .settled outcome ∧
      s.request.phase = .settled (.resolved response) ∧ Represents client response outcome ∧
      resolvedResponseEntry client response = some kind ∧ LazyFits kind body ∧
      (∃ headers, parseHeaders client response = .ok headers) ∧ LazyAccounted s.calls body := by
  have hphase := hinvariant.phase
  cases hp : s.phase with
  | requesting =>
    rw [hp] at hphase
    simp [hgiven, SendPhaseInvariant] at hphase
  | reading response kind =>
    rw [hp] at hphase
    simp [hgiven, SendPhaseInvariant] at hphase
  | settled outcome =>
    rw [hp] at hphase
    rcases hphase with ⟨reason, -, -, -, hnone⟩ | ⟨response, hresolved, houtcome, hbody⟩
    · simp [hgiven] at hnone
    · cases hbody with
      | read method hmethod hcalls hnone => simp [hgiven] at hnone
      | refused hover hheaders hcalls hnone => simp [hgiven] at hnone
      | given kind body' hkind hfits hheaders hsome haccounted =>
        cases hgiven.symm.trans hsome
        exact ⟨outcome, response, kind, rfl, hresolved, houtcome, hkind, hfits, hheaders,
          haccounted⟩

/-- A move of the caller with a body of the same kind, its content taken at most once. -/
theorem move_invariant {body body' : LazyBody Schema} (hinvariant : SendInvariant client s)
    (hgiven : s.given = some body) (hrequest : s'.request = s.request) (hphase : s'.phase = s.phase)
    (hgiven' : s'.given = some body')
    (hfits : ∀ kind : ResponseKind Schema, LazyFits kind body → LazyFits kind body')
    (hcalls : LazyAccounted s.calls body → LazyAccounted s'.calls body') :
    SendInvariant client s' := by
  obtain ⟨outcome, response, kind, hp, hresolved, houtcome, hkind, hbody, hheaders, haccounted⟩ :=
    hinvariant.of_given hgiven
  refine ⟨hrequest ▸ hinvariant.request, ?_⟩
  rw [hphase, hp]
  exact .inr ⟨response, by rw [hrequest, hresolved], houtcome,
    .given kind body' hkind (hfits kind hbody) hheaders hgiven' (hcalls haccounted)⟩

theorem access_invariant {consumed : Bool} (hinvariant : SendInvariant client s)
    (hgiven : s.given = some (.handle consumed)) (accessor : Accessor) :
    SendInvariant client (s.access consumed accessor).1 := by
  unfold SendState.access
  cases consumed with
  | true => exact hinvariant
  | false =>
    refine move_invariant hinvariant hgiven rfl rfl rfl ?_ ?_
    · rintro kind ⟨⟩
      exact .blob true
    · intro hcalls
      exact ⟨accessor, by simp only [SendState.take]; rw [show s.calls = [] from hcalls]; rfl⟩

/-- The generator is resumed: its first turn takes the body. -/
theorem next_calls {schemaByEventName : SseSchemaByEventName Schema} {generator : GeneratorState}
    {arrival : Arrival E} (hrunning : generator ≠ .completed)
    (haccounted : LazyAccounted s.calls (.events schemaByEventName generator)) :
    (s.next client schemaByEventName generator arrival).1.calls = [.toWeb] := by
  have htake : (s.resume generator).calls = [.toWeb] := by
    cases generator with
    | suspendedStart =>
      rw [SendState.resume, if_pos rfl, SendState.take, show s.calls = [] from haccounted]
      rfl
    | suspendedYield => exact haccounted
    | completed => exact absurd rfl hrunning
  unfold SendState.next
  cases generator with
  | completed => exact absurd rfl hrunning
  | suspendedStart | suspendedYield =>
    dsimp only
    cases arrival with
    | done => exact htake
    | failed err => exact htake
    | event message =>
      dsimp only
      split
      · exact htake
      · exact htake

/-- The generator goes on with the same schemas, and has left its start. -/
theorem next_given {schemaByEventName : SseSchemaByEventName Schema} {generator : GeneratorState}
    {arrival : Arrival E} (hrunning : generator ≠ .completed) :
    ∃ generator', generator' ≠ .suspendedStart ∧
      (s.next client schemaByEventName generator arrival).1.given =
        some (.events schemaByEventName generator') := by
  unfold SendState.next
  cases generator with
  | completed => exact absurd rfl hrunning
  | suspendedStart | suspendedYield =>
    dsimp only
    cases arrival with
    | done => exact ⟨.completed, by decide, rfl⟩
    | failed err => exact ⟨.completed, by decide, rfl⟩
    | event message =>
      dsimp only
      split
      · exact ⟨.completed, by decide, rfl⟩
      · exact ⟨.suspendedYield, by decide, rfl⟩

theorem resume_frame (generator : GeneratorState) :
    (s.resume generator).request = s.request ∧ (s.resume generator).phase = s.phase ∧
      (s.resume generator).pulled = s.pulled ∧ (s.resume generator).yielded = s.yielded := by
  unfold SendState.resume
  split_ifs
  · exact ⟨rfl, rfl, rfl, rfl⟩
  · exact ⟨rfl, rfl, rfl, rfl⟩

/-- The generator changes nothing of the call. -/
theorem next_frame {schemaByEventName : SseSchemaByEventName Schema} {generator : GeneratorState}
    {arrival : Arrival E} :
    (s.next client schemaByEventName generator arrival).1.request = s.request ∧
      (s.next client schemaByEventName generator arrival).1.phase = s.phase := by
  unfold SendState.next
  cases generator with
  | completed => exact ⟨rfl, rfl⟩
  | suspendedStart | suspendedYield =>
    have hframe := resume_frame (s := s)
    dsimp only
    cases arrival with
    | done => exact ⟨(hframe _).1, (hframe _).2.1⟩
    | failed err => exact ⟨(hframe _).1, (hframe _).2.1⟩
    | event message =>
      dsimp only
      split
      · exact ⟨(hframe _).1, (hframe _).2.1⟩
      · exact ⟨(hframe _).1, (hframe _).2.1⟩

theorem next_invariant {schemaByEventName : SseSchemaByEventName Schema}
    {generator : GeneratorState} (hinvariant : SendInvariant client s)
    (hgiven : s.given = some (.events schemaByEventName generator)) (arrival : Arrival E) :
    SendInvariant client (s.next client schemaByEventName generator arrival).1 := by
  by_cases hrunning : generator = .completed
  · subst hrunning
    exact hinvariant
  · have hnext : ∃ generator', generator' ≠ .suspendedStart ∧
        (s.next client schemaByEventName generator arrival).1.given =
          some (.events schemaByEventName generator') := next_given hrunning
    obtain ⟨generator', hstarted, hgiven'⟩ := hnext
    refine move_invariant hinvariant hgiven next_frame.1 next_frame.2 hgiven' ?_ ?_
    · rintro kind ⟨⟩
      exact .sse schemaByEventName generator'
    · intro haccounted
      have hcalls : (s.next client schemaByEventName generator arrival).1.calls = [.toWeb] :=
        next_calls hrunning haccounted
      cases generator' with
      | suspendedStart => exact absurd rfl hstarted
      | suspendedYield => exact hcalls
      | completed => exact .inr hcalls

theorem stop_invariant {schemaByEventName : SseSchemaByEventName Schema}
    {generator : GeneratorState} (hinvariant : SendInvariant client s)
    (hgiven : s.given = some (.events schemaByEventName generator)) :
    SendInvariant client { s with given := some (.events schemaByEventName .completed) } := by
  refine move_invariant hinvariant hgiven rfl rfl rfl ?_ ?_
  · rintro kind ⟨⟩
    exact .sse schemaByEventName .completed
  · intro haccounted
    cases generator with
    | suspendedStart => exact .inl haccounted
    | suspendedYield => exact .inr haccounted
    | completed => exact haccounted

/-- **A step keeps the invariant.** -/
theorem sendStep_invariant (hinvariant : SendInvariant client s) (l : SendLabel J E)
    (hstep : sendStep client s l = some s') : SendInvariant client s' := by
  cases l with
  | request l =>
    obtain ⟨request, hrequest, rfl⟩ := Option.map_eq_some_iff.1 hstep
    exact proceed_invariant hinvariant (requestStep_invariant hinvariant.request hrequest)
      fun settlement hsettled => requestStep_settled hsettled hrequest
  | read reading =>
    rcases hp : s.phase with _ | ⟨response, kind⟩ | _ <;>
      simp only [sendStep, hp, reduceCtorEq] at hstep
    exact readBody_invariant hinvariant hp hstep
  | access accessor =>
    rcases hgiven : s.given with _ | ⟨consumed⟩ | _ <;>
      simp only [sendStep, hgiven, reduceCtorEq] at hstep
    cases hstep
    exact access_invariant hinvariant hgiven accessor
  | next arrival =>
    rcases hgiven : s.given with _ | _ | _ <;> simp only [sendStep, hgiven, reduceCtorEq] at hstep
    cases hstep
    exact next_invariant hinvariant hgiven arrival
  | stop =>
    rcases hgiven : s.given with _ | _ | _ <;> simp only [sendStep, hgiven, reduceCtorEq] at hstep
    cases hstep
    exact stop_invariant hinvariant hgiven

theorem start_sendInvariant : SendInvariant client SendState.start :=
  ⟨start_requestInvariant, by simp [SendPhaseInvariant, SendState.start, RetryState.start]⟩

/-- It holds along every run. -/
theorem sendInvariant_run {ls : List (SendLabel J E)}
    (hrun : run (sendStep client) SendState.start ls = some s) : SendInvariant client s :=
  invariant_run (fun _ l _ hinvariant _ hstep => sendStep_invariant hinvariant l hstep)
    start_sendInvariant (allSteps_true _ _) hrun

end Invariant

end SharedTsLibs.BackendHttpClient
