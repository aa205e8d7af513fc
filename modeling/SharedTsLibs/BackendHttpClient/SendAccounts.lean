import SharedTsLibs.BackendHttpClient.SendRuns

/-!
# Bodies and events of a call by contract

The body of every response that arrives has to be taken once: by `withRetry`, by the call
itself or by the caller, who may be given a body unread.  And what the caller is told has to be
what the contract makes of the response that the request has ended with.

* `BodiesAccounted` — no body is taken twice, and none is lost but one.
* `TurnsAccounted` — what the turns of the generator have made of the body.
* `StreamAccounted` — the events yielded are those pulled from the body.
* `bodies_run` — along every run no body is taken twice, and one is lost exactly when the
  schema of the headers refuses a response whose body is handed over unread, or the generator
  that was handed over is ended before it has begun.
* `outcome_run` — along every run the outcome represents the last response, which the policy
  does not retry or which the last attempt has brought.
* `stream_run` — along every run the events yielded are those pulled, parsed.
-/

namespace SharedTsLibs.BackendHttpClient

open ApiContracts StepSystem

variable {Schema J D E : Type}

/-! ## Bodies -/

section

variable (client : ContractClient Schema J D E) (s : SendState Schema D E)

/-- How often the body of the last response was taken, by the request, the call or the
caller. -/
def SendState.taken : ℕ := s.request.current.dumps + s.calls.length

/-- The body can still be taken by who has it. -/
def LazyBody.IsOpen : LazyBody Schema → Prop
  | .handle consumed => consumed = false
  | .events _ generator => generator ≠ .completed

/-- The body of the last response is lost: nobody has taken it, and nobody can. -/
def SendState.Lost : Prop :=
  s.request.current.HasResponse ∧ s.taken = 0 ∧ ∀ body ∈ s.given, ¬ body.IsOpen

/-- The schema of the headers has refused a response whose body was to be handed over. -/
def HeadersRefused : Prop :=
  ∃ response, s.request.phase = .settled (.resolved response) ∧ HandsOver client response ∧
    ∃ err, parseHeaders client response = .error err

/-- The generator has ended and has not taken the body. -/
def SendState.EndedUnread : Prop :=
  (∃ schemaByEventName, s.given = some (.events schemaByEventName .completed)) ∧ s.calls = []

/-- Every body is accounted for. -/
structure BodiesAccounted : Prop where
  /-- The body of every response before the last attempt was disposed of once. -/
  earlier : ∀ a ∈ s.request.earlier, a.HasResponse → a.dumps = 1
  /-- No body is taken twice. -/
  once : s.taken ≤ 1
  /-- Only a body that has come is taken. -/
  unanswered : ¬ s.request.current.HasResponse → s.taken = 0
  /-- A call that has settled leaves a body only to its caller. -/
  settled : ∀ outcome, s.phase = .settled outcome → s.request.current.HasResponse →
    s.taken = 0 → ∃ response, s.request.phase = .settled (.resolved response) ∧
      HandsOver client response
  /-- The caller does not get it when the headers are refused, or does not begin with it. -/
  lost : ∀ outcome, s.phase = .settled outcome →
    (s.Lost ↔ HeadersRefused client s ∨ s.EndedUnread)

variable {client s}

/-- A body that was not taken, and cannot be any more, is that of a generator that has ended. -/
theorem LazyAccounted.endedUnread_iff {body : LazyBody Schema} (h : LazyAccounted s.calls body)
    (hgiven : s.given = some body) : s.EndedUnread ↔ s.calls = [] ∧ ¬ body.IsOpen := by
  rw [SendState.EndedUnread, hgiven, and_comm]
  refine and_congr_right fun hcalls => ?_
  rcases body with ⟨_ | _⟩ | ⟨schemaByEventName, _ | _ | _⟩
  · simp [LazyBody.IsOpen]
  · obtain ⟨accessor, haccessor⟩ := h
    rw [hcalls] at haccessor
    cases haccessor
  · simp [LazyBody.IsOpen]
  · simp [LazyBody.IsOpen]
  · simp [LazyBody.IsOpen]

theorem LazyAccounted.length_le {calls : List BodyMethod} {body : LazyBody Schema}
    (h : LazyAccounted calls body) : calls.length ≤ 1 := by
  rcases body with ⟨_ | _⟩ | ⟨schemaByEventName, _ | _ | _⟩
  · simp [show calls = [] from h]
  · obtain ⟨accessor, rfl⟩ := h
    exact le_rfl
  · simp [show calls = [] from h]
  · simp [show calls = [.toWeb] from h]
  · rcases h with rfl | rfl
    · exact Nat.zero_le 1
    · exact le_rfl

/-- The request that has not resolved has left nothing to be taken. -/
theorem RequestAccounted.taken_eq (h : RequestAccounted client s.request) (hcalls : s.calls = [])
    (hphase : ∀ response, s.request.phase ≠ .settled (.resolved response)) :
    (s.request.current.HasResponse → s.taken = 1) ∧
      (¬ s.request.current.HasResponse → s.taken = 0) := by
  rw [SendState.taken, hcalls]
  exact ⟨h.other hphase, h.unanswered⟩

theorem SendState.not_endedUnread (hgiven : s.given = none) : ¬ s.EndedUnread := by
  rintro ⟨⟨schemaByEventName, hsome⟩, -⟩
  rw [hgiven] at hsome
  cases hsome

theorem bodiesAccounted_of_rejected (h : RequestAccounted client s.request)
    (hcalls : s.calls = []) (hgiven : s.given = none)
    (hphase : ∀ response, s.request.phase ≠ .settled (.resolved response)) :
    BodiesAccounted client s := by
  obtain ⟨htaken, huntaken⟩ := h.taken_eq hcalls hphase
  refine ⟨h.earlier, ?_, huntaken, ?_, ?_⟩
  · by_cases hresponse : s.request.current.HasResponse
    · exact le_of_eq (htaken hresponse)
    · rw [huntaken hresponse]
      exact Nat.zero_le 1
  · intro outcome hsettled hresponse hzero
    rw [htaken hresponse] at hzero
    cases hzero
  · intro outcome hsettled
    constructor
    · rintro ⟨hresponse, hzero, -⟩
      rw [htaken hresponse] at hzero
      cases hzero
    · rintro (⟨response, hresolved, -⟩ | hended)
      · exact absurd hresolved (hphase response)
      · exact absurd hended (s.not_endedUnread hgiven)

theorem bodiesAccounted_of_resolved {response : ResponseData}
    (h : RequestAccounted client s.request)
    (hresolved : s.request.phase = .settled (.resolved response))
    (hbody : (∃ method, readingMethod (resolvedResponseEntry client response) = some method ∧
        s.calls = [method]) ∨ BodySettled client response s) :
    BodiesAccounted client s := by
  obtain ⟨hanswered, hdumps, -⟩ := h.resolved response hresolved
  have hresponse : s.request.current.HasResponse := ⟨response, hanswered⟩
  have htaken : s.taken = s.calls.length := by rw [SendState.taken, hdumps, Nat.zero_add]
  have hunique : ∀ response', s.request.phase = .settled (.resolved response') →
      response' = response := by
    intro response' hresolved'
    cases hresolved.symm.trans hresolved'
    rfl
  have hread : ∀ method, readingMethod (resolvedResponseEntry client response) = some method →
      s.calls = [method] → BodiesAccounted client s := by
    intro method hmethod hcalls
    rw [hcalls] at htaken
    refine ⟨h.earlier, le_of_eq htaken, fun hnone => absurd hresponse hnone, ?_, ?_⟩
    · intro outcome hsettled _ hzero
      rw [htaken] at hzero
      cases hzero
    · intro outcome hsettled
      constructor
      · rintro ⟨-, hzero, -⟩
        rw [htaken] at hzero
        cases hzero
      · rintro (⟨response', hresolved', hover, -⟩ | ⟨-, hnone⟩)
        · rw [hunique response' hresolved', HandsOver, hmethod] at hover
          cases hover
        · rw [hcalls] at hnone
          cases hnone
  rcases hbody with ⟨method, hmethod, hcalls⟩ | hbody
  · exact hread method hmethod hcalls
  cases hbody with
  | read method hmethod hcalls hgiven => exact hread method hmethod hcalls
  | given kind body hkind hfits hheaders hgiven haccounted =>
    have hover : HandsOver client response := by rw [HandsOver, hkind, hfits.readingMethod_eq]
    refine ⟨h.earlier, htaken ▸ haccounted.length_le, fun hnone => absurd hresponse hnone,
      fun _ _ _ _ => ⟨response, hresolved, hover⟩, fun outcome hsettled => ?_⟩
    have hunrefused : ¬ HeadersRefused client s := by
      rintro ⟨response', hresolved', -, err, hrefused⟩
      obtain ⟨headers, hheaders⟩ := hheaders
      rw [hunique response' hresolved', hheaders] at hrefused
      cases hrefused
    rw [or_iff_right hunrefused, haccounted.endedUnread_iff hgiven, SendState.Lost, hgiven, htaken]
    simp [hresponse]
  | refused hover hheaders hcalls hgiven =>
    rw [hcalls] at htaken
    refine ⟨h.earlier, htaken ▸ Nat.zero_le 1, fun hnone => absurd hresponse hnone,
      fun _ _ _ _ => ⟨response, hresolved, hover⟩, fun outcome hsettled => ?_⟩
    constructor
    · intro _
      exact .inl ⟨response, hresolved, hover, hheaders⟩
    · intro _
      exact ⟨hresponse, htaken, by simp [hgiven]⟩

/-- The invariant accounts for every body. -/
theorem SendInvariant.bodiesAccounted (hinvariant : SendInvariant client s) :
    BodiesAccounted client s := by
  have hrequest := requestAccounted_of_invariant hinvariant.request
  have hphase := hinvariant.phase
  cases hp : s.phase with
  | requesting =>
    rw [hp] at hphase
    exact bodiesAccounted_of_rejected hrequest hphase.2.1 hphase.2.2 fun response => hphase.1 _
  | reading response kind =>
    rw [hp] at hphase
    obtain ⟨hresolved, rfl, -, hbody⟩ := hphase
    exact bodiesAccounted_of_resolved hrequest hresolved (.inl hbody)
  | settled outcome =>
    rw [hp] at hphase
    rcases hphase with ⟨reason, -, hrejected, hcalls, hgiven⟩ | ⟨response, hresolved, -, hbody⟩
    · refine bodiesAccounted_of_rejected hrequest hcalls hgiven fun response hresolved => ?_
      cases hrejected.symm.trans hresolved
    · exact bodiesAccounted_of_resolved hrequest hresolved (.inr hbody)

end

/-! ## The turns of the generator -/

section

variable {client : ContractClient Schema J D E} {s s' : SendState Schema D E}

/-- The generator is resumed by `next()` or ended by `return()`. -/
def SendLabel.isTurn : SendLabel J E → Bool
  | .next _ | .stop => true
  | .request _ | .read _ | .access _ => false

/-- The first turn of the generator is the `return()` that ends it. -/
def StoppedFirst (ls : List (SendLabel J E)) : Prop := ls.find? SendLabel.isTurn = some .stop

/-- Only a generator has turns, and the first one has ended it or taken the body. -/
def TurnsAccounted (first : Option (SendLabel J E)) (s : SendState Schema D E) : Prop :=
  match s.given with
  | some (.events _ .suspendedStart) => first = none
  | some (.events _ _) => first ≠ none ∧ (first = some .stop ↔ s.calls = [])
  | some (.handle _) | none => first = none

/-- A body just handed over, if there is one. -/
def FreshlyGiven (s : SendState Schema D E) : Prop :=
  s.given = none ∨ ∃ body : ParsedBody Schema D, s.given = body.handedOver

theorem finish_freshlyGiven (hgiven : s.given = none) (response : ResponseData)
    (body : ParsedBody Schema D) : FreshlyGiven (finish client s response body) := by
  unfold finish
  cases parseHeaders client response with
  | error err => exact .inl hgiven
  | ok headers =>
    dsimp only
    split_ifs
    · exact .inr ⟨body, rfl⟩
    · exact .inr ⟨body, rfl⟩

theorem receiveResponse_freshlyGiven (hgiven : s.given = none) (response : ResponseData) :
    FreshlyGiven (receiveResponse client s response) := by
  unfold receiveResponse
  split
  · exact .inl hgiven
  · exact .inl hgiven
  · exact .inl hgiven
  · exact finish_freshlyGiven hgiven response _
  · exact finish_freshlyGiven hgiven response _

theorem readBody_freshlyGiven (hgiven : s.given = none) {response : ResponseData}
    {kind : Option (ResponseKind Schema)} {reading : Reading J E}
    (hstep : readBody client s response kind reading = some s') : FreshlyGiven s' := by
  unfold readBody at hstep
  cases reading with
  | failed err =>
    cases hstep
    exact .inl hgiven
  | text body =>
    dsimp only at hstep
    split at hstep
    · cases hstep
      exact .inl hgiven
    · cases hstep
  | dumped =>
    dsimp only at hstep
    split at hstep
    · cases hstep
      exact finish_freshlyGiven hgiven response _
    · cases hstep
  | json json =>
    dsimp only at hstep
    split at hstep
    · split at hstep
      · cases hstep
        exact .inl hgiven
      · cases hstep
        exact finish_freshlyGiven hgiven response _
    · cases hstep

theorem turnsAccounted_of_freshlyGiven (h : FreshlyGiven s) :
    TurnsAccounted (none : Option (SendLabel J E)) s := by
  rw [TurnsAccounted]
  obtain hgiven | ⟨body, hgiven⟩ := h
  · rw [hgiven]
  · rw [hgiven]
    cases body with
    | null | data value | handle | events schemaByEventName => rfl

theorem TurnsAccounted.congr {first : Option (SendLabel J E)} (h : TurnsAccounted first s)
    (hgiven : s'.given = s.given) (hcalls : s'.calls = s.calls) : TurnsAccounted first s' := by
  rwa [TurnsAccounted, hgiven, hcalls]

/-- The request goes on: it may come to hand over a body. -/
theorem proceed_turnsAccounted {first : Option (SendLabel J E)} {request : RetryState}
    (hinvariant : SendInvariant client s) (hturns : TurnsAccounted first s) :
    TurnsAccounted first (s.proceed client request) := by
  unfold SendState.proceed
  dsimp only
  have hphase := hinvariant.phase
  cases hp : s.phase with
  | requesting =>
    rw [hp] at hphase
    dsimp only
    split
    · rw [TurnsAccounted, hphase.2.2] at hturns
      rw [show first = none from hturns]
      exact turnsAccounted_of_freshlyGiven
        (receiveResponse_freshlyGiven (s := { s with request, phase := .requesting }) hphase.2.2 _)
    · exact hturns.congr rfl rfl
    · exact hturns.congr rfl rfl
  | reading response kind => exact hturns.congr rfl rfl
  | settled outcome => exact hturns.congr rfl rfl

/-- A turn of a generator, whose first one is counted. -/
theorem turnsAccounted_of_turn {first : Option (SendLabel J E)} {l : SendLabel J E}
    {schemaByEventName : SseSchemaByEventName Schema} {generator generator' : GeneratorState}
    (hturns : TurnsAccounted first s)
    (hgiven : s.given = some (.events schemaByEventName generator))
    (hgiven' : s'.given = some (.events schemaByEventName generator'))
    (hended : generator' ≠ .suspendedStart)
    (hfirst : generator = .suspendedStart → (l = .stop ↔ s'.calls = []))
    (hlater : generator ≠ .suspendedStart → (s'.calls = [] ↔ s.calls = [])) :
    TurnsAccounted (first.or (some l)) s' := by
  have hcounted : first.or (some l) ≠ none ∧ (first.or (some l) = some .stop ↔ s'.calls = []) := by
    rw [TurnsAccounted, hgiven] at hturns
    cases generator with
    | suspendedStart =>
      rw [show first = none from hturns, Option.none_or, Option.some_inj]
      exact ⟨Option.some_ne_none l, hfirst rfl⟩
    | suspendedYield | completed =>
      obtain ⟨hsome, hstopped⟩ := hturns
      obtain ⟨turn, rfl⟩ := Option.ne_none_iff_exists'.1 hsome
      rw [Option.some_or]
      exact ⟨hsome, hstopped.trans (hlater (by decide)).symm⟩
  rw [TurnsAccounted, hgiven']
  cases generator' with
  | suspendedStart => exact absurd rfl hended
  | suspendedYield | completed => exact hcounted

/-- A step keeps account of the turns. -/
theorem sendStep_turnsAccounted {first : Option (SendLabel J E)}
    (hinvariant : SendInvariant client s) (hturns : TurnsAccounted first s) (l : SendLabel J E)
    (hstep : sendStep client s l = some s') :
    TurnsAccounted (first.or ([l].find? SendLabel.isTurn)) s' := by
  cases l with
  | request l =>
    obtain ⟨request, -, rfl⟩ := Option.map_eq_some_iff.1 hstep
    have hnone : [SendLabel.request l].find? SendLabel.isTurn = (none : Option (SendLabel J E)) :=
      rfl
    rw [hnone, Option.or_none]
    exact proceed_turnsAccounted hinvariant hturns
  | read reading =>
    have hphase := hinvariant.phase
    rcases hp : s.phase with _ | ⟨response, kind⟩ | _ <;>
      simp only [sendStep, hp, reduceCtorEq] at hstep
    rw [hp] at hphase
    rw [TurnsAccounted, hphase.2.2.1] at hturns
    rw [show first = none from hturns]
    exact turnsAccounted_of_freshlyGiven (readBody_freshlyGiven hphase.2.2.1 hstep)
  | access accessor =>
    rcases hgiven : s.given with _ | ⟨consumed⟩ | _ <;>
      simp only [sendStep, hgiven, reduceCtorEq] at hstep
    cases hstep
    rw [TurnsAccounted, hgiven] at hturns
    rw [show first = none from hturns]
    unfold SendState.access
    split_ifs
    · rw [TurnsAccounted, hgiven]
      rfl
    · rfl
  | next arrival =>
    rcases hgiven : s.given with _ | _ | ⟨schemaByEventName, generator⟩ <;>
      simp only [sendStep, hgiven, reduceCtorEq] at hstep
    cases hstep
    obtain ⟨-, -, -, -, -, -, -, -, -, haccounted⟩ := hinvariant.of_given hgiven
    by_cases hrunning : generator = .completed
    · subst hrunning
      exact turnsAccounted_of_turn hturns hgiven hgiven (by decide) (fun h => by cases h)
        fun _ => Iff.rfl
    · obtain ⟨generator', hstarted, hgiven'⟩ : ∃ generator', generator' ≠ .suspendedStart ∧
          (s.next client schemaByEventName generator arrival).1.given =
            some (.events schemaByEventName generator') := next_given hrunning
      have hcalls : (s.next client schemaByEventName generator arrival).1.calls = [.toWeb] :=
        next_calls hrunning haccounted
      refine turnsAccounted_of_turn hturns hgiven hgiven' hstarted (fun _ => ?_) fun hlater => ?_
      · rw [hcalls]
        exact iff_of_false (fun h => by cases h) (by simp)
      · cases generator with
        | suspendedStart => exact absurd rfl hlater
        | completed => exact absurd rfl hrunning
        | suspendedYield => rw [hcalls, show s.calls = [.toWeb] from haccounted]
  | stop =>
    rcases hgiven : s.given with _ | _ | ⟨schemaByEventName, generator⟩ <;>
      simp only [sendStep, hgiven, reduceCtorEq] at hstep
    cases hstep
    obtain ⟨-, -, -, -, -, -, -, -, -, haccounted⟩ := hinvariant.of_given hgiven
    refine turnsAccounted_of_turn hturns hgiven rfl (by decide) (fun hstart => ?_) fun _ => Iff.rfl
    subst hstart
    exact iff_of_true rfl haccounted

/-- The account of the turns along a run. -/
theorem turnsAccounted_run {ls : List (SendLabel J E)}
    (hrun : run (sendStep client) SendState.start ls = some s) :
    TurnsAccounted (ls.find? SendLabel.isTurn) s := by
  induction ls using List.reverseRecOn generalizing s with
  | nil =>
    cases hrun
    rfl
  | append_singleton ls l ih =>
    obtain ⟨s', hbefore, hlast⟩ := run_append_eq_some.1 hrun
    obtain ⟨s'', hstep, hend⟩ := run_cons_eq_some.1 hlast
    cases hend
    rw [List.find?_append]
    exact sendStep_turnsAccounted (sendInvariant_run hbefore) (ih hbefore) l hstep

/-- A generator that has ended and left the body was ended before its first `next()`. -/
theorem endedUnread_iff {ls : List (SendLabel J E)}
    (hrun : run (sendStep client) SendState.start ls = some s) :
    s.EndedUnread ↔ StoppedFirst ls := by
  have hturns := turnsAccounted_run hrun
  rw [StoppedFirst]
  constructor
  · rintro ⟨⟨schemaByEventName, hgiven⟩, hcalls⟩
    rw [TurnsAccounted, hgiven] at hturns
    exact hturns.2.2 hcalls
  · intro hstopped
    rw [hstopped, TurnsAccounted] at hturns
    rcases hgiven : s.given with _ | ⟨consumed⟩ | ⟨schemaByEventName, _ | _ | _⟩ <;>
      rw [hgiven] at hturns
    · cases hturns
    · cases hturns
    · cases hturns
    · obtain ⟨-, -, -, -, -, -, -, -, -, haccounted⟩ := (sendInvariant_run hrun).of_given hgiven
      rw [show s.calls = [.toWeb] from haccounted] at hturns
      cases hturns.2.1 rfl
    · exact ⟨⟨schemaByEventName, hgiven⟩, hturns.2.1 rfl⟩

end

/-! ## Streams -/

section

variable (client : ContractClient Schema J D E)

/-- Each event has been parsed to the value in its place. -/
def ParsedTo (schemaByEventName : SseSchemaByEventName Schema) :
    List (SseMessage String) → List (SseMessage D) → Prop :=
  List.Forall₂ fun message value => parseEvent client schemaByEventName message = .ok value

/-- What was pulled from a stream and what was yielded: every event was parsed and yielded, but
for a last one that could not be, at which the generator has ended. -/
def StreamAccounted (schemaByEventName : SseSchemaByEventName Schema) (generator : GeneratorState)
    (pulled : List (SseMessage String)) (yielded : List (SseMessage D)) : Prop :=
  ParsedTo client schemaByEventName pulled yielded ∨
    generator = .completed ∧ ∃ read message err, pulled = read ++ [message] ∧
      ParsedTo client schemaByEventName read yielded ∧
      parseEvent client schemaByEventName message = .error err

/-- Only the generator of a stream pulls and yields. -/
structure StreamInvariant (s : SendState Schema D E) : Prop where
  stream : ∀ schemaByEventName generator, s.given = some (.events schemaByEventName generator) →
    StreamAccounted client schemaByEventName generator s.pulled s.yielded
  other : (∀ schemaByEventName generator, s.given ≠ some (.events schemaByEventName generator)) →
    s.pulled = [] ∧ s.yielded = []

variable {client} {s s' : SendState Schema D E}

theorem streamInvariant_of_nil (hpulled : s.pulled = []) (hyielded : s.yielded = []) :
    StreamInvariant client s := by
  refine ⟨fun schemaByEventName generator _ => .inl ?_, fun _ => ⟨hpulled, hyielded⟩⟩
  rw [hpulled, hyielded]
  exact .nil

theorem StreamInvariant.of_none (h : StreamInvariant client s) (hgiven : s.given = none) :
    s.pulled = [] ∧ s.yielded = [] := h.other (by simp [hgiven])

theorem StreamInvariant.congr (h : StreamInvariant client s) (hgiven : s'.given = s.given)
    (hpulled : s'.pulled = s.pulled) (hyielded : s'.yielded = s.yielded) :
    StreamInvariant client s' := by
  refine ⟨fun schemaByEventName generator hevents => ?_, fun hne => ?_⟩
  · rw [hpulled, hyielded]
    exact h.stream schemaByEventName generator (hgiven ▸ hevents)
  · rw [hpulled, hyielded]
    exact h.other (hgiven ▸ hne)

theorem finish_unpulled {response : ResponseData} {body : ParsedBody Schema D} :
    (finish client s response body).pulled = s.pulled ∧
      (finish client s response body).yielded = s.yielded := by
  unfold finish
  cases parseHeaders client response with
  | error err => exact ⟨rfl, rfl⟩
  | ok headers =>
    dsimp only
    split_ifs
    · exact ⟨rfl, rfl⟩
    · exact ⟨rfl, rfl⟩

theorem receiveResponse_unpulled {response : ResponseData} :
    (receiveResponse client s response).pulled = s.pulled ∧
      (receiveResponse client s response).yielded = s.yielded := by
  unfold receiveResponse
  split
  · exact ⟨rfl, rfl⟩
  · exact ⟨rfl, rfl⟩
  · exact ⟨rfl, rfl⟩
  · exact finish_unpulled
  · exact finish_unpulled

theorem readBody_unpulled {response : ResponseData} {kind : Option (ResponseKind Schema)}
    {reading : Reading J E} (hstep : readBody client s response kind reading = some s') :
    s'.pulled = s.pulled ∧ s'.yielded = s.yielded := by
  unfold readBody at hstep
  cases reading with
  | failed err =>
    cases hstep
    exact ⟨rfl, rfl⟩
  | text body =>
    dsimp only at hstep
    split at hstep
    · cases hstep
      exact ⟨rfl, rfl⟩
    · cases hstep
  | dumped =>
    dsimp only at hstep
    split at hstep
    · cases hstep
      exact finish_unpulled
    · cases hstep
  | json json =>
    dsimp only at hstep
    split at hstep
    · split at hstep
      · cases hstep
        exact ⟨rfl, rfl⟩
      · cases hstep
        exact finish_unpulled
    · cases hstep

/-- The request pulls nothing from a body. -/
theorem proceed_streamInvariant {request : RetryState} (hinvariant : SendInvariant client s)
    (hstream : StreamInvariant client s) : StreamInvariant client (s.proceed client request) := by
  unfold SendState.proceed
  dsimp only
  have hphase := hinvariant.phase
  cases hp : s.phase with
  | requesting =>
    rw [hp] at hphase
    obtain ⟨hpulled, hyielded⟩ := hstream.of_none hphase.2.2
    dsimp only
    split
    · exact streamInvariant_of_nil (receiveResponse_unpulled.1.trans hpulled)
        (receiveResponse_unpulled.2.trans hyielded)
    · exact hstream.congr rfl rfl rfl
    · exact hstream.congr rfl rfl rfl
  | reading response kind => exact hstream.congr rfl rfl rfl
  | settled outcome => exact hstream.congr rfl rfl rfl

/-- A turn of the generator. -/
theorem next_streamInvariant {schemaByEventName : SseSchemaByEventName Schema}
    {generator : GeneratorState} (hstream : StreamInvariant client s)
    (hgiven : s.given = some (.events schemaByEventName generator)) (arrival : Arrival E) :
    StreamInvariant client (s.next client schemaByEventName generator arrival).1 := by
  by_cases hrunning : generator = .completed
  · subst hrunning
    exact hstream
  have hparsed : ParsedTo client schemaByEventName s.pulled s.yielded := by
    rcases hstream.stream schemaByEventName generator hgiven with hparsed | ⟨hcompleted, -⟩
    · exact hparsed
    · exact absurd hcompleted hrunning
  obtain ⟨-, -, hpulled, hyielded⟩ := resume_frame (s := s) generator
  unfold SendState.next
  cases generator with
  | completed => exact absurd rfl hrunning
  | suspendedStart | suspendedYield =>
    have hended : ∀ t : SendState Schema D E, t.pulled = s.pulled → t.yielded = s.yielded →
        t.given = some (.events schemaByEventName .completed) → StreamInvariant client t := by
      intro t htp hty htg
      refine ⟨?_, fun hne => absurd htg (hne _ _)⟩
      rintro schemaByEventName' generator' hevents
      cases htg.symm.trans hevents
      rw [htp, hty]
      exact .inl hparsed
    dsimp only
    cases arrival with
    | done => exact hended _ hpulled hyielded rfl
    | failed err => exact hended _ hpulled hyielded rfl
    | event message =>
      dsimp only
      cases hevent : parseEvent client schemaByEventName message with
      | error err =>
        refine ⟨?_, fun hne => absurd rfl (hne _ _)⟩
        rintro schemaByEventName' generator' ⟨⟩
        refine .inr ⟨rfl, s.pulled, message, err, ?_, ?_, hevent⟩
        · rw [hpulled]
        · rw [hyielded]
          exact hparsed
      | ok value =>
        refine ⟨?_, fun hne => absurd rfl (hne _ _)⟩
        rintro schemaByEventName' generator' ⟨⟩
        rw [hpulled, hyielded]
        refine .inl ?_
        exact List.rel_append hparsed (.cons hevent .nil)

/-- A step keeps the invariant of streams. -/
theorem sendStep_streamInvariant (hinvariant : SendInvariant client s)
    (hstream : StreamInvariant client s) (l : SendLabel J E)
    (hstep : sendStep client s l = some s') : StreamInvariant client s' := by
  cases l with
  | request l =>
    obtain ⟨request, -, rfl⟩ := Option.map_eq_some_iff.1 hstep
    exact proceed_streamInvariant hinvariant hstream
  | read reading =>
    have hphase := hinvariant.phase
    rcases hp : s.phase with _ | ⟨response, kind⟩ | _ <;>
      simp only [sendStep, hp, reduceCtorEq] at hstep
    rw [hp] at hphase
    obtain ⟨hpulled, hyielded⟩ := hstream.of_none hphase.2.2.1
    obtain ⟨hpulled', hyielded'⟩ := readBody_unpulled hstep
    exact streamInvariant_of_nil (hpulled'.trans hpulled) (hyielded'.trans hyielded)
  | access accessor =>
    rcases hgiven : s.given with _ | ⟨consumed⟩ | _ <;>
      simp only [sendStep, hgiven, reduceCtorEq] at hstep
    cases hstep
    obtain ⟨hpulled, hyielded⟩ := hstream.other (by simp [hgiven])
    unfold SendState.access
    split_ifs
    · exact hstream
    · exact streamInvariant_of_nil hpulled hyielded
  | next arrival =>
    rcases hgiven : s.given with _ | _ | _ <;> simp only [sendStep, hgiven, reduceCtorEq] at hstep
    cases hstep
    exact next_streamInvariant hstream hgiven arrival
  | stop =>
    rcases hgiven : s.given with _ | _ | ⟨schemaByEventName, generator⟩ <;>
      simp only [sendStep, hgiven, reduceCtorEq] at hstep
    cases hstep
    refine ⟨?_, fun hne => absurd rfl (hne _ _)⟩
    rintro schemaByEventName' generator' ⟨⟩
    rcases hstream.stream schemaByEventName generator hgiven with hparsed | ⟨-, hbad⟩
    · exact .inl hparsed
    · exact .inr ⟨rfl, hbad⟩

end

/-! ## The main results -/

section

variable {client : ContractClient Schema J D E} {s : SendState Schema D E}

/-- The outcome of a call that has settled. -/
def SendPhase.outcome? : SendPhase Schema D E → Option (SendOutcome Schema D E)
  | .settled outcome => some outcome
  | .requesting | .reading _ _ => none

theorem SendPhase.eq_settled {phase : SendPhase Schema D E} {outcome : SendOutcome Schema D E}
    (h : phase.outcome? = some outcome) : phase = .settled outcome := by
  cases phase with
  | settled outcome' =>
    cases h
    rfl
  | requesting => cases h
  | reading response kind => cases h

/-- The schemas and the generator of a stream that was handed over. -/
def LazyBody.stream? : LazyBody Schema → Option (SseSchemaByEventName Schema × GeneratorState)
  | .events schemaByEventName generator => some (schemaByEventName, generator)
  | .handle _ => none

theorem LazyBody.eq_events {body : LazyBody Schema}
    {stream : SseSchemaByEventName Schema × GeneratorState} (h : body.stream? = some stream) :
    body = .events stream.1 stream.2 := by
  cases body with
  | events schemaByEventName generator =>
    cases h
    rfl
  | handle consumed => cases h

/-- Images with an entity tag, fetched with retries. -/
def imageClient : ContractClient Unit String String String where
  runtime := JsRuntime.ascii
  readers := noReaders
  parse _ json := .ok json
  jsonParse := .ok
  ofText := id
  responsesByStatusCode := ⟨[("200", .body ⟨[("image/png", .blob)], by decide⟩ false)], by decide⟩
  summary := "Get image"
  responseHeaderSchema := some fun headers =>
    if (OrderedMap.get? headers "etag").isSome then .ok [] else .error "etag: Required"
  retry := some none
  strictContentType := none
  captureAsError := none

/-- A server that is not available at first, and then sends an image without an entity tag. -/
def untaggedImage : List (SendLabel String String) :=
  [.request (.answers ⟨.response ⟨503, []⟩, 0, 0⟩), .request .slept, .request .dumped,
    .request (.answers ⟨.response ⟨200, [("content-type", .one "image/png")]⟩, 0, 0⟩)]

/-- **Along every run, what the caller is told is what the contract makes of the response of the
last attempt**, which the policy does not retry or after which there was no attempt left; else it
is what the request has failed with. -/
theorem outcome_run {outcome : SendOutcome Schema D E} {ls : List (SendLabel J E)}
    (hrun : run (sendStep client) SendState.start ls = some s) (hp : s.phase = .settled outcome) :
    (∃ reason, outcome = .thrown (.request reason) ∧
      s.request.phase = .settled (.rejected reason)) ∨
    ∃ response, s.request.current.Answered (.response response) ∧
      IsFinal client s.request response ∧ Represents client response outcome := by
  have hinvariant := sendInvariant_run hrun
  have hrequest := requestAccounted_of_invariant hinvariant.request
  have hphase := hinvariant.phase
  rw [hp] at hphase
  rcases hphase with ⟨reason, houtcome, hrejected, -⟩ | ⟨response, hresolved, houtcome, -⟩
  · exact .inl ⟨reason, houtcome, hrejected⟩
  · obtain ⟨hanswered, -, hfinal⟩ := hrequest.resolved response hresolved
    exact .inr ⟨response, hanswered, hfinal, houtcome⟩

/-- The caller of the image is told what its headers lack. -/
theorem untaggedImage_outcome :
    ∃ s outcome, run (sendStep imageClient) SendState.start untaggedImage = some s ∧
      s.phase = .settled outcome ∧
      ((∃ reason, outcome = .thrown (.request reason) ∧
        s.request.phase = .settled (.rejected reason)) ∨
      ∃ response, s.request.current.Answered (.response response) ∧
        IsFinal imageClient s.request response ∧ Represents imageClient response outcome) := by
  have hsettled : (run (sendStep imageClient) SendState.start untaggedImage).any
      (fun s => s.phase.outcome?.isSome) = true := by decide +kernel
  obtain ⟨s, hrun, hs⟩ := (Option.any_eq_true _ _).1 hsettled
  obtain ⟨outcome, houtcome⟩ := Option.isSome_iff_exists.1 hs
  have hp := SendPhase.eq_settled houtcome
  exact ⟨s, outcome, hrun, hp, outcome_run hrun hp⟩

/-- **Along every run, the events that the caller of a stream gets are those pulled from the
body, one for one and in order, each parsed by the schema that the contract declares for its
name**, up to the first one that cannot be, at which the stream ends. -/
theorem stream_run {schemaByEventName : SseSchemaByEventName Schema} {generator : GeneratorState}
    {ls : List (SendLabel J E)}
    (hrun : run (sendStep client) SendState.start ls = some s)
    (hgiven : s.given = some (.events schemaByEventName generator)) :
    (∃ response, s.request.phase = .settled (.resolved response) ∧
      resolvedResponseEntry client response = some (.sse schemaByEventName)) ∧
    StreamAccounted client schemaByEventName generator s.pulled s.yielded := by
  have hboth : SendInvariant client s ∧ StreamInvariant client s :=
    invariant_run (I := fun s => SendInvariant client s ∧ StreamInvariant client s)
      (fun _ l _ hinvariant _ hstep => ⟨sendStep_invariant hinvariant.1 l hstep,
        sendStep_streamInvariant hinvariant.1 hinvariant.2 l hstep⟩)
      ⟨start_sendInvariant, streamInvariant_of_nil rfl rfl⟩ (allSteps_true _ _) hrun
  obtain ⟨hinvariant, hstream⟩ := hboth
  obtain ⟨outcome, response, kind, -, hresolved, -, hkind, hfits, -⟩ := hinvariant.of_given hgiven
  refine ⟨⟨response, hresolved, ?_⟩, hstream.stream schemaByEventName generator hgiven⟩
  cases hfits
  exact hkind

/-- A stream of notes. -/
def notesClient : ContractClient Unit String String String :=
  { imageClient with
    responsesByStatusCode :=
      ⟨[("200", .body ⟨[("text/event-stream", .sse ⟨[("note", ())], by decide⟩)],
        by decide⟩ false)], by decide⟩
    summary := "Get notes"
    responseHeaderSchema := none
    retry := none }

-- A generator that is ended before it has begun leaves the body to nobody.
example : (run (sendStep notesClient) SendState.start
    [.request (.answers ⟨.response ⟨200, [("content-type", .one "text/event-stream")]⟩, 0, 0⟩),
      .stop, .next .done]).any (fun s => s.taken = 0) = true := by decide +kernel

/-- A stream that sends a note, and then an event of an unknown name. -/
def unknownEvent : List (SendLabel String String) :=
  [.request (.answers ⟨.response ⟨200, [("content-type", .one "text/event-stream")]⟩, 0, 0⟩),
    .next (.event ⟨"note", "a", "", none⟩), .next (.event ⟨"memo", "b", "", none⟩)]

/-- The caller gets the note. -/
theorem unknownEvent_stream :
    ∃ s schemaByEventName generator,
      run (sendStep notesClient) SendState.start unknownEvent = some s ∧
      s.given = some (.events schemaByEventName generator) ∧ s.yielded.length = 1 ∧
      (∃ response, s.request.phase = .settled (.resolved response) ∧
        resolvedResponseEntry notesClient response = some (.sse schemaByEventName)) ∧
      StreamAccounted notesClient schemaByEventName generator s.pulled s.yielded := by
  have hstream : (run (sendStep notesClient) SendState.start unknownEvent).any
      (fun s => s.yielded.length = 1 ∧ (s.given.bind LazyBody.stream?).isSome = true) = true := by
    decide +kernel
  obtain ⟨s, hrun, hs⟩ := (Option.any_eq_true _ _).1 hstream
  obtain ⟨hlength, hevents⟩ := of_decide_eq_true hs
  obtain ⟨stream, hbind⟩ := Option.isSome_iff_exists.1 hevents
  obtain ⟨body, hbody, hbodyStream⟩ := Option.bind_eq_some_iff.1 hbind
  have hgiven : s.given = some (.events stream.1 stream.2) := by
    rw [hbody, LazyBody.eq_events hbodyStream]
  exact ⟨s, stream.1, stream.2, hrun, hgiven, hlength, stream_run hrun hgiven⟩

end

end SharedTsLibs.BackendHttpClient
