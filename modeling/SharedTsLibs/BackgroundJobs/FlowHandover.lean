import SharedTsLibs.BackgroundJobs.FlowManager

/-!
# What the producer is handed

A call of the flow manager builds its jobs before anything else, and hands them
over at most once.

* `CallBuilt` — a call on the producer is what an operation's flows build.
* `OperationRefused` — the operation has a flow that must not go through.
* `CallSound` — where a call stands, and what it has handed over so far.
* `handover_faithful` — along every run, what a producer receives is what the
  flows of the call it comes from build; a call that resolves has handed its flows
  over, once; a call with a flow to refuse fails and hands nothing over.
-/

namespace SharedTsLibs.BackgroundJobs

open StepSystem

variable {Input P : Type}

/-! ## What an operation hands over -/

/-- The call on the producer carries what the operation's flows build. -/
def CallBuilt (env : FlowEnv Input P) : FlowOperation Input P → ProducerCall P → Prop
  | .addFlow flow opts, .add job opts' =>
    RootBuilt env.libs env.registry env.isTest flow job ∧ opts' = opts
  | .addFlowBulk flows, .addBulk jobs =>
    List.Forall₂ (RootBuilt env.libs env.registry env.isTest) flows jobs
  | .getFlow queueId rest, .getFlow opts => ∃ queueConfig,
      env.registry.getQueueConfig queueId = .ok queueConfig ∧
        opts = OrderedMap.set "queueName" (.str (resolveQueueId queueConfig)) rest
  | _, _ => False

/-- The operation has something to hand over: it is not a bulk call without flows. -/
def FlowOperation.HandsOver : FlowOperation Input P → Prop
  | .addFlowBulk flows => flows ≠ []
  | _ => True

/-- The operation has a flow that must be refused. -/
def OperationRefused (env : FlowEnv Input P) : FlowOperation Input P → Prop
  | .addFlow flow _ => FlowRefused env.registry flow
  | .addFlowBulk flows => ∃ flow ∈ flows, FlowRefused env.registry flow
  | .getFlow _ _ => False

theorem callBuilt_of_prepare {env : FlowEnv Input P} {op : FlowOperation Input P} {n : ℕ}
    {call : ProducerCall P} (h : op.prepare env n = .ok (some call)) : CallBuilt env op call := by
  cases op with
  | addFlow flow opts =>
    simp only [FlowOperation.prepare, Fallible.bind_eq_ok, Prod.exists] at h
    obtain ⟨job, n', hrun, hcall⟩ := h
    cases hcall
    exact ⟨rootBuilt_of_run hrun, rfl⟩
  | addFlowBulk flows =>
    simp only [FlowOperation.prepare] at h
    split at h
    · cases h
    · simp only [Fallible.bind_eq_ok, Prod.exists] at h
      obtain ⟨jobs, n', hrun, hcall⟩ := h
      cases hcall
      exact forall₂_rootBuilt_of_run hrun
  | getFlow queueId rest =>
    simp only [FlowOperation.prepare, Fallible.bind_eq_ok] at h
    obtain ⟨queueConfig, hq, hcall⟩ := h
    cases hcall
    exact ⟨queueConfig, hq, rfl⟩

theorem not_handsOver_of_prepare {env : FlowEnv Input P} {op : FlowOperation Input P} {n : ℕ}
    (h : op.prepare env n = .ok none) : ¬ op.HandsOver := by
  cases op with
  | addFlow flow opts =>
    simp only [FlowOperation.prepare, Fallible.bind_eq_ok, Prod.exists] at h
    obtain ⟨job, n', -, hcall⟩ := h
    cases hcall
  | addFlowBulk flows =>
    simp only [FlowOperation.prepare] at h
    split at h
    · next hlen => exact fun hne => hne (List.length_eq_zero_iff.1 hlen)
    · simp only [Fallible.bind_eq_ok, Prod.exists] at h
      obtain ⟨jobs, n', -, hcall⟩ := h
      cases hcall
  | getFlow queueId rest =>
    simp only [FlowOperation.prepare, Fallible.bind_eq_ok] at h
    obtain ⟨queueConfig, -, hcall⟩ := h
    cases hcall

/-- What must be refused is never built. -/
theorem not_callBuilt_of_refused {env : FlowEnv Input P} {op : FlowOperation Input P}
    (h : OperationRefused env op) (call : ProducerCall P) : ¬ CallBuilt env op call := by
  cases op with
  | addFlow flow opts =>
    cases call with
    | add job opts' => exact fun hb => not_rootBuilt_of_flowRefused h hb.1
    | addBulk jobs => exact id
    | getFlow opts' => exact id
  | addFlowBulk flows =>
    cases call with
    | add job opts' => exact id
    | addBulk jobs =>
      intro hb
      obtain ⟨flow, hmem, hrefused⟩ := h
      obtain ⟨i, rfl⟩ := List.mem_iff_get.1 hmem
      have hjobs : i < jobs.length := by
        rw [← hb.length_eq]
        exact i.isLt
      exact not_rootBuilt_of_flowRefused hrefused (hb.get i.isLt hjobs)
    | getFlow opts' => exact id
  | getFlow queueId rest => exact h.elim

/-- A bulk call with a flow to refuse has flows. -/
theorem handsOver_of_refused {env : FlowEnv Input P} {op : FlowOperation Input P}
    (h : OperationRefused env op) : op.HandsOver := by
  cases op with
  | addFlow flow opts => trivial
  | addFlowBulk flows =>
    obtain ⟨flow, hmem, -⟩ := h
    exact List.ne_nil_of_mem hmem
  | getFlow queueId rest => trivial

/-! ## One call -/

/-- The calls on a producer that come from the `i`-th call, in order. -/
def handed (m : FlowManager Input P) (i : ℕ) : List (ProducerCall P) :=
  (m.log.filter (·.call == i)).map (·.producerCall)

/-- The call of the manager has, or is going to have, this one made on a producer. -/
def Requested (env : FlowEnv Input P) (request : FlowRequest Input P) (call : ProducerCall P) :
    Prop :=
  ∃ op, request = .operation op ∧ CallBuilt env op call

/-- What a call has handed over, by where it stands. -/
def CallSound (env : FlowEnv Input P) (c : FlowCall Input P) (log : List (ProducerCall P)) : Prop :=
  match c.phase with
  | .awaitingStart _ (some call) | .started call => log = [] ∧ Requested env c.request call
  | .awaitingReply => ∃ call, log = [call] ∧ Requested env c.request call
  | .awaitingStart _ none | .disposeAwaitingStart _ | .awaitingClose _ =>
    log = [] ∧ ∀ op, c.request ≠ .operation op
  | .done (.ok _) => (log = [] ∧ ∀ op, c.request = .operation op → ¬ op.HandsOver) ∨
      ∃ call, log = [call] ∧ Requested env c.request call
  | .done (.error _) => log = [] ∨ ∃ call, log = [call] ∧ Requested env c.request call

/-- Whatever the phase, a call has handed over nothing, or once what it was asked
to. -/
theorem CallSound.cases {env : FlowEnv Input P} {c : FlowCall Input P}
    {log : List (ProducerCall P)} (h : CallSound env c log) :
    log = [] ∨ ∃ call, log = [call] ∧ Requested env c.request call := by
  unfold CallSound at h
  split at h
  · exact Or.inl h.1
  · exact Or.inl h.1
  · exact Or.inr h
  · exact Or.inl h.1
  · exact Or.inl h.1
  · exact Or.inl h.1
  · rcases h with h | h
    · exact Or.inl h.1
    · exact Or.inr h
  · exact h

/-- A call that must be refused has failed, and has handed nothing over. -/
theorem CallSound.refused {env : FlowEnv Input P} {c : FlowCall Input P}
    {log : List (ProducerCall P)} (h : CallSound env c log) {op : FlowOperation Input P}
    (hop : c.request = .operation op) (hr : OperationRefused env op) :
    log = [] ∧ ∃ e, c.phase = .done (.error e) := by
  have hnot : ∀ call, ¬ Requested env c.request call := by
    rintro call ⟨op', hop', hb⟩
    rw [hop] at hop'
    cases hop'
    exact not_callBuilt_of_refused hr call hb
  have hlog : log = [] := by
    rcases h.cases with hnil | ⟨call, -, hreq⟩
    · exact hnil
    · exact absurd hreq (hnot call)
  refine ⟨hlog, ?_⟩
  unfold CallSound at h
  split at h
  · exact absurd h.2 (hnot _)
  · exact absurd h.2 (hnot _)
  · obtain ⟨call, -, hreq⟩ := h
    exact absurd hreq (hnot call)
  · exact absurd hop (h.2 op)
  · exact absurd hop (h.2 op)
  · exact absurd hop (h.2 op)
  · rcases h with ⟨-, hno⟩ | ⟨call, -, hreq⟩
    · exact absurd (handsOver_of_refused hr) (hno op hop)
    · exact absurd hreq (hnot call)
  · next e he => exact ⟨e, he⟩

/-! ## One event -/

/-- Every call is sound, and whatever a producer received comes from one. -/
structure LogSound (env : FlowEnv Input P) (m : FlowManager Input P) : Prop where
  calls : ∀ i c, m.calls[i]? = some c → CallSound env c (handed m i)
  entries : ∀ h ∈ m.log, h.call < m.calls.length

namespace LogSound

variable {env : FlowEnv Input P} {m : FlowManager Input P}

/-- Soundness reads the calls and the log only. -/
theorem congr {m' : FlowManager Input P} (h : LogSound env m) (hcalls : m'.calls = m.calls)
    (hlog : m'.log = m.log) : LogSound env m' := by
  refine ⟨fun i c hi => ?_, ?_⟩
  · rw [handed, hlog]
    rw [hcalls] at hi
    exact h.calls i c hi
  · rw [hlog, hcalls]
    exact h.entries

/-- A new call has handed nothing over. -/
theorem push (h : LogSound env m) {request : FlowRequest Input P} {phase : CallPhase P}
    (hnew : CallSound env ⟨request, phase⟩ []) : LogSound env (m.push request phase) := by
  refine ⟨fun i c hi => ?_, fun e he => ?_⟩
  · rcases Slots.getElem?_push_some hi with ⟨rfl, rfl⟩ | ⟨-, hi'⟩
    · have hnone : handed (m.push request phase) m.calls.length = [] := by
        rw [handed, List.map_eq_nil_iff, List.filter_eq_nil_iff]
        intro e he heq
        have hlt := h.entries e he
        rw [beq_iff_eq.1 heq] at hlt
        exact Nat.lt_irrefl _ hlt
      rw [hnone]
      exact hnew
    · exact h.calls i c hi'
  · rw [FlowManager.push, List.length_append]
    exact Nat.lt_add_right _ (h.entries e he)

theorem setPhase (h : LogSound env m) {i : ℕ} {c : FlowCall Input P} (hi : m.calls[i]? = some c)
    {phase : CallPhase P} (hnew : CallSound env { c with phase } (handed m i)) :
    LogSound env (m.setPhase i c phase) := by
  refine ⟨fun j c' hj => ?_, fun e he => ?_⟩
  · rcases Slots.getElem?_set_some hi hj with ⟨rfl, rfl⟩ | ⟨-, hj'⟩
    · exact hnew
    · exact h.calls j c' hj'
  · rw [FlowManager.setPhase, List.length_set]
    exact h.entries e he

theorem start (h : LogSound env m) (built : Except String Unit) :
    LogSound env (m.start built).1 := by
  refine h.congr ?_ ?_
  all_goals
    unfold FlowManager.start
    split
    · rfl
    · split
      · rfl
      · cases built <;> rfl

theorem awaitStart (h : LogSound env m) {request : FlowRequest Input P}
    {built : Except String Unit} {next : Option (ProducerCall P)}
    (hawait : ∀ k, CallSound env ⟨request, .awaitingStart k next⟩ [])
    (hstarted : CallSound env ⟨request, FlowManager.afterStart next (.ok ())⟩ []) :
    LogSound env (m.awaitStart request built next) := by
  have hs := h.start built
  unfold FlowManager.awaitStart
  split
  · next m' hm =>
    rw [hm] at hs
    exact hs.push hstarted
  · next m' k hm =>
    rw [hm] at hs
    exact hs.push (hawait k)

theorem closeProducer (h : LogSound env m) : LogSound env m.closeProducer.1 := by
  unfold FlowManager.closeProducer
  split
  · exact h
  · exact ⟨h.calls, h.entries⟩

/-- What `dispose` goes on to hands nothing over. -/
theorem closeProducer_callSound {request : FlowRequest Input P}
    (hreq : ∀ op, request ≠ .operation op) :
    CallSound env ⟨request, m.closeProducer.2⟩ [] := by
  unfold FlowManager.closeProducer
  split
  · exact Or.inl ⟨rfl, fun op hop => absurd hop (hreq op)⟩
  · exact ⟨rfl, hreq⟩

/-- A call past its `await` of a start. -/
theorem afterStart_callSound {request : FlowRequest Input P} {k : ℕ}
    {next : Option (ProducerCall P)} {log : List (ProducerCall P)}
    (h : CallSound env ⟨request, .awaitingStart k next⟩ log) (result : Except String Unit) :
    CallSound env ⟨request, FlowManager.afterStart next result⟩ log := by
  cases result with
  | error e => exact h.cases
  | ok =>
    cases next with
    | none => exact Or.inl ⟨h.1, fun op hop => absurd hop (h.2 op)⟩
    | some call => exact h

theorem callProducer (h : LogSound env m) {i : ℕ} {c : FlowCall Input P} {call : ProducerCall P}
    (hi : m.calls[i]? = some c) (hc : c.phase = .started call) :
    LogSound env (m.callProducer i c call) := by
  have hsound := h.calls i c hi
  rw [CallSound, hc] at hsound
  obtain ⟨hnil, hreq⟩ := hsound
  unfold FlowManager.callProducer
  split
  · exact h.setPhase hi (Or.inl hnil)
  · next p hp =>
    have hlog : ∀ j, handed (FlowManager.setPhase { m with log := m.log ++ [⟨i, p, call⟩] } i c
        .awaitingReply) j = handed m j ++ if i = j then [call] else [] := by
      intro j
      by_cases hij : i = j
      · simp [handed, FlowManager.setPhase, hij]
      · simp [handed, FlowManager.setPhase, hij]
    refine ⟨fun j c' hj => ?_, fun e he => ?_⟩
    · rw [hlog]
      rcases Slots.getElem?_set_some hi hj with ⟨rfl, rfl⟩ | ⟨hne, hj'⟩
      · rw [hnil, if_pos rfl]
        exact ⟨call, rfl, hreq⟩
      · rw [if_neg (Ne.symm hne), List.append_nil]
        exact h.calls j c' hj'
    · rw [FlowManager.setPhase, List.length_set]
      rcases List.mem_append.1 he with he | he
      · exact h.entries e he
      · rw [List.mem_singleton.1 he]
        exact (List.getElem?_eq_some_iff.1 hi).1

theorem of_stepped {m' : FlowManager Input P} {e : FlowEvent Input P} (h : LogSound env m)
    (hs : Stepped env m e m') : LogSound env m' := by
  cases hs with
  | started hnext =>
    rcases hnext with ⟨rfl, rfl⟩ | ⟨op, call, rfl, hprep, rfl⟩
    · exact h.awaitStart (fun k => ⟨rfl, by simp⟩) (Or.inl ⟨rfl, by simp⟩)
    · have hreq : Requested env (.operation op) call := ⟨op, rfl, callBuilt_of_prepare hprep⟩
      exact h.awaitStart (fun k => ⟨rfl, hreq⟩) ⟨rfl, hreq⟩
  | disposeAwaits => exact h.push ⟨rfl, by simp⟩
  | disposes => exact h.closeProducer.push (closeProducer_callSound (by simp))
  | @returns op built n result hresult =>
    refine h.push ?_
    cases result with
    | error e => exact Or.inl rfl
    | ok =>
      rcases hresult with ⟨e, he⟩ | hprep
      · cases he
      · refine Or.inl ⟨rfl, fun op' hop' => ?_⟩
        cases hop'
        exact not_handsOver_of_prepare hprep
  | ready hk =>
    refine h.congr ?_ ?_
    all_goals
      unfold FlowManager.startReady
      split <;> rfl
  | startClosed => exact ⟨h.calls, h.entries⟩
  | @resume i k c next d result hi hc hk hd =>
    have hsound := h.calls i c hi
    have hafter : CallSound env { c with phase := FlowManager.afterStart next result }
        (handed m i) := by
      refine afterStart_callSound (k := k) ?_ result
      rw [← hc]
      exact hsound
    exact (h.setPhase hi hafter).congr rfl rfl
  | @resumeDispose i k c d result hi hc hk hd =>
    have hsound := h.calls i c hi
    rw [CallSound, hc] at hsound
    have hclose : CallSound env ⟨c.request, m.closeProducer.2⟩ [] :=
      closeProducer_callSound hsound.2
    refine h.closeProducer.setPhase ?_ ?_
    · rw [← hi]
      unfold FlowManager.closeProducer
      split <;> rfl
    · have hlog : handed m.closeProducer.1 i = [] := by
        rw [← hsound.1]
        unfold FlowManager.closeProducer
        split <;> rfl
      rw [hlog]
      exact hclose
  | proceed hi hc => exact h.callProducer hi hc
  | @reply i c result hi hc =>
    have hsound := h.calls i c hi
    rw [CallSound, hc] at hsound
    refine h.setPhase hi ?_
    cases result with
    | error e => exact Or.inr hsound
    | ok => exact Or.inr hsound
  | @closed i p c hi hc =>
    have hsound := h.calls i c hi
    rw [CallSound, hc] at hsound
    have hdone : CallSound env { c with phase := .done (.ok ()) } (handed m i) :=
      Or.inl ⟨hsound.1, fun op hop => absurd hop (hsound.2 op)⟩
    exact (h.setPhase hi hdone).congr rfl rfl

end LogSound

/-! ## Runs -/

theorem logSound_new (env : FlowEnv Input P) : LogSound env .new where
  calls := by simp [FlowManager.new]
  entries := by simp [FlowManager.new]

theorem logSound_run {env : FlowEnv Input P} {m : FlowManager Input P}
    {events : List (FlowEvent Input P)} (hrun : run (flowStep env) .new events = some m) :
    LogSound env m :=
  invariant_run (C := fun _ _ => True) (fun _ _ _ hm _ hs => hm.of_stepped (stepped_of_flowStep hs))
    (logSound_new env) (allSteps_true _ _) hrun

/-- Along every run: what a producer is handed comes from a call and is what the
call's flows build, root options as `QueueManager.resolveJobOptions` computes them
and no child carrying a field it may not; a call that resolves, and has something
to hand over, has handed it over exactly once; a call with a node that is not
accepted, at any depth, or a root with an invalid deduplication id has failed
without having called the producer. -/
theorem handover_faithful (env : FlowEnv Input P) (events : List (FlowEvent Input P))
    (m : FlowManager Input P) (hrun : run (flowStep env) .new events = some m) :
    (∀ h ∈ m.log, ∃ c op, m.calls[h.call]? = some c ∧ c.request = .operation op ∧
      CallBuilt env op h.producerCall) ∧
    ∀ i c op, m.calls[i]? = some c → c.request = .operation op →
      (c.phase = .done (.ok ()) → op.HandsOver →
        ∃ call, handed m i = [call] ∧ CallBuilt env op call) ∧
      (OperationRefused env op → handed m i = [] ∧ ∃ e, c.phase = .done (.error e)) := by
  have hsound : LogSound env m := logSound_run hrun
  refine ⟨fun h hh => ?_, fun i c op hi hop => ⟨fun hdone hover => ?_, fun hr => ?_⟩⟩
  · obtain ⟨c, hc⟩ : ∃ c, m.calls[h.call]? = some c :=
      ⟨_, List.getElem?_eq_getElem (hsound.entries h hh)⟩
    have hmem : h.producerCall ∈ handed m h.call :=
      List.mem_map.2 ⟨h, List.mem_filter.2 ⟨hh, beq_self_eq_true _⟩, rfl⟩
    rcases (hsound.calls _ c hc).cases with hnil | ⟨call, hcall, op, hop, hb⟩
    · rw [hnil] at hmem
      cases hmem
    · rw [hcall, List.mem_singleton] at hmem
      rw [hmem]
      exact ⟨c, op, hc, hop, hb⟩
  · have hcall := hsound.calls i c hi
    rw [CallSound, hdone] at hcall
    rcases hcall with ⟨-, hno⟩ | ⟨call, hlog, op', hop', hb⟩
    · exact absurd hover (hno op hop)
    · rw [hop] at hop'
      cases hop'
      exact ⟨call, hlog, hb⟩
  · exact (hsound.calls i c hi).refused hop hr

/-- A manager of one queue that accepts every payload but zero. -/
def oneQueueEnv : FlowEnv ℕ ℕ where
  libs := .shallow
  registry := .new [⟨"orders", none, fun n => if n = 0 then .error "invalid" else .ok n, none⟩]
  isTest := false
  lazyInitEnabled := none

/-- A root with one child, both on the queue. -/
def oneChildFlow (child : ℕ) : FlowJobInput ℕ ℕ :=
  .mk "orders" none 1 none (some [.mk "orders" none child none none])

/-- The first `addFlow` of a manager, up to the reply of the producer. -/
def addFlowEvents (flow : FlowJobInput ℕ ℕ) : List (FlowEvent ℕ ℕ) :=
  [.invoke (.operation (.addFlow flow none)) (.ok ()) 0, .ready 0 (.ok ()), .resume 0, .proceed 0,
    .reply 0 (.ok ())]

/-- The flow is handed over, as built, once; with a payload below the root that the
schema rejects it is not, and the call fails. -/
theorem handover_one_child :
    (∃ m, run (flowStep oneQueueEnv) .new (addFlowEvents (oneChildFlow 1)) = some m ∧
      ∃ call, handed m 0 = [call] ∧ CallBuilt oneQueueEnv (.addFlow (oneChildFlow 1) none) call) ∧
    ∃ m, run (flowStep oneQueueEnv) .new ((addFlowEvents (oneChildFlow 0)).take 1) = some m ∧
      handed m 0 = [] ∧ ∃ c e, m.calls[0]? = some c ∧ c.phase = .done (.error e) := by
  constructor
  · refine ⟨_, rfl, ?_⟩
    exact ((handover_faithful oneQueueEnv (addFlowEvents (oneChildFlow 1)) _ rfl).2 0 _ _ rfl
      rfl).1 rfl trivial
  · refine ⟨_, rfl, ?_⟩
    have hrefused : OperationRefused oneQueueEnv (.addFlow (oneChildFlow 0) none) := by
      refine Or.inl ⟨_, .descend (List.mem_singleton_self _) (.self _), ?_⟩
      rintro ⟨queueConfig, parsedData, hq, hp⟩
      obtain rfl := Except.ok.inj hq
      cases hp
    obtain ⟨hnone, e, he⟩ := ((handover_faithful oneQueueEnv
      ((addFlowEvents (oneChildFlow 0)).take 1) _ rfl).2 0 _ _ rfl rfl).2 hrefused
    exact ⟨hnone, _, e, rfl, he⟩

/-- A root whose caller brings a blank deduplication id. -/
def blankIdFlow : FlowJobInput ℕ ℕ :=
  .mk "orders" none 1 (some [("deduplication", .obj [("id", .str "  ")])]) none

/-- An id the code calls invalid is handed over when it comes from the caller: only
the ids that come from the queue are checked. -/
theorem handover_blank_caller_id :
    ∃ m job, run (flowStep oneQueueEnv) .new (addFlowEvents blankIdFlow) = some m ∧
      handed m 0 = [.add job none] ∧
      JsValue.get job.opts "deduplication" = .obj [("id", .str "  ")] ∧
      checkDeduplicationId (.str "  " : JsValue ℕ) = .error "Invalid deduplication id" :=
  ⟨_, _, rfl, rfl, rfl, by decide⟩

end SharedTsLibs.BackgroundJobs
