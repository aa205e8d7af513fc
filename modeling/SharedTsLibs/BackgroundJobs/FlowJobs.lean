import SharedTsLibs.BackgroundJobs.JobOptions

/-!
# Building flow jobs

`FlowManager.buildRootFlowJob` turns a tree of typed flow inputs into the tree
BullMQ is given: every node's queue id becomes its queue's resolved name, its
payload is parsed, and its options are resolved — at the root the way
`QueueManager.resolveJobOptions` does it, below the root with the fields BullMQ
does not allow on children stripped from both option sources.
-/

namespace SharedTsLibs.BackgroundJobs

/-! ## Data -/

/-- `FlowJobInput` and `FlowChildJobInput`, which differ in the type of `opts`
only. -/
inductive FlowJobInput (Input P : Type) where
  | mk (queueId : String) (name : Option String) (data : Input) (opts : Option (JsObject P))
      (children : Option (List (FlowJobInput Input P)))

/-- BullMQ's `FlowJob` and `FlowChildJob`. -/
inductive FlowJob (P : Type) where
  | mk (name : String) (queueName : String) (data : P) (opts : JsObject P)
      (children : Option (List (FlowJob P)))

variable {Input P : Type}

def FlowJob.opts : FlowJob P → JsObject P
  | .mk _ _ _ opts _ => opts

/-! ## The code -/

/-- The fields BullMQ does not allow on a flow child. -/
def childOnlyFields : List String := ["deduplication", "debounce", "parent", "repeat"]

/-- `stripChildOnlyFields`: copy the object, then delete the four fields. -/
def stripChildOnlyFields (opts : JsObject P) : JsObject P :=
  OrderedMap.delete "repeat"
    (OrderedMap.delete "parent"
      (OrderedMap.delete "debounce"
        (OrderedMap.delete "deduplication" (OrderedMap.spread [] opts))))

section Build

variable (libs : JobLibs P) (registry : QueueConfigRegistry Input P) (isTest : Bool)

/-- `resolveRootJobOptions`. -/
def resolveRootJobOptions (queueId : String) (jobPayload : P) (options : Option (JsObject P)) :
    JobM (JsObject P) := do
  let queueConfig ← registry.getQueueConfig queueId
  let defaultOptions ← defaultJobOptions queueConfig jobPayload
  let mut resolvedOptions := libs.merge (defaultOptions.getD []) (options.getD [])
  let deduplication := JsValue.get (defaultOptions.getD []) "deduplication"
  if deduplication.truthy && !(JsValue.get (options.getD []) "deduplication").truthy then
    let id ← deduplicationId deduplication jobPayload
    checkDeduplicationId id
    let resolved := (JsValue.get resolvedOptions "deduplication").spreadFields
    resolvedOptions :=
      OrderedMap.set "deduplication" (.obj (OrderedMap.set "id" id resolved)) resolvedOptions
  return prepareJobOptions isTest resolvedOptions (← freshUuid libs)

/-- `resolveChildJobOptions`. -/
def resolveChildJobOptions (queueId : String) (jobPayload : P) (options : Option (JsObject P)) :
    JobM (JsObject P) := do
  let queueConfig ← registry.getQueueConfig queueId
  let rawDefaults ← defaultJobOptions queueConfig jobPayload
  let defaultOptions := stripChildOnlyFields (rawDefaults.getD [])
  let callerOptions := stripChildOnlyFields (options.getD [])
  let resolvedOptions := libs.merge defaultOptions callerOptions
  return prepareJobOptions isTest resolvedOptions (← freshUuid libs)

mutual

/-- `buildChildFlowJob`. -/
def buildChildFlowJob : FlowJobInput Input P → JobM (FlowJob P)
  | .mk queueId name data opts children => do
    let queueConfig ← registry.getQueueConfig queueId
    let parsedData ← queueConfig.jobPayloadSchema data
    let opts ← resolveChildJobOptions libs registry isTest queueId parsedData opts
    let children ← buildChildren children
    return .mk (name.getD queueId) (resolveQueueId queueConfig) parsedData opts children

/-- `children?.map((child) => this.buildChildFlowJob(child))`. -/
def buildChildren : Option (List (FlowJobInput Input P)) → JobM (Option (List (FlowJob P)))
  | none => return none
  | some children => do return some (← buildChildList children)

def buildChildList : List (FlowJobInput Input P) → JobM (List (FlowJob P))
  | [] => return []
  | child :: children => do
    let job ← buildChildFlowJob child
    let jobs ← buildChildList children
    return job :: jobs

end

/-- `buildRootFlowJob`. -/
def buildRootFlowJob : FlowJobInput Input P → JobM (FlowJob P)
  | .mk queueId name data opts children => do
    let queueConfig ← registry.getQueueConfig queueId
    let parsedData ← queueConfig.jobPayloadSchema data
    let opts ← resolveRootJobOptions libs registry isTest queueId parsedData opts
    let children ← buildChildren libs registry isTest children
    return .mk (name.getD queueId) (resolveQueueId queueConfig) parsedData opts children

/-- `flows.map((flow) => this.buildRootFlowJob(flow))`. -/
def buildRootFlowJobs : List (FlowJobInput Input P) → JobM (List (FlowJob P))
  | [] => return []
  | flow :: flows => do
    let job ← buildRootFlowJob libs registry isTest flow
    let jobs ← buildRootFlowJobs flows
    return job :: jobs

/-! ## What is built -/

/-- The options carry none of the fields BullMQ does not allow on a flow child. -/
def NoChildOnlyFields (opts : JsObject P) : Prop :=
  ∀ k ∈ childOnlyFields, k ∉ OrderedMap.keys opts

/-- The queue of an input is supported, under the name `queueName`, and its schema
parses the payload to `data`. -/
def NodeBuilt (queueId : String) (input : Input) (queueName : String) (data : P) : Prop :=
  ∃ queueConfig, registry.getQueueConfig queueId = .ok queueConfig ∧
    queueName = resolveQueueId queueConfig ∧ queueConfig.jobPayloadSchema input = .ok data

mutual

/-- The job built of a child input, and of everything below it. -/
def ChildBuilt : FlowJobInput Input P → FlowJob P → Prop
  | .mk queueId name input _ children, .mk name' queueName data opts children' =>
    NodeBuilt registry queueId input queueName data ∧ name' = name.getD queueId ∧
      NoChildOnlyFields opts ∧ ChildrenBuilt children children'

def ChildrenBuilt : Option (List (FlowJobInput Input P)) → Option (List (FlowJob P)) → Prop
  | none, none => True
  | some children, some children' => ChildListBuilt children children'
  | _, _ => False

def ChildListBuilt : List (FlowJobInput Input P) → List (FlowJob P) → Prop
  | [], [] => True
  | child :: children, job :: jobs => ChildBuilt child job ∧ ChildListBuilt children jobs
  | _, _ => False

end

/-- The options `QueueManager` resolves for the same queue, parsed payload and
options, whatever uuid either of the two draws. -/
def RootOptions (queueId : String) (data : P) (options : Option (JsObject P))
    (opts : JsObject P) : Prop :=
  ∃ resolvedOptions n,
    opts = prepareJobOptions isTest resolvedOptions (libs.generateMonotonicUuid n) ∧
    ∀ m, (resolveJobOptions libs registry isTest queueId data options).run m =
      .ok (prepareJobOptions isTest resolvedOptions (libs.generateMonotonicUuid m), m + 1)

/-- The job built of a root input. -/
def RootBuilt : FlowJobInput Input P → FlowJob P → Prop
  | .mk queueId name input options children, .mk name' queueName data opts children' =>
    NodeBuilt registry queueId input queueName data ∧ name' = name.getD queueId ∧
      RootOptions libs registry isTest queueId data options opts ∧
      ChildrenBuilt registry children children'

end Build

/-! ## Options -/

theorem noChildOnlyFields_stripChildOnlyFields (opts : JsObject P) :
    NoChildOnlyFields (stripChildOnlyFields opts) := by
  intro k hk
  simp only [childOnlyFields, List.mem_cons, List.not_mem_nil, or_false] at hk
  rcases hk with rfl | rfl | rfl | rfl <;> simp [stripChildOnlyFields]

/-- Filling in the defaults brings none of the four fields. -/
theorem noChildOnlyFields_prepareJobOptions {isTest : Bool} {options : JsObject P} {uuid : String}
    (h : NoChildOnlyFields options) :
    NoChildOnlyFields (prepareJobOptions isTest options uuid) := by
  intro k hk
  have hopt := h k hk
  simp only [childOnlyFields, List.mem_cons, List.not_mem_nil, or_false] at hk
  unfold prepareJobOptions
  rcases hk with rfl | rfl | rfl | rfl <;> cases isTest <;> simp [DEFAULT_JOB_CONFIG, hopt]

/-- Below the root, neither option source brings any of the four fields through. -/
theorem noChildOnlyFields_resolveChildJobOptions {libs : JobLibs P}
    {registry : QueueConfigRegistry Input P} {isTest : Bool} {queueId : String} {jobPayload : P}
    {options : Option (JsObject P)} {n : ℕ} {r : JsObject P × ℕ}
    (h : (resolveChildJobOptions libs registry isTest queueId jobPayload options).run n = .ok r) :
    NoChildOnlyFields r.1 := by
  simp only [resolveChildJobOptions, bind_pure_comp, StateT.run_bind, StateT.run_monadLift,
    monadLift_self, StateT.run_map, freshUuid_run, Except.map_ok, bind_map_left,
    Fallible.bind_eq_ok, Except.ok.injEq] at h
  obtain ⟨queueConfig, -, rawDefaults, -, rfl⟩ := h
  refine noChildOnlyFields_prepareJobOptions fun k hk hmem => ?_
  rcases libs.mem_keys_merge _ _ k hmem with hd | hc
  · exact noChildOnlyFields_stripChildOnlyFields _ k hk hd
  · exact noChildOnlyFields_stripChildOnlyFields _ k hk hc

/-- The two classes resolve the options of a standalone job and of a flow root the
same way. -/
theorem resolveRootJobOptions_eq_resolveJobOptions (libs : JobLibs P)
    (registry : QueueConfigRegistry Input P) (isTest : Bool) (queueId : String) (jobPayload : P)
    (options : Option (JsObject P)) :
    resolveRootJobOptions libs registry isTest queueId jobPayload options =
      resolveJobOptions libs registry isTest queueId jobPayload options := by
  refine StateT.ext fun n => ?_
  simp only [resolveRootJobOptions, resolveJobOptions, mergeJobOptions, StateT.run_bind,
    StateT.run_monadLift, monadLift_self, bind_assoc, pure_bind]
  refine bind_congr fun queueConfig => bind_congr fun defaultOptions => ?_
  split <;> simp

theorem rootOptions_of_run {libs : JobLibs P} {registry : QueueConfigRegistry Input P}
    {isTest : Bool} {queueId : String} {jobPayload : P} {options : Option (JsObject P)} {n : ℕ}
    {r : JsObject P × ℕ}
    (h : (resolveRootJobOptions libs registry isTest queueId jobPayload options).run n = .ok r) :
    RootOptions libs registry isTest queueId jobPayload options r.1 := by
  rw [resolveRootJobOptions_eq_resolveJobOptions, resolveJobOptions_eq_ok_iff] at h
  obtain ⟨queueConfig, resolvedOptions, hq, hm, rfl⟩ := h
  exact ⟨resolvedOptions, n, rfl, fun m =>
    resolveJobOptions_eq_ok_iff.2 ⟨queueConfig, resolvedOptions, hq, hm, rfl⟩⟩

/-! ## Trees -/

section Trees

variable {libs : JobLibs P} {registry : QueueConfigRegistry Input P} {isTest : Bool}

mutual

theorem childBuilt_of_run : ∀ {flow : FlowJobInput Input P} {n : ℕ} {r : FlowJob P × ℕ},
    (buildChildFlowJob libs registry isTest flow).run n = .ok r → ChildBuilt registry flow r.1
  | .mk queueId name data opts children, n, r, h => by
    simp only [buildChildFlowJob, bind_pure_comp, StateT.run_bind, StateT.run_monadLift,
      monadLift_self, StateT.run_map, bind_map_left, Fallible.bind_eq_ok, Fallible.map_eq_ok,
      Prod.exists] at h
    obtain ⟨queueConfig, hq, parsedData, hp, opts', n', ho, children', n'', hc, rfl⟩ := h
    exact ⟨⟨queueConfig, hq, rfl, hp⟩, rfl, noChildOnlyFields_resolveChildJobOptions ho,
      childrenBuilt_of_run hc⟩

theorem childrenBuilt_of_run : ∀ {children : Option (List (FlowJobInput Input P))} {n : ℕ}
    {r : Option (List (FlowJob P)) × ℕ},
    (buildChildren libs registry isTest children).run n = .ok r →
      ChildrenBuilt registry children r.1
  | none, n, r, h => by
    cases h
    trivial
  | some children, n, r, h => by
    simp only [buildChildren, bind_pure_comp, StateT.run_map, Fallible.map_eq_ok,
      Prod.exists] at h
    obtain ⟨children', n', hc, rfl⟩ := h
    exact childListBuilt_of_run hc

theorem childListBuilt_of_run : ∀ {children : List (FlowJobInput Input P)} {n : ℕ}
    {r : List (FlowJob P) × ℕ},
    (buildChildList libs registry isTest children).run n = .ok r →
      ChildListBuilt registry children r.1
  | [], n, r, h => by
    cases h
    trivial
  | child :: children, n, r, h => by
    simp only [buildChildList, bind_pure_comp, StateT.run_bind, StateT.run_map,
      Fallible.bind_eq_ok, Fallible.map_eq_ok, Prod.exists] at h
    obtain ⟨job, n', hj, jobs, n'', hjs, rfl⟩ := h
    exact ⟨childBuilt_of_run hj, childListBuilt_of_run hjs⟩

end

/-- A root that builds is built faithfully, with everything below it. -/
theorem rootBuilt_of_run {flow : FlowJobInput Input P} {n : ℕ} {r : FlowJob P × ℕ}
    (h : (buildRootFlowJob libs registry isTest flow).run n = .ok r) :
    RootBuilt libs registry isTest flow r.1 := by
  obtain ⟨queueId, name, data, opts, children⟩ := flow
  simp only [buildRootFlowJob, bind_pure_comp, StateT.run_bind, StateT.run_monadLift,
    monadLift_self, StateT.run_map, bind_map_left, Fallible.bind_eq_ok, Fallible.map_eq_ok,
    Prod.exists] at h
  obtain ⟨queueConfig, hq, parsedData, hp, opts', n', ho, children', n'', hc, rfl⟩ := h
  exact ⟨⟨queueConfig, hq, rfl, hp⟩, rfl, rootOptions_of_run ho, childrenBuilt_of_run hc⟩

theorem forall₂_rootBuilt_of_run {flows : List (FlowJobInput Input P)} {n : ℕ}
    {r : List (FlowJob P) × ℕ}
    (h : (buildRootFlowJobs libs registry isTest flows).run n = .ok r) :
    List.Forall₂ (RootBuilt libs registry isTest) flows r.1 := by
  induction flows generalizing n r with
  | nil => cases h; exact List.Forall₂.nil
  | cons flow flows ih =>
    simp only [buildRootFlowJobs, bind_pure_comp, StateT.run_bind, StateT.run_map,
      Fallible.bind_eq_ok, Fallible.map_eq_ok, Prod.exists] at h
    obtain ⟨job, n', hj, jobs, n'', hjs, rfl⟩ := h
    exact List.Forall₂.cons (rootBuilt_of_run hj) (ih hjs)

end Trees

/-! ## What is refused -/

/-- `node` is the input itself or lies below it, at any depth. -/
inductive HasNode : FlowJobInput Input P → FlowJobInput Input P → Prop
  | self (flow : FlowJobInput Input P) : HasNode flow flow
  | descend {queueId : String} {name : Option String} {data : Input} {opts : Option (JsObject P)}
      {children : List (FlowJobInput Input P)} {child node : FlowJobInput Input P} :
      child ∈ children → HasNode child node → HasNode (.mk queueId name data opts children) node

/-- The node's queue is supported and its schema accepts the payload. -/
def NodeAccepted (registry : QueueConfigRegistry Input P) : FlowJobInput Input P → Prop
  | .mk queueId _ data _ _ => ∃ queueConfig parsedData,
      registry.getQueueConfig queueId = .ok queueConfig ∧
        queueConfig.jobPayloadSchema data = .ok parsedData

/-- The root's deduplication id comes from its queue, and is falsy or blank. -/
def InvalidDeduplicationId (registry : QueueConfigRegistry Input P) :
    FlowJobInput Input P → Prop
  | .mk queueId _ data opts _ => ∃ queueConfig parsedData defaultOptions id,
      registry.getQueueConfig queueId = .ok queueConfig ∧
        queueConfig.jobPayloadSchema data = .ok parsedData ∧
        defaultJobOptions queueConfig parsedData = .ok (some defaultOptions) ∧
        (JsValue.get defaultOptions "deduplication").truthy = true ∧
        (JsValue.get (opts.getD []) "deduplication").truthy = false ∧
        deduplicationId (JsValue.get defaultOptions "deduplication") parsedData = .ok id ∧
        (id.truthy = false ∨ ∃ s, id = .str s ∧ ∀ c ∈ s.toList, JsText.isWhitespace c = true)

/-- A flow the call must refuse. -/
def FlowRefused (registry : QueueConfigRegistry Input P) (flow : FlowJobInput Input P) : Prop :=
  (∃ node, HasNode flow node ∧ ¬ NodeAccepted registry node) ∨ InvalidDeduplicationId registry flow

section Refused

variable {libs : JobLibs P} {registry : QueueConfigRegistry Input P} {isTest : Bool}

theorem exists_childBuilt_of_mem {children : List (FlowJobInput Input P)}
    {jobs : List (FlowJob P)} (h : ChildListBuilt registry children jobs)
    {child : FlowJobInput Input P} (hc : child ∈ children) :
    ∃ job, ChildBuilt registry child job := by
  induction children generalizing jobs with
  | nil => cases hc
  | cons c children ih =>
    cases jobs with
    | nil => cases h
    | cons job jobs =>
      rcases List.mem_cons.1 hc with rfl | hc
      · exact ⟨job, h.1⟩
      · exact ih h.2 hc

theorem nodeAccepted_of_childBuilt {flow node : FlowJobInput Input P} (hn : HasNode flow node)
    {job : FlowJob P} (h : ChildBuilt registry flow job) : NodeAccepted registry node := by
  induction hn generalizing job with
  | self flow =>
    obtain ⟨queueId, name, data, opts, children⟩ := flow
    obtain ⟨name', queueName, data', opts', children'⟩ := job
    obtain ⟨⟨queueConfig, hq, -, hp⟩, -⟩ := h
    exact ⟨queueConfig, data', hq, hp⟩
  | descend hc _ ih =>
    obtain ⟨name', queueName, data', opts', children'⟩ := job
    cases children' with
    | none => exact absurd h.2.2.2 id
    | some children' =>
      obtain ⟨job', hj⟩ := exists_childBuilt_of_mem h.2.2.2 hc
      exact ih hj

theorem nodeAccepted_of_rootBuilt {flow node : FlowJobInput Input P} (hn : HasNode flow node)
    {job : FlowJob P} (h : RootBuilt libs registry isTest flow job) :
    NodeAccepted registry node := by
  cases hn with
  | self =>
    obtain ⟨queueId, name, data, opts, children⟩ := flow
    obtain ⟨name', queueName, data', opts', children'⟩ := job
    obtain ⟨⟨queueConfig, hq, -, hp⟩, -⟩ := h
    exact ⟨queueConfig, data', hq, hp⟩
  | descend hc hn' =>
    obtain ⟨name', queueName, data', opts', children'⟩ := job
    cases children' with
    | none => exact absurd h.2.2.2 id
    | some children' =>
      obtain ⟨job', hj⟩ := exists_childBuilt_of_mem h.2.2.2 hc
      exact nodeAccepted_of_childBuilt hn' hj

theorem checkDeduplicationId_ne_ok {id : JsValue P}
    (h : id.truthy = false ∨ ∃ s, id = .str s ∧ ∀ c ∈ s.toList, JsText.isWhitespace c = true) :
    checkDeduplicationId id = .error "Invalid deduplication id" := by
  unfold checkDeduplicationId
  rcases h with h | ⟨s, rfl, hs⟩
  · simp [h]
  · have htrim : JsText.trim s.toList = [] := JsText.trim_eq_nil_iff.2 hs
    simp [htrim]

theorem mergeJobOptions_eq_error {queueConfig : QueueConfiguration Input P} {jobPayload : P}
    {options : Option (JsObject P)} {defaultOptions : JsObject P} {id : JsValue P}
    (hd : defaultJobOptions queueConfig jobPayload = .ok (some defaultOptions))
    (ht : (JsValue.get defaultOptions "deduplication").truthy = true)
    (hf : (JsValue.get (options.getD []) "deduplication").truthy = false)
    (hid : deduplicationId (JsValue.get defaultOptions "deduplication") jobPayload = .ok id)
    (hbad : id.truthy = false ∨ ∃ s, id = .str s ∧ ∀ c ∈ s.toList, JsText.isWhitespace c = true) :
    mergeJobOptions libs queueConfig jobPayload options = .error "Invalid deduplication id" := by
  simp [mergeJobOptions, hd, ht, hf, hid, checkDeduplicationId_ne_ok hbad, bind, Except.bind]

/-- A root with an invalid deduplication id does not build. -/
theorem not_rootBuilt_of_invalidDeduplicationId {flow : FlowJobInput Input P} {job : FlowJob P}
    (hbad : InvalidDeduplicationId registry flow) :
    ¬ RootBuilt libs registry isTest flow job := by
  obtain ⟨queueId, name, data, opts, children⟩ := flow
  obtain ⟨name', queueName, data', opts', children'⟩ := job
  rintro ⟨⟨queueConfig, hq, -, hp⟩, -, ⟨resolvedOptions, n, -, hrun⟩, -⟩
  obtain ⟨queueConfig', parsedData, defaultOptions, id, hq', hp', hd, ht, hf, hid, hinv⟩ := hbad
  obtain rfl : queueConfig = queueConfig' := by rw [hq] at hq'; exact Except.ok.inj hq'
  obtain rfl : data' = parsedData := by rw [hp] at hp'; exact Except.ok.inj hp'
  obtain ⟨queueConfig'', resolved, hq'', hm, -⟩ := resolveJobOptions_eq_ok_iff.1 (hrun 0)
  obtain rfl : queueConfig = queueConfig'' := by rw [hq] at hq''; exact Except.ok.inj hq''
  rw [mergeJobOptions_eq_error hd ht hf hid hinv] at hm
  cases hm

theorem not_rootBuilt_of_flowRefused {flow : FlowJobInput Input P} {job : FlowJob P}
    (h : FlowRefused registry flow) : ¬ RootBuilt libs registry isTest flow job := by
  rcases h with ⟨node, hn, hrej⟩ | hbad
  · exact fun hb => hrej (nodeAccepted_of_rootBuilt hn hb)
  · exact not_rootBuilt_of_invalidDeduplicationId hbad

end Refused

end SharedTsLibs.BackgroundJobs
