import SharedTsLibs.Lib.Fallible
import SharedTsLibs.Lib.JsText
import SharedTsLibs.Lib.JsValue

/-!
# Queue configurations and job options

The read-only registry of queue configurations (`QueueConfigRegistry`) and the
options a job is scheduled with: `prepareJobOptions` fills in the defaults, and
`QueueManager.resolveJobOptions` merges the queue's options with the caller's
and resolves the deduplication id.

Job options are plain JavaScript objects, so nothing is assumed of the fields a
queue or a caller sets.  An error is the message of the `Error` thrown.
-/

namespace SharedTsLibs.BackgroundJobs

/-! ## Queue configurations -/

/-- The `jobOptions` of a queue: an object, or a function of the payload, which
may throw. -/
inductive JobOptionsSource (P : Type) where
  | object (o : JsObject P)
  | function (f : P → Except String (Option (JsObject P)))

/-- `QueueConfiguration`.  `jobPayloadSchema` is the schema's `parse`: the parsed
payload, or the error it throws. -/
structure QueueConfiguration (Input P : Type) where
  queueId : String
  bullDashboardGrouping : Option (List String)
  jobPayloadSchema : Input → Except String P
  jobOptions : Option (JobOptionsSource P)

variable {Input P : Type}

/-- `resolveQueueId`: the name of the queue in BullMQ. -/
def resolveQueueId (queueConfig : QueueConfiguration Input P) : String :=
  ".".intercalate (queueConfig.bullDashboardGrouping.getD [] ++ [queueConfig.queueId])

/-- `QueueConfigRegistry`: the supported ids, in order, and the configuration
stored under each. -/
structure QueueConfigRegistry (Input P : Type) where
  queueIds : List String
  queuesConfig : List (String × QueueConfiguration Input P)
  mem_queueIds_iff : ∀ q, q ∈ queueIds ↔ q ∈ OrderedMap.keys queuesConfig

/-- The constructor: a later configuration with the same id replaces an earlier
one. -/
def QueueConfigRegistry.new (supportedQueues : List (QueueConfiguration Input P)) :
    QueueConfigRegistry Input P :=
  let queuesConfig := OrderedMap.spread [] (supportedQueues.map fun queue => (queue.queueId, queue))
  ⟨OrderedMap.keys queuesConfig, queuesConfig, fun _ => Iff.rfl⟩

/-- `getQueueConfig`. -/
def QueueConfigRegistry.getQueueConfig (registry : QueueConfigRegistry Input P)
    (queueId : String) : Except String (QueueConfiguration Input P) :=
  if queueId ∈ registry.queueIds then
    match OrderedMap.get? registry.queuesConfig queueId with
    | some queueConfig => .ok queueConfig
    | none => .error s!"Queue with id {queueId} is not supported"
  else .error s!"Queue with id {queueId} is not supported"

/-- A configuration is found for the supported ids and for no others. -/
theorem QueueConfigRegistry.getQueueConfig_isOk_iff {registry : QueueConfigRegistry Input P}
    {queueId : String} :
    (∃ c, registry.getQueueConfig queueId = .ok c) ↔ queueId ∈ registry.queueIds := by
  unfold getQueueConfig
  by_cases hq : queueId ∈ registry.queueIds
  · have hsome := OrderedMap.get?_isSome_iff.2 ((registry.mem_queueIds_iff queueId).1 hq)
    obtain ⟨c, hc⟩ := Option.isSome_iff_exists.1 hsome
    simp [hq, hc]
  · simp [hq]

/-! ## Job options -/

/-- What the options code uses of other packages: the `merge` of `ts-deepmerge`,
whose result has no key that neither argument has, and the successive values of
`generateMonotonicUuid`. -/
structure JobLibs (P : Type) where
  merge : JsObject P → JsObject P → JsObject P
  generateMonotonicUuid : ℕ → String
  mem_keys_merge : ∀ a b k, k ∈ OrderedMap.keys (merge a b) →
    k ∈ OrderedMap.keys a ∨ k ∈ OrderedMap.keys b

/-- A merge one level deep, and the same uuid each time. -/
def JobLibs.shallow : JobLibs P :=
  ⟨OrderedMap.spread, fun _ => "id", fun _ _ _ h => OrderedMap.mem_keys_spread.1 h⟩

/-- A computation that draws uuids and may throw: the counter is the number of
uuids drawn so far. -/
abbrev JobM := StateT ℕ (Except String)

/-- Draw the next uuid. -/
def freshUuid (libs : JobLibs P) : JobM String := fun n => .ok (libs.generateMonotonicUuid n, n + 1)

@[simp] theorem freshUuid_run (libs : JobLibs P) (n : ℕ) :
    (freshUuid libs).run n = .ok (libs.generateMonotonicUuid n, n + 1) := rfl

def RETENTION_COMPLETED_JOBS_IN_AMOUNT : ℚ := 50

def RETENTION_COMPLETED_JOBS_IN_DAYS : ℚ := 3

def RETENTION_FAILED_JOBS_IN_DAYS : ℚ := 7

def daysToSeconds (days : ℚ) : ℚ := days * 24 * 60 * 60

/-- `DEFAULT_JOB_CONFIG`. -/
def DEFAULT_JOB_CONFIG : JsObject P :=
  [("attempts", .num 3),
    ("backoff", .obj [("type", .str "exponential"), ("delay", .num 5000)]),
    ("removeOnComplete",
      .obj [("count", .num RETENTION_COMPLETED_JOBS_IN_AMOUNT),
        ("age", .num (daysToSeconds RETENTION_COMPLETED_JOBS_IN_DAYS))]),
    ("removeOnFail", .obj [("age", .num (daysToSeconds RETENTION_FAILED_JOBS_IN_DAYS))])]

/-- `prepareJobOptions`, given the uuid it draws. -/
def prepareJobOptions (isTest : Bool) (options : JsObject P) (uuid : String) : JsObject P :=
  let preparedOptions :=
    OrderedMap.spread (OrderedMap.spread [("jobId", .str uuid)] DEFAULT_JOB_CONFIG) options
  if isTest then
    OrderedMap.set "backoff" (.obj [("delay", .num 1), ("type", .str "fixed")])
      (OrderedMap.set "delay" (.num 0) preparedOptions)
  else preparedOptions

/-- The default options of a queue for a payload, `undefined` when it has none. -/
def defaultJobOptions (queueConfig : QueueConfiguration Input P) (jobPayload : P) :
    Except String (Option (JsObject P)) :=
  match queueConfig.jobOptions with
  | some (.function f) => f jobPayload
  | some (.object o) => .ok (some o)
  | none => .ok none

/-- `'id' in deduplication ? deduplication.id : deduplication.idBuilder(payload)`. -/
def deduplicationId (deduplication : JsValue P) (jobPayload : P) : Except String (JsValue P) :=
  match deduplication with
  | .obj fields =>
      if "id" ∈ OrderedMap.keys fields then .ok (JsValue.get fields "id")
      else
        match JsValue.get fields "idBuilder" with
        | .func idBuilder => idBuilder jobPayload
        | _ => .error "defaultOptions.deduplication.idBuilder is not a function"
  | .arr _ | .func _ => .error "defaultOptions.deduplication.idBuilder is not a function"
  | _ => .error "Cannot use 'in' operator to search for 'id' in defaultOptions.deduplication"

/-- The check of the id: falsy, or blank once trimmed, is invalid. -/
def checkDeduplicationId (id : JsValue P) : Except String Unit :=
  if id.truthy then
    match id with
    | .str s =>
        if JsText.trim s.toList = [] then .error "Invalid deduplication id" else .ok ()
    | _ => .error "deduplicationId.trim is not a function"
  else .error "Invalid deduplication id"

/-- The options of `QueueManager.resolveJobOptions` before the defaults are filled
in: the queue's options under the caller's, with the queue's deduplication id when
the caller brings no deduplication of his own. -/
def mergeJobOptions (libs : JobLibs P) (queueConfig : QueueConfiguration Input P) (jobPayload : P)
    (options : Option (JsObject P)) : Except String (JsObject P) := do
  let defaultOptions ← defaultJobOptions queueConfig jobPayload
  let resolvedOptions := libs.merge (defaultOptions.getD []) (options.getD [])
  let deduplication := JsValue.get (defaultOptions.getD []) "deduplication"
  if deduplication.truthy && !(JsValue.get (options.getD []) "deduplication").truthy then
    let id ← deduplicationId deduplication jobPayload
    checkDeduplicationId id
    let resolved := (JsValue.get resolvedOptions "deduplication").spreadFields
    return OrderedMap.set "deduplication" (.obj (OrderedMap.set "id" id resolved)) resolvedOptions
  else return resolvedOptions

/-- `QueueManager.resolveJobOptions`. -/
def resolveJobOptions (libs : JobLibs P) (registry : QueueConfigRegistry Input P) (isTest : Bool)
    (queueId : String) (jobPayload : P) (options : Option (JsObject P)) : JobM (JsObject P) := do
  let queueConfig ← registry.getQueueConfig queueId
  let resolvedOptions ← mergeJobOptions libs queueConfig jobPayload options
  let uuid ← freshUuid libs
  return prepareJobOptions isTest resolvedOptions uuid

/-- What the resolved options owe to the uuid drawn for them. -/
theorem resolveJobOptions_eq_ok_iff {libs : JobLibs P} {registry : QueueConfigRegistry Input P}
    {isTest : Bool} {queueId : String} {jobPayload : P} {options : Option (JsObject P)} {n : ℕ}
    {r : JsObject P × ℕ} :
    (resolveJobOptions libs registry isTest queueId jobPayload options).run n = .ok r ↔
      ∃ queueConfig resolvedOptions, registry.getQueueConfig queueId = .ok queueConfig ∧
        mergeJobOptions libs queueConfig jobPayload options = .ok resolvedOptions ∧
        (prepareJobOptions isTest resolvedOptions (libs.generateMonotonicUuid n), n + 1) = r := by
  simp [resolveJobOptions, Fallible.bind_eq_ok]

end SharedTsLibs.BackgroundJobs
