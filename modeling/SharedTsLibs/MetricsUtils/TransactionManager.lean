import SharedTsLibs.Lib.JsRuntime
import SharedTsLibs.Lib.PlainObject

/-!
# Labelled transaction metrics

`PrometheusLabeledTransactionManager` and its base class: a transaction is started under a
key, attributes are attached to it, and stopping it hands its labels to a metric.

* `Manager`, `construct` — what the constructor keeps, and the labels it refuses.
* `TransactionMaps` — the three maps by key.
* `start`, `startWithGroup`, `addCustomAttributes`, `stop` — the operations.
* `step`, `passedBy` — a call as a step, and what it hands to the metric.

The clock and whether the metric throws are inputs of a call.
-/

namespace SharedTsLibs.MetricsUtils

/-! ## Data -/

inductive LabelValue where
  | str (s : String)
  | num (n : JsNumber)
  deriving DecidableEq

inductive AttributeValue where
  | str (s : String)
  | num (n : JsNumber)
  | bool (b : Bool)

/-- A record of labels. -/
abbrev Labels := List (String × LabelValue)

inductive TransactionStatus where
  | success
  | error

def TransactionStatus.text : TransactionStatus → String
  | .success => "success"
  | .error => "error"

inductive MetricType where
  | counter
  | histogram

/-- `prometheusTransactionManagerBuiltInLabels` -/
def builtInLabels : List String := ["status", "transaction_name"]

/-- What the constructor keeps of its configuration, and whether it was given a client. -/
structure Manager where
  type : MetricType
  supportedCustomLabels : List String
  hasClient : Bool
  noCollisions : ∀ label ∈ supportedCustomLabels, label ∉ builtInLabels

/-- The constructor. -/
def construct (type : MetricType) (customLabels : List String) (hasClient : Bool) :
    Except String Manager :=
  if h : ∀ label ∈ customLabels, label ∉ builtInLabels then
    .ok ⟨type, customLabels, hasClient, h⟩
  else
    .error ("customLabels must not collide with built-in labels ("
      ++ ", ".intercalate builtInLabels ++ "): "
      ++ ", ".intercalate (customLabels.filter (· ∈ builtInLabels)))

/-- Every manager is one that the constructor makes. -/
theorem construct_eq_ok (manager : Manager) :
    construct manager.type manager.supportedCustomLabels manager.hasClient = .ok manager := by
  rw [construct, dif_pos manager.noCollisions]

/-- The maps by transaction key. -/
structure TransactionMaps where
  transactionNameByKey : List (String × String) := []
  startTimeByKey : List (String × ℤ) := []
  customLabelsByKey : List (String × Labels) := []

/-- What a metric is handed: the labels and the amount. -/
structure Measurement where
  labels : Labels
  amount : LabelValue

/-! ## Metrics -/

/-- `registerMeasurement` of the counter: the increment is taken out of the record. -/
def registerCounter (measurement : Labels) : Measurement where
  labels := OrderedMap.delete "increment" measurement
  amount := (OrderedMap.get? measurement "increment").getD (.num .nan)

/-- `registerMeasurement` of the histogram: the times are taken out of the record. -/
def registerHistogram (measurement : Labels) : Measurement where
  labels := OrderedMap.delete "endTime"
    (OrderedMap.delete "startTime" (OrderedMap.delete "time" measurement))
  amount := (OrderedMap.get? measurement "time").getD (.num .nan)

/-- What the metric of a manager is handed for the labels of a transaction. -/
def measure (type : MetricType) (transactionName : String) (status : TransactionStatus)
    (durationMs : ℤ) (customLabels : Labels) : Measurement :=
  let labels := OrderedMap.spread
    [("status", .str status.text), ("transaction_name", .str transactionName)] customLabels
  match type with
  | .counter => registerCounter (OrderedMap.set "increment" (.num (.finite 1)) labels)
  | .histogram => registerHistogram (OrderedMap.set "time" (.num (.finite durationMs)) labels)

/-! ## Operations -/

namespace TransactionMaps

def start (m : TransactionMaps) (transactionName key : String) (now : ℤ) : TransactionMaps :=
  { m with
    transactionNameByKey := OrderedMap.set key transactionName m.transactionNameByKey
    startTimeByKey := OrderedMap.set key now m.startTimeByKey }

def startWithGroup (m : TransactionMaps) (transactionName key _transactionGroup : String)
    (now : ℤ) : TransactionMaps :=
  m.start transactionName key now

end TransactionMaps

/-- `typeof value === 'boolean' ? String(value) : value` -/
def AttributeValue.toLabel : AttributeValue → LabelValue
  | .str s => .str s
  | .num n => .num n
  | .bool b => .str (if b then "true" else "false")

/-- `merged[key] = value` for a string or a number: under `__proto__` nothing is written. -/
def assign (merged : Labels) (key : String) (value : LabelValue) : Labels :=
  if key = "__proto__" then merged else OrderedMap.set key value merged

variable (manager : Manager)

/-- The attributes that are labels, written over those that are there. -/
def mergeAttributes (labels : Labels) (attributes : PlainObject AttributeValue) : Labels :=
  attributes.entries.foldl (fun merged e =>
    if e.1 ∈ manager.supportedCustomLabels then assign merged e.1 e.2.toLabel else merged) labels

def addCustomAttributes (m : TransactionMaps) (key : String)
    (attributes : PlainObject AttributeValue) : TransactionMaps :=
  if (OrderedMap.get? m.transactionNameByKey key).isSome then
    { m with
      customLabelsByKey := OrderedMap.set key
        (mergeAttributes manager ((OrderedMap.get? m.customLabelsByKey key).getD []) attributes)
        m.customLabelsByKey }
  else m

/-- The maps after `emitMeasurement`, what the metric was handed, and whether it threw. -/
structure Emitted where
  maps : TransactionMaps
  passed : Option Measurement
  threw : Bool

/-- Without a client there is no metric, and nothing that could throw. -/
def emitMeasurement (m : TransactionMaps) (key transactionName : String)
    (status : TransactionStatus) (durationMs : ℤ) (metricThrows : Bool) : Emitted :=
  let customLabels := (OrderedMap.get? m.customLabelsByKey key).getD []
  let passed :=
    if manager.hasClient then
      some (measure manager.type transactionName status durationMs customLabels)
    else none
  if manager.hasClient && metricThrows then ⟨m, passed, true⟩
  else ⟨{ m with customLabelsByKey := OrderedMap.delete key m.customLabelsByKey }, passed, false⟩

/-- `stop`; the deletions of the base class are made in its `finally`. -/
def stop (m : TransactionMaps) (key : String) (wasSuccessful : Bool) (now : ℤ)
    (metricThrows : Bool) : Emitted :=
  match OrderedMap.get? m.transactionNameByKey key with
  | none => ⟨m, none, false⟩
  | some transactionName =>
    let startTime := (OrderedMap.get? m.startTimeByKey key).getD now
    let emitted := emitMeasurement manager m key transactionName
      (if wasSuccessful then .success else .error) (now - startTime) metricThrows
    { emitted with
      maps := { emitted.maps with
        transactionNameByKey := OrderedMap.delete key emitted.maps.transactionNameByKey
        startTimeByKey := OrderedMap.delete key emitted.maps.startTimeByKey } }

/-! ## Calls -/

inductive Call where
  | start (transactionName key : String) (now : ℤ)
  | startWithGroup (transactionName key transactionGroup : String) (now : ℤ)
  | addCustomAttributes (key : String) (attributes : PlainObject AttributeValue)
  | stop (key : String) (wasSuccessful : Bool) (now : ℤ) (metricThrows : Bool)

/-- The maps after a call. -/
def afterCall (m : TransactionMaps) : Call → TransactionMaps
  | .start transactionName key now => m.start transactionName key now
  | .startWithGroup transactionName key group now => m.startWithGroup transactionName key group now
  | .addCustomAttributes key attributes => addCustomAttributes manager m key attributes
  | .stop key wasSuccessful now metricThrows =>
    (stop manager m key wasSuccessful now metricThrows).maps

/-- What a call hands to the metric. -/
def passedBy (m : TransactionMaps) : Call → Option Measurement
  | .stop key wasSuccessful now metricThrows =>
    (stop manager m key wasSuccessful now metricThrows).passed
  | .start .. | .startWithGroup .. | .addCustomAttributes .. => none

/-- A call as a step: every call can be made in every state. -/
def step (m : TransactionMaps) (call : Call) : Option TransactionMaps :=
  some (afterCall manager m call)

end SharedTsLibs.MetricsUtils
