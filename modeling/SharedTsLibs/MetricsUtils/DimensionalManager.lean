import SharedTsLibs.MetricsUtils.Measurements

/-!
# One metric for each transaction and status

`PrometheusDimensionalTransactionManager` measures without labels: the name of the metric says
which transaction it was and how it went.  Any number of managers share a client, with whatever
metrics are registered there already.

* `Registry`, `getOrCreateMetric` — the metrics of a client.
* `DimensionalSystem`, `dimensionalCall` — the managers, with the metrics that each has cached.
* `Labelled`, `labelledCall` — labelled managers that are given the same calls, and what these
  measure.
* `account` — the metrics that the measurements of the labelled managers make, under the names
  that are built for them.
* `Simulates`, `simulates_run` — the managers are in step.
* `registered_run` — what is registered in the end.
-/

namespace SharedTsLibs.MetricsUtils

/-! ## The metrics of a client -/

inductive MetricKind where
  | counter
  | gauge
  | histogram
  | summary
  deriving DecidableEq

deriving instance DecidableEq for MetricType

def MetricType.kind : MetricType → MetricKind
  | .counter => .counter
  | .histogram => .histogram

/-- The metric has `inc`, or `observe`. -/
def MetricKind.accepts : MetricKind → MetricType → Bool
  | .counter, .counter | .gauge, .counter | .histogram, .histogram | .summary, .histogram => true
  | .counter, .histogram | .gauge, .histogram | .histogram, .counter | .summary, .counter => false

/-- A metric without labels: what it was incremented by, or has observed. -/
structure Metric where
  kind : MetricKind
  recorded : List LabelValue

/-- `client.register`, by name. -/
abbrev Registry := List (String × Metric)

/-- The managers of a client, and what its metrics may be called. -/
structure DimensionalConfig (ι : Type) where
  manager : ι → Manager
  buildMetricName : ι → String → TransactionStatus → String
  isValidName : String → Bool

variable {ι : Type} (config : DimensionalConfig ι)

/-- `getOrCreateMetric`: the constructor registers the metric, or throws. -/
def getOrCreateMetric (registry : Registry) (name : String) (type : MetricType) :
    Option Registry :=
  if (OrderedMap.get? registry name).isSome then some registry
  else if config.isValidName name then some (OrderedMap.set name ⟨type.kind, []⟩ registry)
  else none

/-! ## Managers -/

/-- The managers' maps by key, the metrics that each has cached, and the client's. -/
structure DimensionalSystem (ι : Type) where
  transactionNameByKey : ι → List (String × String) := fun _ => []
  startTimeByKey : ι → List (String × ℤ) := fun _ => []
  metrics : ι → List String := fun _ => []
  registry : Registry

variable [DecidableEq ι]

/-- `getOrRegisterMetric` of a manager, whose dimensions are not declared. -/
def getOrRegisterMetric (s : DimensionalSystem ι) (i : ι) (dimension : String) :
    Option (DimensionalSystem ι) :=
  if dimension ∈ s.metrics i then some s
  else
    (getOrCreateMetric config s.registry dimension (config.manager i).type).map fun registry =>
      { s with
        metrics := Function.update s.metrics i (s.metrics i ++ [dimension])
        registry := registry }

/-- `registerMeasurement`: of the record of a counter, `labels` is not a dimension. -/
def registerMeasurement (s : DimensionalSystem ι) (i : ι) (dimension : String)
    (value : LabelValue) : DimensionalSystem ι :=
  if (config.manager i).type = .counter ∧ dimension = "labels" then s
  else
    match getOrRegisterMetric config s i dimension with
    | none => s
    | some s =>
      match OrderedMap.get? s.registry dimension with
      | none => s
      | some metric =>
        if metric.kind.accepts (config.manager i).type then
          { s with
            registry := OrderedMap.set dimension
              { metric with recorded := metric.recorded ++ [value] } s.registry }
        else s

/-- `emitMeasurement` -/
def emitDimensional (s : DimensionalSystem ι) (i : ι) (transactionName : String)
    (status : TransactionStatus) (durationMs : ℤ) : DimensionalSystem ι :=
  if (config.manager i).hasClient then
    registerMeasurement config s i (config.buildMetricName i transactionName status)
      (amountOf durationMs (config.manager i).type)
  else s

/-- A call of a manager; whatever `emitMeasurement` throws, a stop deletes its key. -/
def dimensionalCall (s : DimensionalSystem ι) : ι × Call → DimensionalSystem ι
  | (i, .start transactionName key now) | (i, .startWithGroup transactionName key _ now) =>
    { s with
      transactionNameByKey := Function.update s.transactionNameByKey i
        (OrderedMap.set key transactionName (s.transactionNameByKey i))
      startTimeByKey := Function.update s.startTimeByKey i
        (OrderedMap.set key now (s.startTimeByKey i)) }
  | (_, .addCustomAttributes ..) => s
  | (i, .stop key wasSuccessful now _) =>
    match OrderedMap.get? (s.transactionNameByKey i) key with
    | none => s
    | some transactionName =>
      let startTime := (OrderedMap.get? (s.startTimeByKey i) key).getD now
      { emitDimensional config s i transactionName (if wasSuccessful then .success else .error)
          (now - startTime) with
        transactionNameByKey := Function.update s.transactionNameByKey i
          (OrderedMap.delete key (s.transactionNameByKey i))
        startTimeByKey := Function.update s.startTimeByKey i
          (OrderedMap.delete key (s.startTimeByKey i)) }

/-! ## Labelled managers in their place -/

/-- A measurement under the name that is built for it. -/
structure Emission where
  type : MetricType
  name : String
  amount : LabelValue

/-- The counter takes `labels` out of its record. -/
def Emission.swallowed (e : Emission) : Bool := decide (e.type = .counter ∧ e.name = "labels")

/-- The status that a label says. -/
def statusOf : LabelValue → Option TransactionStatus
  | .str "success" => some .success
  | .str "error" => some .error
  | _ => none

/-- What a labelled measurement is called, by its two built-in labels. -/
def emissionOf (i : ι) (measurement : Measurement) : Option Emission := do
  let .str transactionName ← OrderedMap.get? measurement.labels "transaction_name" | none
  let status ← (OrderedMap.get? measurement.labels "status").bind statusOf
  return ⟨(config.manager i).type, config.buildMetricName i transactionName status,
    measurement.amount⟩

/-- Labelled managers, and what their metrics were handed. -/
structure Labelled (ι : Type) where
  maps : ι → TransactionMaps := fun _ => {}
  emissions : List Emission := []

def labelledCall (s : Labelled ι) (call : ι × Call) : Labelled ι where
  maps := Function.update s.maps call.1 (afterCall (config.manager call.1) (s.maps call.1) call.2)
  emissions := s.emissions ++
    ((passedBy (config.manager call.1) (s.maps call.1) call.2).bind
      (emissionOf config call.1)).toList

/-! ## What the measurements amount to -/

/-- What kind of metric is registered under a name: the one that was there, or that of the
first measurement. -/
def kindUnder (registry : Registry) (emissions : List Emission) (name : String) :
    Option MetricKind :=
  match OrderedMap.get? registry name with
  | some metric => some metric.kind
  | none =>
    if config.isValidName name then
      (emissions.find? fun e => e.name = name && !e.swallowed).map fun e => e.type.kind
    else none

/-- The metric under a name: it records the measurements that its kind accepts. -/
def account (registry : Registry) (emissions : List Emission) (name : String) : Option Metric :=
  (kindUnder config registry emissions name).map fun kind =>
    ⟨kind, ((OrderedMap.get? registry name).map Metric.recorded).getD [] ++
      (emissions.filter fun e => e.name = name && !e.swallowed && kind.accepts e.type).map
        Emission.amount⟩

/-! ## What a measurement does to the account -/

section Account

omit [DecidableEq ι]

variable {config} {registry : Registry} {emissions : List Emission} {e : Emission} {name : String}

theorem accepts_kind (type : MetricType) : type.kind.accepts type = true := by
  cases type <;> rfl

variable (config) in
/-- A metric after a measurement of its name. -/
def recordIn (e : Emission) : Option Metric → Option Metric
  | some metric =>
    if metric.kind.accepts e.type then
      some { metric with recorded := metric.recorded ++ [e.amount] }
    else some metric
  | none => if config.isValidName e.name then some ⟨e.type.kind, [e.amount]⟩ else none

theorem account_concat_of_ne (h : ¬ (e.name = name ∧ e.swallowed = false)) :
    account config registry (emissions ++ [e]) name = account config registry emissions name := by
  have hother : (decide (e.name = name) && !e.swallowed) = false := by
    rw [Bool.eq_false_iff]
    simpa using h
  have hkind : kindUnder config registry (emissions ++ [e]) name =
      kindUnder config registry emissions name := by
    simp [kindUnder, List.find?_append, hother]
  simp [account, hkind, List.filter_append, hother]

theorem kindUnder_concat (hkept : e.swallowed = false) :
    kindUnder config registry (emissions ++ [e]) e.name =
      (kindUnder config registry emissions e.name).or
        (if config.isValidName e.name then some e.type.kind else none) := by
  rw [kindUnder, kindUnder]
  split
  · rfl
  · split
    · rw [List.find?_append, Option.map_or]
      simp [hkept]
    · rfl

/-- Nothing has been recorded under a name that is not registered. -/
theorem account_eq_none (h : account config registry emissions name = none)
    (hvalid : config.isValidName name = true) :
    OrderedMap.get? registry name = none ∧
      ∀ e ∈ emissions, ¬ (e.name = name && !e.swallowed) = true := by
  rw [account, Option.map_eq_none_iff, kindUnder] at h
  split at h
  · cases h
  · next hreg =>
    rw [if_pos hvalid, Option.map_eq_none_iff, List.find?_eq_none] at h
    exact ⟨hreg, h⟩

theorem account_concat (hkept : e.swallowed = false) :
    account config registry (emissions ++ [e]) e.name =
      recordIn config e (account config registry emissions e.name) := by
  cases hkind : kindUnder config registry emissions e.name with
  | some kind =>
    rw [account, account, kindUnder_concat hkept, hkind, Option.some_or, Option.map_some,
      Option.map_some, recordIn, List.filter_append, List.map_append, ← List.append_assoc]
    by_cases haccepts : kind.accepts e.type = true
    · rw [if_pos haccepts]
      simp [hkept, haccepts]
    · rw [if_neg haccepts]
      simp [haccepts]
  | none =>
    have hnone : account config registry emissions e.name = none := by rw [account, hkind]; rfl
    rw [hnone, recordIn]
    by_cases hvalid : config.isValidName e.name = true
    · obtain ⟨hreg, hother⟩ := account_eq_none hnone hvalid
      have hbefore : emissions.filter (fun e' => e'.name = e.name && !e'.swallowed &&
          e.type.kind.accepts e'.type) = [] := by
        rw [List.filter_eq_nil_iff]
        intro e' he' hsame
        exact hother e' he' (Bool.and_eq_true_iff.1 hsame).1
      rw [account, kindUnder_concat hkept, hkind, if_pos hvalid, if_pos hvalid, Option.none_or,
        Option.map_some, hreg, List.filter_append, hbefore]
      simp [hkept, accepts_kind]
    · rw [account, kindUnder_concat hkept, hkind, if_neg hvalid, if_neg hvalid]
      rfl

end Account

/-! ## What a measurement does to the registry -/

/-- The metrics that a manager has cached are registered. -/
def DimensionalSystem.Cached (s : DimensionalSystem ι) : Prop :=
  ∀ i, ∀ name ∈ s.metrics i, (OrderedMap.get? s.registry name).isSome

/-- A measurement is recorded under its name, and nothing else is changed but for the caches. -/
structure Registers (e : Emission) (s s' : DimensionalSystem ι) : Prop where
  transactionNameByKey : s'.transactionNameByKey = s.transactionNameByKey
  startTimeByKey : s'.startTimeByKey = s.startTimeByKey
  registry : ∀ name, OrderedMap.get? s'.registry name =
    if e.name = name ∧ e.swallowed = false then recordIn config e (OrderedMap.get? s.registry name)
    else OrderedMap.get? s.registry name
  cached : s'.Cached

variable {config} {s : DimensionalSystem ι} {i : ι} {name : String} {value : LabelValue}

theorem mem_update_metrics {j : ι} {name' : String}
    (h : name' ∈ Function.update s.metrics i (s.metrics i ++ [name]) j) :
    name' ∈ s.metrics j ∨ name' = name := by
  by_cases hj : j = i
  · subst hj
    rwa [Function.update_self, List.mem_append, List.mem_singleton] at h
  · rw [Function.update_of_ne hj] at h
    exact .inl h

variable (config i) in
/-- A registered metric is found, whether or not it is cached. -/
theorem getOrRegisterMetric_of_registered {metric : Metric}
    (h : OrderedMap.get? s.registry name = some metric) :
    ∃ metrics, getOrRegisterMetric config s i name = some { s with metrics := metrics } ∧
      ∀ j, ∀ name' ∈ metrics j, name' ∈ s.metrics j ∨ name' = name := by
  rw [getOrRegisterMetric]
  split
  · exact ⟨s.metrics, rfl, fun j name' hmem => .inl hmem⟩
  · refine ⟨Function.update s.metrics i (s.metrics i ++ [name]), ?_,
      fun j name' hmem => mem_update_metrics hmem⟩
    rw [getOrCreateMetric, if_pos (by rw [h]; rfl)]
    rfl

/-- A metric that is not registered is made, if it may have its name. -/
theorem getOrRegisterMetric_of_unregistered (hcached : s.Cached)
    (h : OrderedMap.get? s.registry name = none) :
    getOrRegisterMetric config s i name =
      if config.isValidName name then
        some { s with
          metrics := Function.update s.metrics i (s.metrics i ++ [name])
          registry := OrderedMap.set name ⟨(config.manager i).type.kind, []⟩ s.registry }
      else none := by
  have huncached : name ∉ s.metrics i := by
    intro hmem
    have hsome := hcached i name hmem
    rw [h] at hsome
    cases hsome
  rw [getOrRegisterMetric, if_neg huncached, getOrCreateMetric, if_neg (by rw [h]; simp)]
  split
  · rfl
  · rfl

section Outcomes

omit [DecidableEq ι]

variable {e : Emission} {metric : Metric} {metrics : ι → List String}

/-- The name is registered with the metric that records the measurement. -/
theorem Registers.recorded (hcached : s.Cached)
    (hmetrics : ∀ j, ∀ name' ∈ metrics j, name' ∈ s.metrics j ∨ name' = e.name)
    (hkept : e.swallowed = false)
    (hrecord : recordIn config e (OrderedMap.get? s.registry e.name) = some metric) :
    Registers config e s
      { s with metrics := metrics, registry := OrderedMap.set e.name metric s.registry } where
  transactionNameByKey := rfl
  startTimeByKey := rfl
  registry name := by
    rw [OrderedMap.get?_set]
    by_cases hname : e.name = name
    · subst hname
      rw [if_pos rfl, if_pos ⟨rfl, hkept⟩, hrecord]
    · rw [if_neg hname, if_neg fun h => hname h.1]
  cached j name hmem := by
    rw [OrderedMap.get?_set]
    split
    · rfl
    · next hname =>
      exact hcached j name ((hmetrics j name hmem).resolve_right fun h => hname h.symm)

/-- The measurement is not recorded, and nothing is registered. -/
theorem Registers.unrecorded (hcached : s.Cached)
    (hmetrics : ∀ j, ∀ name' ∈ metrics j, name' ∈ s.metrics j ∨
      name' = e.name ∧ (OrderedMap.get? s.registry name').isSome)
    (hsame : e.swallowed = false → recordIn config e (OrderedMap.get? s.registry e.name) =
      OrderedMap.get? s.registry e.name) :
    Registers config e s { s with metrics := metrics } where
  transactionNameByKey := rfl
  startTimeByKey := rfl
  registry name := by
    split
    · next h => rw [← h.1, hsame h.2]
    · rfl
  cached j name hmem := by
    obtain hold | ⟨-, hsome⟩ := hmetrics j name hmem
    · exact hcached j name hold
    · exact hsome

end Outcomes

variable (config i name value) in
theorem registers_registerMeasurement (hcached : s.Cached) :
    Registers config ⟨(config.manager i).type, name, value⟩ s
      (registerMeasurement config s i name value) := by
  rw [registerMeasurement]
  split
  · next hswallowed =>
    apply Registers.unrecorded hcached fun j name' hmem => .inl hmem
    intro hkept
    exact absurd hswallowed (of_decide_eq_false hkept)
  · next hkept =>
    cases hreg : OrderedMap.get? s.registry name with
    | some metric =>
      obtain ⟨metrics, hfound, hmetrics⟩ := getOrRegisterMetric_of_registered config i hreg
      simp only [hfound, hreg]
      split
      · next haccepts =>
        apply Registers.recorded hcached hmetrics (decide_eq_false hkept)
        rw [hreg, recordIn, if_pos haccepts]
      · next hrefuses =>
        apply Registers.unrecorded hcached
        · intro j name' hmem
          refine (hmetrics j name' hmem).imp_right fun hname => ⟨hname, ?_⟩
          rw [hname, hreg]
          rfl
        · intro _
          rw [hreg, recordIn, if_neg hrefuses]
    | none =>
      rw [getOrRegisterMetric_of_unregistered hcached hreg]
      by_cases hvalid : config.isValidName name = true
      · simp only [hvalid, if_true, OrderedMap.get?_set, accepts_kind, OrderedMap.set_set]
        apply Registers.recorded hcached ?_ (decide_eq_false hkept)
        · rw [hreg, recordIn, if_pos hvalid]
          rfl
        · exact fun j name' hmem => mem_update_metrics hmem
      · simp only [if_neg hvalid]
        apply Registers.unrecorded hcached fun j name' hmem => .inl hmem
        intro _
        rw [hreg, recordIn, if_neg hvalid]

/-! ## The managers in step -/

variable {twins : Labelled ι} {registry : Registry}

variable (config registry) in
/-- The managers hold the transactions of the labelled ones, and the registry what these have
measured. -/
structure Simulates (twins : Labelled ι) (s : DimensionalSystem ι) : Prop where
  transactionNameByKey : ∀ i, s.transactionNameByKey i = (twins.maps i).transactionNameByKey
  startTimeByKey : ∀ i, s.startTimeByKey i = (twins.maps i).startTimeByKey
  registry : ∀ name, OrderedMap.get? s.registry name = account config registry twins.emissions name
  supported : ∀ i, Supported (config.manager i) (twins.maps i)
  cached : s.Cached

omit [DecidableEq ι] in
theorem simulates_initial : Simulates config registry {} { registry } where
  transactionNameByKey _ := rfl
  startTimeByKey _ := rfl
  registry name := by
    cases hreg : OrderedMap.get? registry name with
    | some metric => simp [account, kindUnder, hreg]
    | none => simp [account, kindUnder, hreg]
  supported _ _ _ hlabel := by simp [TransactionMaps.labelsOf, OrderedMap.get?] at hlabel
  cached _ _ hmem := by cases hmem

omit [DecidableEq ι] in
theorem statusOf_text (status : TransactionStatus) : statusOf (.str status.text) = some status := by
  cases status <;> rfl

omit [DecidableEq ι] in
/-- A measurement says which transaction it is of, and how that went. -/
theorem emissionOf_measure {labels : Labels} {transactionName : String}
    {status : TransactionStatus} {durationMs : ℤ}
    (hlabels : ∀ l ∈ OrderedMap.keys labels, l ∈ (config.manager i).supportedCustomLabels) :
    emissionOf config i
        (measure (config.manager i).type transactionName status durationMs labels) =
      some ⟨(config.manager i).type, config.buildMetricName i transactionName status,
        amountOf durationMs (config.manager i).type⟩ := by
  rw [emissionOf, get?_measure_builtIn (by decide) hlabels,
    get?_measure_builtIn (by decide) hlabels, amount_measure]
  simp [OrderedMap.get?, statusOf_text]

omit [DecidableEq ι] in
/-- What a stop of a transaction in flight measures. -/
theorem emissionOf_stop {m : TransactionMaps} {key transactionName : String} {success : Bool}
    {now : ℤ} {metricThrows : Bool} (hlabels : Supported (config.manager i) m)
    (hname : OrderedMap.get? m.transactionNameByKey key = some transactionName) :
    (passedBy (config.manager i) m (.stop key success now metricThrows)).bind
        (emissionOf config i) =
      if (config.manager i).hasClient then
        some ⟨(config.manager i).type,
          config.buildMetricName i transactionName (if success then .success else .error),
          amountOf (now - (OrderedMap.get? m.startTimeByKey key).getD now)
            (config.manager i).type⟩
      else none := by
  split
  · next hclient =>
    rw [passedBy_stop.2 ⟨hclient, transactionName, hname, rfl⟩, Option.bind_some,
      emissionOf_measure (hlabels key)]
  · next hclient =>
    cases hpassed : passedBy (config.manager i) m (.stop key success now metricThrows) with
    | none => rfl
    | some measurement => exact absurd (passedBy_stop.1 hpassed).1 hclient

/-- A field that agrees with another still does after both are updated. -/
theorem update_eq_field {α β : Type} {f : ι → β} {g : ι → α} {field : α → β} {a : α} {b : β}
    (h : ∀ j, f j = field (g j)) (hb : b = field a) (j : ι) :
    Function.update f i b j = field (Function.update g i a j) := by
  by_cases hj : j = i
  · subst hj
    rw [Function.update_self, Function.update_self, hb]
  · rw [Function.update_of_ne hj, Function.update_of_ne hj, h]

theorem eq_field_update {α β : Type} {f : ι → β} {g : ι → α} {field : α → β} {a : α}
    (h : ∀ j, f j = field (g j)) (ha : field a = field (g i)) (j : ι) :
    f j = field (Function.update g i a j) := by
  rw [← update_eq_field h rfl, ha, ← h, Function.update_eq_self]

namespace Simulates

theorem supported_update (h : Simulates config registry twins s) {m : TransactionMaps}
    (hm : Supported (config.manager i) m) :
    ∀ j, Supported (config.manager j) (Function.update twins.maps i m j) :=
  (Function.forall_update_iff twins.maps fun j m => Supported (config.manager j) m).2
    ⟨hm, fun j _ => h.supported j⟩

theorem start (h : Simulates config registry twins s) (transactionName key : String) (now : ℤ) :
    Simulates config registry (labelledCall config twins (i, .start transactionName key now))
      (dimensionalCall config s (i, .start transactionName key now)) where
  transactionNameByKey := update_eq_field h.transactionNameByKey (by
    rw [h.transactionNameByKey]
    rfl)
  startTimeByKey := update_eq_field h.startTimeByKey (by
    rw [h.startTimeByKey]
    rfl)
  registry name := by
    rw [labelledCall, passedBy, Option.bind_none, Option.toList_none, List.append_nil]
    exact h.registry name
  supported := h.supported_update (h.supported i)
  cached := h.cached

theorem addCustomAttributes (h : Simulates config registry twins s) (key : String)
    (attributes : PlainObject AttributeValue) :
    Simulates config registry
      (labelledCall config twins (i, .addCustomAttributes key attributes))
      (dimensionalCall config s (i, .addCustomAttributes key attributes)) where
  transactionNameByKey := eq_field_update h.transactionNameByKey (by
    rw [afterCall, MetricsUtils.addCustomAttributes]
    split <;> rfl)
  startTimeByKey := eq_field_update h.startTimeByKey (by
    rw [afterCall, MetricsUtils.addCustomAttributes]
    split <;> rfl)
  registry name := by
    rw [labelledCall, passedBy, Option.bind_none, Option.toList_none, List.append_nil]
    exact h.registry name
  supported := h.supported_update (supported_addCustomAttributes (h.supported i))
  cached := h.cached

/-- Whatever a manager emits is recorded, and it is what the labelled one measures. -/
theorem emit (h : Simulates config registry twins s) (transactionName : String)
    (status : TransactionStatus) (durationMs : ℤ) :
    let s' := emitDimensional config s i transactionName status durationMs
    s'.transactionNameByKey = s.transactionNameByKey ∧ s'.startTimeByKey = s.startTimeByKey ∧
      s'.Cached ∧ ∀ name, OrderedMap.get? s'.registry name =
        account config registry (twins.emissions ++
          (if (config.manager i).hasClient then
            some ⟨(config.manager i).type, config.buildMetricName i transactionName status,
              amountOf durationMs (config.manager i).type⟩
          else none : Option Emission).toList) name := by
  rw [emitDimensional]
  split
  · obtain ⟨hname, hstart, hregistry, hcached⟩ := registers_registerMeasurement config i
      (config.buildMetricName i transactionName status)
      (amountOf durationMs (config.manager i).type) h.cached
    refine ⟨hname, hstart, hcached, fun name => ?_⟩
    rw [hregistry, Option.toList_some]
    split
    · next hrecorded =>
      obtain ⟨rfl, hkept⟩ := hrecorded
      rw [h.registry, ← account_concat hkept]
    · next hother => rw [h.registry, account_concat_of_ne hother]
  · refine ⟨rfl, rfl, h.cached, fun name => ?_⟩
    rw [Option.toList_none, List.append_nil]
    exact h.registry name

theorem stop (h : Simulates config registry twins s) (key : String) (success : Bool) (now : ℤ)
    (metricThrows : Bool) :
    Simulates config registry
      (labelledCall config twins (i, .stop key success now metricThrows))
      (dimensionalCall config s (i, .stop key success now metricThrows)) := by
  cases hname : OrderedMap.get? (twins.maps i).transactionNameByKey key with
  | none =>
    have hmaps : afterCall (config.manager i) (twins.maps i) (.stop key success now metricThrows) =
        twins.maps i := by
      simp only [afterCall, MetricsUtils.stop, hname]
    have hpassed : passedBy (config.manager i) (twins.maps i)
        (.stop key success now metricThrows) = none := by
      simp only [passedBy, MetricsUtils.stop, hname]
    have hs : dimensionalCall config s (i, .stop key success now metricThrows) = s := by
      simp only [dimensionalCall, h.transactionNameByKey i, hname]
    have htwins : labelledCall config twins (i, .stop key success now metricThrows) = twins := by
      rw [labelledCall, hmaps, hpassed, Function.update_eq_self, Option.bind_none,
        Option.toList_none, List.append_nil]
    rw [hs, htwins]
    exact h
  | some transactionName =>
    have hname' := hname
    rw [← h.transactionNameByKey] at hname'
    obtain ⟨hnames, hstarts, hcached, hregistry⟩ := h.emit (i := i) transactionName
      (if success then .success else .error)
      (now - (OrderedMap.get? (s.startTimeByKey i) key).getD now)
    simp only [dimensionalCall, hname']
    exact {
      transactionNameByKey := update_eq_field h.transactionNameByKey (by
        rw [h.transactionNameByKey, afterCall, (stop_maps hname).1])
      startTimeByKey := update_eq_field h.startTimeByKey (by
        rw [h.startTimeByKey, afterCall, (stop_maps hname).2.1])
      registry := fun name => by
        rw [labelledCall, emissionOf_stop (h.supported i) hname, ← h.startTimeByKey i]
        exact hregistry name
      supported := h.supported_update (supported_stop (h.supported i))
      cached := hcached }

theorem step (h : Simulates config registry twins s) (call : ι × Call) :
    Simulates config registry (labelledCall config twins call) (dimensionalCall config s call) := by
  obtain ⟨i, call⟩ := call
  cases call with
  | start transactionName key now => exact h.start transactionName key now
  | startWithGroup transactionName key group now => exact h.start transactionName key now
  | addCustomAttributes key attributes => exact h.addCustomAttributes key attributes
  | stop key success now metricThrows => exact h.stop key success now metricThrows

end Simulates

theorem simulates_run (calls : List (ι × Call)) :
    Simulates config registry (calls.foldl (labelledCall config) {})
      (calls.foldl (dimensionalCall config) { registry }) := by
  induction calls using List.reverseRecOn with
  | nil => exact simulates_initial
  | append_singleton calls call ih =>
    rw [List.foldl_concat, List.foldl_concat]
    exact ih.step call

end SharedTsLibs.MetricsUtils
