import SharedTsLibs.MetricsUtils.TransactionRuns

/-!
# What a labelled manager measures

What the measurements of a labelled transaction manager say, whatever attributes its
transactions have been given.

* `amountOf`, `get?_measure_builtIn`, `amount_measure` — the built-in labels and the amount of a
  measurement.
* `stop_maps` — what a stop leaves behind.
* `Supported`, `supported_addCustomAttributes`, `supported_stop` — the labels that are kept are
  supported ones.
-/

namespace SharedTsLibs.MetricsUtils

variable {manager : Manager} {m : TransactionMaps} {key key' : String}

/-- A built-in label reaches the metric, as the custom ones have other names. -/
theorem get?_measure_builtIn {transactionName label : String} {status : TransactionStatus}
    {durationMs : ℤ} {labels : Labels} (hbuiltIn : label ∈ builtInLabels)
    (hlabels : ∀ l ∈ OrderedMap.keys labels, l ∈ manager.supportedCustomLabels) :
    OrderedMap.get? (measure manager.type transactionName status durationMs labels).labels label =
      OrderedMap.get? [("status", .str status.text), ("transaction_name", .str transactionName)]
        label := by
  have hkept : label ∉ lostLabels manager.type := by
    cases manager.type <;> revert hbuiltIn <;> revert label <;> decide
  rw [get?_measure_of_kept hkept, OrderedMap.get?_spread_of_notMem]
  exact fun hmem => manager.noCollisions label (hlabels label hmem) hbuiltIn

/-- The amount of a measurement: a counter counts, a histogram observes the duration. -/
def amountOf (durationMs : ℤ) : MetricType → LabelValue
  | .counter => .num (.finite 1)
  | .histogram => .num (.finite durationMs)

theorem amount_measure {transactionName : String} {status : TransactionStatus} {durationMs : ℤ}
    {labels : Labels} (type : MetricType) :
    (measure type transactionName status durationMs labels).amount = amountOf durationMs type := by
  cases type with
  | counter => simp [MetricsUtils.measure, registerCounter, OrderedMap.get?_set, amountOf]
  | histogram => simp [MetricsUtils.measure, registerHistogram, OrderedMap.get?_set, amountOf]

variable {transactionName : String} {success : Bool} {now : ℤ} {metricThrows : Bool}

/-- A stop of a transaction in flight drops its name and start time, and may keep its labels. -/
theorem stop_maps (h : OrderedMap.get? m.transactionNameByKey key = some transactionName) :
    (stop manager m key success now metricThrows).maps.transactionNameByKey
        = OrderedMap.delete key m.transactionNameByKey ∧
      (stop manager m key success now metricThrows).maps.startTimeByKey
        = OrderedMap.delete key m.startTimeByKey ∧
      ∀ key', (stop manager m key success now metricThrows).maps.labelsOf key' = m.labelsOf key' ∨
        (stop manager m key success now metricThrows).maps.labelsOf key' = [] := by
  simp only [MetricsUtils.stop, h, emitMeasurement]
  split
  · exact ⟨rfl, rfl, fun key' => .inl rfl⟩
  · refine ⟨rfl, rfl, fun key' => ?_⟩
    simp only [TransactionMaps.labelsOf, OrderedMap.get?_delete]
    split
    · exact .inr rfl
    · exact .inl rfl

/-- Labels that are added are supported ones. -/
theorem mem_keys_mergeAttributes {labels : Labels} {attributes : PlainObject AttributeValue}
    {label : String} (h : label ∈ OrderedMap.keys (mergeAttributes manager labels attributes)) :
    label ∈ OrderedMap.keys labels ∨ label ∈ manager.supportedCustomLabels := by
  rw [mergeAttributes] at h
  generalize attributes.entries = entries at h
  induction entries generalizing labels with
  | nil => exact .inl h
  | cons e entries ih =>
    rw [List.foldl_cons] at h
    split at h
    · next hsupported =>
      obtain hold | hnew := ih h
      · rw [assign] at hold
        split at hold
        · exact .inl hold
        · rw [OrderedMap.mem_keys_set] at hold
          obtain rfl | hold := hold
          · exact .inr hsupported
          · exact .inl hold
      · exact .inr hnew
    · exact ih h

/-! ## Labels that are kept -/

variable (manager) in
/-- The labels of every key are supported ones. -/
def Supported (m : TransactionMaps) : Prop :=
  ∀ key, ∀ label ∈ OrderedMap.keys (m.labelsOf key), label ∈ manager.supportedCustomLabels

theorem supported_addCustomAttributes {attributes : PlainObject AttributeValue}
    (h : Supported manager m) :
    Supported manager (addCustomAttributes manager m key attributes) := by
  intro key' label hlabel
  by_cases hin : m.InFlight key
  · by_cases hkey : key = key'
    · subst hkey
      rw [labelsOf_addCustomAttributes hin] at hlabel
      obtain hold | hnew := mem_keys_mergeAttributes hlabel
      · exact h key label hold
      · exact hnew
    · rw [labelsOf_addCustomAttributes_of_ne hkey] at hlabel
      exact h key' label hlabel
  · rw [TransactionMaps.InFlight] at hin
    simp only [addCustomAttributes, if_neg hin] at hlabel
    exact h key' label hlabel

theorem supported_stop (h : Supported manager m) :
    Supported manager (stop manager m key success now metricThrows).maps := by
  cases hname : OrderedMap.get? m.transactionNameByKey key with
  | none =>
    simp only [MetricsUtils.stop, hname]
    exact h
  | some transactionName =>
    intro key' label hlabel
    obtain hsame | hnone := (stop_maps hname).2.2 key'
    · rw [hsame] at hlabel
      exact h key' label hlabel
    · simp [hnone] at hlabel

end SharedTsLibs.MetricsUtils
