import SharedTsLibs.MetricsUtils.TransactionManager
import SharedTsLibs.Lib.StepSystem
import Mathlib.Data.List.Induction

/-!
# Runs of a labelled transaction manager

Transactions under any number of keys are started, given attributes and stopped in any order,
and a metric may throw while one is stopped.

* `attributesSinceStart` — the attributes of a key, read off the calls that were made.
* `StopsExactly` — every stop of a run passes these on, and leaves nothing behind.
* `KeepsExact` — what a call must meet: no transaction is restarted while it has labels, no
  label is one that the metric takes for itself, no metric throws while there are labels.
* `Tracks` — the maps agree with the calls made, with a lemma for each operation.
* `stopsExactly` — every run of calls that meet it stops exactly.
* `forgets_stop_iff`, `passesExactly_start_iff`, `passesExactly_addCustomAttributes_iff` — a call
  that does not meet it can go wrong.
-/

namespace SharedTsLibs.MetricsUtils

open StepSystem

variable (manager : Manager)

/-! ## What a stop should do -/

/-- The attributes that are labels, as labels. -/
def supportedAttributes (attributes : PlainObject AttributeValue) : Labels :=
  (attributes.entries.filter (·.1 ∈ manager.supportedCustomLabels)).map
    fun e => (e.1, e.2.toLabel)

/-- What a call does to the attributes of a key. -/
def recordCall (key : String) (labels : Labels) : Call → Labels
  | .start _ key' _ | .startWithGroup _ key' _ _ => if key' = key then [] else labels
  | .addCustomAttributes key' attributes =>
    if key' = key then OrderedMap.spread labels (supportedAttributes manager attributes)
    else labels
  | .stop .. => labels

/-- The supported attributes added for a key since its latest start, later ones over earlier
ones. -/
def attributesSinceStart (key : String) (history : List Call) : Labels :=
  history.foldl (recordCall manager key) []

/-- A stop of a key hands its attributes to the metric, beside the built-in labels. -/
def PassesExactly (m : TransactionMaps) (history : List Call) (key : String)
    (call : Call) : Prop :=
  ∀ measurement, passedBy manager m call = some measurement → ∀ label, label ∉ builtInLabels →
    OrderedMap.get? measurement.labels label =
      OrderedMap.get? (attributesSinceStart manager key history) label

namespace TransactionMaps

/-- None of the maps has an entry under a key. -/
def Forgets (m : TransactionMaps) (key : String) : Prop :=
  OrderedMap.get? m.transactionNameByKey key = none ∧
    OrderedMap.get? m.startTimeByKey key = none ∧ OrderedMap.get? m.customLabelsByKey key = none

/-- A transaction is in flight under a key. -/
def InFlight (m : TransactionMaps) (key : String) : Prop :=
  (OrderedMap.get? m.transactionNameByKey key).isSome

/-- The labels under a key. -/
def labelsOf (m : TransactionMaps) (key : String) : Labels :=
  (OrderedMap.get? m.customLabelsByKey key).getD []

/-- The maps without their entries under a key. -/
def forget (m : TransactionMaps) (key : String) : TransactionMaps where
  transactionNameByKey := OrderedMap.delete key m.transactionNameByKey
  startTimeByKey := OrderedMap.delete key m.startTimeByKey
  customLabelsByKey := OrderedMap.delete key m.customLabelsByKey

end TransactionMaps

/-- Every stop of a run passes the attributes of its key to the metric, and leaves no entry
under it. -/
def StopsExactly (calls : List Call) : Prop :=
  ∀ before after key wasSuccessful now metricThrows m,
    calls = before ++ .stop key wasSuccessful now metricThrows :: after →
    run (step manager) {} before = some m →
    PassesExactly manager m before key (.stop key wasSuccessful now metricThrows) ∧
      (afterCall manager m (.stop key wasSuccessful now metricThrows)).Forgets key

/-! ## When it does -/

/-- The labels that do not reach a metric: `__proto__` cannot be assigned, and the others are
taken out of the record. -/
def lostLabels : MetricType → List String
  | .counter => ["__proto__", "increment"]
  | .histogram => ["__proto__", "time", "startTime", "endTime"]

/-- With a client, no transaction is restarted while it has labels, no label is lost, and no
metric throws while the transaction has an entry for its labels. -/
def KeepsExact (m : TransactionMaps) (call : Call) : Prop :=
  manager.hasClient = true →
    match call with
    | .start _ key _ | .startWithGroup _ key _ _ => m.labelsOf key = []
    | .addCustomAttributes key attributes =>
      m.InFlight key → ∀ label ∈ attributes.keys, label ∈ manager.supportedCustomLabels →
        label ∉ lostLabels manager.type
    | .stop key _ _ metricThrows =>
      metricThrows = true → OrderedMap.get? m.customLabelsByKey key = none

instance (m : TransactionMaps) (key : String) : Decidable (m.InFlight key) :=
  inferInstanceAs (Decidable (_ = true))

instance (m : TransactionMaps) : ∀ call, Decidable (KeepsExact manager m call)
  | .start _ key _ | .startWithGroup _ key _ _ =>
    inferInstanceAs (Decidable (_ → m.labelsOf key = []))
  | .addCustomAttributes key attributes =>
    inferInstanceAs (Decidable (_ → m.InFlight key → ∀ label ∈ attributes.keys,
      label ∈ manager.supportedCustomLabels → label ∉ lostLabels manager.type))
  | .stop key _ _ metricThrows =>
    inferInstanceAs (Decidable
      (_ → metricThrows = true → OrderedMap.get? m.customLabelsByKey key = none))

/-! ## Labels on their way to the metric -/

variable {manager}

theorem proto_mem_lostLabels (type : MetricType) : "__proto__" ∈ lostLabels type := by
  cases type <;> simp [lostLabels]

/-- Attributes none of which is lost are all written. -/
theorem mergeAttributes_eq {labels : Labels} {attributes : PlainObject AttributeValue}
    (h : ∀ label ∈ attributes.keys, label ∈ manager.supportedCustomLabels →
      label ∉ lostLabels manager.type) :
    mergeAttributes manager labels attributes =
      OrderedMap.spread labels (supportedAttributes manager attributes) := by
  rw [mergeAttributes, supportedAttributes]
  have hkeys : ∀ e ∈ attributes.entries, e.1 ∈ attributes.keys := by
    intro e he
    exact List.mem_map_of_mem he
  generalize attributes.entries = entries at hkeys ⊢
  induction entries generalizing labels with
  | nil => rfl
  | cons e entries ih =>
    rw [List.forall_mem_cons] at hkeys
    rw [List.foldl_cons, List.filter_cons]
    by_cases hsupported : e.1 ∈ manager.supportedCustomLabels
    · have hassigned : e.1 ≠ "__proto__" := by
        intro hproto
        apply h e.1 hkeys.1 hsupported
        rw [hproto]
        exact proto_mem_lostLabels manager.type
      rw [if_pos hsupported, if_pos (decide_eq_true hsupported), assign, if_neg hassigned,
        ih hkeys.2, List.map_cons, OrderedMap.spread, OrderedMap.spread, List.foldl_cons]
    · rw [if_neg hsupported, if_neg (by simpa using hsupported), ih hkeys.2]

theorem mem_keys_supportedAttributes {attributes : PlainObject AttributeValue} {label : String} :
    label ∈ OrderedMap.keys (supportedAttributes manager attributes) ↔
      label ∈ attributes.keys ∧ label ∈ manager.supportedCustomLabels := by
  rw [OrderedMap.keys, supportedAttributes, List.map_map, List.mem_map]
  constructor
  · rintro ⟨e, he, rfl⟩
    rw [List.mem_filter, decide_eq_true_eq] at he
    exact ⟨List.mem_map_of_mem he.1, he.2⟩
  · rintro ⟨hmem, hsupported⟩
    obtain ⟨e, he, rfl⟩ := List.mem_map.1 hmem
    exact ⟨e, List.mem_filter.2 ⟨he, decide_eq_true hsupported⟩, rfl⟩

/-- The labels written over the built-in ones are those that a custom label finds. -/
theorem get?_spread_builtIn {status transactionName : LabelValue} {labels : Labels}
    {label : String} (hnodup : (OrderedMap.keys labels).Nodup) (hcustom : label ∉ builtInLabels) :
    OrderedMap.get?
        (OrderedMap.spread [("status", status), ("transaction_name", transactionName)] labels)
        label =
      OrderedMap.get? labels label := by
  rw [builtInLabels, List.mem_cons, List.mem_singleton, not_or] at hcustom
  have hnone : OrderedMap.get? [("status", status), ("transaction_name", transactionName)] label =
      OrderedMap.get? [] label := by
    rw [OrderedMap.get?_cons, if_neg (Ne.symm hcustom.1), OrderedMap.get?_cons,
      if_neg (Ne.symm hcustom.2)]
  rw [OrderedMap.get?_spread_congr hnone, OrderedMap.spread_nil hnodup]

/-- A metric is handed what is not lost. -/
theorem get?_measure_of_kept {transactionName : String} {status : TransactionStatus}
    {durationMs : ℤ} {labels : Labels} {label : String} (hkept : label ∉ lostLabels manager.type) :
    OrderedMap.get? (measure manager.type transactionName status durationMs labels).labels label =
      OrderedMap.get? (OrderedMap.spread
        [("status", .str status.text), ("transaction_name", .str transactionName)] labels)
        label := by
  cases htype : manager.type with
  | counter =>
    rw [htype, lostLabels, List.mem_cons, List.mem_singleton, not_or] at hkept
    simp only [measure, registerCounter, OrderedMap.get?_delete, OrderedMap.get?_set,
      if_neg (Ne.symm hkept.2)]
  | histogram =>
    simp only [htype, lostLabels, List.mem_cons, List.not_mem_nil, or_false, not_or] at hkept
    obtain ⟨-, htime, hstartTime, hendTime⟩ := hkept
    simp only [measure, registerHistogram, OrderedMap.get?_delete, OrderedMap.get?_set,
      if_neg (Ne.symm htime), if_neg (Ne.symm hstartTime), if_neg (Ne.symm hendTime)]

/-- A metric is never handed a lost label. -/
theorem get?_measure_of_lost {transactionName : String} {status : TransactionStatus}
    {durationMs : ℤ} {labels : Labels} {label : String}
    (hproto : "__proto__" ∉ OrderedMap.keys labels) (hlost : label ∈ lostLabels manager.type) :
    OrderedMap.get? (measure manager.type transactionName status durationMs labels).labels label =
      none := by
  have hspread : OrderedMap.get? (OrderedMap.spread
      [("status", .str status.text), ("transaction_name", .str transactionName)] labels)
      "__proto__" = none := by
    rw [OrderedMap.get?_eq_none_iff, OrderedMap.mem_keys_spread, not_or]
    exact ⟨by simp, hproto⟩
  cases htype : manager.type with
  | counter =>
    simp only [htype, lostLabels, List.mem_cons, List.not_mem_nil, or_false] at hlost
    rcases hlost with rfl | rfl
    · simp [measure, registerCounter, OrderedMap.get?_delete, OrderedMap.get?_set, hspread]
    · simp [measure, registerCounter, OrderedMap.get?_delete]
  | histogram =>
    simp only [htype, lostLabels, List.mem_cons, List.not_mem_nil, or_false] at hlost
    rcases hlost with rfl | rfl | rfl | rfl
    · simp [measure, registerHistogram, OrderedMap.get?_delete, OrderedMap.get?_set, hspread]
    · simp [measure, registerHistogram, OrderedMap.get?_delete]
    · simp [measure, registerHistogram, OrderedMap.get?_delete]
    · simp [measure, registerHistogram, OrderedMap.get?_delete]

/-- The metric is handed the labels as they are, when it takes none of them for itself. -/
theorem get?_measure {transactionName : String} {status : TransactionStatus} {durationMs : ℤ}
    {labels : Labels} {label : String} (hnodup : (OrderedMap.keys labels).Nodup)
    (hlost : ∀ lost ∈ lostLabels manager.type, lost ∉ OrderedMap.keys labels)
    (hcustom : label ∉ builtInLabels) :
    OrderedMap.get? (measure manager.type transactionName status durationMs labels).labels label =
      OrderedMap.get? labels label := by
  by_cases hmem : label ∈ lostLabels manager.type
  · have habsent : OrderedMap.get? labels label = none :=
      OrderedMap.get?_eq_none_iff.2 (hlost label hmem)
    rw [habsent, get?_measure_of_lost (hlost _ (proto_mem_lostLabels manager.type)) hmem]
  · rw [get?_measure_of_kept hmem, get?_spread_builtIn hnodup hcustom]

/-! ## What each operation does to the maps -/

variable {m : TransactionMaps} {key key' : String}

theorem inFlight_start {transactionName : String} {now : ℤ} :
    (m.start transactionName key now).InFlight key' ↔ key = key' ∨ m.InFlight key' := by
  rw [TransactionMaps.InFlight, TransactionMaps.start, OrderedMap.get?_set]
  by_cases h : key = key'
  · simp [h]
  · rw [if_neg h]
    exact ⟨Or.inr, fun hstarted => hstarted.resolve_left h⟩

theorem inFlight_addCustomAttributes {attributes : PlainObject AttributeValue} :
    (addCustomAttributes manager m key attributes).InFlight key' ↔ m.InFlight key' := by
  rw [addCustomAttributes]
  split
  · exact Iff.rfl
  · exact Iff.rfl

theorem labelsOf_addCustomAttributes {attributes : PlainObject AttributeValue}
    (h : m.InFlight key) :
    (addCustomAttributes manager m key attributes).labelsOf key =
      mergeAttributes manager (m.labelsOf key) attributes := by
  rw [TransactionMaps.InFlight] at h
  rw [addCustomAttributes, if_pos h, TransactionMaps.labelsOf, OrderedMap.get?_set, if_pos rfl]
  rfl

theorem labelsOf_addCustomAttributes_of_ne {attributes : PlainObject AttributeValue}
    (h : key ≠ key') :
    (addCustomAttributes manager m key attributes).labelsOf key' = m.labelsOf key' := by
  rw [addCustomAttributes]
  split
  · rw [TransactionMaps.labelsOf, OrderedMap.get?_set, if_neg h]
    rfl
  · rfl

theorem forgets_forget : (m.forget key).Forgets key := by
  simp [TransactionMaps.Forgets, TransactionMaps.forget, OrderedMap.get?_delete]

theorem inFlight_forget : (m.forget key).InFlight key' ↔ key ≠ key' ∧ m.InFlight key' := by
  rw [TransactionMaps.InFlight, TransactionMaps.forget, OrderedMap.get?_delete]
  by_cases h : key = key'
  · simp [h]
  · simp [h, TransactionMaps.InFlight]

theorem labelsOf_forget (h : key ≠ key') : (m.forget key).labelsOf key' = m.labelsOf key' := by
  rw [TransactionMaps.labelsOf, TransactionMaps.forget, OrderedMap.get?_delete, if_neg h]
  rfl

/-- No entry is left without a transaction in flight. -/
structure TransactionMaps.Owned (m : TransactionMaps) : Prop where
  startTime : ∀ key, (OrderedMap.get? m.startTimeByKey key).isSome → m.InFlight key
  customLabels : ∀ key, (OrderedMap.get? m.customLabelsByKey key).isSome → m.InFlight key

theorem TransactionMaps.Owned.forgets (h : m.Owned) (hkey : ¬ m.InFlight key) :
    m.Forgets key := by
  refine ⟨?_, ?_, ?_⟩
  · simpa [TransactionMaps.InFlight] using hkey
  · rw [← Option.not_isSome_iff_eq_none]
    exact fun hsome => hkey (h.startTime key hsome)
  · rw [← Option.not_isSome_iff_eq_none]
    exact fun hsome => hkey (h.customLabels key hsome)

theorem TransactionMaps.Forgets.forget_eq (h : m.Forgets key) : m.forget key = m := by
  rw [TransactionMaps.forget, OrderedMap.delete_of_get?_eq_none h.1,
    OrderedMap.delete_of_get?_eq_none h.2.1, OrderedMap.delete_of_get?_eq_none h.2.2]

theorem TransactionMaps.Owned.start {transactionName : String} {now : ℤ} (h : m.Owned) :
    (m.start transactionName key now).Owned where
  startTime key' hsome := by
    rw [TransactionMaps.start, OrderedMap.get?_set] at hsome
    by_cases hkey : key = key'
    · exact inFlight_start.2 (.inl hkey)
    · rw [if_neg hkey] at hsome
      exact inFlight_start.2 (.inr (h.startTime key' hsome))
  customLabels key' hsome := inFlight_start.2 (.inr (h.customLabels key' hsome))

theorem TransactionMaps.Owned.addCustomAttributes {attributes : PlainObject AttributeValue}
    (h : m.Owned) : (addCustomAttributes manager m key attributes).Owned where
  startTime key' hsome := by
    rw [inFlight_addCustomAttributes]
    rw [MetricsUtils.addCustomAttributes] at hsome
    split at hsome <;> exact h.startTime key' hsome
  customLabels key' hsome := by
    rw [inFlight_addCustomAttributes]
    rw [MetricsUtils.addCustomAttributes] at hsome
    split at hsome
    · rename_i hin
      rw [OrderedMap.get?_set] at hsome
      by_cases hkey : key = key'
      · rw [← hkey]
        exact hin
      · rw [if_neg hkey] at hsome
        exact h.customLabels key' hsome
    · exact h.customLabels key' hsome

theorem TransactionMaps.Owned.forget (h : m.Owned) : (m.forget key).Owned where
  startTime key' hsome := by
    rw [TransactionMaps.forget, OrderedMap.get?_delete] at hsome
    by_cases hkey : key = key'
    · simp [hkey] at hsome
    · rw [if_neg hkey] at hsome
      exact inFlight_forget.2 ⟨hkey, h.startTime key' hsome⟩
  customLabels key' hsome := by
    rw [TransactionMaps.forget, OrderedMap.get?_delete] at hsome
    by_cases hkey : key = key'
    · simp [hkey] at hsome
    · rw [if_neg hkey] at hsome
      exact inFlight_forget.2 ⟨hkey, h.customLabels key' hsome⟩

/-- A stop whose metric does not throw, or that has no labels to drop, drops every entry. -/
theorem maps_stop {wasSuccessful : Bool} {now : ℤ} {metricThrows : Bool} (h : m.Owned)
    (hkeeps : KeepsExact manager m (.stop key wasSuccessful now metricThrows)) :
    (stop manager m key wasSuccessful now metricThrows).maps = m.forget key := by
  cases hname : OrderedMap.get? m.transactionNameByKey key with
  | none =>
    have hgone : m.Forgets key := h.forgets (by simp [TransactionMaps.InFlight, hname])
    simp only [stop, hname]
    exact hgone.forget_eq.symm
  | some transactionName =>
    simp only [stop, hname, emitMeasurement]
    split
    · rename_i hthrows
      rw [Bool.and_eq_true] at hthrows
      have hnone : OrderedMap.get? m.customLabelsByKey key = none :=
        hkeeps hthrows.1 hthrows.2
      rw [TransactionMaps.forget, OrderedMap.delete_of_get?_eq_none hnone]
    · rfl

/-! ## The invariant -/

/-- The maps agree with the calls made: with a client, a transaction in flight has the labels
added since its start, and none that is lost. -/
structure Tracks (manager : Manager) (m : TransactionMaps) (history : List Call) : Prop where
  owned : m.Owned
  exact : manager.hasClient = true → ∀ key, m.InFlight key →
    m.labelsOf key = attributesSinceStart manager key history
  kept : manager.hasClient = true → ∀ key, m.InFlight key →
    ∀ label ∈ lostLabels manager.type, label ∉ OrderedMap.keys (m.labelsOf key)

theorem attributesSinceStart_concat {history : List Call} {call : Call} :
    attributesSinceStart manager key (history ++ [call]) =
      recordCall manager key (attributesSinceStart manager key history) call := by
  rw [attributesSinceStart, List.foldl_append]
  rfl

theorem nodup_keys_attributesSinceStart {history : List Call} :
    (OrderedMap.keys (attributesSinceStart manager key history)).Nodup := by
  induction history using List.reverseRecOn with
  | nil => exact List.nodup_nil
  | append_singleton history call ih =>
    rw [attributesSinceStart_concat]
    cases call with
    | start | startWithGroup =>
      rw [recordCall]
      split
      · exact List.nodup_nil
      · exact ih
    | addCustomAttributes key' attributes =>
      rw [recordCall]
      split
      · exact OrderedMap.nodup_keys_spread ih
      · exact ih
    | stop => exact ih

theorem tracks_nil : Tracks manager {} [] where
  owned := ⟨fun _ h => by simp [OrderedMap.get?] at h, fun _ h => by simp [OrderedMap.get?] at h⟩
  exact _ _ h := by simp [TransactionMaps.InFlight, OrderedMap.get?] at h
  kept _ _ h := by simp [TransactionMaps.InFlight, OrderedMap.get?] at h

variable {history : List Call}

/-- A start of a key without labels, with or without a group. -/
theorem Tracks.start {transactionName : String} {now : ℤ} {call : Call}
    (h : Tracks manager m history) (hempty : manager.hasClient = true → m.labelsOf key = [])
    (hrecord : ∀ key' labels,
      recordCall manager key' labels call = if key = key' then [] else labels) :
    Tracks manager (m.start transactionName key now) (history ++ [call]) where
  owned := h.owned.start
  exact hclient key' hin := by
    rw [attributesSinceStart_concat, hrecord]
    by_cases hkey : key = key'
    · rw [if_pos hkey, ← hkey]
      exact hempty hclient
    · rw [if_neg hkey]
      exact h.exact hclient key' ((inFlight_start.1 hin).resolve_left hkey)
  kept hclient key' hin := by
    by_cases hkey : key = key'
    · intro label _
      show label ∉ OrderedMap.keys (m.labelsOf key')
      rw [← hkey, hempty hclient]
      exact List.not_mem_nil
    · exact h.kept hclient key' ((inFlight_start.1 hin).resolve_left hkey)

theorem Tracks.addCustomAttributes {attributes : PlainObject AttributeValue}
    (h : Tracks manager m history)
    (hkeeps : KeepsExact manager m (.addCustomAttributes key attributes)) :
    Tracks manager (addCustomAttributes manager m key attributes)
      (history ++ [.addCustomAttributes key attributes]) where
  owned := h.owned.addCustomAttributes
  exact hclient key' hin := by
    rw [inFlight_addCustomAttributes] at hin
    rw [attributesSinceStart_concat, recordCall, ← h.exact hclient key' hin]
    by_cases hkey : key = key'
    · subst hkey
      rw [labelsOf_addCustomAttributes hin, if_pos rfl]
      exact mergeAttributes_eq (hkeeps hclient hin)
    · rw [if_neg hkey]
      exact labelsOf_addCustomAttributes_of_ne hkey
  kept hclient key' hin := by
    rw [inFlight_addCustomAttributes] at hin
    intro label hlost
    by_cases hkey : key = key'
    · subst hkey
      rw [labelsOf_addCustomAttributes hin, mergeAttributes_eq (hkeeps hclient hin),
        OrderedMap.mem_keys_spread, not_or]
      refine ⟨h.kept hclient key hin label hlost, fun hadded => ?_⟩
      obtain ⟨hmem, hsupported⟩ := mem_keys_supportedAttributes.1 hadded
      exact hkeeps hclient hin label hmem hsupported hlost
    · rw [labelsOf_addCustomAttributes_of_ne hkey]
      exact h.kept hclient key' hin label hlost

theorem Tracks.stop {wasSuccessful : Bool} {now : ℤ} {metricThrows : Bool}
    (h : Tracks manager m history)
    (hkeeps : KeepsExact manager m (.stop key wasSuccessful now metricThrows)) :
    Tracks manager (stop manager m key wasSuccessful now metricThrows).maps
      (history ++ [.stop key wasSuccessful now metricThrows]) := by
  rw [maps_stop h.owned hkeeps]
  constructor
  · exact h.owned.forget
  · intro hclient key' hin
    obtain ⟨hkey, hin⟩ := inFlight_forget.1 hin
    rw [attributesSinceStart_concat, recordCall, labelsOf_forget hkey]
    exact h.exact hclient key' hin
  · intro hclient key' hin
    obtain ⟨hkey, hin⟩ := inFlight_forget.1 hin
    rw [labelsOf_forget hkey]
    exact h.kept hclient key' hin

/-- A call that meets the condition keeps the invariant. -/
theorem Tracks.afterCall {call : Call} (h : Tracks manager m history)
    (hkeeps : KeepsExact manager m call) :
    Tracks manager (afterCall manager m call) (history ++ [call]) := by
  cases call with
  | start | startWithGroup => exact h.start hkeeps fun _ _ => by simp only [recordCall]
  | addCustomAttributes => exact h.addCustomAttributes hkeeps
  | stop => exact h.stop hkeeps

theorem tracks_run {before : List Call} {m' : TransactionMaps} (h : Tracks manager m history)
    (hkeeps : AllSteps (step manager) (KeepsExact manager) m before)
    (hrun : run (step manager) m before = some m') :
    Tracks manager m' (history ++ before) := by
  induction before generalizing m history with
  | nil =>
    cases hrun
    rw [List.append_nil]
    exact h
  | cons call before ih =>
    obtain ⟨_, hstep, hrun'⟩ := run_cons_eq_some.1 hrun
    cases hstep
    have htracks := ih (h.afterCall hkeeps.1) (hkeeps.2 _ rfl) hrun'
    rwa [List.append_assoc] at htracks

/-! ## What a stop does -/

section Stop

variable {wasSuccessful : Bool} {now : ℤ} {metricThrows : Bool}

/-- With a client, what is passed is the measurement of a transaction in flight. -/
theorem passedBy_stop {measurement : Measurement} :
    passedBy manager m (.stop key wasSuccessful now metricThrows) = some measurement ↔
      manager.hasClient = true ∧
        ∃ transactionName, OrderedMap.get? m.transactionNameByKey key = some transactionName ∧
          measurement = measure manager.type transactionName
            (if wasSuccessful then .success else .error)
            (now - (OrderedMap.get? m.startTimeByKey key).getD now) (m.labelsOf key) := by
  cases hname : OrderedMap.get? m.transactionNameByKey key with
  | none => simp [passedBy, MetricsUtils.stop, hname]
  | some transactionName =>
    simp only [passedBy, MetricsUtils.stop, hname, emitMeasurement]
    cases manager.hasClient with
    | true => cases metricThrows <;> simp [TransactionMaps.labelsOf, eq_comm]
    | false => simp

theorem Tracks.passesExactly (h : Tracks manager m history) :
    PassesExactly manager m history key (.stop key wasSuccessful now metricThrows) := by
  intro measurement hpassed label hcustom
  obtain ⟨hclient, transactionName, hname, rfl⟩ := passedBy_stop.1 hpassed
  have hin : m.InFlight key := by simp [TransactionMaps.InFlight, hname]
  have hlabels : m.labelsOf key = attributesSinceStart manager key history :=
    h.exact hclient key hin
  have hnodup : (OrderedMap.keys (m.labelsOf key)).Nodup := by
    rw [hlabels]
    exact nodup_keys_attributesSinceStart
  rw [get?_measure hnodup (h.kept hclient key hin) hcustom, hlabels]

end Stop

/-- **Every run of calls that meet the condition stops exactly.** -/
theorem stopsExactly {calls : List Call}
    (h : AllSteps (step manager) (KeepsExact manager) {} calls) :
    StopsExactly manager calls := by
  rintro before after key wasSuccessful now metricThrows m rfl hrun
  obtain ⟨hbefore, hafter⟩ := h.of_append
  have htracks : Tracks manager m before := tracks_run tracks_nil hbefore hrun
  have hkeeps := (hafter m hrun).1
  refine ⟨htracks.passesExactly, ?_⟩
  rw [afterCall, maps_stop htracks.owned hkeeps]
  exact forgets_forget

/-! ## Calls that do not meet the condition -/

section Exact

variable {wasSuccessful : Bool} {now : ℤ} {metricThrows : Bool}

/-- A stop leaves no entry behind exactly when it meets the condition. -/
theorem forgets_stop_iff (h : Tracks manager m history) :
    (afterCall manager m (.stop key wasSuccessful now metricThrows)).Forgets key ↔
      KeepsExact manager m (.stop key wasSuccessful now metricThrows) := by
  constructor
  · intro hforgets hclient hthrows
    have hlabels := hforgets.2.2
    cases hname : OrderedMap.get? m.transactionNameByKey key with
    | none =>
      have hgone : m.Forgets key := h.owned.forgets (by simp [TransactionMaps.InFlight, hname])
      exact hgone.2.2
    | some transactionName =>
      simpa [afterCall, MetricsUtils.stop, hname, emitMeasurement, hclient, hthrows] using hlabels
  · intro hkeeps
    rw [afterCall, maps_stop h.owned hkeeps]
    exact forgets_forget

theorem mem_supportedCustomLabels_of_mem_keys {label : String}
    (h : label ∈ OrderedMap.keys (attributesSinceStart manager key history)) :
    label ∈ manager.supportedCustomLabels := by
  induction history using List.reverseRecOn with
  | nil => simp [attributesSinceStart] at h
  | append_singleton history call ih =>
    rw [attributesSinceStart_concat] at h
    cases call with
    | start | startWithGroup =>
      rw [recordCall] at h
      split at h
      · simp at h
      · exact ih h
    | addCustomAttributes key' attributes =>
      rw [recordCall] at h
      split at h
      · rw [OrderedMap.mem_keys_spread] at h
        cases h with
        | inl hold => exact ih hold
        | inr hadded => exact (mem_keys_supportedAttributes.1 hadded).2
      · exact ih h
    | stop => exact ih h

/-- A stop that follows a start is handed no labels exactly when the start met the condition. -/
theorem passesExactly_start_iff {transactionName : String} {startedAt : ℤ}
    (h : Tracks manager m history) :
    PassesExactly manager (m.start transactionName key startedAt)
        (history ++ [.start transactionName key startedAt]) key
        (.stop key wasSuccessful now metricThrows) ↔
      KeepsExact manager m (.start transactionName key startedAt) := by
  constructor
  · intro hpasses hclient
    show m.labelsOf key = []
    by_contra hlabels
    obtain ⟨label, hlabel⟩ : ∃ label, label ∈ OrderedMap.keys (m.labelsOf key) := by
      cases hof : m.labelsOf key with
      | nil => exact absurd hof hlabels
      | cons e labels => exact ⟨e.1, by simp⟩
    have hin : m.InFlight key := by
      by_contra hgone
      rw [TransactionMaps.labelsOf, (h.owned.forgets hgone).2.2] at hlabels
      exact hlabels rfl
    have hexact := h.exact hclient key hin
    have hcustom : label ∉ builtInLabels := by
      rw [hexact] at hlabel
      exact manager.noCollisions label (mem_supportedCustomLabels_of_mem_keys hlabel)
    have hnodup : (OrderedMap.keys (m.labelsOf key)).Nodup := by
      rw [hexact]
      exact nodup_keys_attributesSinceStart
    have hname : OrderedMap.get? (m.start transactionName key startedAt).transactionNameByKey key =
        some transactionName := by
      rw [TransactionMaps.start, OrderedMap.get?_set, if_pos rfl]
    have hpassed := hpasses _ (passedBy_stop.2 ⟨hclient, transactionName, hname, rfl⟩) label hcustom
    have hsame : (m.start transactionName key startedAt).labelsOf key = m.labelsOf key := rfl
    rw [hsame, get?_measure hnodup (h.kept hclient key hin) hcustom, attributesSinceStart_concat,
      recordCall, if_pos rfl] at hpassed
    rw [← OrderedMap.get?_isSome_iff, hpassed] at hlabel
    simp [OrderedMap.get?] at hlabel
  · intro hkeeps
    exact (h.afterCall hkeeps).passesExactly

theorem proto_notMem_mergeAttributes {labels : Labels} {attributes : PlainObject AttributeValue}
    (h : "__proto__" ∉ OrderedMap.keys labels) :
    "__proto__" ∉ OrderedMap.keys (mergeAttributes manager labels attributes) := by
  rw [mergeAttributes]
  induction attributes.entries generalizing labels with
  | nil => exact h
  | cons e entries ih =>
    rw [List.foldl_cons]
    apply ih
    split
    · rw [assign]
      split
      · exact h
      · rename_i hkey
        rw [OrderedMap.mem_keys_set, not_or]
        exact ⟨Ne.symm hkey, h⟩
    · exact h

/-- A stop that follows an addition is handed all labels exactly when the addition met the
condition. -/
theorem passesExactly_addCustomAttributes_iff {attributes : PlainObject AttributeValue}
    (h : Tracks manager m history) :
    PassesExactly manager (addCustomAttributes manager m key attributes)
        (history ++ [.addCustomAttributes key attributes]) key
        (.stop key wasSuccessful now metricThrows) ↔
      KeepsExact manager m (.addCustomAttributes key attributes) := by
  constructor
  · intro hpasses hclient hin label hmem hsupported hlost
    have hin' : (addCustomAttributes manager m key attributes).InFlight key :=
      inFlight_addCustomAttributes.2 hin
    obtain ⟨transactionName, hname⟩ := Option.isSome_iff_exists.1 hin'
    have hpassed := hpasses _ (passedBy_stop.2 ⟨hclient, transactionName, hname, rfl⟩) label
      fun hbuiltIn => manager.noCollisions label hsupported hbuiltIn
    have hproto : "__proto__" ∉ OrderedMap.keys
        ((addCustomAttributes manager m key attributes).labelsOf key) := by
      rw [labelsOf_addCustomAttributes hin]
      exact proto_notMem_mergeAttributes
        (h.kept hclient key hin _ (proto_mem_lostLabels manager.type))
    have hadded : label ∈ OrderedMap.keys (attributesSinceStart manager key
        (history ++ [.addCustomAttributes key attributes])) := by
      rw [attributesSinceStart_concat, recordCall, if_pos rfl, OrderedMap.mem_keys_spread]
      exact .inr (mem_keys_supportedAttributes.2 ⟨hmem, hsupported⟩)
    rw [get?_measure_of_lost hproto hlost] at hpassed
    rw [← OrderedMap.get?_isSome_iff, ← hpassed] at hadded
    exact absurd hadded (by simp)
  · intro hkeeps
    exact (h.afterCall hkeeps).passesExactly

end Exact

/-! ## Runs -/

/-- A counter with two labels of its own. -/
def regionCounter : Manager where
  type := .counter
  supportedCustomLabels := ["region", "cached"]
  hasClient := true
  noCollisions := by decide

/-- The attributes of an export from a region. -/
def regionAttributes (region : String) : PlainObject AttributeValue :=
  ⟨[("region", .str region), ("size", .num (.finite 3))],
    by simp⟩

/-- Two transactions that overlap, the second of which has no labels when its metric throws. -/
def overlappingRun : List Call :=
  [.start "export" "a" 0, .addCustomAttributes "a" (regionAttributes "eu"),
    .startWithGroup "import" "b" "nightly" 5, .addCustomAttributes "a" (regionAttributes "us"),
    .stop "b" false 8 true, .stop "a" true 10 false, .start "export" "a" 20,
    .stop "a" true 25 false]

theorem overlappingRun_stopsExactly : StopsExactly regionCounter overlappingRun :=
  stopsExactly (by decide)

/-- A transaction that is started again under its key, and then stopped. -/
def restartedRun : List Call :=
  [.start "export" "a" 0, .addCustomAttributes "a" (regionAttributes "eu"),
    .start "export" "a" 50, .stop "a" true 60 false]

/-- A transaction with a label whose metric throws. -/
def throwingRun : List Call :=
  [.start "export" "a" 0, .addCustomAttributes "a" (regionAttributes "eu"),
    .stop "a" true 10 true]

/-- The restarted transaction passes on the region of the one before it, and the labels of the
other stay behind. -/
theorem restartedRun_not_stopsExactly :
    ¬ StopsExactly regionCounter restartedRun ∧ ¬ StopsExactly regionCounter throwingRun := by
  constructor
  · intro h
    have hpasses := (h (restartedRun.take 3) [] "a" true 60 false _ rfl rfl).1 _ rfl "region"
      (by decide)
    exact absurd hpasses (by decide)
  · intro h
    have hforgets := (h (throwingRun.take 2) [] "a" true 10 true _ rfl rfl).2
    exact absurd hforgets.2.2 (by decide)

end SharedTsLibs.MetricsUtils
