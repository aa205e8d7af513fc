import SharedTsLibs.BackgroundJobs.QueueManager

/-!
# Starting queues

Two promises are at stake when the queue manager starts its queues without
`dispose`: a call that needs a queue finds it once its start has resolved, and a
start that failed can be made again.

* `QueueInv` — what holds of the starts in every run without `dispose`.
* `FindsQueue` — the condition under which a call is served: its queue was built
  before, or none was and no start is under way.
* `lazyInit_served_iff` — under that condition every call is served, and without it
  a call can be left without its queue.
* `failed_start_stays_started` — a start that failed after its queues were built
  leaves the registry started, and every later start returns at once.
-/

namespace SharedTsLibs.BackgroundJobs

open StepSystem

variable {Input P : Type}

/-- The event is neither a call of `dispose` nor a step of one. -/
def NoDispose (_ : QueueManager Input P) : QueueEvent Input P → Prop
  | .invoke .dispose _ | .closed _ => False
  | _ => True

/-- No step fails: queues are built, become ready and are registered. -/
def NoFailure (_ : QueueManager Input P) : QueueEvent Input P → Prop
  | .invoke _ build => ∀ queueId, build queueId = .ok ()
  | .ready _ _ result | .registered _ result => result = .ok ()
  | _ => True

/-! ## Building queues -/

section Build

open QueueManager

variable {supported : List String} {build : String → Except String Unit}
  {m m' : QueueManager Input P} {built built' ids : List String} {failure : Option StartFailure}

/-- What building one queue keeps holds when queues have been built. -/
theorem buildQueues_invariant {I : QueueManager Input P → List String → Prop}
    (h : m.buildQueues supported build built ids = (m', built', failure)) (hstart : I m built)
    (hbuild : ∀ (m : QueueManager Input P) (built : List String) (queueId : String), I m built →
      I { m with
          queues := OrderedMap.set queueId m.queueCount m.queues
          queueCount := m.queueCount + 1 } (built ++ [queueId])) :
    I m' built' := by
  induction ids generalizing m built with
  | nil => cases h; exact hstart
  | cons queueId ids ih =>
    rw [buildQueues] at h
    split at h
    · split at h
      · cases h; exact hstart
      · exact ih h (hbuild m built queueId hstart)
    · exact ih h hstart

/-- Building queues touches the queues only. -/
theorem buildQueues_frame
    (h : m.buildQueues supported build built ids = (m', built', failure)) :
    m'.startPromise = m.startPromise ∧ m'.starts = m.starts ∧ m'.calls = m.calls := by
  refine buildQueues_invariant (I := fun n _ =>
    n.startPromise = m.startPromise ∧ n.starts = m.starts ∧ n.calls = m.calls) h ⟨rfl, rfl, rfl⟩ ?_
  intro n built queueId hframe
  exact hframe

/-- No queue is dropped. -/
theorem mem_queues_of_buildQueues
    (h : m.buildQueues supported build built ids = (m', built', failure)) {q : String}
    (hq : q ∈ OrderedMap.keys m.queues) : q ∈ OrderedMap.keys m'.queues := by
  refine buildQueues_invariant (I := fun n _ => q ∈ OrderedMap.keys n.queues) h hq ?_
  intro n built queueId hmem
  exact OrderedMap.mem_keys_set.2 (Or.inr hmem)

/-- The ids collected have their queue. -/
theorem mem_queues_of_mem_built
    (h : m.buildQueues supported build built ids = (m', built', failure)) {q : String}
    (hq : q ∈ built') : q ∈ built ∨ q ∈ OrderedMap.keys m'.queues := by
  refine buildQueues_invariant (I := fun n ids => q ∈ ids →
    q ∈ built ∨ q ∈ OrderedMap.keys n.queues) h Or.inl ?_ hq
  intro n ids queueId hmem hq
  rcases List.mem_append.1 hq with hq | hq
  · exact (hmem hq).imp_right fun hkey => OrderedMap.mem_keys_set.2 (Or.inr hkey)
  · exact Or.inr (OrderedMap.mem_keys_set.2 (Or.inl (List.mem_singleton.1 hq)))

/-- When none fails, every supported id asked for has its queue. -/
theorem mem_queues_of_buildQueues_ok
    (h : m.buildQueues supported build built ids = (m', built', none)) {q : String}
    (hq : q ∈ ids) (hs : q ∈ supported) : q ∈ OrderedMap.keys m'.queues := by
  induction ids generalizing m built with
  | nil => cases hq
  | cons queueId ids ih =>
    rw [buildQueues] at h
    split at h
    · split at h
      · cases h
      · rcases List.mem_cons.1 hq with rfl | hq
        · exact mem_queues_of_buildQueues h (OrderedMap.mem_keys_set.2 (Or.inl rfl))
        · exact ih h hq
    · next hns =>
      rcases List.mem_cons.1 hq with rfl | hq
      · exact absurd hs hns
      · exact ih h hq

theorem build_of_buildQueues_error {f : StartFailure}
    (h : m.buildQueues supported build built ids = (m', built', some f)) :
    ∃ queueId e, f = .build queueId e := by
  induction ids generalizing m built with
  | nil => cases h
  | cons queueId ids ih =>
    rw [buildQueues] at h
    split at h
    · split at h
      · next e _ => cases h; exact ⟨queueId, e, rfl⟩
      · exact ih h
    · exact ih h

end Build

/-- A new start of the registry: the queues it adds, and the start it leaves. -/
theorem registryStart_spec (env : QueueEnv Input P) (m : QueueManager Input P) (enabled : Enabled)
    (build : String → Except String Unit) :
    ∃ d, (m.registryStart env enabled build).starts = m.starts ++ [d] ∧
      (m.registryStart env enabled build).calls = m.calls ∧
      (∀ q ∈ OrderedMap.keys m.queues,
        q ∈ OrderedMap.keys (m.registryStart env enabled build).queues) ∧
      (∀ q ∈ d.built, q ∈ OrderedMap.keys (m.registryStart env enabled build).queues) ∧
      ((d.phase = .registering ∧ d.built = []) ∨ (d.phase = .awaitingReady d.built ∧ d.built ≠ []) ∨
        ∃ q e, d.phase = .rejected (.build q e)) ∧
      ((∃ q e, d.phase = .rejected (.build q e)) ∨
        ∀ q ∈ QueueManager.queueIdsToStart env.registry.queueIds enabled,
          q ∈ env.registry.queueIds →
            q ∈ OrderedMap.keys (m.registryStart env enabled build).queues) := by
  unfold QueueManager.registryStart
  split
  · next m' built failure h =>
    obtain ⟨-, hstarts, hcalls⟩ := buildQueues_frame h
    obtain ⟨q, e, rfl⟩ := build_of_buildQueues_error h
    refine ⟨_, by rw [hstarts], hcalls, fun q hq => mem_queues_of_buildQueues h hq,
      fun q hq => ?_, Or.inr (Or.inr ⟨q, e, rfl⟩), Or.inl ⟨q, e, rfl⟩⟩
    rcases mem_queues_of_mem_built h hq with hnil | hmem
    · cases hnil
    · exact hmem
  · next m' built h =>
    obtain ⟨-, hstarts, hcalls⟩ := buildQueues_frame h
    have hbuilt : ∀ q ∈ built, q ∈ OrderedMap.keys m'.queues := by
      intro q hq
      rcases mem_queues_of_mem_built h hq with hnil | hmem
      · cases hnil
      · exact hmem
    have hall : ∀ q ∈ QueueManager.queueIdsToStart env.registry.queueIds enabled,
        q ∈ env.registry.queueIds → q ∈ OrderedMap.keys m'.queues :=
      fun q hq hs => mem_queues_of_buildQueues_ok h hq hs
    split
    · next hlen =>
      exact ⟨_, by rw [hstarts], hcalls, fun q hq => mem_queues_of_buildQueues h hq, hbuilt,
        Or.inl ⟨rfl, List.length_eq_zero_iff.1 hlen⟩, Or.inr hall⟩
    · next hlen =>
      exact ⟨_, by rw [hstarts], hcalls, fun q hq => mem_queues_of_buildQueues h hq, hbuilt,
        Or.inr (Or.inl ⟨rfl, fun hnil => hlen (List.length_eq_zero_iff.2 hnil)⟩), Or.inr hall⟩

/-- The three ways `start` goes: it returns at once, it awaits the start in
progress, or it begins one. -/
theorem start_cases (env : QueueEnv Input P) (m : QueueManager Input P)
    (request : QueueRequest Input P) (enabled : Enabled) (build : String → Except String Unit)
    (next : Option (String × Prepared P)) :
    ((m.isStarted = true ∨ enabled = .bool false) ∧ m.start env request enabled build next =
      m.push request (QueueManager.afterStart next (.ok ()))) ∨
    (m.isStarted = false ∧ ∃ k, m.startPromise = some k ∧
      m.start env request enabled build next = m.push request (.awaitingStart k next)) ∨
    (m.isStarted = false ∧ m.startPromise = none ∧ m.start env request enabled build next =
      QueueManager.push
        { m.registryStart env enabled build with startPromise := some m.starts.length } request
        (.awaitingStart m.starts.length next)) := by
  unfold QueueManager.start
  split
  · next hm => exact Or.inl ⟨Or.inl hm, rfl⟩
  · next hm =>
    have hm' : m.isStarted = false := Bool.eq_false_iff.2 hm
    split
    · exact Or.inl ⟨Or.inr rfl, rfl⟩
    · split
      · next k hk => exact Or.inr (Or.inl ⟨hm', k, hk, rfl⟩)
      · next hk => exact Or.inr (Or.inr ⟨hm', hk, rfl⟩)

/-! ## Growth -/

/-- Without `dispose` queues are kept and a start that was rejected stays so. -/
structure Grows (m m' : QueueManager Input P) : Prop where
  queues : ∀ q ∈ OrderedMap.keys m.queues, q ∈ OrderedMap.keys m'.queues
  rejected : ∀ (k : ℕ) (d : RegistryStart) (f : StartFailure), m.starts[k]? = some d →
    d.phase = .rejected f → m'.starts[k]? = some d

namespace Grows

variable {env : QueueEnv Input P} {m m' : QueueManager Input P}

/-- What leaves queues and starts alone. -/
theorem of_eq (hqueues : m'.queues = m.queues) (hstarts : m'.starts = m.starts) : Grows m m' := by
  refine ⟨fun q hq => ?_, fun k d f hk _ => ?_⟩
  · rw [hqueues]
    exact hq
  · rw [hstarts]
    exact hk

/-- Moving a start on that has not settled. -/
theorem setStart {k : ℕ} {d d' : RegistryStart} (hk : m.starts[k]? = some d)
    (hd : ∀ f, d.phase ≠ .rejected f) : Grows m { m with starts := m.starts.set k d' } := by
  refine ⟨fun _ hq => hq, fun j e f hj hf => ?_⟩
  have hne : d ≠ e := by
    rintro rfl
    exact hd f hf
  exact Slots.getElem?_set_keep hk hne hj

theorem start (request : QueueRequest Input P) (enabled : Enabled)
    (build : String → Except String Unit) (next : Option (String × Prepared P)) :
    Grows m (m.start env request enabled build next) := by
  rcases start_cases env m request enabled build next with ⟨-, heq⟩ | ⟨-, k, -, heq⟩ | ⟨-, -, heq⟩
  · rw [heq]
    exact of_eq rfl rfl
  · rw [heq]
    exact of_eq rfl rfl
  · rw [heq]
    obtain ⟨d, hstarts, -, hqueues, -⟩ := registryStart_spec env m enabled build
    refine ⟨hqueues, fun k e f hk _ => ?_⟩
    show (m.registryStart env enabled build).starts[k]? = some e
    rw [hstarts]
    exact Slots.getElem?_push_keep hk

theorem of_stepped {e : QueueEvent Input P} (hs : QueueStepped env m e m')
    (hno : NoDispose m e) : Grows m m' := by
  cases hs with
  | starts => exact start _ _ _ _
  | disposes => exact hno.elim
  | returns => exact of_eq rfl rfl
  | @ready k d pending queueId result hk hd =>
    have hphase : ∀ f, d.phase ≠ .rejected f := by simp [hd]
    cases result with
    | error e => exact setStart hk hphase
    | ok =>
      simp only [QueueManager.startReady]
      split
      · exact setStart hk hphase
      · exact setStart hk hphase
  | @registered k d result hk hd hresult =>
    have hphase : ∀ f, d.phase ≠ .rejected f := by simp [hd]
    cases result with
    | error e => exact setStart hk hphase
    | ok => exact setStart hk hphase
  | @resume i k c next d result hi hc hk hd =>
    cases result with
    | error e => exact of_eq rfl rfl
    | ok => exact of_eq rfl rfl
  | proceed =>
    unfold QueueManager.callQueue
    split
    · exact of_eq rfl rfl
    · split
      · exact of_eq rfl rfl
      · exact of_eq rfl rfl
  | reply => exact of_eq rfl rfl
  | closed => exact hno.elim

end Grows

/-! ## The starts of a run -/

/-- The state of a start tells whether it built queues. -/
structure StartSound (d : RegistryStart) : Prop where
  pending : ∀ pending, d.phase = .awaitingReady pending → d.built ≠ []
  rejected : ∀ f, d.phase = .rejected f → (∃ q e, f = .build q e) ∨ d.built ≠ []

/-- Without `dispose`, a start that built queues leaves the registry with queues,
and the promise kept is that of a start. -/
structure QueueInv (m : QueueManager Input P) : Prop where
  promise_lt : ∀ k, m.startPromise = some k → k < m.starts.length
  built : ∀ d ∈ m.starts, d.built ≠ [] → m.queues ≠ []
  sound : ∀ d ∈ m.starts, StartSound d

namespace QueueInv

variable {env : QueueEnv Input P} {m m' : QueueManager Input P}

/-- The invariant reads the queues, the promise and the starts only. -/
theorem congr (h : QueueInv m) (hqueues : m'.queues = m.queues) (hstarts : m'.starts = m.starts)
    (hpromise : ∀ k, m'.startPromise = some k → m.startPromise = some k) : QueueInv m' := by
  refine ⟨fun k hk => ?_, fun d hd hb => ?_, fun d hd => ?_⟩
  · rw [hstarts]
    exact h.promise_lt k (hpromise k hk)
  · rw [hstarts] at hd
    rw [hqueues]
    exact h.built d hd hb
  · rw [hstarts] at hd
    exact h.sound d hd

/-- A start moves on, with the queues it built. -/
theorem setStart (h : QueueInv m) {k : ℕ} {d : RegistryStart} (hk : m.starts[k]? = some d)
    {phase : RegistryStartPhase} (hsound : StartSound { d with phase }) :
    QueueInv { m with starts := m.starts.set k { d with phase } } := by
  have hmem : d ∈ m.starts := List.mem_of_getElem? hk
  refine ⟨fun j hj => ?_, fun e he hb => ?_, fun e he => ?_⟩
  · show j < (m.starts.set k _).length
    rw [List.length_set]
    exact h.promise_lt j hj
  · rcases List.mem_or_eq_of_mem_set he with he | rfl
    · exact h.built e he hb
    · exact h.built d hmem hb
  · rcases List.mem_or_eq_of_mem_set he with he | rfl
    · exact h.sound e he
    · exact hsound

theorem start (h : QueueInv m) (request : QueueRequest Input P) (enabled : Enabled)
    (build : String → Except String Unit) (next : Option (String × Prepared P)) :
    QueueInv (m.start env request enabled build next) := by
  rcases start_cases env m request enabled build next with ⟨-, heq⟩ | ⟨-, k, -, heq⟩ | ⟨-, -, heq⟩
  · rw [heq]
    exact h.congr rfl rfl fun _ hk => hk
  · rw [heq]
    exact h.congr rfl rfl fun _ hk => hk
  · rw [heq]
    obtain ⟨d, hstarts, -, hqueues, hbuilt, hphase, -⟩ := registryStart_spec env m enabled build
    refine ⟨fun k hk => ?_, fun e he hb => ?_, fun e he => ?_⟩
    · cases hk
      show m.starts.length < (m.registryStart env enabled build).starts.length
      rw [hstarts, List.length_append, List.length_singleton]
      omega
    · change e ∈ (m.registryStart env enabled build).starts at he
      show (m.registryStart env enabled build).queues ≠ []
      intro hnil
      rw [hnil] at hqueues hbuilt
      rw [hstarts] at he
      rcases List.mem_append.1 he with he | he
      · obtain ⟨q, hq⟩ := List.exists_mem_of_ne_nil _ (h.built e he hb)
        cases hqueues q.1 (List.mem_map_of_mem hq)
      · rw [List.mem_singleton.1 he] at hb
        obtain ⟨q, hq⟩ := List.exists_mem_of_ne_nil _ hb
        cases hbuilt q hq
    · change e ∈ (m.registryStart env enabled build).starts at he
      rw [hstarts] at he
      rcases List.mem_append.1 he with he | he
      · exact h.sound e he
      · rw [List.mem_singleton.1 he]
        rcases hphase with ⟨hreg, -⟩ | ⟨hawait, hne⟩ | ⟨q, f, hrej⟩
        · exact ⟨by simp [hreg], by simp [hreg]⟩
        · exact ⟨fun _ _ => hne, by simp [hawait]⟩
        · refine ⟨by simp [hrej], fun f' hf' => Or.inl ⟨q, f, ?_⟩⟩
          rw [hrej] at hf'
          exact (RegistryStartPhase.rejected.inj hf').symm

theorem of_stepped {e : QueueEvent Input P} (h : QueueInv m) (hs : QueueStepped env m e m')
    (hno : NoDispose m e) : QueueInv m' := by
  cases hs with
  | starts => exact h.start _ _ _ _
  | disposes => exact hno.elim
  | returns => exact h.congr rfl rfl fun _ hk => hk
  | @ready k d pending queueId result hk hd =>
    have hb : d.built ≠ [] := (h.sound d (List.mem_of_getElem? hk)).pending pending hd
    cases result with
    | error e => exact h.setStart hk ⟨fun _ _ => hb, fun _ _ => Or.inr hb⟩
    | ok =>
      simp only [QueueManager.startReady]
      split
      · exact h.setStart hk ⟨fun _ _ => hb, fun _ _ => Or.inr hb⟩
      · exact h.setStart hk ⟨fun _ _ => hb, fun _ _ => Or.inr hb⟩
  | @registered k d result hk hd hresult =>
    cases result with
    | error e =>
      refine h.setStart hk ⟨by simp, fun f _ => Or.inr fun hnil => ?_⟩
      cases hresult hnil
    | ok => exact h.setStart hk ⟨by simp, by simp⟩
  | @resume i k c next d result hi hc hk hd =>
    cases result with
    | error e => exact h.congr rfl rfl fun _ hk => hk
    | ok => exact h.congr rfl rfl fun _ hk => absurd hk.symm (Option.some_ne_none _)
  | proceed =>
    unfold QueueManager.callQueue
    split
    · exact h.congr rfl rfl fun _ hk => hk
    · split
      · exact h.congr rfl rfl fun _ hk => hk
      · exact h.congr rfl rfl fun _ hk => hk
  | reply => exact h.congr rfl rfl fun _ hk => hk
  | closed => exact hno.elim

theorem new : QueueInv (QueueManager.new : QueueManager Input P) := by
  refine ⟨?_, ?_, ?_⟩ <;> simp [QueueManager.new]

theorem run {events : List (QueueEvent Input P)} (h : QueueInv m)
    (hno : AllSteps (queueStep env) NoDispose m events)
    (hrun : run (queueStep env) m events = some m') : QueueInv m' :=
  invariant_run (fun _ _ _ hm hn hs => hm.of_stepped (queueStepped_of_queueStep hs) hn) h hno hrun

end QueueInv

/-! ## Calls that need a queue -/

/-- A call past `startIfNotStarted` for a supported queue finds the queue. -/
def FoundQueue (env : QueueEnv Input P) (m : QueueManager Input P) (c : QueueCall Input P) : Prop :=
  ∀ queueId prepared, c.phase = .started queueId prepared → queueId ∈ env.registry.queueIds →
    ∃ queue, m.getQueue queueId = .ok queue

/-- A call that needs a supported queue finds it built, or finds no queue built and
no start under way but rejected ones. -/
def FindsQueue (env : QueueEnv Input P) (m : QueueManager Input P) : QueueEvent Input P → Prop
  | .invoke (.operation op) _ => op.queueId ∈ env.registry.queueIds →
      (∃ prepared, op.prepare env = .ok (some prepared)) →
      op.queueId ∈ OrderedMap.keys m.queues ∨
        (m.queues = [] ∧ ∀ k, m.startPromise = some k →
          ∃ d f, m.starts[k]? = some d ∧ d.phase = .rejected f)
  | _ => True

theorem getQueue_isOk_iff {m : QueueManager Input P} {queueId : String} :
    (∃ queue, m.getQueue queueId = .ok queue) ↔ queueId ∈ OrderedMap.keys m.queues := by
  rw [← OrderedMap.get?_isSome_iff, QueueManager.getQueue]
  cases OrderedMap.get? m.queues queueId with
  | none => simp
  | some queue => simp

/-- A call at the `await` of a start will find its queue, or the start was rejected. -/
def QueueServed (env : QueueEnv Input P) (m : QueueManager Input P) (c : QueueCall Input P) :
    Prop :=
  ∀ queueId prepared, queueId ∈ env.registry.queueIds →
    (c.phase = .started queueId prepared → queueId ∈ OrderedMap.keys m.queues) ∧
    ∀ k, c.phase = .awaitingStart k (some (queueId, prepared)) →
      queueId ∈ OrderedMap.keys m.queues ∨
        ∃ d f, m.starts[k]? = some d ∧ d.phase = .rejected f

section Served

variable {env : QueueEnv Input P} {m m' : QueueManager Input P}

/-- What a call is served by stays. -/
theorem QueueServed.grows {c : QueueCall Input P} (h : QueueServed env m c) (hg : Grows m m') :
    QueueServed env m' c := by
  refine fun queueId prepared hs => ⟨fun hc => ?_, fun k hc => ?_⟩
  · exact hg.queues queueId ((h queueId prepared hs).1 hc)
  · rcases (h queueId prepared hs).2 k hc with hq | ⟨d, f, hk, hf⟩
    · exact Or.inl (hg.queues queueId hq)
    · exact Or.inr ⟨d, f, hg.rejected k d f hk hf, hf⟩

/-- A call that neither waits for its queue's start nor is past it needs nothing. -/
theorem queueServed_idle {c : QueueCall Input P}
    (hstarted : ∀ queueId prepared, c.phase ≠ .started queueId prepared)
    (hawait : ∀ k op, c.phase ≠ .awaitingStart k (some op)) : QueueServed env m c :=
  fun queueId prepared _ =>
    ⟨fun hc => absurd hc (hstarted queueId prepared), fun k hc => absurd hc (hawait k _)⟩

theorem isStarted_eq_false_iff {m : QueueManager Input P} :
    m.isStarted = false ↔ m.queues = [] := by
  rw [QueueManager.isStarted, decide_eq_false_iff_not, Nat.not_lt, Nat.le_zero,
    List.length_eq_zero_iff]

/-- The only new call in a list is the one appended. -/
theorem eq_of_mem_push {calls : List (QueueCall Input P)} {c c' : QueueCall Input P}
    (hcalls : calls = m.calls) (hc : c ∈ calls ++ [c']) (hold : c ∉ m.calls) : c = c' := by
  rcases List.mem_append.1 hc with hmem | hmem
  · rw [hcalls] at hmem
    exact absurd hmem hold
  · exact List.mem_singleton.1 hmem

/-- A call of `start` itself asks for no queue. -/
theorem queueServed_startOnly {request : QueueRequest Input P} {enabled : Enabled}
    {build : String → Except String Unit} {c : QueueCall Input P}
    (hc : c ∈ (m.start env request enabled build none).calls) (hold : c ∉ m.calls) :
    QueueServed env (m.start env request enabled build none) c := by
  rcases start_cases env m request enabled build none with
    ⟨-, heq⟩ | ⟨-, k, -, heq⟩ | ⟨-, -, heq⟩ <;>
    rw [heq] at hc ⊢
  · rw [eq_of_mem_push rfl hc hold]
    exact queueServed_idle (by simp [QueueManager.afterStart]) (by simp [QueueManager.afterStart])
  · rw [eq_of_mem_push rfl hc hold]
    exact queueServed_idle (by simp) (by simp)
  · obtain ⟨d, -, hcalls, -⟩ := registryStart_spec env m enabled build
    rw [eq_of_mem_push hcalls hc hold]
    exact queueServed_idle (by simp) (by simp)

/-- The call that an operation makes is served when it finds its queue. -/
theorem queueServed_start {op : QueueOperation Input P} {prepared : Prepared P}
    (hprep : op.prepare env = .ok (some prepared)) {build : String → Except String Unit}
    (hfinds : FindsQueue env m (.invoke (.operation op) build)) {c : QueueCall Input P}
    (hc : c ∈ (m.start env (.operation op) (.ids [op.queueId]) build
      (some (op.queueId, prepared))).calls) (hold : c ∉ m.calls) :
    QueueServed env (m.start env (.operation op) (.ids [op.queueId]) build
      (some (op.queueId, prepared))) c := by
  rcases start_cases env m (.operation op) (.ids [op.queueId]) build (some (op.queueId, prepared))
    with ⟨hm, heq⟩ | ⟨hm, k, hk, heq⟩ | ⟨hm, hk, heq⟩ <;> rw [heq] at hc ⊢
  · -- the registry is started, so the queue was found built
    have hne : m.queues ≠ [] := by
      intro hnil
      rw [isStarted_eq_false_iff.2 hnil] at hm
      simp at hm
    obtain rfl := eq_of_mem_push rfl hc hold
    refine fun queueId p hs => ⟨fun hphase => ?_, fun k hphase => ?_⟩
    · cases hphase
      rcases hfinds hs ⟨prepared, hprep⟩ with hq | ⟨hnil, -⟩
      · exact hq
      · exact absurd hnil hne
    · cases hphase
  · obtain rfl := eq_of_mem_push rfl hc hold
    refine fun queueId p hs => ⟨fun hphase => ?_, fun j hphase => ?_⟩
    · cases hphase
    · cases hphase
      rcases hfinds hs ⟨prepared, hprep⟩ with hq | ⟨-, hrej⟩
      · exact Or.inl hq
      · exact Or.inr (hrej k hk)
  · obtain ⟨d, hstarts, hcalls, -, -, -, hbuilt⟩ :=
      registryStart_spec env m (.ids [op.queueId]) build
    obtain rfl := eq_of_mem_push hcalls hc hold
    refine fun queueId p hs => ⟨fun hphase => ?_, fun j hphase => ?_⟩
    · cases hphase
    · cases hphase
      rcases hbuilt with ⟨q, e, hrej⟩ | hbuilt
      · refine Or.inr ⟨d, _, ?_, hrej⟩
        show (m.registryStart env (.ids [op.queueId]) build).starts[m.starts.length]? = some d
        rw [hstarts, List.getElem?_append_right (Nat.le_refl _), Nat.sub_self]
        rfl
      · refine Or.inl (hbuilt op.queueId ?_ hs)
        show op.queueId ∈ [op.queueId].eraseDups
        simp

/-- A call past its `await` of a start that it was served by. -/
theorem queueServed_startResumed {i k : ℕ} {c : QueueCall Input P}
    {next : Option (String × Prepared P)} {d : RegistryStart} {result : Except String Unit}
    (h : QueueServed env m c) (hc : c.phase = .awaitingStart k next) (hk : m.starts[k]? = some d)
    (hd : d.result = some result) {c' : QueueCall Input P}
    (hc' : c' ∈ (m.startResumed i c next result).calls) (hold : c' ∉ m.calls) :
    QueueServed env (m.startResumed i c next result) c' := by
  cases result with
  | error e =>
    rcases List.mem_or_eq_of_mem_set hc' with hmem | rfl
    · exact absurd hmem hold
    · exact queueServed_idle (by simp) (by simp)
  | ok =>
    rcases List.mem_or_eq_of_mem_set hc' with hmem | rfl
    · exact absurd hmem hold
    · cases next with
      | none =>
        exact queueServed_idle (by simp [QueueManager.afterStart])
          (by simp [QueueManager.afterStart])
      | some op =>
        refine fun queueId p hs => ⟨fun hphase => ?_, fun j hphase => ?_⟩
        · cases hphase
          rcases (h op.1 op.2 hs).2 k hc with hq | ⟨d', f, hk', hf⟩
          · exact hq
          · rw [hk] at hk'
            cases hk'
            rw [RegistryStart.result, hf] at hd
            cases hd
        · cases hphase

theorem queueServed_stepped {e : QueueEvent Input P} (hs : QueueStepped env m e m')
    (hno : NoDispose m e) (hfinds : FindsQueue env m e) (h : ∀ c ∈ m.calls, QueueServed env m c) :
    ∀ c ∈ m'.calls, QueueServed env m' c := by
  have hg : Grows m m' := Grows.of_stepped hs hno
  intro c hc
  by_cases hold : c ∈ m.calls
  · exact (h c hold).grows hg
  cases hs with
  | starts hrequest =>
    rcases hrequest with ⟨rfl, rfl⟩ | ⟨op, prepared, rfl, hprep, rfl, rfl⟩
    · exact queueServed_startOnly hc hold
    · exact queueServed_start hprep hfinds hc hold
  | disposes => exact hno.elim
  | returns =>
    rw [eq_of_mem_push rfl hc hold]
    exact queueServed_idle (by simp) (by simp)
  | @ready k d pending queueId result hk hd =>
    have hcalls : (m.startReady k d pending queueId result).calls = m.calls := by
      cases result with
      | error e => rfl
      | ok =>
        simp only [QueueManager.startReady]
        split <;> rfl
    rw [hcalls] at hc
    exact absurd hc hold
  | @registered k d result hk hd hresult =>
    cases result <;> exact absurd hc hold
  | resume hi hphase hk hd =>
    exact queueServed_startResumed (h _ (List.mem_of_getElem? hi)) hphase hk hd hc hold
  | @proceed i n c₀ queueId prepared hi hphase =>
    obtain ⟨phase, hcalls, hstarted, hawait⟩ : ∃ phase : QueueCallPhase P,
        (m.callQueue env i c₀ queueId prepared n).calls = m.calls.set i { c₀ with phase } ∧
        (∀ queueId prepared, phase ≠ .started queueId prepared) ∧
        ∀ k op, phase ≠ .awaitingStart k (some op) := by
      unfold QueueManager.callQueue
      split
      · exact ⟨_, rfl, by simp, by simp⟩
      · split
        · exact ⟨_, rfl, by simp, by simp⟩
        · exact ⟨_, rfl, by simp, by simp⟩
    rw [hcalls] at hc
    rcases List.mem_or_eq_of_mem_set hc with hmem | rfl
    · exact absurd hmem hold
    · exact queueServed_idle hstarted hawait
  | reply =>
    rcases List.mem_or_eq_of_mem_set hc with hmem | rfl
    · exact absurd hmem hold
    · exact queueServed_idle (by simp) (by simp)
  | closed => exact hno.elim

end Served

/-! ## A call left without its queue -/

section Unserved

variable {env : QueueEnv Input P} {m : QueueManager Input P}

/-- Some call is past `startIfNotStarted` for a supported queue that is not there. -/
def LeavesUnserved (env : QueueEnv Input P) (m : QueueManager Input P) : Prop :=
  ∃ c ∈ m.calls, ¬ FoundQueue env m c

theorem not_foundQueue_of_started {c : QueueCall Input P} {queueId : String} {prepared : Prepared P}
    (hc : c.phase = .started queueId prepared) (hs : queueId ∈ env.registry.queueIds)
    (hq : queueId ∉ OrderedMap.keys m.queues) : ¬ FoundQueue env m c :=
  fun h => hq (getQueue_isOk_iff.1 (h queueId prepared hc hs))

/-- A call goes on past a start that succeeded without building its queue. -/
theorem exists_unserved_resume (env : QueueEnv Input P) (m : QueueManager Input P) {i k : ℕ}
    {c : QueueCall Input P} {queueId : String} {prepared : Prepared P} {d : RegistryStart}
    (hi : m.calls[i]? = some c)
    (hc : c.phase = .awaitingStart k (some (queueId, prepared))) (hk : m.starts[k]? = some d)
    (hd : d.phase = .fulfilled) (hs : queueId ∈ env.registry.queueIds)
    (hq : queueId ∉ OrderedMap.keys m.queues) :
    ∃ m', queueStep env m (.resume i) = some m' ∧ LeavesUnserved env m' := by
  have hresult : d.result = some (.ok ()) := by rw [RegistryStart.result, hd]
  refine ⟨m.startResumed i c (some (queueId, prepared)) (.ok ()), ?_, _, Slots.mem_set hi, ?_⟩
  · simp [queueStep, hi, hc, hk, hresult]
  · exact not_foundQueue_of_started rfl hs hq

/-- An operation that does not find its queue can be left without it, though nothing
fails. -/
theorem exists_unserved (hinv : QueueInv m) (hlazy : env.lazyInitEnabled ≠ some false)
    {op : QueueOperation Input P} {prepared : Prepared P}
    (hprep : op.prepare env = .ok (some prepared)) (hs : op.queueId ∈ env.registry.queueIds)
    (hnot : ¬ FindsQueue env m (.invoke (.operation op) fun _ => .ok ())) :
    ∃ events m', AllSteps (queueStep env) (fun m e => NoDispose m e ∧ NoFailure m e) m
        (.invoke (.operation op) (fun _ => .ok ()) :: events) ∧
      run (queueStep env) m (.invoke (.operation op) (fun _ => .ok ()) :: events) = some m' ∧
      LeavesUnserved env m' := by
  obtain ⟨hq, hbusy⟩ : op.queueId ∉ OrderedMap.keys m.queues ∧ (m.queues = [] →
      ∃ k, m.startPromise = some k ∧ ∀ d, m.starts[k]? = some d → ∀ f, d.phase ≠ .rejected f) := by
    simpa [FindsQueue, hs, hprep, not_or] using hnot
  have hinvoke : m.invoke env (.operation op) (fun _ => .ok ()) =
      m.start env (.operation op) (.ids [op.queueId]) (fun _ => .ok ())
        (some (op.queueId, prepared)) := by
    simp [QueueManager.invoke, hprep, hlazy]
  have hfirst : ∀ {m₁ : QueueManager Input P} {events},
      m.invoke env (.operation op) (fun _ => .ok ()) = m₁ →
      AllSteps (queueStep env) (fun m e => NoDispose m e ∧ NoFailure m e) m₁ events →
      AllSteps (queueStep env) (fun m e => NoDispose m e ∧ NoFailure m e) m
        (.invoke (.operation op) (fun _ => .ok ()) :: events) := by
    rintro m₁ events rfl hrest
    refine ⟨⟨trivial, fun _ => rfl⟩, fun m₂ h₂ => ?_⟩
    cases h₂
    exact hrest
  rcases start_cases env m (.operation op) (.ids [op.queueId]) (fun _ => .ok ())
    (some (op.queueId, prepared)) with ⟨-, heq⟩ | ⟨hm, k, hk, heq⟩ | ⟨hm, hk, heq⟩ <;>
    rw [heq] at hinvoke
  · refine ⟨[], _, hfirst hinvoke trivial, by rw [run_cons, queueStep, hinvoke]; rfl, _,
      List.mem_append_right _ (List.mem_singleton_self _), ?_⟩
    exact not_foundQueue_of_started rfl hs hq
  · obtain ⟨k', hk', hrej⟩ := hbusy (isStarted_eq_false_iff.1 hm)
    rw [hk] at hk'
    cases hk'
    obtain ⟨d, hd⟩ : ∃ d, m.starts[k]? = some d :=
      ⟨_, List.getElem?_eq_getElem (hinv.promise_lt k hk)⟩
    have hcall : (m.push (.operation op)
        (.awaitingStart k (some (op.queueId, prepared)))).calls[m.calls.length]? =
          some ⟨.operation op, .awaitingStart k (some (op.queueId, prepared))⟩ := by
      simp [QueueManager.push]
    cases hphase : d.phase with
    | awaitingReady pending =>
      have hsound := hinv.sound d (List.mem_of_getElem? hd)
      have hne := hinv.built d (List.mem_of_getElem? hd) (hsound.pending pending hphase)
      exact absurd (isStarted_eq_false_iff.1 hm) hne
    | registering =>
      have hset : (m.starts.set k { d with phase := .fulfilled })[k]? =
          some { d with phase := .fulfilled } :=
        List.getElem?_set_self (hinv.promise_lt k hk)
      obtain ⟨m', hstep, hleaves⟩ := exists_unserved_resume env
        ((m.push (.operation op) (.awaitingStart k (some (op.queueId, prepared)))).startRegistered
          k d (.ok ())) hcall rfl hset rfl hs hq
      refine ⟨[.registered k (.ok ()), .resume m.calls.length], m', hfirst hinvoke ?_, ?_, hleaves⟩
      · exact ⟨⟨trivial, rfl⟩, fun _ _ => ⟨⟨trivial, trivial⟩, fun _ _ => trivial⟩⟩
      · have hreg : queueStep env (m.push (.operation op)
            (.awaitingStart k (some (op.queueId, prepared)))) (.registered k (.ok ())) =
            some ((m.push (.operation op)
              (.awaitingStart k (some (op.queueId, prepared)))).startRegistered k d (.ok ())) := by
          have hd' : (m.push (.operation op)
              (.awaitingStart k (some (op.queueId, prepared)))).starts[k]? = some d := hd
          simp [queueStep, hd', hphase, Except.isOk, Except.toBool]
        rw [run_cons_eq_some]
        refine ⟨_, rfl, ?_⟩
        rw [hinvoke, run_cons_eq_some]
        refine ⟨_, hreg, ?_⟩
        rw [run_cons_eq_some]
        exact ⟨m', hstep, rfl⟩
    | fulfilled =>
      obtain ⟨m', hstep, hleaves⟩ := exists_unserved_resume env
        (m.push (.operation op) (.awaitingStart k (some (op.queueId, prepared)))) hcall rfl hd
        hphase hs hq
      refine ⟨[.resume m.calls.length], m', hfirst hinvoke ?_, ?_, hleaves⟩
      · exact ⟨⟨trivial, trivial⟩, fun _ _ => trivial⟩
      · rw [run_cons_eq_some]
        refine ⟨_, rfl, ?_⟩
        rw [hinvoke, run_cons_eq_some]
        exact ⟨m', hstep, rfl⟩
    | rejected f => exact absurd hphase (hrej d hd f)
  · obtain ⟨k, hk', -⟩ := hbusy (isStarted_eq_false_iff.1 hm)
    rw [hk] at hk'
    cases hk'

end Unserved

/-! ## Lazy initialisation -/

/-- In a run without `dispose` whose operations find their queue built, or nothing
built and nothing under way, every operation past its start has its queue.  An
operation that finds neither can be left without its queue in a run where no step
fails. -/
theorem lazyInit_served_iff (env : QueueEnv Input P) (events : List (QueueEvent Input P))
    (m : QueueManager Input P) (hrun : run (queueStep env) .new events = some m)
    (hno : AllSteps (queueStep env) NoDispose .new events) :
    (AllSteps (queueStep env) (FindsQueue env) .new events → ∀ c ∈ m.calls, FoundQueue env m c) ∧
    ∀ op prepared, env.lazyInitEnabled ≠ some false → op.prepare env = .ok (some prepared) →
      op.queueId ∈ env.registry.queueIds →
      ¬ FindsQueue env m (.invoke (.operation op) fun _ => .ok ()) →
      ∃ events' m', AllSteps (queueStep env) (fun m e => NoDispose m e ∧ NoFailure m e) m
          (.invoke (.operation op) (fun _ => .ok ()) :: events') ∧
        run (queueStep env) m (.invoke (.operation op) (fun _ => .ok ()) :: events') = some m' ∧
        LeavesUnserved env m' := by
  refine ⟨fun hfinds => ?_, fun op prepared hlazy hprep hs hnot => ?_⟩
  · have hserved : ∀ c ∈ m.calls, QueueServed env m c :=
      invariant_run (C := fun m e => NoDispose m e ∧ FindsQueue env m e)
        (I := fun m => ∀ c ∈ m.calls, QueueServed env m c)
        (fun m₁ e m₂ h hC hs =>
          queueServed_stepped (queueStepped_of_queueStep hs) hC.1 hC.2 h)
        (by simp [QueueManager.new]) (hno.and hfinds) hrun
    intro c hc queueId prepared hphase hs
    exact getQueue_isOk_iff.2 ((hserved c hc queueId prepared hs).1 hphase)
  · exact exists_unserved (QueueInv.new.run hno hrun) hlazy hprep hs hnot

/-- A manager of two queues that accept every payload. -/
def twoQueueEnv : QueueEnv ℕ ℕ where
  libs := .shallow
  registry := .new [⟨"queue1", none, .ok, none⟩, ⟨"queue2", none, .ok, none⟩]
  isTest := false
  lazyInitEnabled := some true

/-- A job is scheduled on the first queue, which is started for it. -/
def scheduleEvents : List (QueueEvent ℕ ℕ) :=
  [.invoke (.operation (.schedule "queue1" 1 none)) fun _ => .ok (), .ready 0 "queue1" (.ok ()),
    .registered 0 (.ok ()), .resume 0]

theorem noDispose_scheduleEvents :
    AllSteps (queueStep twoQueueEnv) (fun m e => NoDispose m e ∧ NoFailure m e) .new
      scheduleEvents :=
  ⟨⟨trivial, fun _ => rfl⟩, fun _ _ => ⟨⟨trivial, rfl⟩, fun _ _ => ⟨⟨trivial, rfl⟩, fun _ _ =>
    ⟨⟨trivial, trivial⟩, fun _ _ => trivial⟩⟩⟩⟩

/-- The first job finds its queue. -/
theorem lazyInit_serves_first :
    ∃ m c, run (queueStep twoQueueEnv) .new scheduleEvents = some m ∧ c ∈ m.calls ∧
      (∃ prepared, c.phase = .started "queue1" prepared) ∧ FoundQueue twoQueueEnv m c := by
  have hfinds : AllSteps (queueStep twoQueueEnv) (FindsQueue twoQueueEnv) .new scheduleEvents := by
    refine ⟨fun _ _ => Or.inr ⟨rfl, fun k hk => by cases hk⟩, fun _ _ => ⟨trivial, fun _ _ =>
      ⟨trivial, fun _ _ => ⟨trivial, fun _ _ => trivial⟩⟩⟩⟩
  refine ⟨_, _, rfl, List.mem_singleton_self _, ⟨_, rfl⟩, ?_⟩
  exact (lazyInit_served_iff twoQueueEnv scheduleEvents _ rfl
    (noDispose_scheduleEvents.imp fun _ _ h => h.1)).1 hfinds _ (List.mem_singleton_self _)

/-- Then a job is scheduled on the second queue: the start for it returns at once,
and its queue is not there. -/
theorem lazyInit_second_queue :
    AllSteps (queueStep twoQueueEnv) (fun m e => NoDispose m e ∧ NoFailure m e) .new
        (scheduleEvents ++ [.invoke (.operation (.schedule "queue2" 1 none)) fun _ => .ok ()]) ∧
      ∃ m, run (queueStep twoQueueEnv) .new (scheduleEvents ++
          [.invoke (.operation (.schedule "queue2" 1 none)) fun _ => .ok ()]) = some m ∧
        LeavesUnserved twoQueueEnv m ∧ m.getQueue "queue2" =
          .error "queue queue2 was not instantiated yet, please run \"start()\"" := by
  refine ⟨?_, _, rfl, ⟨⟨.operation (.schedule "queue2" 1 none),
    .started "queue2" (.schedule 1 none)⟩, ?_, ?_⟩, rfl⟩
  · exact ⟨⟨trivial, fun _ => rfl⟩, fun _ _ => ⟨⟨trivial, rfl⟩, fun _ _ => ⟨⟨trivial, rfl⟩,
      fun _ _ => ⟨⟨trivial, trivial⟩, fun _ _ => ⟨⟨trivial, fun _ => rfl⟩, fun _ _ => trivial⟩⟩⟩⟩⟩
  · exact List.mem_cons_of_mem _ (List.mem_singleton_self _)
  · exact not_foundQueue_of_started rfl (by decide) (by decide)

/-! ## A start that failed -/

/-- What a caller can hope for after a start was rejected: the registry is not
started, and a start that is not disabled begins a new start of the registry. -/
def Recoverable (env : QueueEnv Input P) (m : QueueManager Input P) : Prop :=
  m.isStarted = false ∧ ∀ enabled build, enabled ≠ .bool false →
    (m.invoke env (.start enabled) build).starts.length = m.starts.length + 1

/-- In a run without `dispose`, after a start whose `waitUntilReady` or registration
failed, the registry is started, and every start returns at once. -/
theorem failed_start_stays_started (env : QueueEnv Input P) (events : List (QueueEvent Input P))
    (m : QueueManager Input P) (hrun : run (queueStep env) .new events = some m)
    (hno : AllSteps (queueStep env) NoDispose .new events) (k : ℕ) (d : RegistryStart)
    (f : StartFailure) (hk : m.starts[k]? = some d) (hd : d.phase = .rejected f)
    (hf : ∀ queueId e, f ≠ .build queueId e) :
    ¬ Recoverable env m ∧ m.isStarted = true ∧
      ∀ enabled build, m.invoke env (.start enabled) build =
        m.push (.start enabled) (.done (.ok ())) := by
  have hinv : QueueInv m := QueueInv.new.run hno hrun
  have hmem : d ∈ m.starts := List.mem_of_getElem? hk
  have hbuilt : d.built ≠ [] := by
    rcases (hinv.sound d hmem).rejected f hd with ⟨q, e, hqe⟩ | hne
    · exact absurd hqe (hf q e)
    · exact hne
  have hstarted : m.isStarted = true := by
    rw [← Bool.not_eq_false, isStarted_eq_false_iff]
    exact hinv.built d hmem hbuilt
  refine ⟨fun h => ?_, hstarted, fun enabled build => ?_⟩
  · exact absurd (hstarted.symm.trans h.1) (by simp)
  · simp only [QueueManager.invoke, QueueManager.start, hstarted, if_true]
    rfl

/-- Both queues are started, and the first never becomes ready. -/
def failedStartEvents : List (QueueEvent ℕ ℕ) :=
  [.invoke (.start (.bool true)) fun _ => .ok (), .ready 0 "queue1" (.error "connection refused"),
    .resume 0]

theorem noDispose_failedStartEvents :
    AllSteps (queueStep twoQueueEnv) NoDispose .new failedStartEvents :=
  ⟨trivial, fun _ _ => ⟨trivial, fun _ _ => ⟨trivial, fun _ _ => trivial⟩⟩⟩

/-- The start was rejected, and the next one returns at once. -/
theorem failed_start_returns :
    ∃ m, run (queueStep twoQueueEnv) .new failedStartEvents = some m ∧
      ∀ enabled build, m.invoke twoQueueEnv (.start enabled) build =
        m.push (.start enabled) (.done (.ok ())) :=
  ⟨_, rfl, (failed_start_stays_started twoQueueEnv failedStartEvents _ rfl
    noDispose_failedStartEvents 0 _ _ rfl rfl (by simp)).2.2⟩

/-- The call was rejected, yet the registry reports to be started, and cannot be
started again. -/
theorem failed_start_observed :
    ∃ m, run (queueStep twoQueueEnv) .new failedStartEvents = some m ∧
      (∃ c, m.calls[0]? = some c ∧ c.phase = .done (.error "connection refused")) ∧
      m.isStarted = true ∧ ¬ Recoverable twoQueueEnv m := by
  refine ⟨_, rfl, ⟨_, rfl, rfl⟩, rfl, fun h => ?_⟩
  exact absurd h.1 (by decide)

end SharedTsLibs.BackgroundJobs
