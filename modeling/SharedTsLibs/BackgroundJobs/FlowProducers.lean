import SharedTsLibs.BackgroundJobs.FlowOwnership

/-!
# No producer is lost

Every `FlowProducer` holds a connection, so every one the flow manager builds has
to be closed at some point: at any time it is the one the manager holds, or
`close` was called on it, or the execution of `doStart` that built it still waits
for it to become ready.

* `move_of_stepped` — every event makes a move of the ownership.
* `Attended` — every `close` and every start in progress is awaited by a call.
* `NoLeak` — every producer is accounted for.
* `KeepsProducer` — the step does not overwrite `flowProducer` while it holds a
  producer that was never closed.
* `noLeak_iff_keepsProducer` — a run loses no producer exactly when each of its
  steps meets that condition; a producer once lost is never closed.
-/

namespace SharedTsLibs.BackgroundJobs

open StepSystem

variable {Input P : Type}

/-! ## The steps of the manager -/

def FlowManager.ownership (m : FlowManager Input P) : Ownership :=
  ⟨m.flowProducer, m.producerCount, m.closed, m.starts⟩

/-- The event assigns `flowProducer`. -/
def FlowEvent.assigns : FlowEvent Input P → Bool
  | .ready _ (.ok ()) | .closed _ => true
  | _ => false

theorem ownership_start (m : FlowManager Input P) (built : Except String Unit) :
    m.ownership.Move false (m.start built).1.ownership := by
  unfold FlowManager.start
  split
  · exact .stay
  · split
    · exact .stay
    · cases built with
      | ok => exact .build
      | error e => exact .fail

theorem ownership_awaitStart (m : FlowManager Input P) (request : FlowRequest Input P)
    (built : Except String Unit) (next : Option (ProducerCall P)) :
    m.ownership.Move false (m.awaitStart request built next).ownership := by
  have hstart := ownership_start m built
  unfold FlowManager.awaitStart
  split
  · next m' hm =>
    rw [hm] at hstart
    exact hstart
  · next m' k hm =>
    rw [hm] at hstart
    exact hstart

theorem ownership_closeProducer (m : FlowManager Input P) :
    m.ownership.Move false m.closeProducer.1.ownership := by
  unfold FlowManager.closeProducer
  split
  · exact .stay
  · next p hp => exact .close hp

theorem ownership_callProducer (m : FlowManager Input P) (i : ℕ) (c : FlowCall Input P)
    (call : ProducerCall P) : (m.callProducer i c call).ownership = m.ownership := by
  unfold FlowManager.callProducer
  split <;> rfl

theorem move_of_stepped {env : FlowEnv Input P} {m m' : FlowManager Input P}
    {e : FlowEvent Input P} (h : Stepped env m e m') :
    m.ownership.Move e.assigns m'.ownership := by
  cases h with
  | started => exact ownership_awaitStart m _ _ _
  | disposeAwaits => exact .stay
  | disposes => exact ownership_closeProducer m
  | returns => exact .stay
  | @ready k p result hk =>
    cases result with
    | ok => exact .hold hk
    | error e => exact .giveUp hk
  | startClosed hk => exact .reject hk
  | resume => exact .stay
  | resumeDispose => exact ownership_closeProducer m
  | proceed =>
    rw [ownership_callProducer]
    exact .stay
  | reply => exact .stay
  | closed => exact .drop

/-! ## Calls that wait -/

/-- A producer that is held but closed is about to be dropped by a `dispose`, and
an execution of `doStart` that has not settled is awaited by the call that began
it. -/
structure Attended (m : FlowManager Input P) : Prop where
  closing : ∀ p, m.flowProducer = some p → p ∈ m.closed →
    ∃ c ∈ m.calls, c.phase = .awaitingClose p
  waiting : ∀ (k : ℕ) (d : DoStart), m.starts[k]? = some d → d.result = none →
    ∃ c ∈ m.calls, ∃ next, c.phase = .awaitingStart k next

namespace Attended

variable {m : FlowManager Input P}

theorem push (h : Attended m) (request : FlowRequest Input P) (phase : CallPhase P) :
    Attended (m.push request phase) := by
  refine ⟨fun p hp hc => ?_, fun k d hk hd => ?_⟩
  · obtain ⟨c, hc, hphase⟩ := h.closing p hp hc
    exact ⟨c, List.mem_append_left _ hc, hphase⟩
  · obtain ⟨c, hc, hphase⟩ := h.waiting k d hk hd
    exact ⟨c, List.mem_append_left _ hc, hphase⟩

/-- A call goes on that attends to nothing in progress. -/
theorem setPhase (h : Attended m) {i : ℕ} {c : FlowCall Input P} (hi : m.calls[i]? = some c)
    (hclose : ∀ p, c.phase = .awaitingClose p → m.flowProducer ≠ some p)
    (hstart : ∀ (k : ℕ) next, c.phase = .awaitingStart k next →
      ∀ d, m.starts[k]? = some d → d.result ≠ none)
    (phase : CallPhase P) : Attended (m.setPhase i c phase) := by
  refine ⟨fun p hp hc => ?_, fun k d hk hd => ?_⟩
  · exact Slots.exists_mem_set hi (fun hphase => hclose p hphase hp) (h.closing p hp hc)
  · refine Slots.exists_mem_set hi ?_ (h.waiting k d hk hd)
    rintro ⟨next, hphase⟩
    exact hstart k next hphase d hk hd

/-- A call goes on that is at no `await` of a start or of a `close`. -/
theorem setPhase_idle (h : Attended m) {i : ℕ} {c : FlowCall Input P} (hi : m.calls[i]? = some c)
    (hclose : ∀ p, c.phase ≠ .awaitingClose p) (hstart : ∀ k next, c.phase ≠ .awaitingStart k next)
    (phase : CallPhase P) : Attended (m.setPhase i c phase) :=
  h.setPhase hi (fun p hp => absurd hp (hclose p)) (fun k next hk => absurd hk (hstart k next))
    phase

theorem awaitStart (h : Attended m) (request : FlowRequest Input P) (built : Except String Unit)
    (next : Option (ProducerCall P)) : Attended (m.awaitStart request built next) := by
  unfold FlowManager.awaitStart FlowManager.start
  cases hp : m.flowProducer with
  | some p => exact h.push _ _
  | none =>
    cases hk : m.startPromise with
    | some k => exact h.push _ _
    | none =>
      refine ⟨fun p hheld => ?_, fun k d hd hres => ?_⟩
      · cases built <;> exact absurd (hp.symm.trans hheld) (by simp)
      · have hstarts : ∃ d', (m.starts ++ [d'])[k]? = some d := by
          cases built <;> exact ⟨_, hd⟩
        have hcalls : ∀ c ∈ m.calls ++ [⟨request, .awaitingStart m.starts.length next⟩],
            c ∈ (FlowManager.push { m.doStart built with startPromise := some m.starts.length }
              request (.awaitingStart m.starts.length next)).calls := by
          cases built <;> exact fun c hc => hc
        obtain ⟨d', hd'⟩ := hstarts
        rcases Slots.getElem?_push_some hd' with ⟨rfl, -⟩ | ⟨-, hold⟩
        · exact ⟨_, hcalls _ (List.mem_append_right _ (List.mem_singleton_self _)), next, rfl⟩
        · obtain ⟨c, hc, hphase⟩ := h.waiting k d hold hres
          exact ⟨c, hcalls c (List.mem_append_left _ hc), hphase⟩

/-- The producer held is closed by a call that now awaits it. -/
theorem closeHeld (h : Attended m) {p : ℕ} (hp : m.flowProducer = some p)
    {calls : List (FlowCall Input P)} (hnew : ∃ c ∈ calls, c.phase = .awaitingClose p)
    (hold : ∀ (k : ℕ), (∃ c ∈ m.calls, ∃ next, c.phase = .awaitingStart k next) →
      ∃ c ∈ calls, ∃ next, c.phase = .awaitingStart k next) :
    Attended { m with closed := m.closed ++ [p], calls := calls } := by
  refine ⟨fun q hq _ => ?_, fun k d hk hd => hold k (h.waiting k d hk hd)⟩
  obtain rfl : p = q := Option.some.inj (hp.symm.trans hq)
  exact hnew

theorem closeProducer_push (h : Attended m) (request : FlowRequest Input P) :
    Attended (m.closeProducer.1.push request m.closeProducer.2) := by
  unfold FlowManager.closeProducer
  split
  · exact h.push _ _
  · next p hp =>
    refine h.closeHeld hp ⟨_, List.mem_append_right _ (List.mem_singleton_self _), rfl⟩ ?_
    rintro k ⟨c, hc, hphase⟩
    exact ⟨c, List.mem_append_left _ hc, hphase⟩

theorem closeProducer_setPhase (h : Attended m) {i k : ℕ} {c : FlowCall Input P}
    (hi : m.calls[i]? = some c) (hc : c.phase = .disposeAwaitingStart k) :
    Attended (m.closeProducer.1.setPhase i c m.closeProducer.2) := by
  unfold FlowManager.closeProducer
  split
  · exact h.setPhase_idle hi (by simp [hc]) (by simp [hc]) _
  · next p hp =>
    refine h.closeHeld hp ⟨_, Slots.mem_set hi, rfl⟩ fun j hex => ?_
    refine Slots.exists_mem_set hi ?_ hex
    rintro ⟨next, hphase⟩
    rw [hc] at hphase
    cases hphase

theorem startReady (h : Attended m) (ho : m.ownership.Consistent) {k p : ℕ}
    (hk : m.starts[k]? = some (.awaitingReady p)) (result : Except String Unit) :
    Attended (m.startReady k p result) := by
  cases result with
  | ok =>
    refine ⟨fun q hq hc => ?_, fun j d hj hd => ?_⟩
    · obtain rfl : p = q := Option.some.inj hq
      exact absurd hc (ho.awaiting_open k p hk)
    · rcases Slots.getElem?_set_some hk hj with ⟨rfl, rfl⟩ | ⟨-, hj'⟩
      · cases hd
      · exact h.waiting j d hj' hd
  | error e =>
    refine ⟨fun q hq hc => ?_, fun j d hj hd => ?_⟩
    · rcases List.mem_append.1 hc with hc | hc
      · exact h.closing q hq hc
      · exact absurd (List.mem_singleton.1 hc).symm (ho.ne_of_held hk hq)
    · rcases Slots.getElem?_set_some hk hj with ⟨rfl, -⟩ | ⟨-, hj'⟩
      · exact h.waiting j _ hk rfl
      · exact h.waiting j d hj' hd

theorem startClosed (h : Attended m) {k p : ℕ} {e : String}
    (hk : m.starts[k]? = some (.awaitingClose p e)) : Attended (m.startClosed k p e) := by
  refine ⟨h.closing, fun j d hj hd => ?_⟩
  rcases Slots.getElem?_set_some hk hj with ⟨rfl, rfl⟩ | ⟨-, hj'⟩
  · cases hd
  · exact h.waiting j d hj' hd

theorem callProducer (h : Attended m) {i : ℕ} {c : FlowCall Input P} {call : ProducerCall P}
    (hi : m.calls[i]? = some c) (hc : c.phase = .started call) :
    Attended (m.callProducer i c call) := by
  have hset := h.setPhase_idle hi (by simp [hc]) (by simp [hc])
  unfold FlowManager.callProducer
  split
  · exact hset _
  · exact ⟨(hset .awaitingReply).closing, (hset .awaitingReply).waiting⟩

theorem disposed (h : Attended m) {i p : ℕ} {c : FlowCall Input P} (hi : m.calls[i]? = some c)
    (hc : c.phase = .awaitingClose p) : Attended (m.disposed i c) := by
  refine ⟨fun q hq => absurd hq.symm (Option.some_ne_none q), fun k d hk hd => ?_⟩
  refine Slots.exists_mem_set hi ?_ (h.waiting k d hk hd)
  rintro ⟨next, hphase⟩
  rw [hc] at hphase
  cases hphase

theorem of_stepped {env : FlowEnv Input P} {m' : FlowManager Input P} {e : FlowEvent Input P}
    (h : Attended m) (ho : m.ownership.Consistent) (hs : Stepped env m e m') : Attended m' := by
  cases hs with
  | started => exact h.awaitStart _ _ _
  | disposeAwaits => exact h.push _ _
  | disposes => exact h.closeProducer_push _
  | returns => exact h.push _ _
  | ready hk => exact h.startReady ho hk _
  | startClosed hk => exact h.startClosed hk
  | resume hi hc hk hd =>
    have hset := h.setPhase hi (by simp [hc]) (fun j next hp d' hj => ?_)
    · exact ⟨(hset _).closing, (hset _).waiting⟩
    · rw [hc] at hp
      cases hp
      rw [hk] at hj
      cases hj
      rw [hd]
      exact Option.some_ne_none _
  | resumeDispose hi hc => exact h.closeProducer_setPhase hi hc
  | proceed hi hc => exact h.callProducer hi hc
  | reply hi hc =>
    exact h.setPhase_idle hi (by simp [hc]) (by simp [hc]) _
  | closed hi hc => exact h.disposed hi hc

end Attended

/-! ## Runs -/

/-- Every producer built is held, or closed, or awaited by the `doStart` that built
it. -/
def NoLeak (m : FlowManager Input P) : Prop :=
  ∀ p < m.producerCount,
    m.flowProducer = some p ∨ p ∈ m.closed ∨ DoStart.awaitingReady p ∈ m.starts

/-- Every call has settled. -/
def Settled (m : FlowManager Input P) : Prop := ∀ c ∈ m.calls, ∃ result, c.phase = .done result

/-- The manager reports to be started with a producer on which `close` was called. -/
def StartedOnClosed (m : FlowManager Input P) : Prop :=
  m.isStarted = true ∧ ∃ p, m.flowProducer = some p ∧ p ∈ m.closed

/-- The step does not overwrite `flowProducer` while it holds a producer that was
never closed: a start that gets ready finds none, and the `close` a `dispose`
awaited leaves none. -/
def KeepsProducer (m : FlowManager Input P) (e : FlowEvent Input P) : Prop :=
  e.assigns = true → ∀ p, m.flowProducer = some p → p ∈ m.closed

instance (m : FlowManager Input P) (e : FlowEvent Input P) : Decidable (KeepsProducer m e) :=
  inferInstanceAs (Decidable (e.assigns = true → ∀ p ∈ m.flowProducer, p ∈ m.closed))

/-- The two invariants of all runs. -/
structure FlowInv (m : FlowManager Input P) : Prop where
  consistent : m.ownership.Consistent
  attended : Attended m

theorem flowInv_new : FlowInv (FlowManager.new : FlowManager Input P) where
  consistent := by
    refine ⟨?_, ?_, ?_, ?_, ?_⟩ <;> simp [FlowManager.new, FlowManager.ownership,
      Ownership.producerAt]
  attended := by
    refine ⟨?_, ?_⟩ <;> simp [FlowManager.new]

variable {env : FlowEnv Input P}

theorem FlowInv.step {m m' : FlowManager Input P} {e : FlowEvent Input P} (h : FlowInv m)
    (hs : flowStep env m e = some m') : FlowInv m' :=
  have hst := stepped_of_flowStep hs
  ⟨h.consistent.move (move_of_stepped hst), h.attended.of_stepped h.consistent hst⟩

theorem FlowInv.run {m m' : FlowManager Input P} {events : List (FlowEvent Input P)}
    (h : FlowInv m) (hrun : run (flowStep env) m events = some m') : FlowInv m' :=
  invariant_run (C := fun _ _ => True) (fun _ _ _ hm _ hs => hm.step hs) h (allSteps_true _ _) hrun

theorem leaked_run {m m' : FlowManager Input P} {events : List (FlowEvent Input P)} {p : ℕ}
    (h : m.ownership.Leaked p) (hrun : run (flowStep env) m events = some m') :
    m'.ownership.Leaked p :=
  invariant_run (C := fun _ _ => True) (I := fun m => m.ownership.Leaked p)
    (fun _ _ _ hm _ hs => hm.move (move_of_stepped (stepped_of_flowStep hs))) h
    (allSteps_true _ _) hrun

/-- From a state that has lost no producer, a run loses none exactly when each of
its steps keeps the producer held. -/
theorem noLeak_run_iff {m m' : FlowManager Input P} {events : List (FlowEvent Input P)}
    (hinv : FlowInv m) (hm : NoLeak m) (hrun : run (flowStep env) m events = some m') :
    NoLeak m' ↔ AllSteps (flowStep env) KeepsProducer m events := by
  induction events generalizing m with
  | nil =>
    cases hrun
    exact ⟨fun _ => trivial, fun _ => hm⟩
  | cons e events ih =>
    obtain ⟨m₁, hs, hrun₁⟩ := run_cons_eq_some.1 hrun
    have hmove := move_of_stepped (stepped_of_flowStep hs)
    by_cases hkeep : KeepsProducer m e
    · have hno : m.ownership.NoLeak := hm
      rw [ih (hinv.step hs) (hno.move hkeep hmove) hrun₁]
      refine ⟨fun h => ⟨hkeep, fun m₂ hs₂ => ?_⟩, fun h => h.2 m₁ hs⟩
      rw [hs] at hs₂
      cases hs₂
      exact h
    · refine iff_of_false (fun hno => ?_) fun h => hkeep h.1
      obtain ⟨hassigns, p, hp, hopen⟩ : e.assigns = true ∧ ∃ p, m.flowProducer = some p ∧
          p ∉ m.closed := by
        simpa [KeepsProducer] using hkeep
      rw [hassigns] at hmove
      have hleaked := Ownership.leaked_of_move hinv.consistent hp hopen hmove
      exact Ownership.not_noLeak_of_leaked (leaked_run hleaked hrun₁) hno

/-- Once every call has settled no `doStart` is in progress. -/
theorem not_awaited_of_settled {m : FlowManager Input P} (h : FlowInv m) (hset : Settled m)
    (p : ℕ) : DoStart.awaitingReady p ∉ m.starts := by
  intro hmem
  obtain ⟨k, hk⟩ := List.mem_iff_getElem?.1 hmem
  obtain ⟨c, hc, next, hphase⟩ := h.attended.waiting k _ hk rfl
  obtain ⟨result, hdone⟩ := hset c hc
  rw [hphase] at hdone
  cases hdone

/-- Once every call has settled no closed producer is held. -/
theorem not_startedOnClosed_of_settled {m : FlowManager Input P} (h : FlowInv m)
    (hset : Settled m) : ¬ StartedOnClosed m := by
  rintro ⟨-, p, hp, hclosed⟩
  obtain ⟨c, hc, hphase⟩ := h.attended.closing p hp hclosed
  obtain ⟨result, hdone⟩ := hset c hc
  rw [hphase] at hdone
  cases hdone

/-- A run accounts for every producer exactly when each of its steps keeps the one
held; and when all calls have settled, accounting for a producer means that it is
held or closed, and the one held is open. -/
theorem noLeak_iff_keepsProducer (env : FlowEnv Input P) (events : List (FlowEvent Input P))
    (m : FlowManager Input P) (hrun : run (flowStep env) .new events = some m) :
    (NoLeak m ∧ (Settled m → ¬ StartedOnClosed m) ↔
      AllSteps (flowStep env) KeepsProducer .new events) ∧
    (Settled m → (NoLeak m ↔ ∀ p < m.producerCount, m.flowProducer = some p ∨ p ∈ m.closed)) := by
  have hinv : FlowInv m := flowInv_new.run hrun
  refine ⟨?_, fun hset => ?_⟩
  · rw [and_iff_left (not_startedOnClosed_of_settled hinv)]
    exact noLeak_run_iff flowInv_new (fun p hp => absurd hp (Nat.not_lt_zero p)) hrun
  · have hnone := not_awaited_of_settled hinv hset
    refine forall_congr' fun p => imp_congr_right fun _ => ?_
    rw [or_iff_left (hnone p)]

/-- A manager of no queue. -/
def emptyEnv : FlowEnv Unit Unit where
  libs := .shallow
  registry := .new []
  isTest := false
  lazyInitEnabled := none

/-- A start whose producer gets ready. -/
def startEvents (call start : ℕ) : List (FlowEvent Unit Unit) :=
  [.invoke .start (.ok ()) 0, .ready start (.ok ()), .resume call]

/-- Two calls of `dispose` overlap, and when both are through the manager is started again. -/
def restartEvents : List (FlowEvent Unit Unit) :=
  startEvents 0 0 ++ [.invoke .dispose (.ok ()) 0, .invoke .dispose (.ok ()) 0, .closed 1,
    .closed 2] ++ startEvents 3 1

theorem noLeak_after_restart :
    ∃ m, run (flowStep emptyEnv) .new restartEvents = some m ∧ m.closed = [0, 0] ∧
      NoLeak m ∧ ¬ StartedOnClosed m ∧
      ∀ p < m.producerCount, m.flowProducer = some p ∨ p ∈ m.closed := by
  have hkeep : AllSteps (flowStep emptyEnv) KeepsProducer .new restartEvents := by decide
  have hstate : ∃ m, run (flowStep emptyEnv) .new restartEvents = some m ∧ m.closed = [0, 0] ∧
      m.calls = [.start, .dispose, .dispose, .start].map fun request =>
        ⟨request, .done (.ok ())⟩ := ⟨_, rfl, rfl, rfl⟩
  obtain ⟨m, hrun, htwice, hcalls⟩ := hstate
  obtain ⟨hsafe, hleak⟩ := noLeak_iff_keepsProducer emptyEnv restartEvents m hrun
  obtain ⟨hno, hclosed⟩ := hsafe.2 hkeep
  have hsettled : Settled m := by
    intro c hc
    rw [hcalls] at hc
    obtain ⟨request, -, rfl⟩ := List.mem_map.1 hc
    exact ⟨_, rfl⟩
  exact ⟨m, hrun, htwice, hno, hclosed hsettled, (hleak hsettled).1 hno⟩

/-- Two calls of `dispose` close the producer of a started manager; when the first
is through the manager is started again, and then the second is through. -/
def disposeTwiceEvents : List (FlowEvent Unit Unit) :=
  startEvents 0 0 ++ [.invoke .dispose (.ok ()) 0, .invoke .dispose (.ok ()) 0, .closed 1] ++
    startEvents 3 1 ++ [.closed 2]

/-- The second producer is dropped without having been closed. -/
theorem dispose_twice_leaks :
    ∃ m, run (flowStep emptyEnv) .new disposeTwiceEvents = some m ∧ Settled m ∧
      m.producerCount = 2 ∧ m.flowProducer = none ∧ m.closed = [0, 0] ∧ ¬ NoLeak m := by
  refine ⟨_, rfl, ?_, rfl, rfl, rfl, fun hno => ?_⟩
  · intro c hc
    have hdone : c ∈ ([.start, .dispose, .dispose, .start].map
        fun request => (⟨request, .done (.ok ())⟩ : FlowCall Unit Unit)) := hc
    obtain ⟨request, -, rfl⟩ := List.mem_map.1 hdone
    exact ⟨_, rfl⟩
  · rcases hno 1 (by decide) with h | h | h
    · exact absurd h (by decide)
    · exact absurd h (by decide)
    · exact absurd h (by decide)

end SharedTsLibs.BackgroundJobs
