import SharedTsLibs.Lib.OrderedMap
import SharedTsLibs.Lib.StepSystem
import Mathlib.Data.List.Perm.Basic
import Mathlib.Data.List.Count

/-!
# The job spy

`BackgroundJobProcessorSpy` lets a test wait for a job to reach a state.  It
keeps the last result of every job under a key, and the list of waiters
(`promises`) whose job has not come yet: a waiter registers only when no stored
result answers it, and `addJob` resolves the waiters the new result answers and
removes them from the list, index by index.

* `Spy`, `waitForJobWithId`, `waitForJob`, `addJob` — the class, state passed
  explicitly.  A promise is named by the number it was created under, and
  `resolved` is the log of the `resolve` calls made so far.
* `AddJobExact` — what a call of `addJob` is for: it resolves the waiters that
  accept the job and leaves the others pending, in order.
* `addJob_exact_iff` — the code does that exactly when at most one pending
  waiter accepts the job: `splice` is called with the indexes the waiters had
  before the first removal.
-/

namespace SharedTsLibs.BackgroundJobs

/-! ## Data -/

/-- The states a job can be awaited in. -/
inductive JobSpyState where
  | completed
  | failed
  | scheduled
  deriving DecidableEq, Repr

/-- The part of a BullMQ job the spy reads; `rest` is everything else that
`{ ...job }` copies. -/
structure SafeJob (Data Rest : Type) where
  id : Option String
  data : Data
  rest : Rest
  deriving DecidableEq, Repr

/-- What the spy uses of `@lokalise/node-core`.  A deep clone equals the value
it copies, and `removeNullish` drops the null entries and no others. -/
structure NodeCore (Data : Type) where
  deepClone : Data → Data
  removeNullish : List (Option ℕ) → List ℕ
  deepClone_eq : ∀ d, deepClone d = d
  removeNullish_eq : ∀ l, removeNullish l = l.filterMap id

/-- A stored result. -/
structure JobProcessingResult (Data Rest : Type) where
  job : SafeJob Data Rest
  state : JobSpyState

/-- A pending waiter.  `promise` is the number of the promise it will resolve. -/
structure SpyPromise (Data Rest : Type) where
  selector : SafeJob Data Rest → Bool
  awaitedState : JobSpyState
  promise : ℕ

/-- The state of the spy.  `promiseCount` promises have been created, and
`resolved` lists the `resolve` calls made on them. -/
structure Spy (Data Rest : Type) where
  jobResults : List (String × JobProcessingResult Data Rest)
  promises : List (SpyPromise Data Rest)
  promiseCount : ℕ
  resolved : List (ℕ × SafeJob Data Rest)

variable {Data Rest : Type}

/-- A spy just constructed. -/
def Spy.new : Spy Data Rest := ⟨[], [], 0, []⟩

/-! ## The class -/

/-- `getJobResultKey`: the two final states share a key. -/
def getJobResultKey (jobId : String) (state : JobSpyState) : String :=
  match state with
  | .failed | .completed => jobId ++ "#final"
  | .scheduled => jobId ++ "#scheduled"

/-- What a wait call returns: a promise already resolved with a stored job, or
the number of the pending one. -/
inductive Wait (Data Rest : Type) where
  | resolved (job : SafeJob Data Rest)
  | pending (promise : ℕ)

/-- `registerPromise`. -/
def registerPromise (s : Spy Data Rest) (selector : SafeJob Data Rest → Bool)
    (state : JobSpyState) : Spy Data Rest × Wait Data Rest :=
  ({ s with
      promises := s.promises ++ [⟨selector, state, s.promiseCount⟩]
      promiseCount := s.promiseCount + 1 },
    .pending s.promiseCount)

/-- `waitForJobWithId`; an absent or empty id is the `throw`. -/
def waitForJobWithId (s : Spy Data Rest) (id : Option String) (awaitedState : JobSpyState) :
    Except String (Spy Data Rest × Wait Data Rest) :=
  match id with
  | none => .error "Job id is not defined or empty"
  | some id =>
      if id = "" then .error "Job id is not defined or empty"
      else
        match OrderedMap.get? s.jobResults (getJobResultKey id awaitedState) with
        | some result =>
            if result.state = awaitedState then .ok (s, .resolved result.job)
            else .ok (registerPromise s (fun job => job.id == some id) awaitedState)
        | none => .ok (registerPromise s (fun job => job.id == some id) awaitedState)

/-- `waitForJob`. -/
def waitForJob (s : Spy Data Rest) (jobSelector : Data → Bool) (awaitedState : JobSpyState) :
    Spy Data Rest × Wait Data Rest :=
  match (s.jobResults.map Prod.snd).find?
      (fun spy => jobSelector spy.job.data && spy.state == awaitedState) with
  | some result => (s, .resolved result.job)
  | none => registerPromise s (fun job => jobSelector job.data) awaitedState

/-- The test `addJob` makes of a waiter. -/
def SpyPromise.accepts (job : SafeJob Data Rest) (state : JobSpyState)
    (p : SpyPromise Data Rest) : Bool :=
  p.selector job && state == p.awaitedState

/-- `addJob` past its early return: store the result, resolve the waiters that
accept it while collecting their indexes, then `splice` the indexes out one
after the other. -/
def addJobWithId (nc : NodeCore Data) (s : Spy Data Rest) (job : SafeJob Data Rest) (id : String)
    (state : JobSpyState) : Spy Data Rest :=
  let clonedJob := { job with data := nc.deepClone job.data }
  let jobResults := OrderedMap.set (getJobResultKey id state) ⟨clonedJob, state⟩ s.jobResults
  if s.promises.length = 0 then { s with jobResults }
  else
    let indexes := s.promises.mapIdx fun index promise =>
      if promise.accepts clonedJob state then some index else none
    let resolutions := (s.promises.filter (·.accepts clonedJob state)).map fun promise =>
      (promise.promise, clonedJob)
    { s with
      jobResults
      promises := (nc.removeNullish indexes).foldl (fun ps index => ps.eraseIdx index) s.promises
      resolved := s.resolved ++ resolutions }

/-- `addJob`; a job without an id is ignored. -/
def addJob (nc : NodeCore Data) (s : Spy Data Rest) (job : SafeJob Data Rest)
    (state : JobSpyState) : Spy Data Rest :=
  match job.id with
  | none => s
  | some id => if id = "" then s else addJobWithId nc s job id state

/-- A call on the spy, `clear` apart. -/
inductive SpyCall (Data Rest : Type) where
  | waitForJobWithId (id : Option String) (awaitedState : JobSpyState)
  | waitForJob (jobSelector : Data → Bool) (awaitedState : JobSpyState)
  | addJob (job : SafeJob Data Rest) (state : JobSpyState)

/-- The spy after a call; a call that throws leaves it as it was. -/
def spyStep (nc : NodeCore Data) (s : Spy Data Rest) : SpyCall Data Rest → Option (Spy Data Rest)
  | .waitForJobWithId id state =>
      match waitForJobWithId s id state with
      | .ok (s', _) => some s'
      | .error _ => some s
  | .waitForJob selector state => some (waitForJob s selector state).1
  | .addJob job state => some (addJob nc s job state)

/-! ## What `addJob` is for -/

/-- A job `addJob` does not ignore. -/
def SafeJob.HasId (job : SafeJob Data Rest) : Prop := ∃ id, job.id = some id ∧ id ≠ ""

/-- A call of `addJob` resolves exactly the pending waiters that accept the job,
with that job, and leaves exactly the others pending, in their order. -/
def AddJobExact (nc : NodeCore Data) (s : Spy Data Rest) : SpyCall Data Rest → Prop
  | .addJob job state => job.HasId →
      (addJob nc s job state).resolved =
        s.resolved ++ (s.promises.filter (·.accepts job state)).map (fun p => (p.promise, job)) ∧
      (addJob nc s job state).promises = s.promises.filter (fun p => !p.accepts job state)
  | _ => True

/-- A call of `addJob` finds at most one pending waiter that accepts the job. -/
def AtMostOneAccepts (s : Spy Data Rest) : SpyCall Data Rest → Prop
  | .addJob job state => job.HasId → s.promises.countP (·.accepts job state) ≤ 1
  | _ => True

/-- No waiter is lost and none is resolved twice: every promise created so far is
either pending, once, or resolved, once. -/
def Conserved (s : Spy Data Rest) : Prop :=
  (s.promises.map (·.promise) ++ s.resolved.map Prod.fst).Perm (List.range s.promiseCount)

/-! ## Removing by index -/

/-- The indexes at which `p` holds, in increasing order. -/
def matchIndexes {α : Type} (p : α → Bool) : List α → List ℕ
  | [] => []
  | a :: l => (if p a then [0] else []) ++ (matchIndexes p l).map (· + 1)

theorem filterMap_mapIdx_eq_matchIndexes {α : Type} (p : α → Bool) (l : List α) :
    (l.mapIdx fun i a => if p a then some i else none).filterMap id = matchIndexes p l := by
  induction l with
  | nil => rfl
  | cons a l ih =>
    have hshift : l.mapIdx (fun i x => if p x then some (i + 1) else none)
        = (l.mapIdx fun i x => if p x then some i else none).map (Option.map (· + 1)) := by
      rw [List.mapIdx_eq_iff]
      intro i
      rw [List.getElem?_map, List.getElem?_mapIdx]
      cases l[i]? with
      | none => rfl
      | some x => by_cases hx : p x = true <;> simp [hx]
    have htail : ((l.mapIdx fun i x => if p x then some i else none).map
        (Option.map (· + 1))).filterMap id = (matchIndexes p l).map (· + 1) := by
      rw [← ih, List.filterMap_map, List.map_filterMap]
      rfl
    rw [List.mapIdx_cons, hshift, matchIndexes]
    by_cases ha : p a = true
    · simp [ha, ← htail]
    · simp [ha, ← htail]

/-- Indexes that all skip the head leave it in place. -/
theorem foldl_eraseIdx_succ {α : Type} (a : α) (l : List α) (is : List ℕ) :
    (is.map (· + 1)).foldl (fun ps i => ps.eraseIdx i) (a :: l)
      = a :: is.foldl (fun ps i => ps.eraseIdx i) l := by
  induction is generalizing l with
  | nil => rfl
  | cons i is ih => rw [List.map_cons, List.foldl_cons, List.eraseIdx_cons_succ, ih,
      List.foldl_cons]

/-- One removal too late: with every index one too high, the first match stays. -/
theorem exists_mem_foldl_eraseIdx_succ {α : Type} {p : α → Bool} {l : List α}
    (h : l.countP p ≠ 0) :
    ∃ x ∈ ((matchIndexes p l).map (· + 1)).foldl (fun ps i => ps.eraseIdx i) l, p x = true := by
  induction l with
  | nil => simp at h
  | cons a l ih =>
    rw [foldl_eraseIdx_succ]
    by_cases ha : p a = true
    · exact ⟨a, List.mem_cons_self, ha⟩
    · rw [matchIndexes, if_neg ha, List.nil_append]
      rw [List.countP_cons_of_neg ha] at h
      obtain ⟨x, hx, hpx⟩ := ih h
      exact ⟨x, List.mem_cons_of_mem a hx, hpx⟩

/-- Splicing the match indexes out, left to right, keeps exactly the non-matches
when and only when there is at most one match. -/
theorem foldl_eraseIdx_matchIndexes_iff {α : Type} (p : α → Bool) (l : List α) :
    (matchIndexes p l).foldl (fun ps i => ps.eraseIdx i) l = l.filter (fun a => !p a)
      ↔ l.countP p ≤ 1 := by
  induction l with
  | nil => simp [matchIndexes]
  | cons a l ih =>
    by_cases ha : p a = true
    · rw [matchIndexes, if_pos ha, List.singleton_append, List.foldl_cons,
        List.eraseIdx_cons_zero, List.countP_cons_of_pos ha, List.filter_cons_of_neg (by simp [ha])]
      have hle : l.countP p + 1 ≤ 1 ↔ l.countP p = 0 := by omega
      rw [hle]
      constructor
      · intro h
        by_contra hne
        obtain ⟨x, hx, hpx⟩ := exists_mem_foldl_eraseIdx_succ hne
        rw [h, List.mem_filter] at hx
        simp [hpx] at hx
      · intro h
        have hnone : ∀ x ∈ l, ¬ p x = true := List.countP_eq_zero.1 h
        have hidx : matchIndexes p l = [] := by
          clear ih hle h
          induction l with
          | nil => rfl
          | cons b l ihl =>
            rw [matchIndexes, if_neg (hnone b List.mem_cons_self),
              ihl fun x hx => hnone x (List.mem_cons_of_mem b hx)]
            rfl
        rw [hidx]
        exact (List.filter_eq_self.2 fun x hx => by simpa using hnone x hx).symm
    · rw [matchIndexes, if_neg ha, List.nil_append, foldl_eraseIdx_succ,
        List.filter_cons_of_pos (by simpa using ha), List.countP_cons_of_neg ha,
        List.cons_inj_right, ih]

/-! ## One call -/

theorem addJob_of_hasId (nc : NodeCore Data) (s : Spy Data Rest) {job : SafeJob Data Rest}
    (h : job.HasId) (state : JobSpyState) :
    ∃ id, addJob nc s job state = addJobWithId nc s job id state := by
  obtain ⟨id, hid, hne⟩ := h
  exact ⟨id, by rw [addJob, hid]; exact if_neg hne⟩

theorem addJobWithId_promises (nc : NodeCore Data) (s : Spy Data Rest) (job : SafeJob Data Rest)
    (id : String) (state : JobSpyState) :
    (addJobWithId nc s job id state).promises =
      (matchIndexes (·.accepts job state) s.promises).foldl (fun ps i => ps.eraseIdx i)
        s.promises := by
  unfold addJobWithId
  by_cases hlen : s.promises.length = 0
  · rw [if_pos hlen]
    have hnil : s.promises = [] := List.length_eq_zero_iff.1 hlen
    simp [hnil, matchIndexes]
  · rw [if_neg hlen]
    simp only [nc.deepClone_eq, nc.removeNullish_eq, filterMap_mapIdx_eq_matchIndexes]

theorem addJobWithId_resolved (nc : NodeCore Data) (s : Spy Data Rest) (job : SafeJob Data Rest)
    (id : String) (state : JobSpyState) :
    (addJobWithId nc s job id state).resolved =
      s.resolved ++ (s.promises.filter (·.accepts job state)).map fun p => (p.promise, job) := by
  unfold addJobWithId
  by_cases hlen : s.promises.length = 0
  · rw [if_pos hlen]
    have hnil : s.promises = [] := List.length_eq_zero_iff.1 hlen
    simp [hnil]
  · rw [if_neg hlen]
    simp only [nc.deepClone_eq]

theorem addJob_promiseCount (nc : NodeCore Data) (s : Spy Data Rest) (job : SafeJob Data Rest)
    (state : JobSpyState) : (addJob nc s job state).promiseCount = s.promiseCount := by
  unfold addJob addJobWithId
  split
  · rfl
  · split
    · rfl
    · simp only []
      split <;> rfl

/-- A call of `addJob` does what it is for exactly when at most one pending
waiter accepts the job. -/
theorem addJob_exact_iff (nc : NodeCore Data) (s : Spy Data Rest) (call : SpyCall Data Rest) :
    AddJobExact nc s call ↔ AtMostOneAccepts s call := by
  cases call with
  | waitForJobWithId id state => exact Iff.rfl
  | waitForJob selector state => exact Iff.rfl
  | addJob job state =>
    refine forall_congr' fun hid => ?_
    obtain ⟨id, hadd⟩ := addJob_of_hasId nc s hid state
    rw [hadd, addJobWithId_resolved, addJobWithId_promises, and_iff_right rfl]
    exact foldl_eraseIdx_matchIndexes_iff (·.accepts job state) s.promises

/-! ## Runs -/

theorem conserved_new : Conserved (Spy.new : Spy Data Rest) := List.Perm.refl _

/-- Registering a waiter adds its promise, pending. -/
theorem conserved_registerPromise {s : Spy Data Rest} (hs : Conserved s)
    (selector : SafeJob Data Rest → Bool) (state : JobSpyState) :
    Conserved (registerPromise s selector state).1 := by
  unfold Conserved registerPromise at *
  simp only [List.map_append, List.map_cons, List.map_nil, List.range_succ, List.append_assoc]
  refine List.Perm.trans (List.Perm.append_left _ List.perm_append_comm) ?_
  rw [← List.append_assoc]
  exact hs.append_right _

theorem conserved_waitForJobWithId {s s' : Spy Data Rest} {w : Wait Data Rest} (hs : Conserved s)
    {id : Option String} {state : JobSpyState}
    (h : waitForJobWithId s id state = .ok (s', w)) : Conserved s' := by
  unfold waitForJobWithId at h
  split at h
  · cases h
  · split at h
    · cases h
    · split at h
      · split at h
        · cases h; exact hs
        · cases h; exact conserved_registerPromise hs _ _
      · cases h; exact conserved_registerPromise hs _ _

theorem conserved_waitForJob {s : Spy Data Rest} (hs : Conserved s) (selector : Data → Bool)
    (state : JobSpyState) : Conserved (waitForJob s selector state).1 := by
  unfold waitForJob
  split
  · exact hs
  · exact conserved_registerPromise hs _ _

/-- An exact call of `addJob` moves the waiters it resolves from one list to the
other. -/
theorem conserved_addJob {nc : NodeCore Data} {s : Spy Data Rest} (hs : Conserved s)
    {job : SafeJob Data Rest} {state : JobSpyState}
    (h : AddJobExact nc s (.addJob job state)) : Conserved (addJob nc s job state) := by
  by_cases hid : job.HasId
  · obtain ⟨hres, hprom⟩ := h hid
    unfold Conserved at *
    rw [hres, hprom, addJob_promiseCount, List.map_append, List.map_map]
    refine List.Perm.trans ?_ hs
    have hsplit : (s.promises.filter (fun p => !p.accepts job state) ++
        s.promises.filter (·.accepts job state)).Perm s.promises :=
      List.perm_append_comm.trans (List.filter_append_perm _ _)
    have hmoved := hsplit.map (·.promise)
    rw [List.map_append] at hmoved
    refine List.Perm.trans ?_ (hmoved.append_right (s.resolved.map Prod.fst))
    rw [List.append_assoc]
    exact List.Perm.append_left _ List.perm_append_comm
  · have hsame : addJob nc s job state = s := by
      unfold addJob
      split
      · rfl
      · next id hjob => exact if_pos (by_contra fun hne => hid ⟨id, hjob, hne⟩)
    rw [hsame]
    exact hs

theorem conserved_spyStep {nc : NodeCore Data} (s : Spy Data Rest) (call : SpyCall Data Rest)
    (s' : Spy Data Rest) (hs : Conserved s) (hone : AtMostOneAccepts s call)
    (hstep : spyStep nc s call = some s') : Conserved s' := by
  cases call with
  | waitForJobWithId id state =>
    simp only [spyStep] at hstep
    split at hstep
    · next s₁ w h => cases hstep; exact conserved_waitForJobWithId hs h
    · cases hstep; exact hs
  | waitForJob selector state => cases hstep; exact conserved_waitForJob hs selector state
  | addJob job state =>
    cases hstep
    exact conserved_addJob hs ((addJob_exact_iff nc s _).2 hone)

open StepSystem

/-- Along every sequence of calls, every `addJob` is exact when and only when none
of them finds two pending waiters accepting its job; and then no waiter is lost or
resolved twice. -/
theorem spy_waiters_exact_iff (nc : NodeCore Data) (calls : List (SpyCall Data Rest)) :
    (AllSteps (spyStep nc) (AddJobExact nc) Spy.new calls ↔
      AllSteps (spyStep nc) AtMostOneAccepts Spy.new calls) ∧
    (AllSteps (spyStep nc) AtMostOneAccepts Spy.new calls →
      ∀ s, run (spyStep nc) Spy.new calls = some s → Conserved s) :=
  ⟨allSteps_congr (addJob_exact_iff nc),
    fun hone _ hrun => invariant_run conserved_spyStep conserved_new hone hrun⟩

/-- The functions of `@lokalise/node-core`, on values. -/
def nodeCore : NodeCore String := ⟨id, List.filterMap id, fun _ => rfl, fun _ => rfl⟩

/-- Two waiters for job `a` and one for job `b`; then job `a` completes. -/
def spliceShiftCalls : List (SpyCall String Unit) :=
  [.waitForJobWithId (some "a") .completed, .waitForJobWithId (some "a") .completed,
    .waitForJobWithId (some "b") .completed, .addJob ⟨some "a", "payload", ()⟩ .completed]

/-- The waiter for job `b` is gone, and a waiter already resolved is still pending. -/
theorem spy_splice_shift :
    (run (spyStep nodeCore) Spy.new spliceShiftCalls).map
        (fun s => (s.promises.map (·.promise), s.resolved.map Prod.fst)) = some ([1], [0, 1]) ∧
      ¬ AllSteps (spyStep nodeCore) (AddJobExact nodeCore) Spy.new spliceShiftCalls := by
  refine ⟨by decide, ?_⟩
  rw [allSteps_congr (addJob_exact_iff nodeCore)]
  intro h
  have hlast := ((((h.2 _ rfl).2 _ rfl).2 _ rfl).1 ⟨"a", rfl, by decide⟩)
  exact absurd hlast (by decide)

end SharedTsLibs.BackgroundJobs
