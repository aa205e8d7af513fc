import Mathlib.Data.List.Basic
import Mathlib.Logic.Function.Basic
import SharedTsLibs.Lib.StepSystem

/-!
# Promises with a timeout

`universal-ts-utils`: `promiseWithTimeout` settles with the first of three: the promise, a
timer, and the abort of a controller.  Any number of calls are under way, and calls may share
a controller, which the timer of one of them aborts for all.

* `Call`, `State`, `step` — the calls, the controllers, and what can happen next.
* `abortedBy`, `decision` — what a step decides, read off its label alone.
* `Sound` — a call without a result has its timer, and a listener on its controller.
* `result_step`, `result_run` — a call is decided by the first step that decides it.
* `settled_run` — results, timers and listeners after any run.
-/

namespace SharedTsLibs.UniversalTsUtils.PromiseWithTimeout

open StepSystem

/-! ## State -/

/-- `PromiseWithTimeoutResult`: a value and an error are passed on alike. -/
inductive Result (α : Type) where
  | unfinished
  | finished (result : α)
  deriving DecidableEq

/-- How a promise settles. -/
inductive Settlement (α : Type) where
  | fulfilled (value : α)
  | rejected (error : α)
  deriving DecidableEq

def Settlement.result {α : Type} : Settlement α → Result α
  | .fulfilled value => .finished value
  | .rejected error => .finished error

/-- A call of `promiseWithTimeout`. -/
structure Call (α : Type) where
  called : Bool := false
  /-- The timer is running. -/
  timer : Bool := false
  /-- One of the reactions given to `promise.then` is still to run. -/
  awaiting : Bool := false
  result : Option (Result α) := none
  deriving DecidableEq

variable {ι κ α : Type}

structure State (ι κ α : Type) where
  calls : ι → Call α
  aborted : κ → Bool
  /-- The `abort` listeners of a signal, the first to be called first. -/
  listeners : κ → List ι

namespace State

def new : State ι κ α := ⟨fun _ => {}, fun _ => false, fun _ => []⟩

variable [DecidableEq ι]

def setCall (s : State ι κ α) (i : ι) (call : Call α) : State ι κ α :=
  { s with calls := Function.update s.calls i call }

/-- The settler of a call. -/
def settle (s : State ι κ α) (i : ι) (result : Result α) : State ι κ α :=
  if (s.calls i).result.isSome then s
  else s.setCall i { s.calls i with timer := false, result := some result }

variable {s : State ι κ α} {i j : ι}

@[simp] theorem calls_setCall_self (s : State ι κ α) (i : ι) (call : Call α) :
    (s.setCall i call).calls i = call := by
  simp [setCall]

@[simp] theorem calls_setCall_of_ne (s : State ι κ α) (call : Call α) (h : j ≠ i) :
    (s.setCall i call).calls j = s.calls j := by
  simp [setCall, h]

@[simp] theorem aborted_settle (s : State ι κ α) (i : ι) (result : Result α) :
    (s.settle i result).aborted = s.aborted := by
  rw [settle]
  split <;> rfl

@[simp] theorem listeners_settle (s : State ι κ α) (i : ι) (result : Result α) :
    (s.settle i result).listeners = s.listeners := by
  rw [settle]
  split <;> rfl

theorem calls_settle_of_ne (s : State ι κ α) (result : Result α) (h : j ≠ i) :
    (s.settle i result).calls j = s.calls j := by
  rw [settle]
  split
  · rfl
  · exact calls_setCall_of_ne _ _ h

/-- A call that has its result keeps it. -/
theorem calls_settle_of_settled (s : State ι κ α) (i : ι) (result : Result α)
    (h : (s.calls j).result.isSome) : (s.settle i result).calls j = s.calls j := by
  by_cases hj : j = i
  · subst hj
    rw [settle, if_pos h]
  · exact calls_settle_of_ne s result hj

@[simp] theorem called_settle (s : State ι κ α) (i : ι) (result : Result α) :
    ((s.settle i result).calls j).called = (s.calls j).called := by
  rw [settle]
  split
  · rfl
  · by_cases hj : j = i
    · subst hj
      simp
    · simp [hj]

theorem calls_settle_self (s : State ι κ α) (result : Result α) (h : (s.calls i).result = none) :
    (s.settle i result).calls i = { s.calls i with timer := false, result := some result } := by
  rw [settle, h, if_neg (by simp), calls_setCall_self]

/-- The listeners of a signal settle the calls that have no result yet. -/
theorem calls_foldl_settle (is : List ι) (s : State ι κ α) :
    (is.foldl (fun s i => s.settle i .unfinished) s).calls j =
      if j ∈ is ∧ (s.calls j).result = none then
        { s.calls j with timer := false, result := some .unfinished }
      else s.calls j := by
  induction is generalizing s with
  | nil => simp
  | cons i is ih =>
    rw [List.foldl_cons, ih]
    by_cases hj : j = i
    · subst hj
      cases hresult : (s.calls j).result with
      | none => simp [calls_settle_self s _ hresult]
      | some result =>
        have hsame := calls_settle_of_settled s j .unfinished (j := j) (by simp [hresult])
        simp [hsame, hresult]
    · simp [calls_settle_of_ne s _ hj, hj]

theorem aborted_foldl_settle (is : List ι) (s : State ι κ α) :
    (is.foldl (fun s i => s.settle i .unfinished) s).aborted = s.aborted := by
  induction is generalizing s with
  | nil => rfl
  | cons i is ih => rw [List.foldl_cons, ih, aborted_settle]

theorem listeners_foldl_settle (is : List ι) (s : State ι κ α) :
    (is.foldl (fun s i => s.settle i .unfinished) s).listeners = s.listeners := by
  induction is generalizing s with
  | nil => rfl
  | cons i is ih => rw [List.foldl_cons, ih, listeners_settle]

variable [DecidableEq κ]

/-- `controller.abort()`: the listeners are called, and removed. -/
def abort (s : State ι κ α) (k : κ) : State ι κ α :=
  if s.aborted k then s
  else
    (s.listeners k).foldl (fun s i => s.settle i .unfinished)
      { s with
        aborted := Function.update s.aborted k true
        listeners := Function.update s.listeners k [] }

theorem calls_abort (s : State ι κ α) (k : κ) :
    (s.abort k).calls j =
      if s.aborted k = false ∧ j ∈ s.listeners k ∧ (s.calls j).result = none then
        { s.calls j with timer := false, result := some .unfinished }
      else s.calls j := by
  rw [abort]
  split
  · next haborted => simp [haborted]
  · next haborted => simp [calls_foldl_settle, haborted]

theorem aborted_abort (s : State ι κ α) (k : κ) :
    (s.abort k).aborted = Function.update s.aborted k true := by
  rw [abort]
  split
  · next haborted => rw [← haborted, Function.update_eq_self]
  · rw [aborted_foldl_settle]

@[simp] theorem called_abort (s : State ι κ α) (k : κ) :
    ((s.abort k).calls j).called = (s.calls j).called := by
  rw [calls_abort]
  split <;> rfl

theorem listeners_abort_of_ne (s : State ι κ α) {k k' : κ} (h : k' ≠ k) :
    (s.abort k).listeners k' = s.listeners k' := by
  rw [abort]
  split
  · rfl
  · rw [listeners_foldl_settle]
    exact Function.update_of_ne h _ _

theorem mem_listeners_abort {k k' : κ} (h : i ∈ (s.abort k).listeners k') :
    i ∈ s.listeners k' := by
  by_cases hk : k' = k
  · subst hk
    rw [abort] at h
    split at h
    · exact h
    · simp [listeners_foldl_settle] at h
  · rwa [listeners_abort_of_ne _ hk] at h

end State

/-! ## Steps -/

inductive Label (ι κ α : Type) where
  /-- `promiseWithTimeout` is called. -/
  | calls (i : ι)
  /-- A reaction of the promise runs. -/
  | reacts (i : ι) (settlement : Settlement α)
  | timerFires (i : ι)
  /-- The caller aborts a controller. -/
  | aborts (k : κ)
  deriving DecidableEq

variable [DecidableEq ι] [DecidableEq κ]

-- The `opts?.abortController` of a call.
variable (controller : ι → Option κ)

def step (s : State ι κ α) : Label ι κ α → Option (State ι κ α)
  | .calls i =>
    if (s.calls i).called then none
    else match controller i with
      | none => some (s.setCall i { called := true, timer := true, awaiting := true })
      | some k =>
        if s.aborted k then some (s.setCall i { called := true, result := some .unfinished })
        else some { s.setCall i { called := true, timer := true, awaiting := true } with
          listeners := Function.update s.listeners k (s.listeners k ++ [i]) }
  | .reacts i settlement =>
    if (s.calls i).awaiting then
      some ((s.setCall i { s.calls i with awaiting := false }).settle i settlement.result)
    else none
  | .timerFires i =>
    if (s.calls i).timer then
      match controller i with
      | none => some (s.settle i .unfinished)
      | some k => some ((s.abort k).settle i .unfinished)
    else none
  | .aborts k => some (s.abort k)

/-! ## What a step decides -/

/-- The controller that a step aborts. -/
def abortedBy : Label ι κ α → Option κ
  | .timerFires i => controller i
  | .aborts k => some k
  | .calls _ | .reacts .. => none

/-- The step aborts the controller of a call. -/
def abortsFor (i : ι) (l : Label ι κ α) : Bool :=
  match controller i with
  | none => false
  | some k => decide (abortedBy controller l = some k)

/-- What a step decides about a call that is under way. -/
def decision (i : ι) (l : Label ι κ α) : Option (Result α) :=
  match l with
  | .reacts j settlement => if j = i then some settlement.result else none
  | .timerFires j => if j = i ∨ abortsFor controller i l then some .unfinished else none
  | .aborts _ => if abortsFor controller i l then some .unfinished else none
  | .calls _ => none

/-- The calls that were made with a controller, in order. -/
def callsWith (k : κ) (ls : List (Label ι κ α)) : List ι :=
  ls.filterMap fun
    | .calls i => if controller i = some k then some i else none
    | _ => none

/-! ## Calls under way -/

variable {controller} {s s' t : State ι κ α} {i j : ι} {k : κ} {l : Label ι κ α}
  {ls : List (Label ι κ α)}

open State

/-- A call is under way. -/
def Pending (s : State ι κ α) (i : ι) : Prop :=
  (s.calls i).called = true ∧ (s.calls i).result = none

variable (controller) in
/-- A call without a result has its timer, and a listener on its controller. -/
structure Sound (s : State ι κ α) : Prop where
  timer : ∀ i, (s.calls i).timer = true ↔ Pending s i
  listening : ∀ i k, Pending s i → controller i = some k →
    s.aborted k = false ∧ i ∈ s.listeners k
  listed : ∀ i k, i ∈ s.listeners k → (s.calls i).called = true ∧ controller i = some k
  awaiting : ∀ i, (s.calls i).awaiting = true → (s.calls i).called = true
  settled : ∀ i, (s.calls i).result.isSome → (s.calls i).called = true

omit [DecidableEq ι] [DecidableEq κ] in
theorem sound_new : Sound controller (.new : State ι κ α) where
  timer := by simp [Pending, State.new]
  listening := by simp [Pending, State.new]
  listed := by simp [State.new]
  awaiting := by simp [State.new]
  settled := by simp [State.new]

namespace Sound

omit [DecidableEq κ] in
theorem settle (h : Sound controller s) (hi : (s.calls i).called = true) (result : Result α) :
    Sound controller (s.settle i result) := by
  by_cases hresult : (s.calls i).result.isSome
  · rwa [State.settle, if_pos hresult]
  rw [Option.not_isSome_iff_eq_none] at hresult
  have hpending : ∀ j, Pending (s.settle i result) j → Pending s j := by
    intro j hj
    by_cases hji : j = i
    · subst hji
      simp [Pending, calls_settle_self s result hresult] at hj
    · rwa [Pending, calls_settle_of_ne s result hji] at hj
  refine ⟨fun j => ?_, fun j k hj hk => ?_, fun j k hj => ?_, fun j hj => ?_, fun j hj => ?_⟩
  · by_cases hji : j = i
    · subst hji
      simp [Pending, calls_settle_self s result hresult]
    · rw [Pending, calls_settle_of_ne s result hji]
      exact h.timer j
  · rw [aborted_settle, listeners_settle]
    exact h.listening j k (hpending j hj) hk
  · rw [listeners_settle] at hj
    rw [called_settle]
    exact h.listed j k hj
  · rw [called_settle]
    by_cases hji : j = i
    · rwa [hji]
    · rw [calls_settle_of_ne s result hji] at hj
      exact h.awaiting j hj
  · rw [called_settle]
    by_cases hji : j = i
    · rwa [hji]
    · rw [calls_settle_of_ne s result hji] at hj
      exact h.settled j hj

/-- An abort settles the calls under way with the controller, and no others. -/
theorem calls_abort (h : Sound controller s) (k : κ) (j : ι) :
    (controller j = some k ∧ Pending s j → (s.abort k).calls j =
      { s.calls j with timer := false, result := some .unfinished }) ∧
    (¬ (controller j = some k ∧ Pending s j) → (s.abort k).calls j = s.calls j) := by
  rw [State.calls_abort]
  constructor
  · rintro ⟨hk, hj⟩
    obtain ⟨haborted, hmem⟩ := h.listening j k hj hk
    rw [if_pos ⟨haborted, hmem, hj.2⟩]
  · intro hnot
    rw [if_neg]
    rintro ⟨-, hmem, hresult⟩
    obtain ⟨hcalled, hk⟩ := h.listed j k hmem
    exact hnot ⟨hk, hcalled, hresult⟩

theorem abort (h : Sound controller s) (k : κ) : Sound controller (s.abort k) := by
  have hpending : ∀ j, Pending (s.abort k) j → Pending s j ∧ controller j ≠ some k := by
    intro j hj
    obtain ⟨hsettles, hkeeps⟩ := h.calls_abort k j
    by_cases hjk : controller j = some k ∧ Pending s j
    · rw [Pending, hsettles hjk] at hj
      cases hj.2
    · rw [Pending, hkeeps hjk] at hj
      exact ⟨hj, fun hk => hjk ⟨hk, hj⟩⟩
  refine ⟨fun j => ?_, fun j k' hj hk => ?_, fun j k' hj => ?_, fun j hj => ?_, fun j hj => ?_⟩
  · obtain ⟨hsettles, hkeeps⟩ := h.calls_abort k j
    by_cases hjk : controller j = some k ∧ Pending s j
    · simp [Pending, hsettles hjk]
    · rw [Pending, hkeeps hjk]
      exact h.timer j
  · obtain ⟨hj, hne⟩ := hpending j hj
    have hkk : k' ≠ k := fun heq => hne (heq ▸ hk)
    rw [aborted_abort, Function.update_of_ne hkk, listeners_abort_of_ne _ hkk]
    exact h.listening j k' hj hk
  · rw [called_abort]
    exact h.listed j k' (mem_listeners_abort hj)
  · rw [called_abort]
    rw [State.calls_abort] at hj
    split at hj <;> exact h.awaiting j hj
  · rw [called_abort]
    rw [State.calls_abort] at hj
    split at hj
    · next hlisted => exact (h.listed j k hlisted.2.1).1
    · exact h.settled j hj

omit [DecidableEq κ] in
/-- A reaction that has run does not run again. -/
theorem setCall_awaiting (h : Sound controller s) (i : ι) :
    Sound controller (s.setCall i { s.calls i with awaiting := false }) := by
  have hother : ∀ j, j ≠ i →
      (s.setCall i { s.calls i with awaiting := false }).calls j = s.calls j :=
    fun j hj => calls_setCall_of_ne s _ hj
  refine ⟨fun j => ?_, fun j k hj hk => ?_, fun j k hj => ?_, fun j hj => ?_, fun j hj => ?_⟩ <;>
    by_cases hji : j = i
  · simpa [Pending, hji] using h.timer i
  · simpa [Pending, hother j hji] using h.timer j
  · exact h.listening j k (by simpa [Pending, hji] using hj) hk
  · exact h.listening j k (by simpa [Pending, hother j hji] using hj) hk
  · simpa [hji] using h.listed j k hj
  · simpa [hother j hji] using h.listed j k hj
  · simp [hji] at hj
  · simpa [hother j hji] using h.awaiting j (by simpa [hother j hji] using hj)
  · simpa [hji] using h.settled i (by simpa [hji] using hj)
  · simpa [hother j hji] using h.settled j (by simpa [hother j hji] using hj)

omit [DecidableEq κ] in
/-- A call that is made has its timer and its listener, or its result. -/
theorem begins (h : Sound controller s) (hi : (s.calls i).called = false) {call : Call α}
    {listeners : κ → List ι} (hcalled : call.called = true)
    (htimer : call.timer = true ↔ call.result = none)
    (hown : call.result = none → ∀ k, controller i = some k →
      s.aborted k = false ∧ i ∈ listeners k)
    (hold : ∀ j k, j ∈ s.listeners k → j ∈ listeners k)
    (hnew : ∀ j k, j ∈ listeners k → j ∈ s.listeners k ∨ j = i ∧ controller i = some k) :
    Sound controller { s.setCall i call with listeners := listeners } := by
  have hself : ({ s.setCall i call with listeners := listeners } : State ι κ α).calls i = call :=
    calls_setCall_self s i call
  have hother : ∀ j, j ≠ i →
      ({ s.setCall i call with listeners := listeners } : State ι κ α).calls j = s.calls j :=
    fun j hj => calls_setCall_of_ne s call hj
  refine ⟨fun j => ?_, fun j k hj hk => ?_, fun j k hj => ?_, fun j hj => ?_, fun j hj => ?_⟩ <;>
    by_cases hji : j = i
  · subst hji
    rw [Pending, hself, htimer, hcalled]
    simp
  · rw [Pending, hother j hji]
    exact h.timer j
  · subst hji
    rw [Pending, hself] at hj
    exact hown hj.2 k hk
  · rw [Pending, hother j hji] at hj
    obtain ⟨haborted, hmem⟩ := h.listening j k hj hk
    exact ⟨haborted, hold j k hmem⟩
  · subst hji
    rw [hself]
    obtain hmem | ⟨-, hk⟩ := hnew j k hj
    · have hbefore := (h.listed j k hmem).1
      simp [hi] at hbefore
    · exact ⟨hcalled, hk⟩
  · rw [hother j hji]
    exact h.listed j k ((hnew j k hj).resolve_right fun hnew => hji hnew.1)
  · subst hji
    rwa [hself]
  · rw [hother j hji] at hj ⊢
    exact h.awaiting j hj
  · subst hji
    rwa [hself]
  · rw [hother j hji] at hj ⊢
    exact h.settled j hj

end Sound

theorem sound_step (h : Sound controller s) (hstep : step controller s l = some s') :
    Sound controller s' := by
  cases l with
  | calls i =>
    simp only [step] at hstep
    split at hstep
    · cases hstep
    · next hcalled =>
      rw [Bool.not_eq_true] at hcalled
      split at hstep
      · next hnone =>
        cases hstep
        exact h.begins hcalled rfl (by simp) (by simp [hnone]) (fun _ _ => id) (fun _ _ => .inl)
      · next k hk =>
        split at hstep
        · cases hstep
          exact h.begins hcalled rfl (by simp) (by simp) (fun _ _ => id) (fun _ _ => .inl)
        · next haborted =>
          cases hstep
          refine h.begins hcalled rfl (by simp) ?_ ?_ ?_
          · intro _ k' hk'
            obtain rfl : k = k' := Option.some.inj (hk.symm.trans hk')
            exact ⟨by simpa using haborted, by simp⟩
          · intro j k' hj
            by_cases hkk : k' = k
            · subst hkk
              simp [hj]
            · rwa [Function.update_of_ne hkk]
          · intro j k' hj
            by_cases hkk : k' = k
            · subst hkk
              rw [Function.update_self, List.mem_append, List.mem_singleton] at hj
              exact hj.imp_right fun hji => ⟨hji, hk⟩
            · rw [Function.update_of_ne hkk] at hj
              exact .inl hj
  | reacts i settlement =>
    simp only [step] at hstep
    split at hstep
    · next hawaiting =>
      cases hstep
      exact (h.setCall_awaiting i).settle (by simpa using h.awaiting i hawaiting) _
    · cases hstep
  | timerFires i =>
    simp only [step] at hstep
    split at hstep
    · next htimer =>
      have hcalled := ((h.timer i).1 htimer).1
      split at hstep
      · cases hstep
        exact h.settle hcalled _
      · next k _ =>
        cases hstep
        exact (h.abort k).settle (by simpa using hcalled) _
    · cases hstep
  | aborts k =>
    cases hstep
    exact h.abort k

/-! ## Which step decides a call -/

omit [DecidableEq κ] in
theorem result_settle (s : State ι κ α) (j : ι) (result' : Result α) {result : Result α}
    (hi : (s.calls i).result = some result) :
    ((s.settle j result').calls i).result = some result := by
  rw [calls_settle_of_settled s j result' (by simp [hi]), hi]

theorem result_abort (h : Sound controller s) (k : κ) {result : Result α}
    (hi : (s.calls i).result = some result) : ((s.abort k).calls i).result = some result := by
  rw [(h.calls_abort k i).2 fun hpending => by simp [hpending.2.2] at hi, hi]

/-- A call that has its result keeps it. -/
theorem result_mono (h : Sound controller s) (hstep : step controller s l = some s')
    {result : Result α} (hi : (s.calls i).result = some result) :
    (s'.calls i).result = some result := by
  have hcalled := h.settled i (by simp [hi])
  cases l with
  | calls j =>
    have hother : ∀ call : Call α, (s.calls j).called = false →
        ((s.setCall j call).calls i).result = some result := by
      intro call hj
      have hij : i ≠ j := fun hij => by simp [← hij, hcalled] at hj
      rw [calls_setCall_of_ne s call hij, hi]
    simp only [step] at hstep
    split at hstep
    · cases hstep
    · next hj =>
      rw [Bool.not_eq_true] at hj
      split at hstep
      · cases hstep
        exact hother _ hj
      · split at hstep <;> cases hstep <;> exact hother _ hj
  | reacts j settlement =>
    simp only [step] at hstep
    split at hstep
    · cases hstep
      refine result_settle _ j _ ?_
      by_cases hij : i = j
      · subst hij
        simpa using hi
      · simpa [hij] using hi
    · cases hstep
  | timerFires j =>
    simp only [step] at hstep
    split at hstep
    · split at hstep
      · cases hstep
        exact result_settle s j _ hi
      · cases hstep
        exact result_settle _ j _ (result_abort h _ hi)
    · cases hstep
  | aborts k =>
    cases hstep
    exact result_abort h k hi

/-- An abort decides the calls under way with the controller. -/
theorem result_abort_of_pending (h : Sound controller s) (k : κ) (hi : Pending s i) :
    ((s.abort k).calls i).result = if controller i = some k then some .unfinished else none := by
  obtain ⟨hsettles, hkeeps⟩ := h.calls_abort k i
  split
  · next hk => rw [hsettles ⟨hk, hi⟩]
  · next hk => rw [hkeeps fun hpending => hk hpending.1, hi.2]

/-- A step decides a call that is under way by its label alone. -/
theorem result_step (h : Sound controller s) (hstep : step controller s l = some s')
    (hi : Pending s i) : (s'.calls i).result = decision controller i l := by
  cases l with
  | calls j =>
    have hother : ∀ call : Call α, (s.calls j).called = false →
        ((s.setCall j call).calls i).result = none := by
      intro call hj
      have hij : i ≠ j := fun hij => by simp [← hij, hi.1] at hj
      rw [calls_setCall_of_ne s call hij, hi.2]
    simp only [step] at hstep
    split at hstep
    · cases hstep
    · next hj =>
      rw [Bool.not_eq_true] at hj
      split at hstep
      · cases hstep
        exact hother _ hj
      · split at hstep <;> cases hstep <;> exact hother _ hj
  | reacts j settlement =>
    simp only [step] at hstep
    split at hstep
    · cases hstep
      by_cases hji : j = i
      · subst hji
        rw [calls_settle_self _ _ (by simpa using hi.2)]
        simp [decision]
      · have hij : i ≠ j := fun hij => hji hij.symm
        rw [calls_settle_of_ne _ _ hij, calls_setCall_of_ne _ _ hij, hi.2, decision, if_neg hji]
    · cases hstep
  | timerFires j =>
    simp only [step] at hstep
    split at hstep
    · split at hstep
      · next hnone =>
        cases hstep
        have hnot : abortsFor controller i (.timerFires j : Label ι κ α) = false := by
          simp [abortsFor, abortedBy, hnone]
          split <;> rfl
        by_cases hji : j = i
        · subst hji
          rw [calls_settle_self _ _ hi.2, decision, if_pos (.inl rfl)]
        · rw [calls_settle_of_ne _ _ fun hij => hji hij.symm, hi.2, decision,
            if_neg (by simp [hji, hnot])]
      · next k hk =>
        cases hstep
        have habort := result_abort_of_pending h k hi
        have haborts : abortsFor controller i (.timerFires j : Label ι κ α)
            = decide (controller i = some k) := by
          rw [abortsFor]
          split
          · next hnone => simp [hnone]
          · next k' hk' => simp [abortedBy, hk, hk', eq_comm]
        by_cases hji : j = i
        · subst hji
          rw [if_pos hk] at habort
          rw [result_settle _ _ _ habort, decision, if_pos (.inl rfl)]
        · rw [calls_settle_of_ne _ _ fun hij => hji hij.symm, habort, decision, haborts]
          simp [hji]
    · cases hstep
  | aborts k =>
    cases hstep
    rw [result_abort_of_pending h k hi, decision, abortsFor]
    split
    · next hk => simp [hk, abortedBy]
    · next hk =>
      split
      · rfl
      · next k' hk' =>
        have hne : k ≠ k' := fun hkk => hk (hkk ▸ hk')
        simp [abortedBy, hne]

/-! ## Runs -/

theorem called_step (hstep : step controller s l = some s') :
    (s'.calls i).called = true ↔ (s.calls i).called = true ∨ l = .calls i := by
  cases l with
  | calls j =>
    have hset : ∀ call : Call α, call.called = true →
        (((s.setCall j call).calls i).called = true ↔
          (s.calls i).called = true ∨ (.calls j : Label ι κ α) = .calls i) := by
      intro call hcall
      by_cases hij : i = j
      · subst hij
        simp [hcall]
      · simp [hij, Ne.symm hij]
    simp only [step] at hstep
    split at hstep
    · cases hstep
    · split at hstep
      · cases hstep
        exact hset _ rfl
      · split at hstep <;> cases hstep <;> exact hset _ rfl
  | reacts j settlement =>
    simp only [step] at hstep
    split at hstep
    · cases hstep
      by_cases hij : i = j
      · subst hij
        simp
      · simp [hij]
    · cases hstep
  | timerFires j =>
    simp only [step] at hstep
    split at hstep
    · split at hstep <;> cases hstep <;> simp
    · cases hstep
  | aborts k =>
    cases hstep
    simp

theorem called_run (hrun : run (step controller) s ls = some t) :
    (t.calls i).called = true ↔ (s.calls i).called = true ∨ .calls i ∈ ls := by
  induction ls generalizing s with
  | nil =>
    cases hrun
    simp
  | cons l ls ih =>
    obtain ⟨s', hstep, hrun⟩ := run_cons_eq_some.1 hrun
    rw [ih hrun, called_step hstep, List.mem_cons, or_assoc, eq_comm (a := l)]

theorem aborted_step (hstep : step controller s l = some s') :
    s'.aborted k = true ↔ s.aborted k = true ∨ abortedBy controller l = some k := by
  have habort : ∀ k', (s.abort k').aborted k = true ↔ s.aborted k = true ∨ some k' = some k := by
    intro k'
    rw [aborted_abort]
    by_cases hk : k = k'
    · simp [hk]
    · simp [hk, Ne.symm hk]
  cases l with
  | calls j =>
    simp only [step] at hstep
    split at hstep
    · cases hstep
    · split at hstep
      · cases hstep
        simp [abortedBy, setCall]
      · split at hstep <;> cases hstep <;> simp [abortedBy, setCall]
  | reacts j settlement =>
    simp only [step] at hstep
    split at hstep
    · cases hstep
      simp [abortedBy, setCall]
    · cases hstep
  | timerFires j =>
    simp only [step] at hstep
    split at hstep
    · split at hstep
      · next hnone =>
        cases hstep
        simp [abortedBy, hnone]
      · next k' hk =>
        cases hstep
        rw [aborted_settle, habort, abortedBy, hk]
    · cases hstep
  | aborts k' =>
    cases hstep
    exact habort k'

/-- A controller is aborted if some step has aborted it. -/
theorem aborted_run (hrun : run (step controller) s ls = some t) :
    t.aborted k = true ↔ s.aborted k = true ∨ ∃ l ∈ ls, abortedBy controller l = some k := by
  induction ls generalizing s with
  | nil =>
    cases hrun
    simp
  | cons l ls ih =>
    obtain ⟨s', hstep, hrun⟩ := run_cons_eq_some.1 hrun
    rw [ih hrun, aborted_step hstep, List.exists_mem_cons_iff, or_assoc]

theorem sound_run (h : Sound controller s) (hrun : run (step controller) s ls = some t) :
    Sound controller t :=
  invariant_run (fun _ _ _ h _ hstep => sound_step h hstep) h (allSteps_true s ls) hrun

theorem result_mono_run (h : Sound controller s) (hrun : run (step controller) s ls = some t)
    {result : Result α} (hi : (s.calls i).result = some result) :
    (t.calls i).result = some result :=
  (invariant_run (I := fun u => Sound controller u ∧ (u.calls i).result = some result)
    (fun _ _ _ h _ hstep => ⟨sound_step h.1 hstep, result_mono h.1 hstep h.2⟩) ⟨h, hi⟩
    (allSteps_true s ls) hrun).2

/-- The first step that decides a call under way gives its result. -/
theorem result_run (h : Sound controller s) (hi : Pending s i)
    (hrun : run (step controller) s ls = some t) :
    (t.calls i).result = ls.findSome? (decision controller i) := by
  induction ls generalizing s with
  | nil =>
    cases hrun
    exact hi.2
  | cons l ls ih =>
    obtain ⟨s', hstep, hrun⟩ := run_cons_eq_some.1 hrun
    have hresult := result_step h hstep hi
    rw [List.findSome?_cons]
    cases hdecision : decision controller i l with
    | none =>
      exact ih (sound_step h hstep)
        ⟨(called_step hstep).2 (.inl hi.1), hresult.trans hdecision⟩ hrun
    | some result =>
      exact result_mono_run (sound_step h hstep) hrun (hresult.trans hdecision)

/-- A call with an aborted controller has its result at once. -/
theorem result_calls (hstep : step controller s (.calls i) = some s') :
    (s'.calls i).result =
      if ∃ k, controller i = some k ∧ s.aborted k = true then some .unfinished else none := by
  simp only [step] at hstep
  split at hstep
  · cases hstep
  · split at hstep
    · next hnone =>
      cases hstep
      simp [hnone]
    · next k hk =>
      split at hstep
      · next haborted =>
        cases hstep
        simp [hk, haborted]
      · next haborted =>
        cases hstep
        simp [hk, haborted, setCall]

/-- A step adds the listener of a call, and removes none of a controller that is not
aborted. -/
theorem listeners_step (hstep : step controller s l = some s') (hk : s'.aborted k = false) :
    s'.listeners k = s.listeners k ++ callsWith controller k [l] := by
  have habort : ∀ k', (s.abort k').aborted k = false →
      (s.abort k').listeners k = s.listeners k := by
    intro k' hnot
    refine listeners_abort_of_ne s fun hkk => ?_
    simp [aborted_abort, hkk] at hnot
  cases l with
  | calls j =>
    simp only [step] at hstep
    split at hstep
    · cases hstep
    · split at hstep
      · next hnone =>
        cases hstep
        simp [callsWith, hnone, setCall]
      · next k' hk' =>
        split at hstep
        · next haborted =>
          cases hstep
          have hne : k' ≠ k := fun hkk => by simp [setCall, ← hkk, haborted] at hk
          simp [callsWith, hk', hne, setCall]
        · cases hstep
          by_cases hkk : k' = k
          · simp [callsWith, hk', hkk]
          · simp [callsWith, hk', hkk, Ne.symm hkk]
  | reacts j settlement =>
    simp only [step] at hstep
    split at hstep
    · cases hstep
      simp [callsWith, setCall]
    · cases hstep
  | timerFires j =>
    simp only [step] at hstep
    split at hstep
    · split at hstep
      · cases hstep
        simp [callsWith]
      · cases hstep
        rw [aborted_settle] at hk
        simp [callsWith, habort _ hk]
    · cases hstep
  | aborts k' =>
    cases hstep
    simp [callsWith, habort k' hk]

/-- A controller that is not aborted has the listeners of all calls that were made with it. -/
theorem listeners_run (hrun : run (step controller) s ls = some t) (hk : t.aborted k = false) :
    t.listeners k = s.listeners k ++ callsWith controller k ls := by
  induction ls generalizing s with
  | nil =>
    cases hrun
    simp [callsWith]
  | cons l ls ih =>
    obtain ⟨s', hstep, hrun⟩ := run_cons_eq_some.1 hrun
    have hk' : s'.aborted k = false := by
      rw [← Bool.not_eq_true] at hk ⊢
      exact fun hnot => hk ((aborted_run hrun).2 (.inl hnot))
    have hcons : callsWith controller k (l :: ls) =
        callsWith controller k [l] ++ callsWith controller k ls :=
      List.filterMap_append (l := [l])
    rw [ih hrun, listeners_step hstep hk', hcons, List.append_assoc]

/-- **The result of a call is that of the first step that decides it, its timer runs until
then, and a listener stays on its controller until that is aborted.** -/
theorem settled_run (hrun : run (step controller) (.new : State ι κ α) ls = some t) :
    (∀ before i after, ls = before ++ .calls i :: after →
      (t.calls i).result =
        if before.any (abortsFor controller i) then some .unfinished
        else after.findSome? (decision controller i)) ∧
    (∀ i, (t.calls i).timer = true ↔ .calls i ∈ ls ∧ (t.calls i).result = none) ∧
    ∀ k, (∀ l ∈ ls, abortedBy controller l ≠ some k) →
      t.listeners k = callsWith controller k ls := by
  have hcalled : ∀ i, (t.calls i).called = true ↔ .calls i ∈ ls := by
    intro i
    simp [called_run hrun, State.new]
  refine ⟨?_, fun i => ?_, fun k hk => ?_⟩
  · rintro before i after rfl
    obtain ⟨s, hbefore, hrun⟩ := run_append_eq_some.1 hrun
    obtain ⟨s', hstep, hafter⟩ := run_cons_eq_some.1 hrun
    have hsound := sound_run sound_new hbefore
    have hresult := result_calls hstep
    have hany : (∃ k, controller i = some k ∧ s.aborted k = true) ↔
        before.any (abortsFor controller i) = true := by
      simp only [aborted_run hbefore, State.new, Bool.false_eq_true, false_or, List.any_eq_true,
        abortsFor]
      cases hcontroller : controller i with
      | none => simp
      | some k => simp
    simp only [hany] at hresult
    split
    · next haborted =>
      rw [if_pos haborted] at hresult
      exact result_mono_run (sound_step hsound hstep) hafter hresult
    · next haborted =>
      rw [if_neg haborted] at hresult
      exact result_run (sound_step hsound hstep)
        ⟨(called_step hstep).2 (.inr rfl), hresult⟩ hafter
  · rw [(sound_run sound_new hrun).timer, Pending, hcalled]
  · have hnot : t.aborted k = false := by
      rw [← Bool.not_eq_true, aborted_run hrun]
      rintro (hnew | ⟨l, hl, haborts⟩)
      · simp [State.new] at hnew
      · exact hk l hl haborts
    rw [listeners_run hrun hnot]
    rfl

/-- Three calls, the first two of which share a controller. -/
def sharedController (i : Fin 3) : Option Unit := if i = 2 then none else some ()

/-- The timer of the first call fires, while all three are under way. -/
def timeoutRun : List (Label (Fin 3) Unit String) :=
  [.calls 0, .calls 1, .calls 2, .timerFires 0, .reacts 1 (.fulfilled "late"),
    .reacts 2 (.rejected "failure")]

/-- It takes the second call with it, whose promise settles too late. -/
theorem timeoutRun_settled : ∃ t, run (step sharedController) .new timeoutRun = some t ∧
    (t.calls 1).result = some .unfinished ∧ (t.calls 2).result = some (.finished "failure") := by
  have hruns : (run (step sharedController) .new timeoutRun).isSome = true := by decide
  obtain ⟨t, hrun⟩ := Option.isSome_iff_exists.1 hruns
  have hresults := (settled_run hrun).1
  exact ⟨t, hrun, hresults [.calls 0] 1 _ rfl, hresults [.calls 0, .calls 1] 2 _ rfl⟩

end SharedTsLibs.UniversalTsUtils.PromiseWithTimeout
