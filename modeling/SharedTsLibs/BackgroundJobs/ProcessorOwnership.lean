import Mathlib.Data.Fintype.Basic
import SharedTsLibs.BackgroundJobs.Processor

/-!
# Who serves a queue

At rest, a queue id is in the shared set exactly when one processor serves it, with
a worker that has its listeners and was not closed; and every other processor of
the queue can be started.

* `Owns` — the processor is registered for its queue or has a worker.
* `OwnershipInv` — the owners of the queues are those of the set, one for each,
  and a `dispose` under way concerns the owner.
* `CleanStep` — the condition: a start begins for a queue id that is free and that
  no `dispose` under way is about to free, and no start fails.
* `ownership_at_rest` — when every step meets the condition, every state at rest is
  as described.
-/

namespace SharedTsLibs.BackgroundJobs

open StepSystem

variable {ι : Type}

/-! ## Calls and owners -/

/-- A `dispose` of the processor is under way. -/
def Disposing (calls : List (ProcessorCall ι)) (p : ι) : Prop :=
  ∃ c ∈ calls, c.processor = p ∧ c.phase.isDisposing = true

/-- A `start` of the processor awaits the `k`-th execution of `internalStart`. -/
def StartPending (calls : List (ProcessorCall ι)) (p : ι) (k : ℕ) : Prop :=
  ∃ c ∈ calls, c.processor = p ∧ c.phase = .awaitingStart k

section Calls

variable {calls : List (ProcessorCall ι)} {c c' : ProcessorCall ι} {i k : ℕ} {p : ι}

theorem disposing_push :
    Disposing (calls ++ [c]) p ↔
      Disposing calls p ∨ c.processor = p ∧ c.phase.isDisposing = true := by
  simp [Disposing, or_and_right, exists_or]

theorem startPending_push :
    StartPending (calls ++ [c]) p k ↔
      StartPending calls p k ∨ c.processor = p ∧ c.phase = .awaitingStart k := by
  simp [StartPending, or_and_right, exists_or]

theorem disposing_of_set (h : Disposing (calls.set i c') p) :
    Disposing calls p ∨ c'.processor = p ∧ c'.phase.isDisposing = true := by
  obtain ⟨x, hx, hp⟩ := h
  rcases List.mem_or_eq_of_mem_set hx with hx | rfl
  · exact Or.inl ⟨x, hx, hp⟩
  · exact Or.inr hp

theorem disposing_set (hi : calls[i]? = some c) (h : Disposing calls p)
    (hc : ¬ (c.processor = p ∧ c.phase.isDisposing = true)) : Disposing (calls.set i c') p :=
  Slots.exists_mem_set hi hc h

theorem startPending_set (hi : calls[i]? = some c) (h : StartPending calls p k)
    (hc : ¬ (c.processor = p ∧ c.phase = .awaitingStart k)) : StartPending (calls.set i c') p k :=
  Slots.exists_mem_set hi hc h

end Calls

/-- The processor is registered for its queue, or holds a worker. -/
def Owns (s : ProcessorSystem ι) (p : ι) : Prop :=
  (∃ k : ℕ, s.starts[k]? = some ⟨p, .registered⟩) ∨ (s.processors p).worker ≠ none

/-- Processors and starts are in step with the shared set and with the calls under
way. -/
structure OwnershipInv (config : ι → ProcessorConfig) (s : ProcessorSystem ι) : Prop where
  active_iff : ∀ q, q ∈ s.activeQueueIds ↔ ∃ p, (config p).queueId = q ∧ Owns s p
  owner_unique : ∀ p p', (config p).queueId = (config p').queueId → Owns s p → Owns s p' → p = p'
  registered_idle : ∀ (k : ℕ) p, s.starts[k]? = some ⟨p, .registered⟩ →
    (s.processors p).worker = none
  registered_unique : ∀ (k k' : ℕ) p, s.starts[k]? = some ⟨p, .registered⟩ →
    s.starts[k']? = some ⟨p, .registered⟩ → k = k'
  disposing_owner : ∀ p p', Disposing s.calls p → (config p').queueId = (config p).queueId →
    Owns s p' → p' = p ∧ (s.processors p').worker ≠ none
  listening : ∀ p w, (s.processors p).worker = some w → w ∈ s.listening ∨
    ∃ k : ℕ, s.starts[k]? = some ⟨p, .waitingReady w⟩
  closing : ∀ p w, (s.processors p).worker = some w → w ∈ s.closed → Disposing s.calls p
  worker_inj : ∀ p p' w, (s.processors p).worker = some w → (s.processors p').worker = some w →
    p = p'
  worker_lt : ∀ p w, (s.processors p).worker = some w → w < s.workerCount
  closed_lt : ∀ w ∈ s.closed, w < s.workerCount
  waiting : ∀ (k : ℕ) d, s.starts[k]? = some d → d.phase.result = none →
    ∃ p, StartPending s.calls p k
  promised : ∀ p k, (s.processors p).startPromise = some k → StartPending s.calls p k
  not_rejected : ∀ d ∈ s.starts, ∀ e, d.phase ≠ .rejected e

theorem ownershipInv_new (config : ι → ProcessorConfig) : OwnershipInv config .new := by
  refine ⟨?_, ?_, ?_, ?_, ?_, ?_, ?_, ?_, ?_, ?_, ?_, ?_, ?_⟩ <;> simp [ProcessorSystem.new, Owns]

namespace OwnershipInv

variable {config : ι → ProcessorConfig} {s : ProcessorSystem ι}

/-- A call that is no `dispose` is recorded. -/
theorem push (h : OwnershipInv config s) (p : ι) {phase : ProcessorCallPhase}
    (hphase : phase.isDisposing = false) : OwnershipInv config (s.push p phase) where
  active_iff := h.active_iff
  owner_unique := h.owner_unique
  registered_idle := h.registered_idle
  registered_unique := h.registered_unique
  disposing_owner := by
    intro q p' hdis
    rcases disposing_push.1 hdis with hdis | ⟨-, hdis⟩
    · exact h.disposing_owner q p' hdis
    · rw [hphase] at hdis
      cases hdis
  listening := h.listening
  closing := fun q w hw hc => disposing_push.2 (Or.inl (h.closing q w hw hc))
  worker_inj := h.worker_inj
  worker_lt := h.worker_lt
  closed_lt := h.closed_lt
  waiting := fun k d hk hd => (h.waiting k d hk hd).imp fun _ hp => startPending_push.2 (Or.inl hp)
  promised := fun q k hk => startPending_push.2 (Or.inl (h.promised q k hk))
  not_rejected := h.not_rejected

/-- The worker of a processor is closed, and its `dispose` awaits that. -/
theorem disposeCloses (h : OwnershipInv config s) {p : ι} {w : ℕ}
    (hw : (s.processors p).worker = some w) :
    OwnershipInv config
      (ProcessorSystem.push { s with closed := s.closed ++ [w] } p .awaitingClose) where
  active_iff := h.active_iff
  owner_unique := h.owner_unique
  registered_idle := h.registered_idle
  registered_unique := h.registered_unique
  disposing_owner := by
    intro q p' hdis hq hown
    rcases disposing_push.1 hdis with hdis | ⟨rfl, -⟩
    · exact h.disposing_owner q p' hdis hq hown
    · have hne : (s.processors p).worker ≠ none := by simp [hw]
      obtain rfl := h.owner_unique p' p hq hown (Or.inr hne)
      exact ⟨rfl, hne⟩
  listening := h.listening
  closing := by
    intro q w' hw' hc
    rcases List.mem_append.1 hc with hc | hc
    · exact disposing_push.2 (Or.inl (h.closing q w' hw' hc))
    · rw [List.mem_singleton.1 hc] at hw'
      exact disposing_push.2 (Or.inr ⟨h.worker_inj p q w hw hw', rfl⟩)
  worker_inj := h.worker_inj
  worker_lt := h.worker_lt
  closed_lt := by
    intro w' hw'
    rcases List.mem_append.1 hw' with hw' | hw'
    · exact h.closed_lt w' hw'
    · rw [List.mem_singleton.1 hw']
      exact h.worker_lt p w hw
  waiting := fun k d hk hd => (h.waiting k d hk hd).imp fun _ hp => startPending_push.2 (Or.inl hp)
  promised := fun q k hk => startPending_push.2 (Or.inl (h.promised q k hk))
  not_rejected := h.not_rejected

/-- The worker is closed, and the `dispose` goes on to await the hooks. -/
theorem closeSettled (h : OwnershipInv config s) {i : ℕ} {c : ProcessorCall ι}
    (hi : s.calls[i]? = some c) (hc : c.phase = .awaitingClose) :
    OwnershipInv config (s.setPhase i c .awaitingRunning) where
  active_iff := h.active_iff
  owner_unique := h.owner_unique
  registered_idle := h.registered_idle
  registered_unique := h.registered_unique
  disposing_owner := by
    intro q p' hdis
    rcases disposing_of_set hdis with hdis | ⟨rfl, -⟩
    · exact h.disposing_owner q p' hdis
    · exact h.disposing_owner c.processor p' ⟨c, List.mem_of_getElem? hi, rfl, by rw [hc]; rfl⟩
  listening := h.listening
  closing := by
    intro q w hw hcl
    by_cases hq : c.processor = q
    · exact ⟨_, Slots.mem_set hi, hq, rfl⟩
    · exact disposing_set hi (h.closing q w hw hcl) fun hand => hq hand.1
  worker_inj := h.worker_inj
  worker_lt := h.worker_lt
  closed_lt := h.closed_lt
  waiting := fun k d hk hd => (h.waiting k d hk hd).imp fun _ hp =>
    startPending_set hi hp fun hand => by simp [hc] at hand
  promised := fun q k hk => startPending_set hi (h.promised q k hk) fun hand => by simp [hc] at hand
  not_rejected := h.not_rejected

/-- An execution of `internalStart` goes on, and its processor keeps its worker, or
has just got one that is new. -/
theorem advance (h : OwnershipInv config s) {s' : ProcessorSystem ι} {k : ℕ} {p : ι}
    {phase phase' : InternalStartPhase} (hk : s.starts[k]? = some ⟨p, phase⟩)
    (hphase : phase.result = none) (hreg : phase' ≠ .registered) (hrej : ∀ e, phase' ≠ .rejected e)
    (hactive : s'.activeQueueIds = s.activeQueueIds) (hcalls : s'.calls = s.calls)
    (hclosed : s'.closed = s.closed) (hstarts : s'.starts = s.starts.set k ⟨p, phase'⟩)
    (hpromise : ∀ q, (s'.processors q).startPromise = (s.processors q).startPromise)
    (hcount : s.workerCount ≤ s'.workerCount) (howns : ∀ q, Owns s' q ↔ Owns s q)
    (hworker : ∀ q w, (s'.processors q).worker = some w → (s.processors q).worker = some w ∨
      (q = p ∧ w = s.workerCount ∧ w < s'.workerCount ∧ phase = .registered))
    (hkeep : ∀ q, (s.processors q).worker ≠ none → (s'.processors q).worker ≠ none)
    (hmono : ∀ w ∈ s.listening, w ∈ s'.listening)
    (hlisten : ∀ w, (s'.processors p).worker = some w →
      w ∈ s'.listening ∨ phase' = .waitingReady w) : OwnershipInv config s' := by
  have hold : ∀ {j : ℕ} {d}, s'.starts[j]? = some d →
      (j = k ∧ d = ⟨p, phase'⟩) ∨ (j ≠ k ∧ s.starts[j]? = some d) := by
    intro j d hj
    rw [hstarts] at hj
    exact Slots.getElem?_set_some hk hj
  have hregistered : ∀ {j : ℕ} {q}, s'.starts[j]? = some ⟨q, .registered⟩ →
      j ≠ k ∧ s.starts[j]? = some ⟨q, .registered⟩ := by
    intro j q hj
    rcases hold hj with ⟨-, heq⟩ | hj
    · exact absurd (InternalStart.mk.inj heq).2.symm hreg
    · exact hj
  refine ⟨?_, ?_, ?_, ?_, ?_, ?_, ?_, ?_, ?_, ?_, ?_, ?_, ?_⟩
  · intro q
    rw [hactive, h.active_iff]
    simp only [howns]
  · intro p₁ p₂ hq h₁ h₂
    exact h.owner_unique p₁ p₂ hq ((howns p₁).1 h₁) ((howns p₂).1 h₂)
  · intro j q hj
    obtain ⟨hne, hj⟩ := hregistered hj
    cases hw : (s'.processors q).worker with
    | none => rfl
    | some w =>
      rcases hworker q w hw with hw | ⟨rfl, -, -, rfl⟩
      · rw [h.registered_idle j q hj] at hw
        cases hw
      · exact absurd (h.registered_unique j k q hj hk) hne
  · intro j j' q hj hj'
    exact h.registered_unique j j' q (hregistered hj).2 (hregistered hj').2
  · intro q p' hdis hq hown
    rw [hcalls] at hdis
    obtain ⟨rfl, hne⟩ := h.disposing_owner q p' hdis hq ((howns p').1 hown)
    exact ⟨rfl, hkeep p' hne⟩
  · intro q w hq
    by_cases hqp : q = p
    · subst hqp
      rcases hlisten w hq with hl | rfl
      · exact Or.inl hl
      · exact Or.inr ⟨k, by rw [hstarts, List.getElem?_set_self (List.getElem?_eq_some_iff.1 hk).1]⟩
    · rcases hworker q w hq with hq | ⟨hqp', -⟩
      · rcases h.listening q w hq with hl | ⟨j, hj⟩
        · exact Or.inl (hmono w hl)
        · refine Or.inr ⟨j, ?_⟩
          rw [hstarts]
          exact Slots.getElem?_set_keep hk (fun he => hqp (InternalStart.mk.inj he).1.symm) hj
      · exact absurd hqp' hqp
  · intro q w hq hc
    rw [hclosed] at hc
    rw [hcalls]
    rcases hworker q w hq with hq | ⟨-, rfl, -, -⟩
    · exact h.closing q w hq hc
    · exact absurd (h.closed_lt _ hc) (Nat.lt_irrefl _)
  · intro q q' w hq hq'
    rcases hworker q w hq with hq | ⟨rfl, hw, -, -⟩ <;>
      rcases hworker q' w hq' with hq' | ⟨rfl, hw', -, -⟩
    · exact h.worker_inj q q' w hq hq'
    · exact absurd (h.worker_lt q w hq) (by omega)
    · exact absurd (h.worker_lt q' w hq') (by omega)
    · rfl
  · intro q w hq
    rcases hworker q w hq with hq | ⟨-, -, hlt, -⟩
    · exact Nat.lt_of_lt_of_le (h.worker_lt q w hq) hcount
    · exact hlt
  · intro w hw
    rw [hclosed] at hw
    exact Nat.lt_of_lt_of_le (h.closed_lt w hw) hcount
  · intro j d hj hd
    rw [hcalls]
    rcases hold hj with ⟨rfl, -⟩ | ⟨-, hj⟩
    · exact h.waiting j _ hk hphase
    · exact h.waiting j d hj hd
  · intro q j hj
    rw [hpromise] at hj
    rw [hcalls]
    exact h.promised q j hj
  · intro d hd e
    rw [hstarts] at hd
    rcases List.mem_or_eq_of_mem_set hd with hd | rfl
    · exact h.not_rejected d hd e
    · exact hrej e

/-- A start whose worker is ready registers the listeners. -/
theorem ready (h : OwnershipInv config s) {k w : ℕ} {d : InternalStart ι}
    (hk : s.starts[k]? = some d) (hd : d.phase = .waitingReady w) :
    OwnershipInv config (s.ready k d (.ok ())) := by
  obtain ⟨p, phase⟩ := d
  obtain rfl : phase = .waitingReady w := hd
  obtain ⟨listening, hreg, hmono, hlisten⟩ : ∃ listening,
      s.registerListeners p = { s with listening } ∧ (∀ v ∈ s.listening, v ∈ listening) ∧
      ∀ v, (s.processors p).worker = some v → v ∈ listening := by
    unfold ProcessorSystem.registerListeners
    split
    · next v hv =>
      refine ⟨_, rfl, fun _ hu => List.mem_append_left _ hu, fun u hu => ?_⟩
      rw [hv] at hu
      exact List.mem_append_right _ (by rw [Option.some.inj hu]; exact List.mem_singleton_self _)
    · next hnone => exact ⟨_, rfl, fun _ hu => hu, fun v hv => by rw [hnone] at hv; cases hv⟩
  rw [ProcessorSystem.ready, hreg]
  refine h.advance hk rfl (by simp) (by simp) rfl rfl rfl rfl (fun _ => rfl) (Nat.le_refl _)
    (fun q => ?_) (fun q v hv => Or.inl hv) (fun q hne => hne) hmono
    fun v hv => Or.inl (hlisten v hv)
  refine or_congr ?_ Iff.rfl
  constructor
  · rintro ⟨j, hj⟩
    rcases Slots.getElem?_set_some hk hj with ⟨-, heq⟩ | ⟨-, hj⟩
    · cases heq
    · exact ⟨j, hj⟩
  · rintro ⟨j, hj⟩
    exact ⟨j, Slots.getElem?_set_keep hk (by simp) hj⟩

variable [DecidableEq ι]

/-- A start begins for a free queue id that no `dispose` under way concerns. -/
theorem startBegins (h : OwnershipInv config s) {p : ι}
    (hw : (s.processors p).worker = none) (hfree : (config p).queueId ∉ s.activeQueueIds)
    (hidle : ∀ q, (config q).queueId = (config p).queueId → ¬ Disposing s.calls q) :
    OwnershipInv config (((s.internalStart p (config p).queueId).setFields p
      { s.processors p with startPromise := some s.starts.length }).push p
      (.awaitingStart s.starts.length)) := by
  have hnone : ∀ p', (config p').queueId = (config p).queueId → ¬ Owns s p' :=
    fun p' hq hown => hfree ((h.active_iff _).2 ⟨p', hq, hown⟩)
  rw [ProcessorSystem.internalStart, if_neg hfree]
  set s₁ : ProcessorSystem ι := { s with
    activeQueueIds := s.activeQueueIds ++ [(config p).queueId]
    starts := s.starts ++ [⟨p, .registered⟩] } with hs₁
  set fields : ProcessorFields := { s.processors p with startPromise := some s.starts.length }
    with hfields
  have hworker : ∀ q, ((s₁.setFields p fields).processors q).worker = (s.processors q).worker :=
    ProcessorSystem.setFields_worker_of_eq (s := s₁) rfl
  have hold : ∀ {k : ℕ} {d}, (s.starts ++ [⟨p, .registered⟩])[k]? = some d →
      (k = s.starts.length ∧ d = ⟨p, .registered⟩) ∨ s.starts[k]? = some d :=
    fun hk => (Slots.getElem?_push_some hk).imp id And.right
  have hkeep : ∀ {k : ℕ} {d}, s.starts[k]? = some d →
      (s.starts ++ [⟨p, .registered⟩])[k]? = some d := Slots.getElem?_push_keep
  have hnew : (s.starts ++ [⟨p, .registered⟩])[s.starts.length]? = some ⟨p, .registered⟩ := by
    simp
  have howns : ∀ q, Owns ((s₁.setFields p fields).push p (.awaitingStart s.starts.length)) q ↔
      q = p ∨ Owns s q := by
    intro q
    constructor
    · rintro (⟨k, hk⟩ | hne)
      · rcases hold hk with ⟨-, heq⟩ | hk
        · exact Or.inl (InternalStart.mk.inj heq).1
        · exact Or.inr (Or.inl ⟨k, hk⟩)
      · exact Or.inr (Or.inr ((hworker q) ▸ hne))
    · rintro (rfl | ⟨k, hk⟩ | hne)
      · exact Or.inl ⟨_, hnew⟩
      · exact Or.inl ⟨k, hkeep hk⟩
      · exact Or.inr ((hworker q).symm ▸ hne)
  have hdisposing : ∀ q, Disposing (s.calls ++ [⟨p, .awaitingStart s.starts.length⟩]) q →
      Disposing s.calls q := by
    intro q hdis
    rcases disposing_push.1 hdis with hdis | ⟨-, hdis⟩
    · exact hdis
    · cases hdis
  refine ⟨?_, ?_, ?_, ?_, ?_, ?_, ?_, ?_, ?_, h.closed_lt, ?_, ?_, ?_⟩
  · intro q
    show q ∈ s.activeQueueIds ++ [(config p).queueId] ↔ _
    rw [List.mem_append, List.mem_singleton, h.active_iff]
    simp only [howns]
    constructor
    · rintro (⟨p', hq, hown⟩ | rfl)
      · exact ⟨p', hq, Or.inr hown⟩
      · exact ⟨p, rfl, Or.inl rfl⟩
    · rintro ⟨p', hq, rfl | hown⟩
      · exact Or.inr hq.symm
      · exact Or.inl ⟨p', hq, hown⟩
  · intro p₁ p₂ hq h₁ h₂
    rcases (howns p₁).1 h₁ with hp₁ | ho₁ <;> rcases (howns p₂).1 h₂ with hp₂ | ho₂
    · rw [hp₁, hp₂]
    · exact absurd ho₂ (hnone p₂ (by rw [← hq, hp₁]))
    · exact absurd ho₁ (hnone p₁ (by rw [hq, hp₂]))
    · exact h.owner_unique p₁ p₂ hq ho₁ ho₂
  · intro k q hk
    show ((s₁.setFields p fields).processors q).worker = none
    rw [hworker]
    rcases hold hk with ⟨-, heq⟩ | hk
    · rw [(InternalStart.mk.inj heq).1]
      exact hw
    · exact h.registered_idle k q hk
  · intro k k' q hk hk'
    rcases hold hk with ⟨hkl, heq⟩ | hs <;> rcases hold hk' with ⟨hkl', heq'⟩ | hs'
    · rw [hkl, hkl']
    · exact absurd (Or.inl ⟨k', hs'⟩) (hnone q (by rw [(InternalStart.mk.inj heq).1]))
    · exact absurd (Or.inl ⟨k, hs⟩) (hnone q (by rw [(InternalStart.mk.inj heq').1]))
    · exact h.registered_unique k k' q hs hs'
  · intro q p' hdis hq hown
    rcases (howns p').1 hown with hp | hown
    · exact absurd (hdisposing q hdis) (hidle q (by rw [← hq, hp]))
    · obtain ⟨rfl, hne⟩ := h.disposing_owner q p' (hdisposing q hdis) hq hown
      exact ⟨rfl, (hworker p').symm ▸ hne⟩
  · intro q w hq
    rcases h.listening q w ((hworker q).symm.trans hq) with hl | ⟨k, hk⟩
    · exact Or.inl hl
    · exact Or.inr ⟨k, hkeep hk⟩
  · intro q w hq hc
    exact disposing_push.2 (Or.inl (h.closing q w ((hworker q).symm.trans hq) hc))
  · intro q q' w hq hq'
    exact h.worker_inj q q' w ((hworker q).symm.trans hq) ((hworker q').symm.trans hq')
  · intro q w hq
    exact h.worker_lt q w ((hworker q).symm.trans hq)
  · intro k d hk hd
    rcases hold hk with ⟨rfl, -⟩ | hk
    · exact ⟨p, startPending_push.2 (Or.inr ⟨rfl, rfl⟩)⟩
    · exact (h.waiting k d hk hd).imp fun _ hp => startPending_push.2 (Or.inl hp)
  · intro q k hk
    change ((s₁.setFields p fields).processors q).startPromise = some k at hk
    rw [ProcessorSystem.setFields_startPromise] at hk
    split at hk
    · next hq =>
      cases hk
      exact startPending_push.2 (Or.inr ⟨hq.symm, rfl⟩)
    · exact startPending_push.2 (Or.inl (h.promised q k hk))
  · intro d hd e
    rcases List.mem_append.1 hd with hd | hd
    · exact h.not_rejected d hd e
    · rw [List.mem_singleton.1 hd]
      simp

/-- A start that is past the registration builds the worker. -/
theorem build (h : OwnershipInv config s) {k : ℕ} {d : InternalStart ι}
    (hk : s.starts[k]? = some d) (hd : d.phase = .registered) :
    OwnershipInv config (s.build config k d (.ok ())) := by
  obtain ⟨p, phase⟩ := d
  obtain rfl : phase = .registered := hd
  have hlen : k < s.starts.length := (List.getElem?_eq_some_iff.1 hk).1
  set s₁ : ProcessorSystem ι := ProcessorSystem.setFields
    { s with workerCount := s.workerCount + 1 } p
    { s.processors p with worker := some s.workerCount } with hs₁
  have hself : (s₁.processors p).worker = some s.workerCount := by
    rw [hs₁, ProcessorSystem.setFields_worker, if_pos rfl]
  have hother : ∀ q, q ≠ p → (s₁.processors q).worker = (s.processors q).worker := by
    intro q hq
    rw [hs₁, ProcessorSystem.setFields_worker, if_neg hq]
  have hworker : ∀ q w, (s₁.processors q).worker = some w → (s.processors q).worker = some w ∨
      (q = p ∧ w = s.workerCount ∧ w < s.workerCount + 1 ∧
        InternalStartPhase.registered = .registered) := by
    intro q w hq
    by_cases hqp : q = p
    · rw [hqp, hself] at hq
      cases hq
      exact Or.inr ⟨hqp, rfl, Nat.lt_succ_self _, rfl⟩
    · exact Or.inl ((hother q hqp).symm.trans hq)
  have hkeep : ∀ q, (s.processors q).worker ≠ none → (s₁.processors q).worker ≠ none := by
    intro q hne
    by_cases hqp : q = p
    · rw [hqp, hself]
      exact Option.some_ne_none _
    · rw [hother q hqp]
      exact hne
  have hpromise : ∀ q, (s₁.processors q).startPromise = (s.processors q).startPromise :=
    ProcessorSystem.setFields_startPromise_of_eq (s := { s with workerCount := s.workerCount + 1 })
      rfl
  have howns : ∀ (phase' : InternalStartPhase), phase' ≠ .registered → ∀ q,
      Owns { s₁ with starts := s.starts.set k ⟨p, phase'⟩ } q ↔ Owns s q := by
    intro phase' hreg q
    constructor
    · rintro (⟨j, hj⟩ | hne)
      · rcases Slots.getElem?_set_some hk hj with ⟨-, heq⟩ | ⟨-, hj⟩
        · exact absurd (InternalStart.mk.inj heq).2.symm hreg
        · exact Or.inl ⟨j, hj⟩
      · by_cases hqp : q = p
        · exact Or.inl ⟨k, by rw [hqp]; exact hk⟩
        · exact Or.inr (hother q hqp ▸ hne)
    · rintro (⟨j, hj⟩ | hne)
      · by_cases hqp : q = p
        · rw [hqp]
          exact Or.inr (by rw [hself]; exact Option.some_ne_none _)
        · exact Or.inl ⟨j, Slots.getElem?_set_keep hk
            (fun he => hqp (InternalStart.mk.inj he).1.symm) hj⟩
      · exact Or.inr (hkeep q hne)
  have hbuilt : s.build config k ⟨p, .registered⟩ (.ok ()) =
      if (config p).isTest then s₁.setStart k ⟨p, .registered⟩ (.waitingReady s.workerCount)
      else (s₁.registerListeners p).setStart k ⟨p, .registered⟩ .fulfilled := rfl
  rw [hbuilt]
  split
  · refine h.advance hk rfl (by simp) (by simp) rfl rfl rfl rfl hpromise (Nat.le_succ _)
      (howns _ (by simp)) hworker hkeep (fun _ hw => hw) fun w hw => ?_
    change (s₁.processors p).worker = some w at hw
    rw [hself] at hw
    exact Or.inr (by rw [Option.some.inj hw])
  · have hreg : s₁.registerListeners p =
        { s₁ with listening := s₁.listening ++ [s.workerCount] } := by
      rw [ProcessorSystem.registerListeners, hself]
    rw [hreg]
    refine h.advance hk rfl (by simp) (by simp) rfl rfl rfl rfl hpromise (Nat.le_succ _)
      (howns _ (by simp)) hworker hkeep (fun _ hw => List.mem_append_left _ hw) fun w hw => ?_
    change (s₁.processors p).worker = some w at hw
    rw [hself] at hw
    rw [← Option.some.inj hw]
    exact Or.inl (List.mem_append_right _ (List.mem_singleton_self _))

/-- A call of `start` is past a start that succeeded. -/
theorem resume (h : OwnershipInv config s) {i k : ℕ} {c : ProcessorCall ι} {d : InternalStart ι}
    (hi : s.calls[i]? = some c) (hc : c.phase = .awaitingStart k) (hk : s.starts[k]? = some d)
    (hd : d.phase.result = some (.ok ())) : OwnershipInv config (s.startResumed i c (.ok ())) := by
  have hworker : ∀ q, ((s.setFields c.processor
      { s.processors c.processor with startPromise := none }).processors q).worker =
        (s.processors q).worker :=
    ProcessorSystem.setFields_worker_of_eq rfl
  have howns : ∀ q, Owns (s.startResumed i c (.ok ())) q ↔ Owns s q := by
    intro q
    refine or_congr Iff.rfl ?_
    exact not_congr (by rw [← hworker q]; rfl)
  have hdisposing : ∀ q, Disposing (s.calls.set i { c with phase := .done (.ok ()) }) q →
      Disposing s.calls q := by
    intro q hdis
    rcases disposing_of_set hdis with hdis | ⟨-, hdis⟩
    · exact hdis
    · cases hdis
  refine ⟨?_, ?_, ?_, h.registered_unique, ?_, ?_, ?_, ?_, ?_, h.closed_lt, ?_, ?_, h.not_rejected⟩
  · intro q
    show q ∈ s.activeQueueIds ↔ _
    rw [h.active_iff]
    simp only [howns]
  · intro p₁ p₂ hq h₁ h₂
    exact h.owner_unique p₁ p₂ hq ((howns p₁).1 h₁) ((howns p₂).1 h₂)
  · intro j q hj
    exact (hworker q).trans (h.registered_idle j q hj)
  · intro q p' hdis hq hown
    obtain ⟨rfl, hne⟩ := h.disposing_owner q p' (hdisposing q hdis) hq ((howns p').1 hown)
    exact ⟨rfl, (hworker p').symm ▸ hne⟩
  · exact fun q w hq => h.listening q w ((hworker q).symm.trans hq)
  · intro q w hq hcl
    refine disposing_set hi (h.closing q w ((hworker q).symm.trans hq) hcl) ?_
    rintro ⟨-, hdis⟩
    rw [hc] at hdis
    cases hdis
  · exact fun q q' w hq hq' =>
      h.worker_inj q q' w ((hworker q).symm.trans hq) ((hworker q').symm.trans hq')
  · exact fun q w hq => h.worker_lt q w ((hworker q).symm.trans hq)
  · intro j e hj he
    obtain ⟨p, hp⟩ := h.waiting j e hj he
    refine ⟨p, startPending_set hi hp ?_⟩
    rintro ⟨-, hphase⟩
    rw [hc] at hphase
    cases hphase
    have heq : some d = some e := hk.symm.trans hj
    cases heq
    rw [hd] at he
    cases he
  · intro q j hj
    change ((s.setFields c.processor _).processors q).startPromise = some j at hj
    rw [ProcessorSystem.setFields_startPromise] at hj
    split at hj
    · cases hj
    · next hq => exact startPending_set hi (h.promised q j hj) fun hand => hq hand.1.symm

/-- A `dispose` comes to its end: the queue has no owner left. -/
theorem disposed (h : OwnershipInv config s) {i : ℕ} {c : ProcessorCall ι}
    (hi : s.calls[i]? = some c) (hc : c.phase.isDisposing = true) :
    OwnershipInv config (s.disposed config i c) := by
  have hdis : Disposing s.calls c.processor := ⟨c, List.mem_of_getElem? hi, rfl, hc⟩
  set s₁ : ProcessorSystem ι := { s with
    activeQueueIds := s.activeQueueIds.filter (· ≠ (config c.processor).queueId) } with hs₁
  have hself : ((s₁.setFields c.processor
      { s.processors c.processor with worker := none }).processors c.processor).worker = none := by
    rw [ProcessorSystem.setFields_worker, if_pos rfl]
  have hother : ∀ q, q ≠ c.processor → ((s₁.setFields c.processor
      { s.processors c.processor with worker := none }).processors q).worker =
        (s.processors q).worker := by
    intro q hq
    rw [ProcessorSystem.setFields_worker, if_neg hq]
  have hpromise : ∀ q, ((s₁.setFields c.processor
      { s.processors c.processor with worker := none }).processors q).startPromise =
        (s.processors q).startPromise :=
    ProcessorSystem.setFields_startPromise_of_eq (s := s₁) rfl
  have hworker : ∀ q w, ((s.disposed config i c).processors q).worker = some w →
      q ≠ c.processor ∧ (s.processors q).worker = some w := by
    intro q w hq
    have hne : q ≠ c.processor := by
      rintro rfl
      rw [show ((s.disposed config i c).processors c.processor).worker = none from hself] at hq
      cases hq
    exact ⟨hne, (hother q hne).symm.trans hq⟩
  -- whoever still owns a queue owned it before, and it is another queue
  have howns : ∀ q, Owns (s.disposed config i c) q ↔
      Owns s q ∧ (config q).queueId ≠ (config c.processor).queueId := by
    intro q
    constructor
    · intro hown
      have hold : Owns s q := by
        rcases hown with hreg | hne
        · exact Or.inl hreg
        · obtain ⟨w, hw⟩ := Option.ne_none_iff_exists'.1 hne
          exact Or.inr (by rw [(hworker q w hw).2]; exact Option.some_ne_none _)
      refine ⟨hold, fun hq => ?_⟩
      obtain ⟨rfl, hw⟩ := h.disposing_owner c.processor q hdis hq hold
      rcases hown with ⟨k, hk⟩ | hne
      · exact hw (h.registered_idle k c.processor hk)
      · exact hne hself
    · rintro ⟨hreg | hne, hq⟩
      · exact Or.inl hreg
      · have hqc : q ≠ c.processor := fun heq => hq (by rw [heq])
        exact Or.inr ((hother q hqc).symm ▸ hne)
  refine ⟨?_, ?_, ?_, h.registered_unique, ?_, ?_, ?_, ?_, ?_, h.closed_lt, ?_, ?_, h.not_rejected⟩
  · intro q
    show q ∈ s.activeQueueIds.filter _ ↔ _
    rw [List.mem_filter, h.active_iff, decide_eq_true_eq]
    constructor
    · rintro ⟨⟨p, rfl, hown⟩, hq⟩
      exact ⟨p, rfl, (howns p).2 ⟨hown, hq⟩⟩
    · rintro ⟨p, rfl, hown⟩
      exact ⟨⟨p, rfl, ((howns p).1 hown).1⟩, ((howns p).1 hown).2⟩
  · intro p₁ p₂ hq h₁ h₂
    exact h.owner_unique p₁ p₂ hq ((howns p₁).1 h₁).1 ((howns p₂).1 h₂).1
  · intro j q hj
    cases hw : ((s.disposed config i c).processors q).worker with
    | none => rfl
    | some w =>
      have hidle := h.registered_idle j q hj
      rw [(hworker q w hw).2] at hidle
      cases hidle
  · intro q p' hdis' hq hown
    obtain ⟨hold, hne⟩ := (howns p').1 hown
    have hdisq : Disposing s.calls q := by
      rcases disposing_of_set hdis' with hd | ⟨-, hd⟩
      · exact hd
      · cases hd
    obtain ⟨rfl, hw⟩ := h.disposing_owner q p' hdisq hq hold
    have hpc : p' ≠ c.processor := fun heq => hne (by rw [heq])
    exact ⟨rfl, (hother p' hpc).symm ▸ hw⟩
  · exact fun q w hq => h.listening q w (hworker q w hq).2
  · intro q w hq hcl
    obtain ⟨hne, hw⟩ := hworker q w hq
    exact disposing_set hi (h.closing q w hw hcl) fun hand => hne hand.1.symm
  · exact fun q q' w hq hq' => h.worker_inj q q' w (hworker q w hq).2 (hworker q' w hq').2
  · exact fun q w hq => h.worker_lt q w (hworker q w hq).2
  · intro j d hj hd
    obtain ⟨p, hp⟩ := h.waiting j d hj hd
    refine ⟨p, startPending_set hi hp ?_⟩
    rintro ⟨-, hphase⟩
    rw [hphase] at hc
    cases hc
  · intro q j hj
    refine startPending_set hi (h.promised q j ((hpromise q).symm.trans hj)) ?_
    rintro ⟨-, hphase⟩
    rw [hphase] at hc
    cases hc

end OwnershipInv

/-! ## Runs -/

variable [DecidableEq ι] {config : ι → ProcessorConfig}

/-- A start that begins finds its queue id free and no `dispose` of a processor of
the queue under way, a worker can be built, and it becomes ready. -/
def CleanStep (config : ι → ProcessorConfig) (s : ProcessorSystem ι) : ProcessorEvent ι → Prop
  | .start p => (s.processors p).worker = none → (s.processors p).startPromise = none →
      (config p).queueId ∉ s.activeQueueIds ∧
        ∀ q, (config q).queueId = (config p).queueId → ¬ Disposing s.calls q
  | .build _ result | .ready _ result => result = .ok ()
  | _ => True

instance [Fintype ι] (s : ProcessorSystem ι) : ∀ e, Decidable (CleanStep config s e)
  | .start p => inferInstanceAs (Decidable ((s.processors p).worker = none →
      (s.processors p).startPromise = none → (config p).queueId ∉ s.activeQueueIds ∧
        ∀ q, (config q).queueId = (config p).queueId →
          ¬ ∃ c ∈ s.calls, c.processor = q ∧ c.phase.isDisposing = true))
  | .build _ result | .ready _ result =>
    match result with
    | .ok () => .isTrue rfl
    | .error _ => .isFalse (by rintro ⟨⟩)
  | .dispose _ | .resume _ | .closed _ _ | .runningSettled _ => .isTrue trivial

theorem ownershipInv_stepped {s s' : ProcessorSystem ι} {e : ProcessorEvent ι}
    (h : OwnershipInv config s) (hs : ProcessorStepped config s e s')
    (hclean : CleanStep config s e) : OwnershipInv config s' := by
  cases hs with
  | startReturns => exact h.push _ rfl
  | startAwaits => exact h.push _ rfl
  | startBegins hw hk => exact h.startBegins hw (hclean hw hk).1 (hclean hw hk).2
  | disposeReturns => exact h.push _ rfl
  | disposeCloses hw => exact h.disposeCloses hw
  | build hk hd =>
    obtain rfl := hclean
    exact h.build hk hd
  | ready hk hd =>
    obtain rfl := hclean
    exact h.ready hk hd
  | @resume i k c d result hi hc hk hd =>
    cases result with
    | ok => exact h.resume hi hc hk hd
    | error e =>
      have hnot := h.not_rejected d (List.mem_of_getElem? hk)
      cases hphase : d.phase with
      | rejected f => exact absurd hphase (hnot f)
      | registered => rw [hphase] at hd; cases hd
      | waitingReady w => rw [hphase] at hd; cases hd
      | fulfilled => rw [hphase] at hd; cases hd
  | closed hi hc => exact h.closeSettled hi hc
  | disposed hi hc => exact h.disposed hi hc

/-- No call is in progress. -/
def AtRest (s : ProcessorSystem ι) : Prop := ∀ c ∈ s.calls, ∃ result, c.phase = .done result

/-- The processor holds a worker that has its listeners and was not closed. -/
def Serves (s : ProcessorSystem ι) (p : ι) : Prop :=
  ∃ w, (s.processors p).worker = some w ∧ w ∈ s.listening ∧ w ∉ s.closed

/-- The shared set names the queues that one processor serves, and a processor that
serves none can be started when its queue id is free. -/
def OwnershipSound (config : ι → ProcessorConfig) (s : ProcessorSystem ι) : Prop :=
  (∀ q, q ∈ s.activeQueueIds ↔ ∃! p, (config p).queueId = q ∧ Serves s p) ∧
    ∀ p, ¬ Serves s p → (config p).queueId ∉ s.activeQueueIds →
      (s.start config p).starts = s.starts ++ [⟨p, .registered⟩]

section AtRest

variable {s : ProcessorSystem ι}

omit [DecidableEq ι] in
theorem not_startPending_of_atRest (hrest : AtRest s) (p : ι) (k : ℕ) :
    ¬ StartPending s.calls p k := by
  rintro ⟨c, hc, -, hphase⟩
  obtain ⟨result, hdone⟩ := hrest c hc
  rw [hphase] at hdone
  cases hdone

omit [DecidableEq ι] in
theorem not_disposing_of_atRest (hrest : AtRest s) (p : ι) : ¬ Disposing s.calls p := by
  rintro ⟨c, hc, -, hphase⟩
  obtain ⟨result, hdone⟩ := hrest c hc
  rw [hdone] at hphase
  cases hphase

omit [DecidableEq ι] in
/-- At rest a worker held is one that serves. -/
theorem serves_of_worker (h : OwnershipInv config s) (hrest : AtRest s) {p : ι} {w : ℕ}
    (hw : (s.processors p).worker = some w) : Serves s p := by
  refine ⟨w, hw, ?_, fun hc => not_disposing_of_atRest hrest p (h.closing p w hw hc)⟩
  rcases h.listening p w hw with hl | ⟨k, hk⟩
  · exact hl
  · obtain ⟨q, hq⟩ := h.waiting k _ hk rfl
    exact absurd hq (not_startPending_of_atRest hrest q k)

omit [DecidableEq ι] in
theorem owns_iff_serves (h : OwnershipInv config s) (hrest : AtRest s) (p : ι) :
    Owns s p ↔ Serves s p := by
  constructor
  · rintro (⟨k, hk⟩ | hne)
    · obtain ⟨q, hq⟩ := h.waiting k _ hk rfl
      exact absurd hq (not_startPending_of_atRest hrest q k)
    · obtain ⟨w, hw⟩ := Option.ne_none_iff_exists'.1 hne
      exact serves_of_worker h hrest hw
  · rintro ⟨w, hw, -⟩
    exact Or.inr (by rw [hw]; exact Option.some_ne_none _)

theorem ownershipSound_of_inv (h : OwnershipInv config s) (hrest : AtRest s) :
    OwnershipSound config s := by
  refine ⟨fun q => ?_, fun p hp hfree => ?_⟩
  · rw [h.active_iff]
    constructor
    · rintro ⟨p, rfl, hown⟩
      refine ⟨p, ⟨rfl, (owns_iff_serves h hrest p).1 hown⟩, ?_⟩
      rintro p' ⟨hq, hs⟩
      exact h.owner_unique p' p hq ((owns_iff_serves h hrest p').2 hs) hown
    · rintro ⟨p, ⟨hq, hs⟩, -⟩
      exact ⟨p, hq, (owns_iff_serves h hrest p).2 hs⟩
  · have hw : (s.processors p).worker = none := by
      by_contra hne
      obtain ⟨w, hw⟩ := Option.ne_none_iff_exists'.1 hne
      exact hp (serves_of_worker h hrest hw)
    have hk : (s.processors p).startPromise = none := by
      by_contra hne
      obtain ⟨k, hk⟩ := Option.ne_none_iff_exists'.1 hne
      exact not_startPending_of_atRest hrest p k (h.promised p k hk)
    rw [ProcessorSystem.start, hw, hk]
    simp only [ProcessorSystem.internalStart, if_neg hfree]
    rfl

end AtRest

/-- In a run whose steps are all clean, every state at rest is sound. -/
theorem ownership_at_rest (config : ι → ProcessorConfig) (events : List (ProcessorEvent ι))
    (s : ProcessorSystem ι) (hrun : run (processorStep config) .new events = some s)
    (hclean : AllSteps (processorStep config) (CleanStep config) .new events)
    (hrest : AtRest s) : OwnershipSound config s :=
  ownershipSound_of_inv
    (invariant_run
      (fun _ _ _ h hC hs => ownershipInv_stepped h (processorStepped_of_processorStep hs) hC)
      (ownershipInv_new config) hclean hrun) hrest

/-- A single processor, outside tests. -/
def oneProcessor : Unit → ProcessorConfig := fun _ => ⟨"queue", false⟩

/-- The first start of a processor. -/
def startProcessorEvents (result : Except String Unit) : List (ProcessorEvent Unit) :=
  [.start (), .build 0 result, .resume 0]

/-- Two processors of one queue. -/
def twoProcessors : Bool → ProcessorConfig := fun _ => ⟨"queue", false⟩

/-- One is started and disposed of, and then the other is started. -/
def takeoverEvents : List (ProcessorEvent Bool) :=
  [.start true, .build 0 (.ok ()), .resume 0, .dispose true, .closed 1 (.ok ()),
    .runningSettled 1, .start false, .build 1 (.ok ()), .resume 2]

/-- The other owns the queue. -/
theorem ownership_after_takeover :
    ∃ s, run (processorStep twoProcessors) .new takeoverEvents = some s ∧
      s.activeQueueIds = ["queue"] ∧ (s.processors true).worker = none ∧
      OwnershipSound twoProcessors s := by
  have hclean : AllSteps (processorStep twoProcessors) (CleanStep twoProcessors) .new
      takeoverEvents := by decide
  refine ⟨_, rfl, rfl, rfl, ownership_at_rest twoProcessors takeoverEvents _ rfl hclean ?_⟩
  intro c hc
  have hdone : c ∈ ([true, true, false].map
      fun p => (⟨p, .done (.ok ())⟩ : ProcessorCall Bool)) := hc
  obtain ⟨p, -, rfl⟩ := List.mem_map.1 hdone
  exact ⟨_, rfl⟩

/-- When the worker cannot be built, the id stays in the set with no processor to
serve it. -/
theorem ownership_lost_after_failed_start :
    ∃ s, run (processorStep oneProcessor) .new (startProcessorEvents (.error "no connection")) =
        some s ∧
      AtRest s ∧ "queue" ∈ s.activeQueueIds ∧ (s.processors ()).worker = none ∧
      (s.start oneProcessor ()).starts = s.starts ∧ ¬ OwnershipSound oneProcessor s := by
  refine ⟨_, rfl, ?_, by decide, rfl, rfl, fun h => ?_⟩
  · intro c hc
    obtain rfl := List.mem_singleton.1 hc
    exact ⟨_, rfl⟩
  · obtain ⟨p, ⟨-, w, hw, -⟩, -⟩ := (h.1 "queue").1 (by decide)
    cases hw

end SharedTsLibs.BackgroundJobs
