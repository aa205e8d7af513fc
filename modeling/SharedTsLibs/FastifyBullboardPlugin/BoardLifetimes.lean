import SharedTsLibs.FastifyBullboardPlugin.BullBoard

/-!
# Lifetimes of the queues of a dashboard

Which queue objects have been asked to close, over all runs of a process that registers
the plugin once, and what a second registration does to the first.

* `Numbered` — queue objects are numbered in the order of construction.
* `Sound`, `sound_run` — each queue object is current, under way to be, closed or abandoned,
  and none that is shown has been asked to close.
* `Quiet` — no refresh is under way when the hook runs, and the scheduler has stopped.
* `lifetimes_run` — the dashboard shows open queues, and what is left open at the end is
  what has been abandoned, or what a refresh had under way when the hook ran.
* `shared_run` — with a second registration, the dashboard shows closed queues.
-/

namespace SharedTsLibs.FastifyBullboardPlugin

open StepSystem

/-! ## Numbering -/

/-- The queues are numbered from `n` on. -/
def Numbered (n : ℕ) (queues : List Queue) : Prop :=
  ∀ q ∈ queues, n ≤ q.index ∧ q.index < n + queues.length

theorem numbered_take (n k : ℕ) (resolvedRedis : List ResolvedRedis)
    (queueIds : List (List String)) :
    Numbered n ((getCurrentQueues n resolvedRedis queueIds).take k) := by
  intro q hq
  obtain ⟨j, hj, rfl⟩ := List.mem_iff_getElem.1 hq
  have hindex : ((getCurrentQueues n resolvedRedis queueIds).take k)[j].index = n + j := by
    simp [getCurrentQueues, buildQueueForConfig]
  omega

theorem numbered_getCurrentQueues {n : ℕ} {resolvedRedis : List ResolvedRedis}
    {queueIds : List (List String)} :
    Numbered n (getCurrentQueues n resolvedRedis queueIds) := by
  have h := numbered_take n (getCurrentQueues n resolvedRedis queueIds).length resolvedRedis
    queueIds
  rwa [List.take_length] at h

variable {ι : Type} {config : ι → BoardConfig} {s s' t : BoardProcess ι} {i : ι}

/-! ## One registration -/

/-- Each queue object is in one place. -/
structure Sound (s : BoardProcess ι) (i : ι) : Prop where
  index_lt : ∀ q ∈ s.built, q.index < s.built.length
  closed_built : ∀ q ∈ s.closed, q ∈ s.built
  current_built : ∀ q ∈ s.currentQueues, q ∈ s.built
  /-- Before the first discovery there is no queue object. -/
  early : (s.boards i).Early →
    s.built = [] ∧ (s.boards i).refresh = none ∧ (s.boards i).scheduled = false
  /-- The queues that a refresh replaces have been asked to close. -/
  asked : (s.boards i).Closing → ∀ q ∈ s.currentQueues, q ∈ s.closed
  placed : ∀ q ∈ s.built,
    q ∈ s.closed ∨ q ∈ s.currentQueues ∨ q ∈ (s.boards i).inFlight ∨ q ∈ s.abandoned
  abandoned : ∀ q ∈ s.abandoned, q ∈ s.built ∧ q ∉ s.closed ∧ q ∉ s.currentQueues
  inFlight : ∀ q ∈ (s.boards i).inFlight,
    q ∈ s.built ∧ q ∉ s.closed ∧ q ∉ s.currentQueues ∧ q ∉ s.abandoned
  shown : (s.boards i).OnDisplay → ∀ q ∈ (s.boards i).shown, q ∈ s.built ∧ q ∉ s.closed

theorem sound_new : Sound (.new : BoardProcess ι) i where
  index_lt := by simp [BoardProcess.new]
  closed_built := by simp [BoardProcess.new]
  current_built := by simp [BoardProcess.new]
  early _ := ⟨rfl, rfl, rfl⟩
  asked := by simp [BoardProcess.new]
  placed := by simp [BoardProcess.new]
  abandoned := by simp [BoardProcess.new]
  inFlight := by simp [BoardProcess.new, Board.inFlight]
  shown := by simp [BoardProcess.new]

namespace Sound

/-- A queue object that has just been constructed is none of those before. -/
theorem fresh (h : Sound s i) {queues : List Queue} (hnumbered : Numbered s.built.length queues)
    {q : Queue} (hq : q ∈ queues) : q ∉ s.built := by
  intro hbuilt
  have hold := h.index_lt q hbuilt
  have hnew := (hnumbered q hq).1
  omega

theorem index_lt_construct (h : Sound s i) {queues : List Queue}
    (hnumbered : Numbered s.built.length queues) :
    ∀ q ∈ s.built ++ queues, q.index < (s.built ++ queues).length := by
  intro q hq
  rw [List.length_append]
  obtain hold | hnew := List.mem_append.1 hq
  · have hlt := h.index_lt q hold
    omega
  · exact (hnumbered q hnew).2

theorem not_early (h : Sound s i) (hrefresh : (s.boards i).refresh ≠ none) :
    ¬ (s.boards i).Early := fun hearly => hrefresh (h.early hearly).2.1

variable [DecidableEq ι]

theorem moves (h : Sound s i) {board : Board} (hmoves : (s.boards i).Moves board) :
    Sound (s.setBoard i board) i where
  index_lt := h.index_lt
  closed_built := h.closed_built
  current_built := h.current_built
  early hearly := by
    rw [BoardProcess.boards_setBoard_self] at hearly ⊢
    obtain ⟨hbuilt, hrefresh, hscheduled⟩ := h.early (hmoves.early hearly)
    refine ⟨hbuilt, hmoves.idle ?_ hrefresh hscheduled⟩
    obtain hphase | hphase := hmoves.early hearly <;> simp [hphase]
  asked hclosing := h.asked (hmoves.closing (by simpa using hclosing))
  placed q hq := by
    rw [BoardProcess.boards_setBoard_self, hmoves.inFlight]
    exact h.placed q hq
  abandoned := h.abandoned
  inFlight q hq := by
    rw [BoardProcess.boards_setBoard_self, hmoves.inFlight] at hq
    exact h.inFlight q hq
  shown hdisplay q hq := by
    rw [BoardProcess.boards_setBoard_self] at hdisplay hq
    rw [hmoves.shown] at hq
    exact h.shown (hmoves.onDisplay hdisplay) q hq

/-- Nothing refers to the queues of a discovery that threw. -/
theorem throws (h : Sound s i) {queues : List Queue} {board : Board}
    (hnumbered : Numbered s.built.length queues) (hmoves : (s.boards i).Moves board)
    (hlate : board.phase = .failed ∨ (s.boards i).refresh = some .discovering) :
    Sound (((s.construct queues).abandon queues).setBoard i board) i where
  index_lt := h.index_lt_construct hnumbered
  closed_built q hq := List.mem_append_left _ (h.closed_built q hq)
  current_built q hq := List.mem_append_left _ (h.current_built q hq)
  early hearly := by
    rw [BoardProcess.boards_setBoard_self] at hearly
    obtain hfailed | hrefresh := hlate
    · simp [Board.Early, hfailed] at hearly
    · exact absurd (hmoves.early hearly) (h.not_early (by simp [hrefresh]))
  asked hclosing := h.asked (hmoves.closing (by simpa using hclosing))
  placed q hq := by
    rw [BoardProcess.boards_setBoard_self, hmoves.inFlight]
    obtain hold | hnew := List.mem_append.1 hq
    · obtain hclosed | hcurrent | hinFlight | habandoned := h.placed q hold
      · exact .inl hclosed
      · exact .inr (.inl hcurrent)
      · exact .inr (.inr (.inl hinFlight))
      · exact .inr (.inr (.inr (List.mem_append_left _ habandoned)))
    · exact .inr (.inr (.inr (List.mem_append_right _ hnew)))
  abandoned q hq := by
    obtain hold | hnew := List.mem_append.1 hq
    · obtain ⟨hbuilt, hopen⟩ := h.abandoned q hold
      exact ⟨List.mem_append_left _ hbuilt, hopen⟩
    · have hfresh := h.fresh hnumbered hnew
      exact ⟨List.mem_append_right _ hnew, fun hq => hfresh (h.closed_built q hq),
        fun hq => hfresh (h.current_built q hq)⟩
  inFlight q hq := by
    rw [BoardProcess.boards_setBoard_self, hmoves.inFlight] at hq
    obtain ⟨hbuilt, hclosed, hcurrent, habandoned⟩ := h.inFlight q hq
    refine ⟨List.mem_append_left _ hbuilt, hclosed, hcurrent, fun hq => ?_⟩
    obtain hold | hnew := List.mem_append.1 hq
    · exact habandoned hold
    · exact h.fresh hnumbered hnew hbuilt
  shown hdisplay q hq := by
    rw [BoardProcess.boards_setBoard_self] at hdisplay hq
    rw [hmoves.shown] at hq
    obtain ⟨hbuilt, hopen⟩ := h.shown (hmoves.onDisplay hdisplay) q hq
    exact ⟨List.mem_append_left _ hbuilt, hopen⟩

/-- The first discovery finds no queues before it. -/
theorem starts (h : Sound s i) {queues : List Queue} (hnumbered : Numbered s.built.length queues)
    (hphase : (s.boards i).phase = .discovering) :
    Sound { (s.construct queues).setBoard i { s.boards i with
        phase := .registering, shown := queues } with currentQueues := queues } i := by
  obtain ⟨hnone, hrefresh, -⟩ := h.early (.inr hphase)
  have hclosed : s.closed = [] := by
    refine List.eq_nil_iff_forall_not_mem.2 fun q hq => ?_
    simpa [hnone] using h.closed_built q hq
  have habandoned : s.abandoned = [] := by
    refine List.eq_nil_iff_forall_not_mem.2 fun q hq => ?_
    simpa [hnone] using (h.abandoned q hq).1
  exact {
    index_lt := h.index_lt_construct hnumbered
    closed_built := by simp [BoardProcess.setBoard, BoardProcess.construct, hclosed]
    current_built := fun q hq => List.mem_append_right _ hq
    early := by simp [BoardProcess.setBoard, Board.Early]
    asked := by simp [BoardProcess.setBoard, Board.Closing, hrefresh]
    placed := by
      intro q hq
      obtain hold | hnew := List.mem_append.1 hq
      · simp [hnone] at hold
      · exact .inr (.inl hnew)
    abandoned := by simp [BoardProcess.setBoard, BoardProcess.construct, habandoned]
    inFlight := by simp [BoardProcess.setBoard, Board.inFlight, hrefresh]
    shown := by
      intro _ q hq
      rw [BoardProcess.boards_setBoard_self] at hq
      exact ⟨List.mem_append_right _ hq, by simp [BoardProcess.setBoard, BoardProcess.construct,
        hclosed]⟩ }

/-- A refresh shows queues that nothing has asked to close. -/
theorem replaces (h : Sound s i) {queues : List Queue} (hnumbered : Numbered s.built.length queues)
    (hrefresh : (s.boards i).refresh = some .discovering) :
    Sound ((s.construct queues).closeCurrent.setBoard i { s.boards i with
      shown := queues, refresh := some (.closing queues) }) i := by
  have hopen : ∀ q ∈ queues, q ∉ s.closed ++ s.currentQueues := by
    intro q hq hclosed
    obtain hclosed | hcurrent := List.mem_append.1 hclosed
    · exact h.fresh hnumbered hq (h.closed_built q hclosed)
    · exact h.fresh hnumbered hq (h.current_built q hcurrent)
  exact {
    index_lt := h.index_lt_construct hnumbered
    closed_built := by
      intro q hq
      obtain hclosed | hcurrent := List.mem_append.1 hq
      · exact List.mem_append_left _ (h.closed_built q hclosed)
      · exact List.mem_append_left _ (h.current_built q hcurrent)
    current_built := fun q hq => List.mem_append_left _ (h.current_built q hq)
    early := by
      intro hearly
      rw [BoardProcess.boards_setBoard_self] at hearly
      exact absurd hearly (h.not_early (by simp [hrefresh]))
    asked := fun _ q hq => List.mem_append_right _ hq
    placed := by
      intro q hq
      rw [BoardProcess.boards_setBoard_self]
      obtain hold | hnew := List.mem_append.1 hq
      · obtain hclosed | hcurrent | hinFlight | habandoned := h.placed q hold
        · exact .inl (List.mem_append_left _ hclosed)
        · exact .inl (List.mem_append_right _ hcurrent)
        · simp [Board.inFlight, hrefresh] at hinFlight
        · exact .inr (.inr (.inr habandoned))
      · exact .inr (.inr (.inl hnew))
    abandoned := by
      intro q hq
      obtain ⟨hbuilt, hclosed, hcurrent⟩ := h.abandoned q hq
      refine ⟨List.mem_append_left _ hbuilt, fun hq => ?_, hcurrent⟩
      obtain hq | hq := List.mem_append.1 hq
      · exact hclosed hq
      · exact hcurrent hq
    inFlight := by
      intro q hq
      rw [BoardProcess.boards_setBoard_self] at hq
      have hfresh := h.fresh hnumbered hq
      exact ⟨List.mem_append_right _ hq, hopen q hq,
        fun hcurrent => hfresh (h.current_built q hcurrent),
        fun habandoned => hfresh (h.abandoned q habandoned).1⟩
    shown := by
      intro _ q hq
      rw [BoardProcess.boards_setBoard_self] at hq
      exact ⟨List.mem_append_right _ hq, hopen q hq⟩ }

theorem inFlight_of_closing {board : Board} {newQueues : List Queue}
    (hrefresh : board.refresh = some (.closing newQueues)) : board.inFlight = newQueues := by
  rw [Board.inFlight, hrefresh]

/-- Once those before have closed, the new queues are the current ones. -/
theorem takesOver (h : Sound s i) {newQueues : List Queue}
    (hrefresh : (s.boards i).refresh = some (.closing newQueues)) :
    Sound { s.setBoard i { s.boards i with refresh := none } with
      currentQueues := newQueues } i where
  index_lt := h.index_lt
  closed_built := h.closed_built
  current_built q hq := (h.inFlight q (by rwa [inFlight_of_closing hrefresh])).1
  early hearly := absurd (by simpa [BoardProcess.setBoard, Board.Early] using hearly)
    (h.not_early (i := i) (by simp [hrefresh]))
  asked := by simp [BoardProcess.setBoard, Board.Closing]
  placed q hq := by
    obtain hclosed | hcurrent | hinFlight | habandoned := h.placed q hq
    · exact .inl hclosed
    · exact .inl (h.asked ⟨_, hrefresh⟩ q hcurrent)
    · rw [inFlight_of_closing hrefresh] at hinFlight
      exact .inr (.inl hinFlight)
    · exact .inr (.inr (.inr habandoned))
  abandoned q hq := by
    obtain ⟨hbuilt, hclosed, -⟩ := h.abandoned q hq
    refine ⟨hbuilt, hclosed, fun hnew => ?_⟩
    exact (h.inFlight q (by rwa [inFlight_of_closing hrefresh])).2.2.2 hq
  inFlight := by simp [BoardProcess.setBoard, Board.inFlight]
  shown hdisplay q hq := by
    simp only [BoardProcess.setBoard, Function.update_self] at hdisplay hq
    exact h.shown hdisplay q hq

/-- A refresh that could not close those before leaves its own queues open. -/
theorem givesUp (h : Sound s i) {newQueues : List Queue}
    (hrefresh : (s.boards i).refresh = some (.closing newQueues)) :
    Sound ((s.abandon newQueues).setBoard i { s.boards i with refresh := none }) i where
  index_lt := h.index_lt
  closed_built := h.closed_built
  current_built := h.current_built
  early hearly := absurd (by simpa [Board.Early] using hearly)
    (h.not_early (i := i) (by simp [hrefresh]))
  asked := by simp [Board.Closing]
  placed q hq := by
    obtain hclosed | hcurrent | hinFlight | habandoned := h.placed q hq
    · exact .inl hclosed
    · exact .inr (.inl hcurrent)
    · rw [inFlight_of_closing hrefresh] at hinFlight
      exact .inr (.inr (.inr (List.mem_append_right _ hinFlight)))
    · exact .inr (.inr (.inr (List.mem_append_left _ habandoned)))
  abandoned q hq := by
    obtain hold | hnew := List.mem_append.1 hq
    · exact h.abandoned q hold
    · obtain ⟨hbuilt, hclosed, hcurrent, -⟩ :=
        h.inFlight q (by rwa [inFlight_of_closing hrefresh])
      exact ⟨hbuilt, hclosed, hcurrent⟩
  inFlight := by simp [Board.inFlight]
  shown hdisplay q hq := by
    rw [BoardProcess.boards_setBoard_self] at hdisplay hq
    exact h.shown hdisplay q hq

/-- The hook asks the current queues to close. -/
theorem closes (h : Sound s i) :
    Sound (s.closeCurrent.setBoard i { s.boards i with phase := .closed }) i where
  index_lt := h.index_lt
  closed_built q hq := by
    obtain hclosed | hcurrent := List.mem_append.1 hq
    · exact h.closed_built q hclosed
    · exact h.current_built q hcurrent
  current_built := h.current_built
  early := by simp [Board.Early]
  asked _ q hq := List.mem_append_right _ hq
  placed q hq := by
    rw [BoardProcess.boards_setBoard_self]
    obtain hclosed | hcurrent | hrest := h.placed q hq
    · exact .inl (List.mem_append_left _ hclosed)
    · exact .inl (List.mem_append_right _ hcurrent)
    · exact .inr (.inr hrest)
  abandoned q hq := by
    obtain ⟨hbuilt, hclosed, hcurrent⟩ := h.abandoned q hq
    refine ⟨hbuilt, fun hq => ?_, hcurrent⟩
    obtain hq | hq := List.mem_append.1 hq
    · exact hclosed hq
    · exact hcurrent hq
  inFlight q hq := by
    rw [BoardProcess.boards_setBoard_self] at hq
    obtain ⟨hbuilt, hclosed, hcurrent, habandoned⟩ := h.inFlight q hq
    refine ⟨hbuilt, fun hq => ?_, hcurrent, habandoned⟩
    obtain hq | hq := List.mem_append.1 hq
    · exact hclosed hq
    · exact hcurrent hq
  shown := by simp [Board.OnDisplay]

end Sound

variable [DecidableEq ι] {ls : List (BoardLabel ι)}

theorem sound_step {l : BoardLabel ι} (h : Sound s l.board) (hstep : Stepped config s l s') :
    Sound s' l.board := by
  cases hstep with
  | moves hmoves => exact h.moves hmoves
  | starts hphase => exact h.starts numbered_getCurrentQueues hphase
  | throws hmoves hlate => exact h.throws (numbered_take _ _ _ _) hmoves hlate
  | replaces hrefresh => exact h.replaces numbered_getCurrentQueues hrefresh
  | takesOver hrefresh => exact h.takesOver hrefresh
  | givesUp hrefresh => exact h.givesUp hrefresh
  | closes => exact h.closes

/-- The process registers the plugin once. -/
def Only (i : ι) (_ : BoardProcess ι) (l : BoardLabel ι) : Prop := l.board = i

theorem sound_run (honly : AllSteps (boardStep config) (Only i) .new ls)
    (hrun : run (boardStep config) .new ls = some s) : Sound s i := by
  refine invariant_run (I := fun s => Sound s i) (fun s l s' h hl hstep => ?_) sound_new honly hrun
  cases hl
  exact sound_step h (stepped_of_boardStep hstep)

/-! ## The end of a registration -/

/-- The scheduler has stopped and no refresh is under way when the hook runs. -/
def Quiet (i : ι) (s : BoardProcess ι) (l : BoardLabel ι) : Prop :=
  l.board = i ∧
    (l = .closes i → (s.boards i).refresh = none ∧ (s.boards i).scheduled = false)

instance (i : ι) (s : BoardProcess ι) (l : BoardLabel ι) : Decidable (Quiet i s l) :=
  inferInstanceAs (Decidable (_ ∧ (_ → _)))

instance (i : ι) (s : BoardProcess ι) (l : BoardLabel ι) : Decidable (Only i s l) :=
  inferInstanceAs (Decidable (_ = _))

/-- After the hook nothing is refreshed, and the current queues have been asked to close. -/
def Settled (s : BoardProcess ι) (i : ι) : Prop :=
  (s.boards i).phase = .closed →
    (s.boards i).refresh = none ∧ (s.boards i).scheduled = false ∧
      ∀ q ∈ s.currentQueues, q ∈ s.closed

theorem settled_step {l : BoardLabel ι} (h : Settled s l.board) (hquiet : Quiet l.board s l)
    (hstep : Stepped config s l s') : Settled s' l.board := by
  intro hclosed
  cases hstep with
  | moves hmoves =>
    rw [BoardProcess.boards_setBoard_self] at hclosed ⊢
    have hphase := hmoves.closed.1 hclosed
    obtain ⟨hrefresh, hscheduled, hasked⟩ := h hphase
    obtain ⟨hrefresh', hscheduled'⟩ := hmoves.idle (by simp [hphase]) hrefresh hscheduled
    exact ⟨hrefresh', hscheduled', hasked⟩
  | starts => simp [BoardProcess.setBoard] at hclosed
  | throws hmoves =>
    rw [BoardProcess.boards_setBoard_self] at hclosed ⊢
    have hphase := hmoves.closed.1 hclosed
    obtain ⟨hrefresh, hscheduled, hasked⟩ := h hphase
    obtain ⟨hrefresh', hscheduled'⟩ := hmoves.idle (by simp [hphase]) hrefresh hscheduled
    exact ⟨hrefresh', hscheduled', hasked⟩
  | replaces hrefresh | takesOver hrefresh | givesUp hrefresh =>
    have hnone := (h (by simpa [BoardProcess.setBoard] using hclosed)).1
    simp [hrefresh] at hnone
  | closes hl =>
    rw [BoardProcess.boards_setBoard_self]
    obtain ⟨hrefresh, hscheduled⟩ := hquiet.2 hl
    exact ⟨hrefresh, hscheduled, fun q hq => List.mem_append_right _ hq⟩

theorem boardSettled_run (hquiet : AllSteps (boardStep config) (Quiet i) .new ls)
    (hrun : run (boardStep config) .new ls = some s) : Settled s i := by
  refine invariant_run (I := fun s => Settled s i) (fun s l s' h hl hstep => ?_)
    (fun hclosed => by simp [BoardProcess.new] at hclosed) hquiet hrun
  obtain ⟨hboard, hhook⟩ := hl
  cases hboard
  exact settled_step h ⟨rfl, hhook⟩ (stepped_of_boardStep hstep)

/-- After the hook, only a refresh asks queues to close. -/
theorem closed_run_of_idle (hclosed : (s.boards i).phase = .closed)
    (hrefresh : (s.boards i).refresh = none)
    (hls : ∀ l ∈ ls, l.board = i ∧ l ≠ .refreshes i)
    (hrun : run (boardStep config) s ls = some t) : t.closed = s.closed ∧ t.built = s.built := by
  have hsteps : AllSteps (boardStep config) (fun _ l => l.board = i ∧ l ≠ .refreshes i) s ls :=
    allSteps_of_forall_mem s hls
  refine (invariant_run (I := fun u => (u.boards i).phase = .closed ∧
    (u.boards i).refresh = none ∧ u.closed = s.closed ∧ u.built = s.built) ?_
    ⟨hclosed, hrefresh, rfl, rfl⟩ hsteps hrun).2.2
  rintro u l u' ⟨hclosed, hrefresh, hsame⟩ ⟨hboard, hnot⟩ hstep
  cases l with
  | registers j | registered j | registrationFailed j | closes j =>
    obtain rfl : j = i := hboard
    simp [boardStep, hclosed] at hstep
  | discovered j | discoveryFailed j | oldClosed j =>
    obtain rfl : j = i := hboard
    simp [boardStep, hclosed, hrefresh] at hstep
  | refreshes j => exact absurd (congrArg BoardLabel.refreshes hboard) hnot
  | schedulerStops j =>
    obtain rfl : j = i := hboard
    simp only [boardStep] at hstep
    split at hstep
    · cases hstep
      exact ⟨by simpa using hclosed, by simpa using hrefresh, hsame⟩
    · cases hstep

/-- **Registered once, the plugin shows queues that are open, and closes all but those of a
failed refresh, unless a refresh is cut short by the hook.** -/
theorem lifetimes_run (honly : AllSteps (boardStep config) (Only i) .new ls)
    (hrun : run (boardStep config) .new ls = some s) :
    ((s.boards i).phase = .live → ∀ q ∈ (s.boards i).shown, q ∈ s.built ∧ q ∉ s.closed) ∧
      (AllSteps (boardStep config) (Quiet i) .new ls → (s.boards i).phase = .closed →
        ∀ q ∈ s.built, q ∉ s.closed ↔ q ∈ s.abandoned) ∧
      ∀ newQueues ls' t, (s.boards i).phase = .closed →
        (s.boards i).refresh = some (.closing newQueues) →
        (∀ l ∈ ls', l.board = i ∧ l ≠ .refreshes i) →
        run (boardStep config) s (.oldClosed i true :: ls') = some t →
        ∀ q ∈ newQueues, q ∈ t.built ∧ q ∉ t.closed := by
  have hsound := sound_run honly hrun
  refine ⟨fun hlive => hsound.shown (.inr hlive), fun hquiet hclosed q hq => ?_, ?_⟩
  · obtain ⟨hrefresh, -, hasked⟩ := boardSettled_run hquiet hrun hclosed
    constructor
    · intro hopen
      obtain hclosed | hcurrent | hinFlight | habandoned := hsound.placed q hq
      · exact absurd hclosed hopen
      · exact absurd (hasked q hcurrent) hopen
      · simp [Board.inFlight, hrefresh] at hinFlight
      · exact habandoned
    · exact fun habandoned => (hsound.abandoned q habandoned).2.1
  · intro newQueues ls' t hclosed hrefresh hls hrun' q hq
    obtain ⟨s', hstep, hrun'⟩ := run_cons_eq_some.1 hrun'
    simp only [boardStep, hrefresh, Option.some.injEq] at hstep
    subst hstep
    obtain ⟨hsame, hbuilt⟩ :=
      closed_run_of_idle (by simpa [BoardProcess.setBoard] using hclosed)
        (by simp [BoardProcess.setBoard]) hls hrun'
    obtain ⟨hq, hopen, -⟩ := hsound.inFlight q (by rwa [Sound.inFlight_of_closing hrefresh])
    rw [hsame, hbuilt]
    exact ⟨hq, hopen⟩

/-- A dashboard of one connection, updated every minute. -/
def minutely (_ : Unit) : BoardConfig := ⟨[⟨none, false⟩], false, some 60⟩

/-- A refresh cannot close the queues before, the next one can. -/
def failedRefresh : List (BoardLabel Unit) :=
  [.registers (), .discovered () [["mail"]] none, .registered (), .refreshes (),
    .discovered () [["mail", "sms"]] none, .oldClosed () false, .refreshes (),
    .discovered () [["sms"]] none, .oldClosed () true, .schedulerStops (), .closes ()]

/-- The hook runs while a refresh is closing the queues before. -/
def cutShort : List (BoardLabel Unit) :=
  [.registers (), .discovered () [["mail"]] none, .registered (), .refreshes (),
    .discovered () [["sms"]] none, .closes ()]

/-- The queues of the failed refresh stay open, and only these; those of the refresh that was cut
short stay open as well. -/
theorem refreshed_lifetimes :
    (∃ s, run (boardStep minutely) .new failedRefresh = some s ∧
      s.abandoned = [⟨1, "mail", none, false⟩, ⟨2, "sms", none, false⟩] ∧
      ∀ q ∈ s.built, q ∉ s.closed ↔ q ∈ s.abandoned) ∧
    ∃ s t, run (boardStep minutely) .new cutShort = some s ∧
      run (boardStep minutely) s [.oldClosed () true, .schedulerStops ()] = some t ∧
      t.currentQueues = [⟨1, "sms", none, false⟩] ∧
      (⟨1, "sms", none, false⟩ : Queue) ∈ t.built ∧ ⟨1, "sms", none, false⟩ ∉ t.closed := by
  constructor
  · have hends : (run (boardStep minutely) .new failedRefresh).any (fun s =>
        (s.boards ()).phase = .closed ∧
          s.abandoned = [⟨1, "mail", none, false⟩, ⟨2, "sms", none, false⟩]) = true := by
      decide +kernel
    obtain ⟨s, hrun, hstate⟩ := (Option.any_eq_true _ _).1 hends
    obtain ⟨hclosed, habandoned⟩ := of_decide_eq_true hstate
    have hquiet : AllSteps (boardStep minutely) (Quiet ()) .new failedRefresh := by
      decide +kernel
    exact ⟨s, hrun, habandoned,
      (lifetimes_run (hquiet.imp fun _ _ h => h.1) hrun).2.1 hquiet hclosed⟩
  · have hends : (run (boardStep minutely) .new cutShort).any (fun s =>
        (s.boards ()).phase = .closed ∧
          (s.boards ()).refresh = some (.closing [⟨1, "sms", none, false⟩]) ∧
          (run (boardStep minutely) s [.oldClosed () true, .schedulerStops ()]).any fun t =>
            t.currentQueues = [⟨1, "sms", none, false⟩]) = true := by
      decide +kernel
    obtain ⟨s, hrun, hstate⟩ := (Option.any_eq_true _ _).1 hends
    obtain ⟨hclosed, hrefresh, hafter⟩ := of_decide_eq_true hstate
    obtain ⟨t, hrun', hcurrent⟩ := (Option.any_eq_true _ _).1 hafter
    have honly : AllSteps (boardStep minutely) (Only ()) .new cutShort := by decide +kernel
    exact ⟨s, t, hrun, hrun', of_decide_eq_true hcurrent,
      (lifetimes_run honly hrun).2.2 _ _ t hclosed hrefresh (by decide) hrun' _ (.head _)⟩

/-! ## Two registrations -/

/-- The dashboard of `b` shows these queues; they are what `a` will ask to close next, or it
has done so. -/
structure Exposed (s : BoardProcess ι) (a b : ι) (queues : List Queue) : Prop where
  shown : (s.boards b).shown = queues
  past : ¬ (s.boards a).Early
  held : ¬ (s.boards a).Closing ∧ s.currentQueues = queues ∨ ∀ q ∈ queues, q ∈ s.closed

section Shared

variable {a b : ι} {queues : List Queue} {l : BoardLabel ι}

theorem Exposed.step (hne : a ≠ b) (h : Exposed s l.board b queues) (hl : l.board = a)
    (hstep : Stepped config s l s') : Exposed s' l.board b queues := by
  have hother : ∀ board : Board, ((s.setBoard l.board board).boards b).shown = queues := by
    intro board
    rw [BoardProcess.boards_setBoard_of_ne _ _ (by rw [hl]; exact hne.symm)]
    exact h.shown
  cases hstep with
  | moves hmoves =>
    refine ⟨hother _, fun hearly => ?_, ?_⟩
    · rw [BoardProcess.boards_setBoard_self] at hearly
      exact h.past (hmoves.early hearly)
    · rw [BoardProcess.boards_setBoard_self]
      obtain ⟨hclosing, hcurrent⟩ | hclosed := h.held
      · exact .inl ⟨fun hnew => hclosing (hmoves.closing hnew), hcurrent⟩
      · exact .inr hclosed
  | starts hphase => exact absurd (.inr hphase) h.past
  | throws hmoves =>
    refine ⟨hother _, fun hearly => ?_, ?_⟩
    · rw [BoardProcess.boards_setBoard_self] at hearly
      exact h.past (hmoves.early hearly)
    · rw [BoardProcess.boards_setBoard_self]
      obtain ⟨hclosing, hcurrent⟩ | hclosed := h.held
      · exact .inl ⟨fun hnew => hclosing (hmoves.closing hnew), hcurrent⟩
      · exact .inr hclosed
  | replaces hrefresh =>
    refine ⟨hother _, by simpa [Board.Early] using h.past, .inr fun q hq => ?_⟩
    obtain ⟨-, rfl⟩ | hclosed := h.held
    · exact List.mem_append_right _ hq
    · exact List.mem_append_left _ (hclosed q hq)
  | takesOver hrefresh =>
    refine ⟨hother _, by simpa [BoardProcess.setBoard, Board.Early] using h.past, .inr ?_⟩
    exact h.held.resolve_left fun hheld => hheld.1 ⟨_, hrefresh⟩
  | givesUp hrefresh =>
    refine ⟨hother _, by simpa [Board.Early] using h.past, .inr ?_⟩
    exact h.held.resolve_left fun hheld => hheld.1 ⟨_, hrefresh⟩
  | closes =>
    refine ⟨hother _, by simp [Board.Early], .inr fun q hq => ?_⟩
    obtain ⟨-, rfl⟩ | hclosed := h.held
    · exact List.mem_append_right _ hq
    · exact List.mem_append_left _ (hclosed q hq)

/-- A refresh asks the current queues to close, whoever shows them. -/
theorem Exposed.discovered {queueIds : List (List String)} (h : Exposed s a b queues)
    (hstep : boardStep config s (.discovered a queueIds none) = some s') :
    ∀ q ∈ queues, q ∈ s'.closed := by
  intro q hq
  simp only [boardStep] at hstep
  split at hstep
  · next hphase _ => exact absurd (.inr hphase) h.past
  · next hthrows => cases hthrows
  · cases hstep
    obtain ⟨-, rfl⟩ | hclosed := h.held
    · exact List.mem_append_right _ hq
    · exact List.mem_append_left _ (hclosed q hq)
  · next hthrows _ => cases hthrows
  · cases hstep

theorem closed_mono (hstep : Stepped config s l s') {q : Queue} (hq : q ∈ s.closed) :
    q ∈ s'.closed := by
  cases hstep with
  | moves | starts | throws | takesOver | givesUp => exact hq
  | replaces | closes => exact List.mem_append_left _ hq

theorem Exposed.registered (hne : a ≠ b) (h : Exposed s a b queues)
    (hstep : boardStep config s (.registered b) = some s') : Exposed s' a b queues := by
  simp only [boardStep] at hstep
  split at hstep
  · cases hstep
    refine ⟨by simpa using h.shown, ?_, ?_⟩
    · rw [BoardProcess.boards_setBoard_of_ne _ _ hne]
      exact h.past
    · rw [BoardProcess.boards_setBoard_of_ne _ _ hne]
      exact h.held
  · cases hstep

theorem exposed_run (hne : a ≠ b) (h : Exposed s a b queues)
    (hls : ∀ l ∈ ls, l.board = a ∨ l = .registered b)
    (hrun : run (boardStep config) s ls = some t) : Exposed t a b queues := by
  have hsteps : AllSteps (boardStep config) (fun _ l => l.board = a ∨ l = .registered b) s ls :=
    allSteps_of_forall_mem s hls
  refine invariant_run (I := fun u => Exposed u a b queues) (fun u l u' h hl hstep => ?_) h hsteps
    hrun
  obtain rfl | rfl := hl
  · exact h.step hne rfl (stepped_of_boardStep hstep)
  · exact h.registered hne hstep

theorem closed_run_mono (hrun : run (boardStep config) s ls = some t) {q : Queue}
    (hq : q ∈ s.closed) : q ∈ t.closed :=
  invariant_run (I := fun u : BoardProcess ι => q ∈ u.closed)
    (fun _ _ _ hq _ hstep => closed_mono (stepped_of_boardStep hstep) hq) hq
    (allSteps_true s ls) hrun

/-- **When the plugin is registered beside a live registration, the next refresh of the other
asks the queues to close that the new dashboard shows.** -/
theorem shared_run (hne : a ≠ b) {queueIds : List (List String)}
    (hlive : (s.boards a).phase = .live) (hfree : ¬ (s.boards a).Closing)
    (hphase : (s.boards b).phase = .discovering)
    (hls : ∀ l ∈ ls, l.board = a ∨ l = .registered b)
    (hrefresh : ∃ queueIds', .discovered a queueIds' none ∈ ls)
    (hrun : run (boardStep config) s (.discovered b queueIds none :: ls) = some t) :
    (t.boards b).shown = s.discoveredQueues config b queueIds ∧
      ∀ q ∈ (t.boards b).shown, q ∈ t.closed := by
  obtain ⟨s₁, hstart, hrun⟩ := run_cons_eq_some.1 hrun
  have hexposed : Exposed s₁ a b (s.discoveredQueues config b queueIds) := by
    simp only [boardStep, hphase, Option.some.injEq] at hstart
    subst hstart
    refine ⟨by simp [BoardProcess.setBoard], ?_, .inl ⟨?_, rfl⟩⟩
    · simp [BoardProcess.setBoard, BoardProcess.construct, hne, Board.Early, hlive]
    · simpa [BoardProcess.setBoard, BoardProcess.construct, hne] using hfree
  obtain ⟨queueIds', hmem⟩ := hrefresh
  obtain ⟨before, after, rfl⟩ := List.append_of_mem hmem
  obtain ⟨u, hbefore, hafter⟩ := run_append_eq_some.1 hrun
  obtain ⟨u', hdiscovered, hafter⟩ := run_cons_eq_some.1 hafter
  have hbetween := exposed_run hne hexposed
    (fun l hl => hls l (List.mem_append_left _ hl)) hbefore
  have hshown := (exposed_run hne hexposed hls hrun).shown
  refine ⟨hshown, fun q hq => ?_⟩
  rw [hshown] at hq
  exact closed_run_mono hafter (hbetween.discovered hdiscovered q hq)

end Shared

/-- Two dashboards of one process, both updated every minute. -/
def twoBoards (_ : Bool) : BoardConfig := ⟨[⟨none, false⟩], false, some 60⟩

/-- The first dashboard is live, the second is being registered. -/
def firstLive : List (BoardLabel Bool) :=
  [.registers false, .discovered false [["mail"]] none, .registered false, .registers true]

/-- The first one is refreshed. -/
def firstRefreshed : List (BoardLabel Bool) :=
  [.registered true, .refreshes false, .discovered false [["mail"]] none, .oldClosed false true]

theorem firstRefreshed_shared : ∃ s t, run (boardStep twoBoards) .new firstLive = some s ∧
    run (boardStep twoBoards) s (.discovered true [["sms"]] none :: firstRefreshed) = some t ∧
    (t.boards true).phase = .live ∧ (t.boards true).shown = [⟨1, "sms", none, false⟩] ∧
    ∀ q ∈ (t.boards true).shown, q ∈ t.closed := by
  have hlive : (run (boardStep twoBoards) .new firstLive).any (fun s =>
      (s.boards false).phase = .live ∧ (s.boards false).refresh = none ∧
        (s.boards true).phase = .discovering ∧
        (run (boardStep twoBoards) s (.discovered true [["sms"]] none :: firstRefreshed)).any
          (fun t => (t.boards true).phase = .live ∧
            (t.boards true).shown = [⟨1, "sms", none, false⟩])) = true := by
    decide +kernel
  obtain ⟨s, hbefore, hstate⟩ := (Option.any_eq_true _ _).1 hlive
  obtain ⟨hphase, hrefresh, hdiscovering, hends⟩ := of_decide_eq_true hstate
  obtain ⟨t, hafter, hboard⟩ := (Option.any_eq_true _ _).1 hends
  obtain ⟨hlive, hshown⟩ := of_decide_eq_true hboard
  refine ⟨s, t, hbefore, hafter, hlive, hshown, ?_⟩
  have hfree : ¬ (s.boards false).Closing := by
    rintro ⟨newQueues, hclosing⟩
    simp [hrefresh] at hclosing
  exact (shared_run (a := false) (b := true) (by decide) hphase hfree hdiscovering
    (by decide) ⟨[["mail"]], by decide⟩ hafter).2

end SharedTsLibs.FastifyBullboardPlugin
