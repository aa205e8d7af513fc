import Mathlib.Data.Int.Notation
import Mathlib.Data.List.Basic
import Mathlib.Logic.Function.Basic
import SharedTsLibs.Lib.StepSystem

/-!
# The queues of a dashboard

The plugin discovers the active queues of its Redis connections when it is registered and
then again at an interval.  Each discovery constructs queue objects anew, shows them on the
dashboard, asks those in `currentQueues` to close, and puts the new ones there.
`currentQueues` is a variable of the module, so that all registrations of the plugin in a
process share it.

* `buildQueueForConfig`, `getCurrentQueues` — the queue objects for the ids that were found.
* `BoardProcess`, `boardStep` — the registrations of the plugin, from one `await` to the next.
* `Stepped` — what a step can do.
-/

namespace SharedTsLibs.FastifyBullboardPlugin

/-! ## Queue objects -/

/-- An entry of `resolvedRedis`: the options of the queues found there. -/
structure ResolvedRedis where
  keyPrefix : Option String
  isPro : Bool
  deriving DecidableEq

/-- A queue object, numbered in the order of construction. -/
structure Queue where
  index : ℕ
  id : String
  keyPrefix : Option String
  isPro : Bool
  deriving DecidableEq

def buildQueueForConfig (index : ℕ) (id : String) (resolved : ResolvedRedis) : Queue :=
  ⟨index, id, resolved.keyPrefix, resolved.isPro⟩

/-- The queues of `getCurrentQueues`, when `built` objects have been constructed before. -/
def getCurrentQueues (built : ℕ) (resolvedRedis : List ResolvedRedis)
    (queueIds : List (List String)) : List Queue :=
  ((resolvedRedis.zip queueIds).flatMap fun e => e.2.map fun id => (id, e.1)).mapIdx
    fun k e => buildQueueForConfig (built + k) e.1 e.2

/-! ## State -/

inductive Phase where
  | unregistered
  /-- The first `getCurrentQueues` awaits Redis. -/
  | discovering
  /-- The routes are registered and the updates scheduled. -/
  | registering
  | live
  /-- The `onClose` hook has run. -/
  | closed
  /-- The registration has failed; there is no hook. -/
  | failed
  deriving DecidableEq

/-- Where `replaceQueues` is. -/
inductive Refresh where
  | discovering
  /-- The dashboard shows the new queues; those before are closing. -/
  | closing (newQueues : List Queue)
  deriving DecidableEq

/-- A registration of the plugin. -/
structure Board where
  phase : Phase := .unregistered
  /-- What the dashboard shows. -/
  shown : List Queue := []
  refresh : Option Refresh := none
  /-- The scheduler runs the refresh task. -/
  scheduled : Bool := false

structure BoardConfig where
  resolvedRedis : List ResolvedRedis
  hasQueueProConstructor : Bool
  refreshIntervalInSeconds : Option ℤ

/-- `validateConstructors` does not throw. -/
def BoardConfig.Valid (config : BoardConfig) : Prop :=
  (∃ resolved ∈ config.resolvedRedis, resolved.isPro = true) → config.hasQueueProConstructor = true

instance (config : BoardConfig) : Decidable config.Valid :=
  inferInstanceAs (Decidable ((∃ resolved ∈ _, _) → _))

/-- The process: its registrations, the module's `currentQueues`, and what has become of
all queue objects. -/
structure BoardProcess (ι : Type) where
  boards : ι → Board
  currentQueues : List Queue
  /-- All that have been constructed. -/
  built : List Queue
  /-- Those whose `close` has been called. -/
  closed : List Queue
  /-- Those of a discovery that threw, and of a refresh that could not close the ones before. -/
  abandoned : List Queue

namespace BoardProcess

variable {ι : Type} [DecidableEq ι]

def new : BoardProcess ι := ⟨fun _ => {}, [], [], [], []⟩

def setBoard (s : BoardProcess ι) (i : ι) (board : Board) : BoardProcess ι :=
  { s with boards := Function.update s.boards i board }

@[simp] theorem boards_setBoard_self (s : BoardProcess ι) (i : ι) (board : Board) :
    (s.setBoard i board).boards i = board := by
  simp [setBoard]

@[simp] theorem boards_setBoard_of_ne (s : BoardProcess ι) {i j : ι} (board : Board)
    (h : j ≠ i) : (s.setBoard i board).boards j = s.boards j := by
  simp [setBoard, h]

end BoardProcess

/-! ## Steps -/

inductive BoardLabel (ι : Type) where
  /-- The plugin is registered. -/
  | registers (i : ι)
  /-- All connections have replied; the constructor may throw, after some queues. -/
  | discovered (i : ι) (queueIds : List (List String)) (throwsAfter : Option ℕ)
  /-- A connection has failed to reply. -/
  | discoveryFailed (i : ι)
  /-- The routes are registered, the updates scheduled, and the hook is added. -/
  | registered (i : ι)
  | registrationFailed (i : ι)
  /-- The scheduler runs the task. -/
  | refreshes (i : ι)
  /-- `Promise.all` over the closing queues settles. -/
  | oldClosed (i : ι) (fulfilled : Bool)
  /-- The `onClose` hook runs. -/
  | closes (i : ι)
  | schedulerStops (i : ι)
  deriving DecidableEq

/-- The registration that a label is about. -/
def BoardLabel.board {ι : Type} : BoardLabel ι → ι
  | .registers i | .discovered i .. | .discoveryFailed i | .registered i | .registrationFailed i
  | .refreshes i | .oldClosed i _ | .closes i | .schedulerStops i => i

variable {ι : Type} [DecidableEq ι] (config : ι → BoardConfig)

namespace BoardProcess

/-- The queues of a discovery are constructed, as far as the constructor does not throw. -/
def construct (s : BoardProcess ι) (queues : List Queue) : BoardProcess ι :=
  { s with built := s.built ++ queues }

def abandon (s : BoardProcess ι) (queues : List Queue) : BoardProcess ι :=
  { s with abandoned := s.abandoned ++ queues }

/-- `currentQueues.map((queue) => queue.close())` -/
def closeCurrent (s : BoardProcess ι) : BoardProcess ι :=
  { s with closed := s.closed ++ s.currentQueues }

/-- What the next discovery of a registration constructs. -/
def discoveredQueues (s : BoardProcess ι) (i : ι) (queueIds : List (List String)) : List Queue :=
  getCurrentQueues s.built.length (config i).resolvedRedis queueIds

end BoardProcess

/-- The registrations, from one `await` to the next. -/
def boardStep (s : BoardProcess ι) : BoardLabel ι → Option (BoardProcess ι)
  | .registers i =>
    if (s.boards i).phase = .unregistered then
      some (s.setBoard i { s.boards i with
        phase := if (config i).Valid then .discovering else .failed })
    else none
  | .discovered i queueIds throwsAfter =>
    let queues := s.discoveredQueues config i queueIds
    match (s.boards i).phase, (s.boards i).refresh, throwsAfter with
    | .discovering, _, none =>
      some { (s.construct queues).setBoard i { s.boards i with
        phase := .registering, shown := queues } with currentQueues := queues }
    | .discovering, _, some k =>
      some (((s.construct (queues.take k)).abandon (queues.take k)).setBoard i
        { s.boards i with phase := .failed })
    | _, some .discovering, none =>
      some ((s.construct queues).closeCurrent.setBoard i { s.boards i with
        shown := queues, refresh := some (.closing queues) })
    | _, some .discovering, some k =>
      some (((s.construct (queues.take k)).abandon (queues.take k)).setBoard i
        { s.boards i with refresh := none })
    | _, _, _ => none
  | .discoveryFailed i =>
    match (s.boards i).phase, (s.boards i).refresh with
    | .discovering, _ => some (s.setBoard i { s.boards i with phase := .failed })
    | _, some .discovering => some (s.setBoard i { s.boards i with refresh := none })
    | _, _ => none
  | .registered i =>
    if (s.boards i).phase = .registering then
      some (s.setBoard i { s.boards i with
        phase := .live, scheduled := decide (0 < (config i).refreshIntervalInSeconds.getD 0) })
    else none
  | .registrationFailed i =>
    if (s.boards i).phase = .registering then
      some (s.setBoard i { s.boards i with phase := .failed })
    else none
  | .refreshes i =>
    if (s.boards i).scheduled = true ∧ (s.boards i).refresh = none then
      some (s.setBoard i { s.boards i with refresh := some .discovering })
    else none
  | .oldClosed i fulfilled =>
    match (s.boards i).refresh, fulfilled with
    | some (.closing newQueues), true =>
      some { s.setBoard i { s.boards i with refresh := none } with currentQueues := newQueues }
    | some (.closing newQueues), false =>
      some ((s.abandon newQueues).setBoard i { s.boards i with refresh := none })
    | _, _ => none
  | .closes i =>
    if (s.boards i).phase = .live then
      some (s.closeCurrent.setBoard i { s.boards i with phase := .closed })
    else none
  | .schedulerStops i =>
    if (s.boards i).scheduled = true then
      some (s.setBoard i { s.boards i with scheduled := false })
    else none

/-! ## What a step can do -/

namespace Board

/-- The queues that a refresh shows already, and has not made the current ones yet. -/
def inFlight (board : Board) : List Queue :=
  match board.refresh with
  | some (.closing newQueues) => newQueues
  | some .discovering | none => []

/-- A refresh awaits that the queues before have closed. -/
def Closing (board : Board) : Prop := ∃ newQueues, board.refresh = some (.closing newQueues)

/-- Nothing has been discovered yet. -/
def Early (board : Board) : Prop := board.phase = .unregistered ∨ board.phase = .discovering

/-- The dashboard is there, or about to be. -/
def OnDisplay (board : Board) : Prop := board.phase = .registering ∨ board.phase = .live

/-- What a step leaves as it is when it changes no more than where a registration stands. -/
structure Moves (board board' : Board) : Prop where
  shown : board'.shown = board.shown
  inFlight : board'.inFlight = board.inFlight
  closing : board'.Closing → board.Closing
  early : board'.Early → board.Early
  onDisplay : board'.OnDisplay → board.OnDisplay
  closed : board'.phase = .closed ↔ board.phase = .closed
  /-- Updates are scheduled at the end of a registration, and only these begin a refresh. -/
  idle : board.phase ≠ .registering → board.refresh = none → board.scheduled = false →
    board'.refresh = none ∧ board'.scheduled = false

end Board

/-- The steps, one case for each thing that can happen to the queues. -/
inductive Stepped (s : BoardProcess ι) (l : BoardLabel ι) : BoardProcess ι → Prop where
  | moves {board : Board} (hmoves : (s.boards l.board).Moves board) :
      Stepped s l (s.setBoard l.board board)
  | starts {queueIds : List (List String)} (hphase : (s.boards l.board).phase = .discovering) :
      Stepped s l { (s.construct (s.discoveredQueues config l.board queueIds)).setBoard l.board
          { s.boards l.board with
            phase := .registering, shown := s.discoveredQueues config l.board queueIds } with
        currentQueues := s.discoveredQueues config l.board queueIds }
  | throws {queueIds : List (List String)} {k : ℕ} {board : Board}
      (hmoves : (s.boards l.board).Moves board)
      (hlate : board.phase = .failed ∨ (s.boards l.board).refresh = some .discovering) :
      Stepped s l (((s.construct ((s.discoveredQueues config l.board queueIds).take k)).abandon
        ((s.discoveredQueues config l.board queueIds).take k)).setBoard l.board board)
  | replaces {queueIds : List (List String)}
      (hrefresh : (s.boards l.board).refresh = some .discovering) :
      Stepped s l
        ((s.construct (s.discoveredQueues config l.board queueIds)).closeCurrent.setBoard l.board
          { s.boards l.board with
            shown := s.discoveredQueues config l.board queueIds
            refresh := some (.closing (s.discoveredQueues config l.board queueIds)) })
  | takesOver {newQueues : List Queue}
      (hrefresh : (s.boards l.board).refresh = some (.closing newQueues)) :
      Stepped s l { s.setBoard l.board { s.boards l.board with refresh := none } with
        currentQueues := newQueues }
  | givesUp {newQueues : List Queue}
      (hrefresh : (s.boards l.board).refresh = some (.closing newQueues)) :
      Stepped s l
        ((s.abandon newQueues).setBoard l.board { s.boards l.board with refresh := none })
  | closes (hl : l = .closes l.board) (hphase : (s.boards l.board).phase = .live) :
      Stepped s l (s.closeCurrent.setBoard l.board { s.boards l.board with phase := .closed })

variable {config} {s s' : BoardProcess ι}

theorem stepped_of_boardStep {l : BoardLabel ι} (h : boardStep config s l = some s') :
    Stepped config s l s' := by
  cases l with
  | registers i =>
    simp only [boardStep] at h
    split at h
    · next hphase =>
      cases h
      refine .moves (l := .registers i) ⟨rfl, rfl, id, fun _ => .inl hphase, ?_, ?_,
        fun _ hrefresh hscheduled => ⟨hrefresh, hscheduled⟩⟩
      · by_cases hvalid : (config i).Valid <;> simp [Board.OnDisplay, hvalid]
      · by_cases hvalid : (config i).Valid <;> simp [BoardLabel.board, hphase, hvalid]
    · cases h
  | discovered i queueIds throwsAfter =>
    simp only [boardStep] at h
    split at h
    · next hphase => cases h; exact .starts (l := .discovered i queueIds none) hphase
    · next k hphase =>
      cases h
      exact .throws (l := .discovered i queueIds (some k)) ⟨rfl, rfl, id, by simp [Board.Early],
        by simp [Board.OnDisplay], by simp [BoardLabel.board, hphase],
        fun _ hrefresh hscheduled => ⟨hrefresh, hscheduled⟩⟩ (.inl rfl)
    · next hrefresh _ => cases h; exact .replaces (l := .discovered i queueIds none) hrefresh
    · next k hrefresh _ =>
      cases h
      exact .throws (l := .discovered i queueIds (some k)) ⟨rfl,
        by simp [BoardLabel.board, Board.inFlight, hrefresh], by simp [Board.Closing], id, id,
        Iff.rfl, fun _ _ hscheduled => ⟨rfl, hscheduled⟩⟩ (.inr hrefresh)
    · cases h
  | discoveryFailed i =>
    simp only [boardStep] at h
    split at h
    · next hphase =>
      cases h
      exact .moves (l := .discoveryFailed i) ⟨rfl, rfl, id, by simp [Board.Early],
        by simp [Board.OnDisplay], by simp [BoardLabel.board, hphase],
        fun _ hrefresh hscheduled => ⟨hrefresh, hscheduled⟩⟩
    · next hrefresh _ =>
      cases h
      exact .moves (l := .discoveryFailed i) ⟨rfl,
        by simp [BoardLabel.board, Board.inFlight, hrefresh], by simp [Board.Closing], id, id,
        Iff.rfl, fun _ _ hscheduled => ⟨rfl, hscheduled⟩⟩
    · cases h
  | registered i =>
    simp only [boardStep] at h
    split at h
    · next hphase =>
      cases h
      exact .moves (l := .registered i) ⟨rfl, rfl, id, by simp [Board.Early],
        fun _ => .inl hphase, by simp [BoardLabel.board, hphase], fun hnot => absurd hphase hnot⟩
    · cases h
  | registrationFailed i =>
    simp only [boardStep] at h
    split at h
    · next hphase =>
      cases h
      exact .moves (l := .registrationFailed i) ⟨rfl, rfl, id, by simp [Board.Early],
        fun _ => .inl hphase, by simp [BoardLabel.board, hphase], fun hnot => absurd hphase hnot⟩
    · cases h
  | refreshes i =>
    simp only [boardStep] at h
    split at h
    · next hcan =>
      cases h
      exact .moves (l := .refreshes i) ⟨rfl, by simp [BoardLabel.board, Board.inFlight, hcan.2],
        by simp [Board.Closing], id, id, Iff.rfl,
        fun _ _ hscheduled => by simp [BoardLabel.board, hcan.1] at hscheduled⟩
    · cases h
  | oldClosed i fulfilled =>
    simp only [boardStep] at h
    split at h
    · next hrefresh => cases h; exact .takesOver (l := .oldClosed i true) hrefresh
    · next hrefresh => cases h; exact .givesUp (l := .oldClosed i false) hrefresh
    · cases h
  | closes i =>
    simp only [boardStep] at h
    split at h
    · next hphase => cases h; exact .closes (l := .closes i) rfl hphase
    · cases h
  | schedulerStops i =>
    simp only [boardStep] at h
    split at h
    · cases h
      exact .moves (l := .schedulerStops i) ⟨rfl, rfl, id, id, id, Iff.rfl,
        fun _ hrefresh _ => ⟨hrefresh, rfl⟩⟩
    · cases h

end SharedTsLibs.FastifyBullboardPlugin
