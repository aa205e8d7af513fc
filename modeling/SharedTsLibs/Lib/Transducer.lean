import Mathlib.Data.List.Basic

/-!
# Transducers

A reader that is fed its input piece by piece and writes output as it goes.
What makes it one machine, and not one for each way of cutting the input, is
that feeding two pieces in turn is feeding them joined; a `Transducer` carries
that law.

* `Transducer` — the machine with its law.
* `ofStep` — the machine that reads one element at a time.
* `comp` — one machine reading what another writes.
* `feedChunks_flatten` — a list of chunks is read as their concatenation.
-/

/-- A machine that reads `α`s and writes `β`s, and does not see where its input
was cut. -/
structure Transducer (σ α β : Type*) where
  /-- The state after a piece of input, and what is written on it. -/
  feed : σ → List α → σ × List β
  feed_nil : ∀ s, feed s [] = (s, [])
  feed_append : ∀ s xs ys,
    feed s (xs ++ ys) = ((feed (feed s xs).1 ys).1, (feed s xs).2 ++ (feed (feed s xs).1 ys).2)

namespace Transducer

variable {σ τ α β γ : Type*}

/-! ## Machines that read one element at a time -/

/-- Feed a list to a step function. -/
def feedStep (step : σ → α → σ × List β) : σ → List α → σ × List β
  | s, [] => (s, [])
  | s, x :: xs =>
    ((feedStep step (step s x).1 xs).1, (step s x).2 ++ (feedStep step (step s x).1 xs).2)

theorem feedStep_append (step : σ → α → σ × List β) (s : σ) (xs ys : List α) :
    feedStep step s (xs ++ ys) = ((feedStep step (feedStep step s xs).1 ys).1,
      (feedStep step s xs).2 ++ (feedStep step (feedStep step s xs).1 ys).2) := by
  induction xs generalizing s with
  | nil => simp [feedStep]
  | cons x xs ih => simp [feedStep, ih]

/-- The machine of a step function. -/
def ofStep (step : σ → α → σ × List β) : Transducer σ α β where
  feed := feedStep step
  feed_nil _ := rfl
  feed_append := feedStep_append step

@[simp] theorem ofStep_feed_nil (step : σ → α → σ × List β) (s : σ) :
    (ofStep step).feed s [] = (s, []) := rfl

theorem ofStep_feed_cons (step : σ → α → σ × List β) (s : σ) (x : α) (xs : List α) :
    (ofStep step).feed s (x :: xs) = (((ofStep step).feed (step s x).1 xs).1,
      (step s x).2 ++ ((ofStep step).feed (step s x).1 xs).2) := rfl

/-! ## One machine after another -/

/-- `U` reads what `T` writes. -/
def comp (T : Transducer σ α β) (U : Transducer τ β γ) : Transducer (σ × τ) α γ where
  feed s xs := (((T.feed s.1 xs).1, (U.feed s.2 (T.feed s.1 xs).2).1),
    (U.feed s.2 (T.feed s.1 xs).2).2)
  feed_nil s := by simp [T.feed_nil, U.feed_nil]
  feed_append s xs ys := by simp [T.feed_append, U.feed_append]

/-! ## Chunks -/

/-- Feed the chunks one after the other. -/
def feedChunks (T : Transducer σ α β) : σ → List (List α) → σ × List β
  | s, [] => (s, [])
  | s, c :: cs =>
    ((T.feedChunks (T.feed s c).1 cs).1, (T.feed s c).2 ++ (T.feedChunks (T.feed s c).1 cs).2)

/-- However the input is cut into chunks, the machine ends in the same state and
writes the same output. -/
theorem feedChunks_flatten (T : Transducer σ α β) (s : σ) (cs : List (List α)) :
    T.feedChunks s cs = T.feed s cs.flatten := by
  induction cs generalizing s with
  | nil => rw [List.flatten_nil, T.feed_nil, feedChunks]
  | cons c cs ih => rw [List.flatten_cons, T.feed_append, feedChunks, ih]

end Transducer
