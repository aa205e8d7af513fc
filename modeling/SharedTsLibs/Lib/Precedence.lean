import Mathlib.Data.List.Basic

/-!
# Lookups with precedence

Entries are looked up under a list of keys, the most specific first, and a feature is
read from what is found.  One way stops at the first entry there is; the other searches
the keys for the first entry that has the feature.

* `stopping`, `searching` — the two ways.
* `searching_eq_of_stopping` — where stopping finds the feature, searching finds the same.
* `searching_eq_stopping_iff` — when they agree.
* `findSome?_specific` — a search from a specific key over a possible one to a last one.
-/

namespace Precedence

variable {κ α β : Type*}

/-- The feature of the first entry there is. -/
def stopping (entry : κ → Option α) (feature : α → Option β) (keys : List κ) : Option β :=
  (keys.findSome? entry).bind feature

/-- The feature of the first entry that has it. -/
def searching (entry : κ → Option α) (feature : α → Option β) (keys : List κ) : Option β :=
  keys.findSome? fun k => (entry k).bind feature

variable {entry : κ → Option α} {feature : α → Option β} {keys : List κ}

theorem searching_eq_of_stopping {b : β} (h : stopping entry feature keys = some b) :
    searching entry feature keys = some b := by
  induction keys with
  | nil => simp [stopping] at h
  | cons k keys ih =>
    cases hk : entry k with
    | none =>
      have hrest : stopping entry feature keys = some b := by
        simpa [stopping, hk] using h
      have hsearch := ih hrest
      simpa [searching, hk] using hsearch
    | some a =>
      have ha : feature a = some b := by simpa [stopping, hk] using h
      simp [searching, hk, ha]

/-- Searching finds nothing exactly when no entry has the feature. -/
theorem searching_eq_none_iff :
    searching entry feature keys = none ↔ ∀ k ∈ keys, (entry k).bind feature = none := by
  rw [searching, List.findSome?_eq_none_iff]

/-- The two ways agree exactly when the first entry there is has the feature, or none of
the entries has it. -/
theorem searching_eq_stopping_iff :
    searching entry feature keys = stopping entry feature keys ↔
      (stopping entry feature keys).isSome ∨ ∀ k ∈ keys, (entry k).bind feature = none := by
  cases hstop : stopping entry feature keys with
  | none => simp [searching_eq_none_iff]
  | some b => simp [searching_eq_of_stopping hstop]

theorem findSome?_cons_eq_or (f : κ → Option β) (key : κ) (keys : List κ) :
    (key :: keys).findSome? f = (f key).or (keys.findSome? f) := by
  cases hkey : f key with
  | none => simp [hkey]
  | some b => simp [hkey]

/-- A search under a key, a broader one where there is one, and a last one. -/
theorem findSome?_specific (f : κ → Option β) (exact : κ) (broader : Option κ) (last : κ) :
    (exact :: broader.toList ++ [last]).findSome? f =
      ((f exact).or (broader.bind f)).or (f last) := by
  have hlast : [last].findSome? f = f last := by
    rw [findSome?_cons_eq_or, List.findSome?_nil, Option.or_none]
  cases broader with
  | none =>
    show (exact :: [last]).findSome? f = _
    rw [findSome?_cons_eq_or, hlast, Option.bind_none, Option.or_none]
  | some key =>
    show (exact :: key :: [last]).findSome? f = _
    rw [findSome?_cons_eq_or, findSome?_cons_eq_or, hlast, Option.bind_some, Option.or_assoc]

end Precedence
