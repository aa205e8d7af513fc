import Mathlib.Data.List.Basic
import Mathlib.Data.List.Flatten

/-!
# Scanning with a regular expression

What `split`, `replace`, `matchAll` and a loop of `exec` do with a regular expression that
never matches the empty text: each goes from match to match, always to the leftmost one.

* `RegExp` — what an expression matches at the front of a text.
* `segments` — the text before the first match, and each match with the text after it.
* `split`, `allMatches`, `replace` — the three readings of the segments.
* `exec`, `collect` — the search from `lastIndex`, and the loop around it.
* `collect_eq` — the loop finds all matches and leaves `lastIndex` at zero.
* `placedSplit`, `Gap` — the pieces of `split` with their places, and what is around them.
-/

/-- A regular expression, by the match it finds at the front of a text. -/
structure RegExp (α : Type*) where
  front : List α → Option (List α)
  /-- A match is read from the text, and is not empty. -/
  front_spec : ∀ s m, front s = some m → m ≠ [] ∧ ∃ rest, s = m ++ rest

namespace RegExp

variable {α : Type*} (r : RegExp α)

/-- Go through a text, with some elements still to be passed over. -/
def scan : ℕ → List α → List α × List (List α × List α)
  | _, [] => ([], [])
  | skip + 1, _ :: s => scan skip s
  | 0, a :: s =>
    match r.front (a :: s) with
    | some m => ([], (m, (scan (m.length - 1) s).1) :: (scan (m.length - 1) s).2)
    | none => (a :: (scan 0 s).1, (scan 0 s).2)

/-- The text before the first match, and each match with the text up to the next one. -/
def segments (s : List α) : List α × List (List α × List α) := r.scan 0 s

/-- `s.split(r)` -/
def split (s : List α) : List (List α) := (r.segments s).1 :: (r.segments s).2.map Prod.snd

/-- `s.matchAll(r)` -/
def allMatches (s : List α) : List (List α) := (r.segments s).2.map Prod.fst

/-- `s.replace(r, f)` for an `r` with the flag `g`. -/
def replace (f : List α → List α) (s : List α) : List α :=
  (r.segments s).1 ++ (r.segments s).2.flatMap fun p => f p.1 ++ p.2

theorem scan_eq_drop (n : ℕ) (s : List α) : r.scan n s = r.segments (s.drop n) := by
  induction n generalizing s with
  | zero => rfl
  | succ n ih =>
    cases s with
    | nil => rfl
    | cons a s => exact ih s

@[simp] theorem segments_nil : r.segments [] = ([], []) := rfl

variable {r}

/-- A match at the front of the text. -/
theorem segments_of_match {m rest : List α} (h : r.front (m ++ rest) = some m) :
    r.segments (m ++ rest) = ([], (m, (r.segments rest).1) :: (r.segments rest).2) := by
  obtain ⟨hne, -⟩ := r.front_spec _ m h
  obtain ⟨a, m, rfl⟩ := List.exists_cons_of_ne_nil hne
  rw [segments, List.cons_append, scan, ← List.cons_append, h]
  simp [scan_eq_drop]

/-- No match at the front of the text. -/
theorem segments_of_no_match {a : α} {s : List α} (h : r.front (a :: s) = none) :
    r.segments (a :: s) = (a :: (r.segments s).1, (r.segments s).2) := by
  rw [segments, scan, h]
  rfl

theorem replace_of_match {m rest : List α} (h : r.front (m ++ rest) = some m)
    (f : List α → List α) : r.replace f (m ++ rest) = f m ++ r.replace f rest := by
  rw [replace, segments_of_match h, replace, List.flatMap_cons, List.nil_append,
    List.append_assoc]

theorem replace_of_no_match {a : α} {s : List α} (h : r.front (a :: s) = none)
    (f : List α → List α) : r.replace f (a :: s) = a :: r.replace f s := by
  rw [replace, segments_of_no_match h, replace, List.cons_append]

/-- A text in which nothing is found stays as it is. -/
theorem replace_eq_self {s : List α} (h : ∀ k, r.front (s.drop k) = none)
    (f : List α → List α) : r.replace f s = s := by
  induction s with
  | nil => rfl
  | cons a s ih => rw [replace_of_no_match (h 0), ih fun k => h (k + 1)]

/-- The front of a text in which no match begins stays as it is. -/
theorem replace_append {s t : List α} (h : ∀ k < s.length, r.front ((s ++ t).drop k) = none)
    (f : List α → List α) : r.replace f (s ++ t) = s ++ r.replace f t := by
  induction s with
  | nil => rfl
  | cons a s ih =>
    have hfirst : r.front (a :: (s ++ t)) = none := h 0 (Nat.succ_pos _)
    have hrest := ih fun k hk => h (k + 1) (Nat.succ_lt_succ hk)
    rw [List.cons_append, replace_of_no_match hfirst, hrest, List.cons_append]

/-- A text in which no match begins. -/
theorem segments_append {s : List α} (h : ∀ a ∈ s, ∀ t, r.front (a :: t) = none) (t : List α) :
    r.segments (s ++ t) = (s ++ (r.segments t).1, (r.segments t).2) := by
  induction s with
  | nil => rfl
  | cons a s ih =>
    rw [List.cons_append, segments_of_no_match (h a List.mem_cons_self _),
      ih fun b hb => h b (List.mem_cons_of_mem a hb)]
    rfl

/-- The two ways a text can begin. -/
theorem segments_cases (s : List α) : s = [] ∨
    (∃ m rest, s = m ++ rest ∧ m ≠ [] ∧
      r.segments s = ([], (m, (r.segments rest).1) :: (r.segments rest).2)) ∨
    ∃ a rest, s = a :: rest ∧ r.segments s = (a :: (r.segments rest).1, (r.segments rest).2) := by
  cases s with
  | nil => exact Or.inl rfl
  | cons a s =>
    right
    cases hfront : r.front (a :: s) with
    | none => exact Or.inr ⟨a, s, rfl, segments_of_no_match hfront⟩
    | some m =>
      obtain ⟨hne, rest, hrest⟩ := r.front_spec _ m hfront
      rw [hrest] at hfront
      exact Or.inl ⟨m, rest, hrest, hne, hrest ▸ segments_of_match hfront⟩

/-- The pieces of a text put together: the text without its matches. -/
theorem flatten_split (s : List α) : (r.split s).flatten = r.replace (fun _ => []) s := by
  rw [split, replace, List.flatten_cons, List.flatMap_def]
  rfl

/-! ## Matches that follow one another -/

variable (r)

/-- The run of matches at the front of a text, with some elements still to be taken. -/
def runFrom : ℕ → List α → List α
  | _, [] => []
  | skip + 1, a :: s => a :: runFrom skip s
  | 0, a :: s =>
    match r.front (a :: s) with
    | some m => a :: runFrom (m.length - 1) s
    | none => []

/-- What `(?:r)+` takes from the front of a text, nothing where it does not match. -/
def run (s : List α) : List α := r.runFrom 0 s

theorem runFrom_append (m s : List α) : r.runFrom m.length (m ++ s) = m ++ r.run s := by
  induction m with
  | nil => rfl
  | cons a m ih => rw [List.length_cons, List.cons_append, runFrom, ih, List.cons_append]

variable {r}

theorem run_of_match {m rest : List α} (h : r.front (m ++ rest) = some m) :
    r.run (m ++ rest) = m ++ r.run rest := by
  obtain ⟨hne, -⟩ := r.front_spec _ m h
  obtain ⟨a, m, rfl⟩ := List.exists_cons_of_ne_nil hne
  rw [run, List.cons_append, runFrom, ← List.cons_append, h]
  simp only [List.length_cons, Nat.add_sub_cancel, runFrom_append, List.cons_append]

theorem run_of_no_match {s : List α} (h : r.front s = none) : r.run s = [] := by
  cases s with
  | nil => rfl
  | cons a s => rw [run, runFrom, h]

/-! ## The stateful search -/

variable (r)

/-- `r.exec(s)` for an `r` with the flag `g`: what is found, and the next `lastIndex`. -/
def exec (s : List α) (lastIndex : ℕ) : Option (List α) × ℕ :=
  if s.length < lastIndex then (none, 0)
  else
    match r.segments (s.drop lastIndex) with
    | (before, (m, _) :: _) => (some m, lastIndex + before.length + m.length)
    | (_, []) => (none, 0)

/-- The loop of `exec` until nothing is found, with a bound on its rounds. -/
def collect (s : List α) : ℕ → ℕ → List (List α) × ℕ
  | 0, lastIndex => ([], lastIndex)
  | fuel + 1, lastIndex =>
    match r.exec s lastIndex with
    | (some m, next) => (m :: (collect s fuel next).1, (collect s fuel next).2)
    | (none, next) => ([], next)

variable {r}

/-- After the first match the rest of the segments is found. -/
theorem segments_drop {s before m after : List α} {rest : List (List α × List α)}
    (h : r.segments s = (before, (m, after) :: rest)) :
    m ≠ [] ∧ before.length + m.length ≤ s.length ∧
      r.segments (s.drop (before.length + m.length)) = (after, rest) := by
  induction s generalizing before with
  | nil => simp at h
  | cons a s ih =>
    rcases segments_cases (r := r) (a :: s) with hnil | ⟨m', t, hs, hne, hseg⟩ | ⟨b, t, hs, hseg⟩
    · cases hnil
    · rw [hseg] at h
      simp only [Prod.mk.injEq, List.cons.injEq] at h
      obtain ⟨rfl, ⟨rfl, rfl⟩, rfl⟩ := h
      rw [hs]
      simp [hne]
    · cases hs
      cases hsegments : r.segments s with
      | mk first found =>
        rw [hseg, hsegments] at h
        simp only [Prod.mk.injEq] at h
        obtain ⟨rfl, rfl⟩ := h
        obtain ⟨hne, hle, hdrop⟩ := ih hsegments
        have hlength : (a :: first).length + m.length = (first.length + m.length) + 1 := by
          simp only [List.length_cons]
          omega
        rw [hlength, List.length_cons, List.drop_succ_cons]
        exact ⟨hne, Nat.succ_le_succ hle, hdrop⟩

/-- The loop finds the matches from `lastIndex` on and ends with `lastIndex` at zero. -/
theorem collect_eq (s : List α) {fuel lastIndex : ℕ} (hindex : lastIndex ≤ s.length)
    (hfuel : s.length - lastIndex < fuel) :
    r.collect s fuel lastIndex = (r.allMatches (s.drop lastIndex), 0) := by
  induction fuel generalizing lastIndex with
  | zero => omega
  | succ fuel ih =>
    cases hseg : r.segments (s.drop lastIndex) with
    | mk before found =>
      rw [collect, exec, if_neg (Nat.not_lt.2 hindex), hseg]
      cases found with
      | nil => simp [allMatches, hseg]
      | cons p rest =>
        obtain ⟨m, after⟩ := p
        obtain ⟨hne, hle, hdrop⟩ := segments_drop hseg
        have hpos := List.length_pos_iff.2 hne
        rw [List.length_drop] at hle
        rw [List.drop_drop] at hdrop
        have hnext := @ih (lastIndex + before.length + m.length) (by omega) (by omega)
        simp only [hnext, allMatches, hseg, List.map_cons]
        rw [Nat.add_assoc, hdrop]

/-! ## Where the pieces are -/

variable (r)

/-- The pieces of some segments, each with the place where it begins. -/
def placePieces : ℕ → List α → List (List α × List α) → List (ℕ × List α)
  | place, before, [] => [(place, before)]
  | place, before, (m, after) :: rest =>
    (place, before) :: placePieces (place + before.length + m.length) after rest

/-- `s.split(r)` for a text that begins at a place, with the place of each piece. -/
def placedSplit (place : ℕ) (s : List α) : List (ℕ × List α) :=
  placePieces place (r.segments s).1 (r.segments s).2

/-- From `i` to `j` no match begins, and there is one on both sides or the text is over. -/
structure Gap (s : List α) (i j : ℕ) : Prop where
  le : i ≤ j
  le_length : j ≤ s.length
  start : i = 0 ∨ ∃ k m, r.front (s.drop k) = some m ∧ k + m.length = i
  stop : j = s.length ∨ ∃ m, r.front (s.drop j) = some m
  clear : ∀ k, i ≤ k → k < j → r.front (s.drop k) = none

theorem map_snd_placedSplit (place : ℕ) (s : List α) :
    (r.placedSplit place s).map Prod.snd = r.split s := by
  have hpieces : ∀ found place before, (placePieces place before found).map Prod.snd
      = before :: found.map (Prod.snd (α := List α)) := by
    intro found
    induction found with
    | nil => exact fun place before => rfl
    | cons p rest ih =>
      intro place before
      rw [placePieces, List.map_cons, ih]
      rfl
  exact hpieces _ place _

variable {r}

/-- A text is read match by match. -/
theorem text_induction {motive : List α → Prop} (nil : motive [])
    (found : ∀ m rest, r.front (m ++ rest) = some m → motive rest → motive (m ++ rest))
    (passed : ∀ a s, r.front (a :: s) = none → motive s → motive (a :: s)) (s : List α) :
    motive s := by
  induction hn : s.length using Nat.strongRecOn generalizing s with
  | ind n ih =>
    subst hn
    cases s with
    | nil => exact nil
    | cons a s =>
      cases hfront : r.front (a :: s) with
      | none => exact passed a s hfront (ih s.length (by simp) s rfl)
      | some m =>
        obtain ⟨hne, rest, hrest⟩ := r.front_spec _ m hfront
        have hpos := List.length_pos_iff.2 hne
        rw [hrest] at hfront ih ⊢
        exact found m rest hfront (ih rest.length (by simp; omega) rest rfl)

/-- What holds of the elements that are passed over and of those that are put in holds of
all that the replacement leaves. -/
theorem forall_mem_replace {f : List α → List α} {P : α → Prop}
    (passed : ∀ a s, r.front (a :: s) = none → P a)
    (found : ∀ m rest, r.front (m ++ rest) = some m → ∀ a ∈ f m, P a) (s : List α) :
    ∀ a ∈ r.replace f s, P a := by
  induction s using r.text_induction with
  | nil => exact fun a ha => absurd ha List.not_mem_nil
  | found m rest hfront ih =>
    rw [replace_of_match hfront]
    intro a ha
    rcases List.mem_append.1 ha with ha | ha
    · exact found m rest hfront a ha
    · exact ih a ha
  | passed a s hfront ih =>
    rw [replace_of_no_match hfront]
    intro b hb
    rcases List.mem_cons.1 hb with rfl | hb
    · exact passed b s hfront
    · exact ih b hb

theorem placedSplit_of_match {m rest : List α} (h : r.front (m ++ rest) = some m) (place : ℕ) :
    r.placedSplit place (m ++ rest) = (place, []) :: r.placedSplit (place + m.length) rest := by
  rw [placedSplit, segments_of_match h]
  rfl

/-- The first piece begins one unit earlier, the others where they were. -/
theorem placedSplit_of_no_match {a : α} {s : List α} (h : r.front (a :: s) = none) (place : ℕ) :
    ∃ first pieces, r.placedSplit (place + 1) s = (place + 1, first) :: pieces ∧
      r.placedSplit place (a :: s) = (place, a :: first) :: pieces := by
  rw [placedSplit, placedSplit, segments_of_no_match h]
  cases (r.segments s).2 with
  | nil => exact ⟨_, [], rfl, rfl⟩
  | cons p rest =>
    have hlength : ∀ first : List α,
        place + 1 + first.length = place + (a :: first).length := by
      intro first
      rw [List.length_cons, Nat.add_assoc, Nat.add_comm 1]
    refine ⟨_, _, rfl, ?_⟩
    rw [placePieces, hlength]

theorem Gap.of_match {m rest : List α} {i j : ℕ} (hfront : r.front (m ++ rest) = some m)
    (h : r.Gap rest i j) : r.Gap (m ++ rest) (m.length + i) (m.length + j) where
  le := Nat.add_le_add_left h.le _
  le_length := by
    rw [List.length_append]
    exact Nat.add_le_add_left h.le_length _
  start := by
    rcases h.start with rfl | ⟨k, m', hk, rfl⟩
    · exact Or.inr ⟨0, m, hfront, Nat.zero_add _⟩
    · exact Or.inr ⟨m.length + k, m', by simpa using hk, Nat.add_assoc _ _ _⟩
  stop := by
    rcases h.stop with rfl | ⟨m', hj⟩
    · exact Or.inl (List.length_append).symm
    · exact Or.inr ⟨m', by simpa using hj⟩
  clear k hik hkj := by
    obtain ⟨n, rfl⟩ := Nat.exists_eq_add_of_le (show m.length ≤ k by omega)
    simpa using h.clear n (by omega) (by omega)

theorem Gap.of_later {a : α} {s : List α} {i j : ℕ} (hi : 0 < i) (h : r.Gap s i j) :
    r.Gap (a :: s) (i + 1) (j + 1) where
  le := Nat.succ_le_succ h.le
  le_length := Nat.succ_le_succ h.le_length
  start := by
    rcases h.start with rfl | ⟨k, m, hk, rfl⟩
    · exact absurd hi (Nat.lt_irrefl 0)
    · exact Or.inr ⟨k + 1, m, hk, Nat.succ_add _ _⟩
  stop := by
    rcases h.stop with rfl | hj
    · exact Or.inl rfl
    · exact Or.inr hj
  clear k hik hkj := by
    obtain ⟨n, rfl⟩ := Nat.exists_eq_add_of_le' (show 1 ≤ k by omega)
    exact h.clear n (by omega) (by omega)

theorem Gap.of_first {a : α} {s : List α} {j : ℕ} (hfront : r.front (a :: s) = none)
    (h : r.Gap s 0 j) : r.Gap (a :: s) 0 (j + 1) where
  le := Nat.zero_le _
  le_length := Nat.succ_le_succ h.le_length
  start := Or.inl rfl
  stop := by
    rcases h.stop with rfl | hj
    · exact Or.inl rfl
    · exact Or.inr hj
  clear k hik hkj := by
    cases k with
    | zero => exact hfront
    | succ k => exact h.clear k (Nat.zero_le _) (by omega)

/-- The first piece runs to the first match, and every other one begins at the end of a
match. -/
theorem gaps_of_placedSplit (s : List α) :
    (∀ place, ∃ j pieces, r.Gap s 0 j ∧ r.placedSplit place s = (place, s.take j) :: pieces) ∧
      ∀ place, ∀ p ∈ (r.placedSplit place s).tail, ∃ i j, 0 < i ∧ r.Gap s i j ∧
        p = (place + i, (s.drop i).take (j - i)) := by
  induction s using r.text_induction with
  | nil =>
    refine ⟨fun place => ⟨0, [], ⟨Nat.le_refl _, Nat.le_refl _, Or.inl rfl, Or.inl rfl, ?_⟩, rfl⟩,
      fun place p hp => absurd hp List.not_mem_nil⟩
    intro k hk hk'
    omega
  | found m rest hfront ih =>
    have hpos := List.length_pos_iff.2 (r.front_spec _ m hfront).1
    constructor
    · intro place
      refine ⟨0, _, ⟨Nat.le_refl _, Nat.zero_le _, Or.inl rfl, Or.inr ⟨m, hfront⟩, ?_⟩,
        placedSplit_of_match hfront place⟩
      intro k hk hk'
      omega
    · intro place p hp
      rw [placedSplit_of_match hfront, List.tail_cons] at hp
      obtain ⟨j, pieces, hgap, hpieces⟩ := ih.1 (place + m.length)
      rw [hpieces] at hp
      rcases List.mem_cons.1 hp with rfl | hp
      · refine ⟨m.length, m.length + j, hpos, hgap.of_match hfront, ?_⟩
        simp
      · obtain ⟨i, j, hi, hgap, rfl⟩ := ih.2 (place + m.length) p (by rw [hpieces]; exact hp)
        refine ⟨m.length + i, m.length + j, by omega, hgap.of_match hfront, ?_⟩
        rw [Nat.add_sub_add_left, ← List.drop_drop, List.drop_left, Nat.add_assoc]
  | passed a s hfront ih =>
    constructor
    · intro place
      obtain ⟨first, pieces, hs, has⟩ := placedSplit_of_no_match hfront place
      obtain ⟨j, pieces', hgap, hpieces⟩ := ih.1 (place + 1)
      rw [hs] at hpieces
      cases hpieces
      exact ⟨j + 1, pieces, hgap.of_first hfront, has⟩
    · intro place p hp
      obtain ⟨first, pieces, hs, has⟩ := placedSplit_of_no_match hfront place
      rw [has] at hp
      obtain ⟨i, j, hi, hgap, rfl⟩ := ih.2 (place + 1) p (by rw [hs]; exact hp)
      refine ⟨i + 1, j + 1, Nat.succ_pos _, hgap.of_later hi, ?_⟩
      rw [Nat.add_sub_add_right, List.drop_succ_cons, Nat.add_right_comm, Nat.add_assoc]

/-- Every piece is a gap between matches. -/
theorem gap_of_mem_placedSplit {place : ℕ} {s : List α} {p : ℕ × List α}
    (h : p ∈ r.placedSplit place s) :
    ∃ i j, r.Gap s i j ∧ p = (place + i, (s.drop i).take (j - i)) := by
  obtain ⟨hhead, htail⟩ := r.gaps_of_placedSplit s
  obtain ⟨j, pieces, hgap, hpieces⟩ := hhead place
  rw [hpieces] at h
  rcases List.mem_cons.1 h with rfl | hp
  · exact ⟨0, j, hgap, rfl⟩
  · obtain ⟨i, j, -, hgap, rfl⟩ := htail place p (by rw [hpieces]; exact hp)
    exact ⟨i, j, hgap, rfl⟩

/-- Every place of a text is in a piece or in a match. -/
theorem mem_placedSplit_or_match {s : List α} {k : ℕ} (hk : k < s.length) (place : ℕ) :
    (∃ p ∈ r.placedSplit place s, p.1 ≤ place + k ∧ place + k < p.1 + p.2.length) ∨
      ∃ i m, r.front (s.drop i) = some m ∧ i ≤ k ∧ k < i + m.length := by
  induction s using r.text_induction generalizing k place with
  | nil => exact absurd hk (Nat.not_lt_zero k)
  | found m rest hfront ih =>
    by_cases hm : k < m.length
    · exact Or.inr ⟨0, m, hfront, Nat.zero_le k, by omega⟩
    · obtain ⟨n, rfl⟩ := Nat.exists_eq_add_of_le (Nat.not_lt.1 hm)
      rw [List.length_append] at hk
      rcases ih (k := n) (by omega) (place + m.length) with
        ⟨p, hp, hle, hlt⟩ | ⟨i, m', hi, hle, hlt⟩
      · rw [placedSplit_of_match hfront]
        exact Or.inl ⟨p, List.mem_cons_of_mem _ hp, by omega, by omega⟩
      · exact Or.inr ⟨m.length + i, m', by simpa using hi, by omega, by omega⟩
  | passed a s hfront ih =>
    obtain ⟨first, pieces, hs, has⟩ := placedSplit_of_no_match hfront place
    rw [has]
    cases k with
    | zero => exact Or.inl ⟨_, List.mem_cons_self, Nat.le_refl _, by simp⟩
    | succ k =>
      rcases ih (Nat.lt_of_succ_lt_succ hk) (place + 1) with
        ⟨p, hp, hle, hlt⟩ | ⟨i, m, hi, hle, hlt⟩
      · rw [hs] at hp
        rcases List.mem_cons.1 hp with rfl | hp
        · refine Or.inl ⟨_, List.mem_cons_self, by simp, ?_⟩
          simp only [List.length_cons] at hlt ⊢
          omega
        · exact Or.inl ⟨p, List.mem_cons_of_mem _ hp, by omega, by omega⟩
      · exact Or.inr ⟨i + 1, m, hi, by omega, by omega⟩

end RegExp
