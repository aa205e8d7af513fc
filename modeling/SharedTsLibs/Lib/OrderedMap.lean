import Mathlib.Data.List.Basic

/-!
# Insertion-ordered maps

The maps and the plain objects of JavaScript: a finite list of entries in the
order their keys were first written.  Writing a known key keeps its place,
writing a new one appends it, and `spread` is what `{ ...m, ...m' }` does.
-/

namespace OrderedMap

variable {κ α : Type*} [DecidableEq κ]

/-- The value under a key. -/
def get? (m : List (κ × α)) (k : κ) : Option α := (m.find? (·.1 = k)).map Prod.snd

/-- Write a value under a key. -/
def set (k : κ) (v : α) : List (κ × α) → List (κ × α)
  | [] => [(k, v)]
  | e :: m => if e.1 = k then (k, v) :: m else e :: set k v m

/-- Drop a key. -/
def delete (k : κ) (m : List (κ × α)) : List (κ × α) := m.filter (·.1 ≠ k)

/-- Write every entry of `m'` over `m`. -/
def spread (m m' : List (κ × α)) : List (κ × α) := m'.foldl (fun acc e => set e.1 e.2 acc) m

/-- The keys, in order. -/
def keys (m : List (κ × α)) : List κ := m.map Prod.fst

omit [DecidableEq κ] in
@[simp] theorem keys_nil : keys ([] : List (κ × α)) = [] := rfl

omit [DecidableEq κ] in
@[simp] theorem keys_cons (e : κ × α) (m : List (κ × α)) : keys (e :: m) = e.1 :: keys m := rfl

@[simp] theorem mem_keys_set {k k' : κ} {v : α} {m : List (κ × α)} :
    k' ∈ keys (set k v m) ↔ k' = k ∨ k' ∈ keys m := by
  induction m with
  | nil => simp [set]
  | cons e m ih =>
    by_cases h : e.1 = k
    · simp [set, h]
    · rw [set, if_neg h, keys_cons, List.mem_cons, ih, keys_cons, List.mem_cons, or_left_comm]

@[simp] theorem mem_keys_delete {k k' : κ} {m : List (κ × α)} :
    k' ∈ keys (delete k m) ↔ k' ∈ keys m ∧ k' ≠ k := by
  simp only [keys, delete, List.mem_map, List.mem_filter, decide_eq_true_eq]
  constructor
  · rintro ⟨e, ⟨he, hne⟩, rfl⟩
    exact ⟨⟨e, he, rfl⟩, hne⟩
  · rintro ⟨⟨e, he, rfl⟩, hne⟩
    exact ⟨e, ⟨he, hne⟩, rfl⟩

@[simp] theorem mem_keys_spread {k : κ} {m m' : List (κ × α)} :
    k ∈ keys (spread m m') ↔ k ∈ keys m ∨ k ∈ keys m' := by
  induction m' generalizing m with
  | nil => simp [spread]
  | cons e m' ih =>
    rw [spread, List.foldl_cons, ← spread, ih, mem_keys_set, keys_cons, List.mem_cons, or_assoc,
      or_left_comm]

theorem get?_cons {k : κ} {e : κ × α} {m : List (κ × α)} :
    get? (e :: m) k = if e.1 = k then some e.2 else get? m k := by
  by_cases h : e.1 = k
  · simp [get?, h]
  · simp [get?, h]

/-- A search that only the entries of a key pass is a lookup of the key. -/
theorem find?_map_snd {m : List (κ × α)} {p : κ × α → Bool} {k : κ}
    (h : ∀ e ∈ m, p e = true ↔ e.1 = k) : (m.find? p).map Prod.snd = get? m k := by
  induction m with
  | nil => rfl
  | cons e m ih =>
    rw [List.forall_mem_cons] at h
    rw [get?_cons]
    by_cases hkey : e.1 = k
    · rw [List.find?_cons_of_pos (h.1.2 hkey), if_pos hkey, Option.map_some]
    · rw [List.find?_cons_of_neg fun hp => hkey (h.1.1 hp), if_neg hkey, ih h.2]

theorem get?_set {k k' : κ} {v : α} {m : List (κ × α)} :
    get? (set k v m) k' = if k = k' then some v else get? m k' := by
  induction m with
  | nil => rw [set, get?_cons]
  | cons e m ih =>
    rw [set]
    split
    · rename_i h
      rw [get?_cons, get?_cons, h]
      split <;> rfl
    · rename_i h
      rw [get?_cons, get?_cons, ih]
      by_cases he : e.1 = k'
      · rw [if_pos he, if_pos he, if_neg fun hk => h (he.trans hk.symm)]
      · rw [if_neg he, if_neg he]

/-- The later of two writes under a key is the one that counts. -/
theorem set_set {k : κ} {v w : α} {m : List (κ × α)} :
    set k v (set k w m) = set k v m := by
  induction m with
  | nil => simp [set]
  | cons e m ih =>
    by_cases h : e.1 = k
    · simp [set, h]
    · rw [set, if_neg h, set, if_neg h, ih, set, if_neg h]

theorem get?_delete {k k' : κ} {m : List (κ × α)} :
    get? (delete k m) k' = if k = k' then none else get? m k' := by
  induction m with
  | nil => simp [delete, get?]
  | cons e m ih =>
    rw [delete, List.filter_cons]
    by_cases he : e.1 = k
    · rw [if_neg (by simp [he]), ← delete, ih, get?_cons, he]
      split <;> rfl
    · rw [if_pos (by simp [he]), ← delete, get?_cons, get?_cons, ih]
      by_cases hk : e.1 = k'
      · rw [if_pos hk, if_pos hk, if_neg fun h => he (hk.trans h.symm)]
      · rw [if_neg hk, if_neg hk]

theorem delete_of_get?_eq_none {k : κ} {m : List (κ × α)} (h : get? m k = none) :
    delete k m = m := by
  rw [get?, Option.map_eq_none_iff, List.find?_eq_none] at h
  rw [delete, List.filter_eq_self]
  intro e he
  simpa using h e he

theorem nodup_keys_set {k : κ} {v : α} {m : List (κ × α)} (h : (keys m).Nodup) :
    (keys (set k v m)).Nodup := by
  induction m with
  | nil => simp [set]
  | cons e m ih =>
    rw [keys_cons, List.nodup_cons] at h
    rw [set]
    split
    · rename_i he
      rw [keys_cons, List.nodup_cons, ← he]
      exact h
    · rename_i he
      rw [keys_cons, List.nodup_cons, mem_keys_set, not_or]
      exact ⟨⟨he, h.1⟩, ih h.2⟩

theorem nodup_keys_spread {m m' : List (κ × α)} (h : (keys m).Nodup) :
    (keys (spread m m')).Nodup := by
  induction m' generalizing m with
  | nil => exact h
  | cons e m' ih =>
    rw [spread, List.foldl_cons, ← spread]
    exact ih (nodup_keys_set h)

/-- What is written over two maps that agree under a key agrees under it. -/
theorem get?_spread_congr {k : κ} {m n m' : List (κ × α)} (h : get? m k = get? n k) :
    get? (spread m m') k = get? (spread n m') k := by
  induction m' generalizing m n with
  | nil => exact h
  | cons e m' ih =>
    rw [spread, spread, List.foldl_cons, List.foldl_cons]
    apply ih
    rw [get?_set, get?_set, h]

/-- A key that is not written over keeps its value. -/
theorem get?_spread_of_notMem {k : κ} {m m' : List (κ × α)} (h : k ∉ keys m') :
    get? (spread m m') k = get? m k := by
  induction m' generalizing m with
  | nil => rfl
  | cons e m' ih =>
    rw [keys_cons, List.mem_cons, not_or] at h
    show get? (spread (set e.1 e.2 m) m') k = _
    rw [ih h.2, get?_set, if_neg (Ne.symm h.1)]

theorem set_of_notMem {k : κ} {v : α} {m : List (κ × α)} (h : k ∉ keys m) :
    set k v m = m ++ [(k, v)] := by
  induction m with
  | nil => rfl
  | cons e m ih =>
    rw [keys_cons, List.mem_cons, not_or] at h
    rw [set, if_neg (Ne.symm h.1), ih h.2, List.cons_append]

/-- New entries are appended. -/
theorem spread_eq_append {m m' : List (κ × α)} (h : (keys (m ++ m')).Nodup) :
    spread m m' = m ++ m' := by
  induction m' generalizing m with
  | nil => rw [List.append_nil]; rfl
  | cons e m' ih =>
    have hassoc : m ++ e :: m' = (m ++ [e]) ++ m' := by simp
    have hnew : e.1 ∉ keys m := by
      rw [keys, List.map_append, List.nodup_append] at h
      intro hmem
      exact h.2.2 e.1 hmem e.1 (by simp) rfl
    rw [spread, List.foldl_cons, set_of_notMem hnew, ← spread, hassoc]
    exact ih (hassoc ▸ h)

theorem spread_nil {m : List (κ × α)} (h : (keys m).Nodup) : spread [] m = m :=
  spread_eq_append h

theorem get?_isSome_iff {k : κ} {m : List (κ × α)} : (get? m k).isSome ↔ k ∈ keys m := by
  rw [get?, Option.isSome_map, List.find?_isSome, keys, List.mem_map]
  simp

theorem get?_eq_none_iff {k : κ} {m : List (κ × α)} : get? m k = none ↔ k ∉ keys m := by
  rw [← get?_isSome_iff, Option.not_isSome_iff_eq_none]

theorem mem_of_get? {k : κ} {v : α} {m : List (κ × α)} (h : get? m k = some v) : (k, v) ∈ m := by
  obtain ⟨⟨k', v'⟩, hfind, rfl⟩ := Option.map_eq_some_iff.1 h
  have hk : k' = k := by simpa using List.find?_some hfind
  exact hk ▸ List.mem_of_find?_eq_some hfind

/-- A map without repetitions holds one value under a key. -/
theorem get?_eq_some_iff {k : κ} {v : α} {m : List (κ × α)} (h : (keys m).Nodup) :
    get? m k = some v ↔ (k, v) ∈ m := by
  induction m with
  | nil => simp [get?]
  | cons e m ih =>
    obtain ⟨k', v'⟩ := e
    rw [keys_cons, List.nodup_cons] at h
    rw [get?_cons, List.mem_cons, ← ih h.2, Prod.mk.injEq]
    by_cases hk : k' = k
    · subst hk
      rw [if_pos rfl, get?_eq_none_iff.2 h.1]
      simp [eq_comm]
    · simp [hk, Ne.symm hk]

end OrderedMap
