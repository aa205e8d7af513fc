import SharedTsLibs.Lib.OrderedMap
import Mathlib.Data.List.Induction

/-!
# Grouping rows

Rows are gathered in a map by a key: the first row of a key makes an entry, and every row of
the key is added to it.

* `into`, `group` — one row, and a list of rows.
* `get?_group` — the entry of a key is made of the rows that have the key, in their order.
-/

namespace Grouping

variable {ρ κ α : Type*} [DecidableEq κ] (key : ρ → κ) (init : ρ → α) (add : α → ρ → α)

/-- A row is added to the entry of its key. -/
def into (m : List (κ × α)) (row : ρ) : List (κ × α) :=
  OrderedMap.set (key row) (add ((OrderedMap.get? m (key row)).getD (init row)) row) m

def group (rows : List ρ) : List (κ × α) := rows.foldl (into key init add) []

/-- The entry that some rows of one key make. -/
def entry (rows : List ρ) : Option α := rows.head?.map fun row => rows.foldl add (init row)

theorem entry_concat (rows : List ρ) (row : ρ) :
    entry init add (rows ++ [row]) = some (add ((entry init add rows).getD (init row)) row) := by
  cases rows with
  | nil => rfl
  | cons first rows => simp [entry, List.foldl_append]

theorem entry_map {σ : Type*} (f : σ → ρ) (rows : List σ) :
    entry init add (rows.map f) =
      entry (fun row => init (f row)) (fun a row => add a (f row)) rows := by
  cases rows with
  | nil => rfl
  | cons row rows => simp [entry, List.foldl_map]

theorem entry_eq_none_iff {rows : List ρ} : entry init add rows = none ↔ rows = [] := by
  cases rows with
  | nil => simp [entry]
  | cons row rows => simp [entry]

theorem nodup_keys_group (rows : List ρ) : (OrderedMap.keys (group key init add rows)).Nodup := by
  induction rows using List.reverseRecOn with
  | nil => exact .nil
  | append_singleton rows row ih =>
    rw [group, List.foldl_concat]
    exact OrderedMap.nodup_keys_set ih

/-- The entry of a key is made of the rows that have it. -/
theorem get?_group (rows : List ρ) (k : κ) :
    OrderedMap.get? (group key init add rows) k =
      entry init add (rows.filter fun row => key row = k) := by
  induction rows using List.reverseRecOn with
  | nil => rfl
  | append_singleton rows row ih =>
    rw [group, List.foldl_concat, ← group, into, OrderedMap.get?_set, List.filter_append]
    by_cases hkey : key row = k
    · subst hkey
      have hlast : [row].filter (fun r => decide (key r = key row)) = [row] := by simp
      rw [if_pos rfl, ih, hlast, entry_concat]
    · have hlast : [row].filter (fun r => decide (key r = k)) = [] := by simp [hkey]
      rw [if_neg hkey, ih, hlast, List.append_nil]

/-- The entries are those of the keys that rows have. -/
theorem mem_group_iff {rows : List ρ} {k : κ} {a : α} :
    (k, a) ∈ group key init add rows ↔
      entry init add (rows.filter fun row => key row = k) = some a := by
  rw [← OrderedMap.get?_eq_some_iff (nodup_keys_group key init add rows), get?_group]

/-- An entry has the key of a row. -/
theorem exists_of_mem_group {rows : List ρ} {e : κ × α} (h : e ∈ group key init add rows) :
    ∃ row ∈ rows, key row = e.1 := by
  have hentry := mem_group_iff key init add |>.1 h
  have hne : rows.filter (fun row => key row = e.1) ≠ [] := by
    intro hnil
    rw [hnil] at hentry
    cases hentry
  obtain ⟨row, hrow⟩ := List.exists_mem_of_ne_nil _ hne
  rw [List.mem_filter, decide_eq_true_iff] at hrow
  exact ⟨row, hrow⟩

end Grouping
