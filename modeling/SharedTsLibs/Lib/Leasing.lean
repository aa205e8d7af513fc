import Mathlib.Data.Nat.Notation
import Mathlib.Logic.Function.Basic

/-!
# Leases

A lease gives a name to one owner until a moment.  Who asks for a name that is
free is granted it; its owner may renew it or drop it; and a lease that is neither
ends by itself when its moment has come.

* `Leases`, `holder` — the leases written down, and who holds a name at a moment.
* `grant`, `renew`, `drop` — the three requests.
* `LeaseStore` — a store of any kind that answers requests as these do.
* `holder_eq_some_iff`, `grant_of_held`, `renew_of_not_held`, `drop_of_not_held` —
  nobody but its owner can change a lease that is held.
-/

namespace Leasing

variable {κ : Type*} {ι : Type*}

structure Lease (ι : Type*) where
  owner : ι
  expiresAt : ℕ
  deriving DecidableEq

/-- The last lease written under each name, ended or not. -/
abbrev Leases (κ ι : Type*) := κ → Option (Lease ι)

/-- Who holds a name at a moment. -/
def holder (m : Leases κ ι) (now : ℕ) (name : κ) : Option ι :=
  (m name).bind fun lease => if now < lease.expiresAt then some lease.owner else none

theorem holder_eq_some_iff {m : Leases κ ι} {now : ℕ} {name : κ} {i : ι} :
    holder m now name = some i ↔ ∃ t, m name = some ⟨i, t⟩ ∧ now < t := by
  unfold holder
  rw [Option.bind_eq_some_iff]
  constructor
  · rintro ⟨⟨owner, t⟩, hlease, h⟩
    split at h
    · next ht => cases h; exact ⟨t, hlease, ht⟩
    · cases h
  · rintro ⟨t, hlease, ht⟩
    exact ⟨⟨i, t⟩, hlease, if_pos ht⟩

theorem holder_of_lease {m : Leases κ ι} {now t : ℕ} {name : κ} {i : ι}
    (h : m name = some ⟨i, t⟩) (ht : now < t) : holder m now name = some i :=
  holder_eq_some_iff.2 ⟨t, h, ht⟩

variable [DecidableEq κ] {m : Leases κ ι} {now ttl : ℕ} {name name' : κ} {i j : ι}

/-! ## Asking for a name -/

/-- Ask for a name: it is granted when nobody holds it. -/
def grant (m : Leases κ ι) (now : ℕ) (name : κ) (i : ι) (ttl : ℕ) : Bool × Leases κ ι :=
  if holder m now name = none then (true, Function.update m name (some ⟨i, now + ttl⟩))
  else (false, m)

theorem grant_of_free (h : holder m now name = none) :
    grant m now name i ttl = (true, Function.update m name (some ⟨i, now + ttl⟩)) := if_pos h

theorem grant_of_held (h : holder m now name = some j) :
    grant m now name i ttl = (false, m) := if_neg (by simp [h])

/-- A name that is granted was free, and is with who asked for it. -/
theorem lease_of_grant (h : (grant m now name i ttl).1 = true) :
    holder m now name = none ∧ (grant m now name i ttl).2 name = some ⟨i, now + ttl⟩ := by
  unfold grant at h ⊢
  split at h
  · next hfree => exact ⟨hfree, by rw [if_pos hfree]; exact Function.update_self ..⟩
  · cases h

theorem snd_of_grant_eq_false (h : (grant m now name i ttl).1 = false) :
    (grant m now name i ttl).2 = m := by
  unfold grant at h ⊢
  split at h
  · cases h
  · next hheld => rw [if_neg hheld]

theorem grant_apply_of_ne (h : name' ≠ name) : (grant m now name i ttl).2 name' = m name' := by
  unfold grant
  split
  · exact Function.update_of_ne h ..
  · rfl

variable [DecidableEq ι]

/-! ## Renewing -/

/-- Renew a name: its holder has it for another while. -/
def renew (m : Leases κ ι) (now : ℕ) (name : κ) (i : ι) (ttl : ℕ) : Bool × Leases κ ι :=
  if holder m now name = some i then (true, Function.update m name (some ⟨i, now + ttl⟩))
  else (false, m)

theorem renew_of_held (h : holder m now name = some i) :
    renew m now name i ttl = (true, Function.update m name (some ⟨i, now + ttl⟩)) := if_pos h

theorem renew_of_not_held (h : holder m now name ≠ some i) :
    renew m now name i ttl = (false, m) := if_neg h

/-- A name that is renewed was with who asked for it, and still is. -/
theorem lease_of_renew (h : (renew m now name i ttl).1 = true) :
    holder m now name = some i ∧ (renew m now name i ttl).2 name = some ⟨i, now + ttl⟩ := by
  unfold renew at h ⊢
  split at h
  · next hheld => exact ⟨hheld, by rw [if_pos hheld]; exact Function.update_self ..⟩
  · cases h

theorem snd_of_renew_eq_false (h : (renew m now name i ttl).1 = false) :
    holder m now name ≠ some i ∧ (renew m now name i ttl).2 = m := by
  unfold renew at h ⊢
  split at h
  · cases h
  · next hheld => exact ⟨hheld, by rw [if_neg hheld]⟩

theorem renew_apply_of_ne (h : name' ≠ name) : (renew m now name i ttl).2 name' = m name' := by
  unfold renew
  split
  · exact Function.update_of_ne h ..
  · rfl

/-- A lease held by somebody else is not changed by a renewal. -/
theorem renew_apply_of_held (h : holder m now name' = some j) (hj : j ≠ i) :
    (renew m now name i ttl).2 name' = m name' := by
  by_cases hname : name' = name
  · rw [← hname, renew_of_not_held (by rw [h]; exact fun hij => hj (Option.some.inj hij))]
  · exact renew_apply_of_ne hname

/-! ## Dropping -/

/-- Drop a name: it is free when its holder asks for this. -/
def drop (m : Leases κ ι) (now : ℕ) (name : κ) (i : ι) : Leases κ ι :=
  if holder m now name = some i then Function.update m name none else m

theorem drop_of_not_held (h : holder m now name ≠ some i) : drop m now name i = m := if_neg h

theorem drop_apply_of_ne (h : name' ≠ name) : drop m now name i name' = m name' := by
  unfold drop
  split
  · exact Function.update_of_ne h ..
  · rfl

/-- A lease held by somebody else is not dropped. -/
theorem drop_apply_of_held (h : holder m now name' = some j) (hj : j ≠ i) :
    drop m now name i name' = m name' := by
  by_cases hname : name' = name
  · rw [← hname, drop_of_not_held (by rw [h]; exact fun hij => hj (Option.some.inj hij))]
  · exact drop_apply_of_ne hname

/-! ## Stores -/

/-- A store that answers the requests as `grant`, `renew` and `drop` do: `view` reads the
leases off its states. -/
structure LeaseStore (σ κ ι : Type*) [DecidableEq κ] [DecidableEq ι] where
  view : σ → Leases κ ι
  acquire : σ → ℕ → κ → ι → ℕ → Bool × σ
  refresh : σ → ℕ → κ → ι → ℕ → Bool × σ
  release : σ → ℕ → κ → ι → σ
  acquire_eq : ∀ s now name i ttl,
    ((acquire s now name i ttl).1, view (acquire s now name i ttl).2)
      = grant (view s) now name i ttl
  refresh_eq : ∀ s now name i ttl,
    ((refresh s now name i ttl).1, view (refresh s now name i ttl).2)
      = renew (view s) now name i ttl
  release_eq : ∀ s now name i, view (release s now name i) = drop (view s) now name i

namespace LeaseStore

variable {σ : Type*} (store : LeaseStore σ κ ι) {s : σ}

theorem acquire_fst :
    (store.acquire s now name i ttl).1 = (grant (store.view s) now name i ttl).1 :=
  congrArg Prod.fst (store.acquire_eq ..)

theorem view_acquire :
    store.view (store.acquire s now name i ttl).2 = (grant (store.view s) now name i ttl).2 :=
  congrArg Prod.snd (store.acquire_eq ..)

theorem refresh_fst :
    (store.refresh s now name i ttl).1 = (renew (store.view s) now name i ttl).1 :=
  congrArg Prod.fst (store.refresh_eq ..)

theorem view_refresh :
    store.view (store.refresh s now name i ttl).2 = (renew (store.view s) now name i ttl).2 :=
  congrArg Prod.snd (store.refresh_eq ..)

/-- The store that keeps the leases themselves. -/
def plain (κ ι : Type*) [DecidableEq κ] [DecidableEq ι] : LeaseStore (Leases κ ι) κ ι where
  view := id
  acquire := grant
  refresh := renew
  release := drop
  acquire_eq _ _ _ _ _ := rfl
  refresh_eq _ _ _ _ _ := rfl
  release_eq _ _ _ _ := rfl

end LeaseStore

end Leasing
