import SharedTsLibs.BackgroundJobs.FlowManager

/-!
# Who is responsible for a producer

The part of the flow manager that matters for its producers: which one it holds,
how many were built, which were closed, and which executions of `doStart` are
under way.  Whatever the calls do, they move this part in eight ways.

* `Ownership`, `Ownership.Move` — the state and its moves.
* `Ownership.Consistent` — what every move preserves.
* `Ownership.NoLeak`, `Ownership.Leaked` — every producer is accounted for; one is
  not, and never will be.
* `Ownership.NoLeak.move`, `Ownership.leaked_of_move` — a move that assigns the
  field loses a producer when the one held is open, and no other move does.
-/

namespace SharedTsLibs.BackgroundJobs

/-! ## States and moves -/

/-- The producer held, the number built, those closed, and the executions of
`doStart`. -/
structure Ownership where
  held : Option ℕ
  count : ℕ
  closed : List ℕ
  starts : List DoStart

namespace Ownership

/-- What a step does to the ownership; the flag says whether it assigns
`flowProducer`. -/
inductive Move (o : Ownership) : Bool → Ownership → Prop where
  | stay : Move o false o
  | build :
      Move o false { o with count := o.count + 1, starts := o.starts ++ [.awaitingReady o.count] }
  | fail {e : String} : Move o false { o with starts := o.starts ++ [.rejected none e] }
  | hold {k p : ℕ} (hk : o.starts[k]? = some (.awaitingReady p)) :
      Move o true { o with held := some p, starts := o.starts.set k (.fulfilled p) }
  | giveUp {k p : ℕ} {e : String} (hk : o.starts[k]? = some (.awaitingReady p)) :
      Move o false
        { o with closed := o.closed ++ [p], starts := o.starts.set k (.awaitingClose p e) }
  | reject {k p : ℕ} {e : String} (hk : o.starts[k]? = some (.awaitingClose p e)) :
      Move o false { o with starts := o.starts.set k (.rejected (some p) e) }
  | close {p : ℕ} (hp : o.held = some p) : Move o false { o with closed := o.closed ++ [p] }
  | drop : Move o true { o with held := none }

/-- The producer the `k`-th execution of `doStart` built. -/
def producerAt (o : Ownership) (k : ℕ) : Option ℕ := (o.starts[k]?).bind DoStart.producer

/-- Each producer belongs to one execution of `doStart`, the producer held to one
that succeeded; nobody closes a producer that is still awaited. -/
structure Consistent (o : Ownership) : Prop where
  producer_lt : ∀ k p, o.producerAt k = some p → p < o.count
  producer_inj : ∀ k k' p, o.producerAt k = some p → o.producerAt k' = some p → k = k'
  held_fulfilled : ∀ p : ℕ, o.held = some p → ∃ k : ℕ, o.starts[k]? = some (DoStart.fulfilled p)
  awaiting_open : ∀ (k p : ℕ), o.starts[k]? = some (DoStart.awaitingReady p) → p ∉ o.closed
  closed_lt : ∀ p ∈ o.closed, p < o.count

/-- Every producer is held, closed, or awaited by the `doStart` that built it. -/
def NoLeak (o : Ownership) : Prop :=
  ∀ p < o.count, o.held = some p ∨ p ∈ o.closed ∨ DoStart.awaitingReady p ∈ o.starts

/-- Nobody is left to close the producer. -/
structure Leaked (p : ℕ) (o : Ownership) : Prop where
  lt_count : p < o.count
  not_held : o.held ≠ some p
  not_closed : p ∉ o.closed
  not_awaited : DoStart.awaitingReady p ∉ o.starts

/-- The producer held, if any, has been closed. -/
def HeldClosed (o : Ownership) : Prop := ∀ p, o.held = some p → p ∈ o.closed

theorem not_noLeak_of_leaked {o : Ownership} {p : ℕ} (h : Leaked p o) : ¬ NoLeak o := by
  intro hno
  rcases hno p h.lt_count with hheld | hclosed | hawait
  · exact h.not_held hheld
  · exact h.not_closed hclosed
  · exact h.not_awaited hawait

theorem producerAt_of_getElem? {o : Ownership} {k : ℕ} {d : DoStart} (h : o.starts[k]? = some d) :
    o.producerAt k = d.producer := by
  rw [producerAt, h, Option.bind_some]

/-- An awaited producer is not the one held. -/
theorem Consistent.ne_of_held {o : Ownership} (h : Consistent o) {k p q : ℕ}
    (hk : o.starts[k]? = some (.awaitingReady p)) (hq : o.held = some q) : p ≠ q := by
  rintro rfl
  obtain ⟨k', hk'⟩ := h.held_fulfilled p hq
  have hkk : k = k' :=
    h.producer_inj k k' p (producerAt_of_getElem? hk) (producerAt_of_getElem? hk')
  rw [hkk, hk'] at hk
  cases hk

/-! ## One move -/

/-- The invariant when an execution of `doStart` moves on, keeping its producer. -/
theorem Consistent.set {o : Ownership} (h : Consistent o) {k p : ℕ} {d d' : DoStart}
    (hk : o.starts[k]? = some d) (hd : d.producer = some p) (hd' : d'.producer = some p)
    (hnf : ∀ q, d ≠ .fulfilled q) (hna : ∀ q, d' ≠ .awaitingReady q) {held : Option ℕ}
    {closed : List ℕ} (hheld : held = o.held ∨ d' = .fulfilled p ∧ held = some p)
    (hclosed : closed = o.closed ∨ d = .awaitingReady p ∧ closed = o.closed ++ [p]) :
    Consistent { o with held := held, closed := closed, starts := o.starts.set k d' } := by
  have hlen : k < o.starts.length := (List.getElem?_eq_some_iff.1 hk).1
  have hat : ∀ j, Ownership.producerAt
      { o with held := held, closed := closed, starts := o.starts.set k d' } j = o.producerAt j :=
    fun j => Slots.bind_getElem?_set hk (hd'.trans hd.symm) j
  have hlt : p < o.count := h.producer_lt k p ((producerAt_of_getElem? hk).trans hd)
  refine ⟨fun j q hq => h.producer_lt j q ((hat j).symm.trans hq),
    fun j j' q hq hq' => h.producer_inj j j' q ((hat j).symm.trans hq) ((hat j').symm.trans hq'),
    ?_, ?_, ?_⟩
  · intro q hq
    rcases hheld with rfl | ⟨rfl, rfl⟩
    · obtain ⟨j, hj⟩ := h.held_fulfilled q hq
      exact ⟨j, Slots.getElem?_set_keep hk (hnf q) hj⟩
    · cases hq
      exact ⟨k, List.getElem?_set_self hlen⟩
  · intro j q hj
    rcases Slots.getElem?_set_some hk hj with ⟨-, hq⟩ | ⟨hne, hj'⟩
    · exact absurd hq.symm (hna q)
    · rcases hclosed with rfl | ⟨rfl, rfl⟩
      · exact h.awaiting_open j q hj'
      · intro hq
        rcases List.mem_append.1 hq with hq | hq
        · exact h.awaiting_open j q hj' hq
        · obtain rfl := List.mem_singleton.1 hq
          exact hne (h.producer_inj j k q (producerAt_of_getElem? hj') (producerAt_of_getElem? hk))
  · intro q hq
    rcases hclosed with rfl | ⟨-, rfl⟩
    · exact h.closed_lt q hq
    · rcases List.mem_append.1 hq with hq | hq
      · exact h.closed_lt q hq
      · rw [List.mem_singleton.1 hq]
        exact hlt

/-- The invariant when an execution of `doStart` begins, with a new producer or
with none. -/
theorem Consistent.push {o : Ownership} (h : Consistent o) {d : DoStart} {count : ℕ}
    (hd : (d = .awaitingReady o.count ∧ count = o.count + 1) ∨
      d.producer = none ∧ count = o.count) :
    Consistent { o with count := count, starts := o.starts ++ [d] } := by
  have hle : o.count ≤ count := by rcases hd with ⟨-, rfl⟩ | ⟨-, rfl⟩ <;> omega
  have hat : ∀ {j q}, Ownership.producerAt { o with count := count, starts := o.starts ++ [d] } j =
      some q → o.producerAt j = some q ∨
        (j = o.starts.length ∧ q = o.count ∧ count = o.count + 1) := by
    intro j q hq
    obtain ⟨d', hj, hd'⟩ := Option.bind_eq_some_iff.1 hq
    rcases Slots.getElem?_push_some hj with ⟨rfl, rfl⟩ | ⟨-, hj'⟩
    · rcases hd with ⟨rfl, hc⟩ | ⟨hnone, -⟩
      · exact Or.inr ⟨rfl, (Option.some.inj hd').symm, hc⟩
      · rw [hnone] at hd'
        cases hd'
    · exact Or.inl ((producerAt_of_getElem? hj').trans hd')
  refine ⟨?_, ?_, ?_, ?_, fun q hq => Nat.lt_of_lt_of_le (h.closed_lt q hq) hle⟩
  · intro j q hq
    rcases hat hq with hq | ⟨-, rfl, rfl⟩
    · exact Nat.lt_of_lt_of_le (h.producer_lt j q hq) hle
    · exact Nat.lt_succ_self _
  · intro j j' q hq hq'
    rcases hat hq with hq | ⟨rfl, rfl, -⟩ <;> rcases hat hq' with hq' | ⟨rfl, hqc, -⟩
    · exact h.producer_inj j j' q hq hq'
    · exact absurd (h.producer_lt j q hq) (by omega)
    · exact absurd (h.producer_lt j' _ hq') (by omega)
    · rfl
  · intro q hq
    obtain ⟨j, hj⟩ := h.held_fulfilled q hq
    exact ⟨j, Slots.getElem?_push_keep hj⟩
  · intro j q hj
    rcases Slots.getElem?_push_some hj with ⟨-, hq⟩ | ⟨-, hj'⟩
    · rcases hd with ⟨rfl, -⟩ | ⟨hnone, -⟩
      · cases hq
        intro hmem
        exact absurd (h.closed_lt _ hmem) (Nat.lt_irrefl _)
      · rw [← hq] at hnone
        cases hnone
    · exact h.awaiting_open j q hj'

theorem Consistent.move {o o' : Ownership} {b : Bool} (h : Consistent o) (hm : Move o b o') :
    Consistent o' := by
  cases hm with
  | stay => exact h
  | build => exact h.push (Or.inl ⟨rfl, rfl⟩)
  | fail => exact h.push (Or.inr ⟨rfl, rfl⟩)
  | @hold k p hk =>
    exact h.set hk rfl rfl (fun q hq => by cases hq) (fun q hq => by cases hq)
      (Or.inr ⟨rfl, rfl⟩) (Or.inl rfl)
  | @giveUp k p e hk =>
    exact h.set hk rfl rfl (fun q hq => by cases hq) (fun q hq => by cases hq)
      (Or.inl rfl) (Or.inr ⟨rfl, rfl⟩)
  | @reject k p e hk =>
    exact h.set hk rfl rfl (fun q hq => by cases hq) (fun q hq => by cases hq)
      (Or.inl rfl) (Or.inl rfl)
  | @close p hp =>
    refine ⟨h.producer_lt, h.producer_inj, h.held_fulfilled, ?_, ?_⟩
    · intro k q hk hq
      rcases List.mem_append.1 hq with hq | hq
      · exact h.awaiting_open k q hk hq
      · exact h.ne_of_held hk hp (List.mem_singleton.1 hq)
    · intro q hq
      rcases List.mem_append.1 hq with hq | hq
      · exact h.closed_lt q hq
      · obtain ⟨k, hk⟩ := h.held_fulfilled p hp
        rw [List.mem_singleton.1 hq]
        exact h.producer_lt k p (producerAt_of_getElem? hk)
  | drop =>
    refine ⟨h.producer_lt, h.producer_inj, fun q hq => ?_, h.awaiting_open, h.closed_lt⟩
    cases hq

/-- No producer is lost by a move that does not overwrite an open one. -/
theorem NoLeak.move {o o' : Ownership} {b : Bool} (h : NoLeak o) (hb : b = true → HeldClosed o)
    (hm : Move o b o') : NoLeak o' := by
  intro p hp
  cases hm with
  | stay => exact h p hp
  | build =>
    rcases Nat.lt_succ_iff_lt_or_eq.1 hp with hp | rfl
    · rcases h p hp with hh | hc | ha
      · exact Or.inl hh
      · exact Or.inr (Or.inl hc)
      · exact Or.inr (Or.inr (List.mem_append_left _ ha))
    · exact Or.inr (Or.inr (List.mem_append_right _ (List.mem_singleton_self _)))
  | fail =>
    rcases h p hp with hh | hc | ha
    · exact Or.inl hh
    · exact Or.inr (Or.inl hc)
    · exact Or.inr (Or.inr (List.mem_append_left _ ha))
  | @hold k q hk =>
    by_cases hpq : p = q
    · exact Or.inl (by rw [hpq])
    · rcases h p hp with hh | hc | ha
      · exact Or.inr (Or.inl (hb rfl p hh))
      · exact Or.inr (Or.inl hc)
      · exact Or.inr (Or.inr (Slots.mem_set_of_ne hk (by simpa using Ne.symm hpq) ha))
  | @giveUp k q e hk =>
    by_cases hpq : p = q
    · exact Or.inr (Or.inl (by simp [hpq]))
    · rcases h p hp with hh | hc | ha
      · exact Or.inl hh
      · exact Or.inr (Or.inl (List.mem_append_left _ hc))
      · exact Or.inr (Or.inr (Slots.mem_set_of_ne hk (by simpa using Ne.symm hpq) ha))
  | @reject k q e hk =>
    rcases h p hp with hh | hc | ha
    · exact Or.inl hh
    · exact Or.inr (Or.inl hc)
    · exact Or.inr (Or.inr (Slots.mem_set_of_ne hk (by simp) ha))
  | close hq =>
    rcases h p hp with hh | hc | ha
    · exact Or.inl hh
    · exact Or.inr (Or.inl (List.mem_append_left _ hc))
    · exact Or.inr (Or.inr ha)
  | drop =>
    rcases h p hp with hh | hc | ha
    · exact Or.inr (Or.inl (hb rfl p hh))
    · exact Or.inr (Or.inl hc)
    · exact Or.inr (Or.inr ha)

/-- A producer once lost stays lost. -/
theorem Leaked.move {o o' : Ownership} {b : Bool} {p : ℕ} (h : Leaked p o) (hm : Move o b o') :
    Leaked p o' := by
  have hset : ∀ {k : ℕ} {d}, d ≠ DoStart.awaitingReady p →
      DoStart.awaitingReady p ∉ o.starts.set k d := by
    intro k d hd hmem
    rcases List.mem_or_eq_of_mem_set hmem with hmem | rfl
    · exact h.not_awaited hmem
    · exact hd rfl
  have hne : ∀ {k q : ℕ}, o.starts[k]? = some (DoStart.awaitingReady q) → p ≠ q := by
    rintro k q hk rfl
    exact h.not_awaited (List.mem_of_getElem? hk)
  cases hm with
  | stay => exact h
  | build =>
    refine ⟨Nat.lt_succ_of_lt h.lt_count, h.not_held, h.not_closed, fun hmem => ?_⟩
    rcases List.mem_append.1 hmem with hmem | hmem
    · exact h.not_awaited hmem
    · have hp : p = o.count := by simpa using hmem
      exact absurd h.lt_count (by omega)
  | fail =>
    refine ⟨h.lt_count, h.not_held, h.not_closed, fun hmem => ?_⟩
    rcases List.mem_append.1 hmem with hmem | hmem
    · exact h.not_awaited hmem
    · simp at hmem
  | @hold k q hk =>
    refine ⟨h.lt_count, fun hq => ?_, h.not_closed, hset (by simp)⟩
    exact hne hk (Option.some.inj hq).symm
  | @giveUp k q e hk =>
    refine ⟨h.lt_count, h.not_held, fun hmem => ?_, hset (by simp)⟩
    rcases List.mem_append.1 hmem with hmem | hmem
    · exact h.not_closed hmem
    · exact hne hk (List.mem_singleton.1 hmem)
  | reject => exact ⟨h.lt_count, h.not_held, h.not_closed, hset (by simp)⟩
  | @close q hq =>
    refine ⟨h.lt_count, h.not_held, fun hmem => ?_, h.not_awaited⟩
    rcases List.mem_append.1 hmem with hmem | hmem
    · exact h.not_closed hmem
    · rw [List.mem_singleton.1 hmem] at h
      exact h.not_held hq
  | drop => exact ⟨h.lt_count, Option.some_ne_none p ∘ Eq.symm, h.not_closed, h.not_awaited⟩

/-- Overwriting a producer that is held and open loses it. -/
theorem leaked_of_move {o o' : Ownership} {p : ℕ} (h : Consistent o) (hp : o.held = some p)
    (hopen : p ∉ o.closed) (hm : Move o true o') : Leaked p o' := by
  obtain ⟨k, hk⟩ := h.held_fulfilled p hp
  have hlt : p < o.count := h.producer_lt k p (producerAt_of_getElem? hk)
  have hnot : DoStart.awaitingReady p ∉ o.starts := by
    intro hmem
    obtain ⟨j, hj⟩ := List.mem_iff_getElem?.1 hmem
    exact h.ne_of_held hj hp rfl
  cases hm with
  | @hold j q hj =>
    refine ⟨hlt, fun hq => ?_, hopen, fun hmem => ?_⟩
    · exact h.ne_of_held hj hp (Option.some.inj hq)
    · rcases List.mem_or_eq_of_mem_set hmem with hmem | heq
      · exact hnot hmem
      · cases heq
  | drop => exact ⟨hlt, Option.some_ne_none p ∘ Eq.symm, hopen, hnot⟩

end Ownership

end SharedTsLibs.BackgroundJobs
