import Mathlib.Computability.RegularExpressions

/-!
# Classes, repetition and separated lists in regular expressions

What `[abc]`, `r+`, `(r)?` and `r(sr)*` match, as regular expressions over any alphabet.

* `oneOf`, `oneOrMore`, `optional`, `separated` — the four forms.
* `mem_oneOrMore_oneOf` — one or more elements of a class.
* `mem_separated` — parts put together with a separator between them.
-/

namespace RegularExpression

variable {α : Type*}

/-- `[abc]` -/
def oneOf (as : List α) : RegularExpression α := as.foldr (fun a r => char a + r) 0

/-- `r+` -/
def oneOrMore (r : RegularExpression α) : RegularExpression α := r * star r

/-- `(r)?` -/
def optional (r : RegularExpression α) : RegularExpression α := 1 + r

/-- `r(sr)*` -/
def separated (s : α) (r : RegularExpression α) : RegularExpression α := r * star (char s * r)

theorem mem_char {a : α} {x : List α} : x ∈ (char a).matches' ↔ x = [a] := Iff.rfl

theorem mem_oneOf {as : List α} {x : List α} :
    x ∈ (oneOf as).matches' ↔ ∃ a ∈ as, x = [a] := by
  induction as with
  | nil => simp [oneOf, Language.notMem_zero]
  | cons a as ih =>
    show x ∈ (char a + oneOf as).matches' ↔ _
    rw [matches'_add, Language.mem_add, ih, mem_char]
    simp

theorem mem_optional {r : RegularExpression α} {x : List α} :
    x ∈ (optional r).matches' ↔ x = [] ∨ x ∈ r.matches' := by
  rw [optional, matches'_add, matches'_epsilon, Language.mem_add, Language.mem_one]

theorem mem_char_mul {a : α} {r : RegularExpression α} {x : List α} :
    x ∈ (char a * r).matches' ↔ ∃ y ∈ r.matches', x = a :: y := by
  rw [matches'_mul, Language.mem_mul]
  constructor
  · rintro ⟨_, rfl, y, hy, rfl⟩
    exact ⟨y, hy, rfl⟩
  · rintro ⟨y, hy, rfl⟩
    exact ⟨[a], rfl, y, hy, rfl⟩

theorem mem_oneOf_mul {as : List α} {r : RegularExpression α} {x : List α} :
    x ∈ (oneOf as * r).matches' ↔ ∃ a ∈ as, ∃ y ∈ r.matches', x = a :: y := by
  rw [matches'_mul, Language.mem_mul]
  constructor
  · rintro ⟨_, hclass, y, hy, rfl⟩
    obtain ⟨a, ha, rfl⟩ := mem_oneOf.1 hclass
    exact ⟨a, ha, y, hy, rfl⟩
  · rintro ⟨a, ha, y, hy, rfl⟩
    exact ⟨[a], mem_oneOf.2 ⟨a, ha, rfl⟩, y, hy, rfl⟩

theorem mem_star_oneOf {as : List α} {x : List α} :
    x ∈ (star (oneOf as)).matches' ↔ ∀ a ∈ x, a ∈ as := by
  rw [matches'_star, Language.mem_kstar]
  constructor
  · rintro ⟨parts, rfl, hparts⟩ a ha
    obtain ⟨part, hpart, ha⟩ := List.mem_flatten.1 ha
    obtain ⟨b, hb, rfl⟩ := mem_oneOf.1 (hparts part hpart)
    exact List.mem_singleton.1 ha ▸ hb
  · intro h
    have hflat : x = (x.map fun a => [a]).flatten := by
      rw [← List.flatMap_def, List.flatMap_singleton']
    refine ⟨x.map fun a => [a], hflat, fun part hpart => ?_⟩
    obtain ⟨a, ha, rfl⟩ := List.mem_map.1 hpart
    exact mem_oneOf.2 ⟨a, h a ha, rfl⟩

/-- One or more elements of a class. -/
theorem mem_oneOrMore_oneOf {as : List α} {x : List α} :
    x ∈ (oneOrMore (oneOf as)).matches' ↔ x ≠ [] ∧ ∀ a ∈ x, a ∈ as := by
  rw [oneOrMore, mem_oneOf_mul]
  constructor
  · rintro ⟨a, ha, y, hy, rfl⟩
    exact ⟨List.cons_ne_nil _ _, List.forall_mem_cons.2 ⟨ha, mem_star_oneOf.1 hy⟩⟩
  · rintro ⟨hne, hall⟩
    obtain ⟨a, y, rfl⟩ := List.exists_cons_of_ne_nil hne
    obtain ⟨ha, hy⟩ := List.forall_mem_cons.1 hall
    exact ⟨a, ha, y, mem_star_oneOf.2 hy, rfl⟩

/-- A separated list is its first part and then each further part after a separator. -/
theorem intercalate_cons (s : α) (p : List α) (ps : List (List α)) :
    [s].intercalate (p :: ps) = p ++ (ps.map (s :: ·)).flatten := by
  induction ps generalizing p with
  | nil => simp
  | cons q ps ih =>
    rw [List.intercalate_cons_cons, ih, List.map_cons, List.flatten_cons]
    simp

theorem mem_star_char_mul {s : α} {r : RegularExpression α} {x : List α} :
    x ∈ (star (char s * r)).matches' ↔
      ∃ ps : List (List α), (∀ p ∈ ps, p ∈ r.matches') ∧ x = (ps.map (s :: ·)).flatten := by
  rw [matches'_star, Language.mem_kstar]
  constructor
  · rintro ⟨ys, rfl, hys⟩
    induction ys with
    | nil => exact ⟨[], by simp, rfl⟩
    | cons y ys ih =>
      obtain ⟨hy, hrest⟩ := List.forall_mem_cons.1 hys
      obtain ⟨p, hp, rfl⟩ := mem_char_mul.1 hy
      obtain ⟨ps, hps, hflat⟩ := ih hrest
      refine ⟨p :: ps, List.forall_mem_cons.2 ⟨hp, hps⟩, ?_⟩
      rw [List.flatten_cons, hflat, List.map_cons, List.flatten_cons]
  · rintro ⟨ps, hps, rfl⟩
    refine ⟨ps.map (s :: ·), rfl, fun y hy => ?_⟩
    obtain ⟨p, hp, rfl⟩ := List.mem_map.1 hy
    exact mem_char_mul.2 ⟨p, hps p hp, rfl⟩

/-- Parts with a separator between them. -/
theorem mem_separated {s : α} {r : RegularExpression α} {x : List α} :
    x ∈ (separated s r).matches' ↔
      ∃ ps : List (List α), ps ≠ [] ∧ (∀ p ∈ ps, p ∈ r.matches') ∧ x = [s].intercalate ps := by
  rw [separated, matches'_mul, Language.mem_mul]
  constructor
  · rintro ⟨p, hp, y, hy, rfl⟩
    obtain ⟨ps, hps, rfl⟩ := mem_star_char_mul.1 hy
    exact ⟨p :: ps, List.cons_ne_nil _ _, List.forall_mem_cons.2 ⟨hp, hps⟩,
      (intercalate_cons s p ps).symm⟩
  · rintro ⟨parts, hne, hall, rfl⟩
    obtain ⟨p, ps, rfl⟩ := List.exists_cons_of_ne_nil hne
    obtain ⟨hp, hps⟩ := List.forall_mem_cons.1 hall
    exact ⟨p, hp, _, mem_star_char_mul.2 ⟨ps, hps, rfl⟩, (intercalate_cons s p ps).symm⟩

/-- One part, and then no part or a further one of what follows it. -/
theorem mem_mul_optional {s : α} {r q : RegularExpression α} {x : List α} :
    x ∈ (r * optional (char s * q)).matches' ↔
      x ∈ r.matches' ∨ ∃ p ∈ r.matches', ∃ y ∈ q.matches', x = p ++ s :: y := by
  rw [matches'_mul, Language.mem_mul]
  constructor
  · rintro ⟨p, hp, y, hy, rfl⟩
    rcases mem_optional.1 hy with rfl | hy
    · exact Or.inl (by simpa using hp)
    · obtain ⟨z, hz, rfl⟩ := mem_char_mul.1 hy
      exact Or.inr ⟨p, hp, z, hz, rfl⟩
  · rintro (hx | ⟨p, hp, y, hy, rfl⟩)
    · exact ⟨x, hx, [], mem_optional.2 (Or.inl rfl), List.append_nil x⟩
    · exact ⟨p, hp, s :: y, mem_optional.2 (Or.inr (mem_char_mul.2 ⟨y, hy, rfl⟩)), rfl⟩

end RegularExpression
