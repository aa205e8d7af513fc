import SharedTsLibs.DrizzleUtils.DiffSchemaSnapshots
import Mathlib.Data.List.Induction

/-!
# The paths of differences

The path of a difference is a text made of the keys that lead to it.  Differences under
different keys have one path when one key is written like another and what is written under it.

* `locateValue`, `locateSnapshots` — the differences with the keys that lead to them.
* `map_difference_locateValue` — they are the differences that the code reports.
* `Extends` — a key, as it is written, goes on where another one ends.
* `Clash` — the keys under the shorter one are written like the rest.
* `pathOf_eq_iff` — only keys that clash have one path, but for empty ones at the root.
* `uniquePaths_iff` — paths tell differences apart exactly when no keys clash.
* `differencesApart_of_plainKeys` — plain keys, dots, blanks and quotes included, never do.
-/

namespace SharedTsLibs.DrizzleUtils

/-! ## Differences with their keys -/

/-- A difference and the keys that lead to it from the root. -/
structure LocatedDifference where
  keys : List String
  difference : SnapshotDifference

/-- The path that a sequence of keys is written as. -/
def pathOf (keys : List String) : String := keys.foldl joinPath ""

theorem pathOf_concat (keys : List String) (key : String) :
    pathOf (keys ++ [key]) = joinPath (pathOf keys) key := List.foldl_concat ..

mutual

/-- `diffValue` with the keys that lead to the values. -/
def locateValue (before after : JsonValue) (keys : List String) : List LocatedDifference :=
  match before, after with
  | .obj before, .obj after => locateObjects before after keys
  | before, after =>
    (diffValue (some before) (some after) (pathOf keys)).map fun d => ⟨keys, d⟩
termination_by sizeOf before

/-- `diffObjects` with the keys that lead to the objects. -/
def locateObjects (before after : List (String × JsonValue)) (keys : List String) :
    List LocatedDifference :=
  (Utf16.sort (objectKeys before ++ objectKeys after).dedup).flatMap fun key =>
    match _hbefore : OrderedMap.get? before key, OrderedMap.get? after key with
    | some beforeVal, some afterVal => locateValue beforeVal afterVal (keys ++ [key])
    | _, _ => (diffKey before after (pathOf keys) key).map fun d => ⟨keys ++ [key], d⟩
termination_by sizeOf before
decreasing_by exact JsonValue.sizeOf_lt_of_get? _hbefore

end

/-- The differences of two snapshots with the keys that lead to them. -/
def locateSnapshots (before after : JsonValue) : List LocatedDifference :=
  locateValue before after []

section Located

variable {a b : List (String × JsonValue)} {x y : JsonValue} {keys : List String}

/-- What the loop over the keys reports for one of them. -/
def locateKey (before after : List (String × JsonValue)) (keys : List String) (key : String) :
    List LocatedDifference :=
  match OrderedMap.get? before key, OrderedMap.get? after key with
  | some beforeVal, some afterVal => locateValue beforeVal afterVal (keys ++ [key])
  | _, _ => (diffKey before after (pathOf keys) key).map fun d => ⟨keys ++ [key], d⟩

theorem locateValue_obj :
    locateValue (.obj a) (.obj b) keys =
      (Utf16.sort (objectKeys a ++ objectKeys b).dedup).flatMap (locateKey a b keys) := by
  rw [locateValue.eq_def]
  simp only
  rw [locateObjects.eq_def]
  refine List.flatMap_congr fun key _ => ?_
  unfold locateKey
  split
  · next h h' => simp [h, h']
  · next hnone =>
    split
    · next h h' => exact absurd h' (hnone _ _ h)
    · rfl

theorem mem_locateValue_obj {d : LocatedDifference} :
    d ∈ locateValue (.obj a) (.obj b) keys ↔
      ∃ key, (key ∈ objectKeys a ∨ key ∈ objectKeys b) ∧ d ∈ locateKey a b keys key := by
  rw [locateValue_obj, List.mem_flatMap]
  exact exists_congr fun key => and_congr_left fun _ => mem_unionKeys

theorem locateValue_of_not_obj (h : ∀ a b, x = .obj a → y = .obj b → False) :
    locateValue x y keys =
      (diffValue (some x) (some y) (pathOf keys)).map fun d => ⟨keys, d⟩ := by
  rw [locateValue.eq_def]
  split
  · exact absurd rfl fun hself => h _ _ hself rfl
  · rfl

/-- Induction along the keys of two objects, with the keys that lead there. -/
@[elab_as_elim]
theorem located_induction {motive : JsonValue → JsonValue → List String → Prop}
    (obj : ∀ a b keys, (∀ (key : String) (x y : JsonValue), OrderedMap.get? a key = some x →
      OrderedMap.get? b key = some y → motive x y (keys ++ [key])) → motive (.obj a) (.obj b) keys)
    (other : ∀ x y keys, (∀ a b, x = .obj a → y = .obj b → False) → motive x y keys)
    (x y : JsonValue) (keys : List String) : motive x y keys := by
  induction x, y using pair_induction generalizing keys with
  | arr xs ys _ => exact other _ _ keys fun a b ha _ => by cases ha
  | obj a b ih => exact obj a b keys fun key x y hx hy => ih key x y hx hy (keys ++ [key])
  | other x y h =>
    refine other x y keys ?_
    rintro a b rfl rfl
    cases h

/-- Without their keys, these are the differences that are reported. -/
theorem map_difference_locateValue (x y : JsonValue) (keys : List String) :
    (locateValue x y keys).map LocatedDifference.difference =
      diffValue (some x) (some y) (pathOf keys) := by
  induction x, y, keys using located_induction with
  | obj a b keys ih =>
    rw [locateValue_obj, diffValue_obj, diffObjects_eq, List.map_flatMap]
    refine List.flatMap_congr fun key _ => ?_
    unfold locateKey
    split
    · next v w hv hw => rw [ih key v w hv hw, pathOf_concat, diffKey, hv, hw]
    · simp [Function.comp_def]
  | other x y keys hother =>
    rw [locateValue_of_not_obj hother, List.map_map]
    simp [Function.comp_def]

/-- A value that is no pair of objects is reported at its own path. -/
theorem path_of_mem_diffValue (h : ∀ a b, x = .obj a → y = .obj b → False) {path : String}
    {d : SnapshotDifference} (hd : d ∈ diffValue (some x) (some y) path) : d.path = path := by
  by_cases hboth : bothContainers x y = true
  · unfold bothContainers at hboth
    split at hboth
    · rw [diffValue_arr, diffArrays] at hd
      split at hd
      · rw [List.mem_singleton.1 hd]
      · simp at hd
    · exact (h _ _ rfl rfl).elim
    · cases hboth
  · rw [diffValue_of_not_bothContainers (by simpa using hboth)] at hd
    split at hd
    · simp at hd
    · rw [List.mem_singleton.1 hd]

/-- A difference is reported at the path of the keys that lead to it. -/
theorem path_of_mem_locateValue (x y : JsonValue) (keys : List String) :
    ∀ d ∈ locateValue x y keys, d.difference.path = pathOf d.keys := by
  intro d hd
  induction x, y, keys using located_induction with
  | obj a b keys ih =>
    obtain ⟨key, -, hd⟩ := mem_locateValue_obj.1 hd
    unfold locateKey at hd
    split at hd
    · next v w hv hw => exact ih key v w hv hw hd
    · next hnone =>
      obtain ⟨difference, hmem, rfl⟩ := List.mem_map.1 hd
      rw [pathOf_concat]
      unfold diffKey at hmem
      split at hmem
      · rw [List.mem_singleton.1 hmem]
      · rw [List.mem_singleton.1 hmem]
      · next hv hw => exact (hnone _ _ hv hw).elim
  | other x y keys hother =>
    rw [locateValue_of_not_obj hother] at hd
    obtain ⟨difference, hmem, rfl⟩ := List.mem_map.1 hd
    exact path_of_mem_diffValue hother hmem

end Located

/-! ## Keys in a path -/

/-- A key as it is written in a path. -/
def written (key : String) : List Char := (escapeKey key).toList

/-- What a key adds to a path that is not empty. -/
def appended (key : String) : List Char :=
  if (written key).head? = some '[' then written key else '.' :: written key

/-- Whether a key has dots or blanks, and so stands in brackets. -/
def Bracketed (key : String) : Prop := '.' ∈ key.toList ∨ ' ' ∈ key.toList

instance (key : String) : Decidable (Bracketed key) := inferInstanceAs (Decidable (_ ∨ _))

/-- `key.replace(/"/g, '\\"')` -/
def escapeQuotes (cs : List Char) : List Char :=
  cs.flatMap fun c => if c = '"' then ['\\', '"'] else [c]

theorem escapeQuotes_cons (c : Char) (cs : List Char) :
    escapeQuotes (c :: cs) = (if c = '"' then ['\\', '"'] else [c]) ++ escapeQuotes cs := rfl

theorem written_of_bracketed {key : String} (h : Bracketed key) :
    written key = ['[', '"'] ++ escapeQuotes key.toList ++ ['"', ']'] := by
  unfold Bracketed at h
  rw [written, escapeKey, if_pos h, String.toList_ofList, escapeQuotes]

theorem written_of_not_bracketed {key : String} (h : ¬ Bracketed key) :
    written key = key.toList := by
  unfold Bracketed at h
  rw [written, escapeKey, if_neg h]

theorem mem_escapeQuotes_of_mem {c : Char} {cs : List Char} (h : c ∈ cs) :
    c ∈ escapeQuotes cs := by
  refine List.mem_flatMap.2 ⟨c, h, ?_⟩
  by_cases hc : c = '"'
  · simp [hc]
  · simp [hc]

/-- No text is escaped to one that starts with a quote. -/
theorem escapeQuotes_ne_cons_quote (cs rest : List Char) : escapeQuotes cs ≠ '"' :: rest := by
  cases cs with
  | nil => simp [escapeQuotes]
  | cons c cs =>
    by_cases hc : c = '"'
    · simp [escapeQuotes, hc]
    · simp [escapeQuotes, hc]

theorem escapeQuotes_injective {cs ds : List Char} (h : escapeQuotes cs = escapeQuotes ds) :
    cs = ds := by
  induction cs generalizing ds with
  | nil =>
    cases ds with
    | nil => rfl
    | cons d ds =>
      by_cases hd : d = '"'
      · simp [escapeQuotes, hd] at h
      · simp [escapeQuotes, hd] at h
  | cons c cs ih =>
    cases ds with
    | nil =>
      by_cases hc : c = '"'
      · simp [escapeQuotes, hc] at h
      · simp [escapeQuotes, hc] at h
    | cons d ds =>
      rw [escapeQuotes_cons, escapeQuotes_cons] at h
      by_cases hc : c = '"'
      · by_cases hd : d = '"'
        · rw [hc, hd, ih (by simpa [hc, hd] using h)]
        · simp only [if_pos hc, if_neg hd, List.cons_append, List.nil_append,
            List.cons.injEq] at h
          exact (escapeQuotes_ne_cons_quote ds _ h.2.symm).elim
      · by_cases hd : d = '"'
        · simp only [if_neg hc, if_pos hd, List.cons_append, List.nil_append,
            List.cons.injEq] at h
          exact (escapeQuotes_ne_cons_quote cs _ h.2).elim
        · simp only [if_neg hc, if_neg hd, List.cons_append, List.nil_append,
            List.cons.injEq] at h
          rw [h.1, ih h.2]

/-- A key in brackets has a dot or a blank as it is written, and another key has not. -/
theorem bracketed_iff_mem_written {key : String} :
    Bracketed key ↔ '.' ∈ written key ∨ ' ' ∈ written key := by
  by_cases h : Bracketed key
  · rw [written_of_bracketed h]
    refine iff_of_true h (h.imp ?_ ?_)
    · intro hdot
      simp [mem_escapeQuotes_of_mem hdot]
    · intro hblank
      simp [mem_escapeQuotes_of_mem hblank]
  · rw [written_of_not_bracketed h]
    rfl

/-- Keys are told apart as they are written. -/
theorem written_injective {a b : String} (h : written a = written b) : a = b := by
  have hboth : Bracketed a ↔ Bracketed b := by
    rw [bracketed_iff_mem_written, bracketed_iff_mem_written, h]
  by_cases ha : Bracketed a
  · rw [written_of_bracketed ha, written_of_bracketed (hboth.1 ha)] at h
    have hquotes := List.append_cancel_left (List.append_cancel_right h)
    exact String.ext (escapeQuotes_injective hquotes)
  · rw [written_of_not_bracketed ha, written_of_not_bracketed (mt hboth.2 ha)] at h
    exact String.ext h

theorem written_eq_nil_iff {key : String} : written key = [] ↔ key = "" := by
  constructor
  · intro h
    exact written_injective (h.trans rfl)
  · rintro rfl
    rfl

theorem appended_ne_nil (key : String) : appended key ≠ [] := by
  unfold appended
  split
  · next h =>
    intro hnil
    simp [hnil] at h
  · simp

/-! ## Paths -/

theorem toList_joinPath {path : String} (hpath : path ≠ "") (key : String) :
    (joinPath path key).toList = path.toList ++ appended key := by
  rw [joinPath, if_neg hpath, appended, written]
  split
  · rw [String.toList_append]
  · rw [String.toList_append, String.toList_append]
    simp

theorem joinPath_ne_empty {path key : String} (h : path ≠ "" ∨ key ≠ "") :
    joinPath path key ≠ "" := by
  by_cases hpath : path = ""
  · rw [joinPath, if_pos hpath]
    intro hnil
    apply h.resolve_left (not_not.2 hpath)
    exact written_eq_nil_iff.1 (by rw [written, hnil]; rfl)
  · intro hnil
    have hlist := toList_joinPath hpath key
    rw [hnil] at hlist
    exact appended_ne_nil key (List.append_eq_nil_iff.1 hlist.symm).2

theorem toList_foldl_joinPath {path : String} (hpath : path ≠ "") (keys : List String) :
    (keys.foldl joinPath path).toList = path.toList ++ keys.flatMap appended := by
  induction keys generalizing path with
  | nil => simp
  | cons key keys ih =>
    rw [List.foldl_cons, ih (joinPath_ne_empty (.inl hpath)), toList_joinPath hpath]
    simp

/-- The keys that are written: the empty ones at the root are not. -/
def rooted (keys : List String) : List String := keys.dropWhile (· = "")

/-- How keys are written from the root on. -/
def rootText : List String → List Char
  | [] => []
  | key :: keys => written key ++ keys.flatMap appended

theorem toList_pathOf (keys : List String) : (pathOf keys).toList = rootText (rooted keys) := by
  induction keys with
  | nil => rfl
  | cons key keys ih =>
    by_cases hkey : key = ""
    · subst hkey
      exact ih
    · have hfirst : joinPath "" key = escapeKey key := rfl
      have hne : escapeKey key ≠ "" := by
        rw [← hfirst]
        exact joinPath_ne_empty (.inr hkey)
      rw [pathOf, List.foldl_cons, hfirst, toList_foldl_joinPath hne, rooted,
        List.dropWhile_cons_of_neg (by simpa using hkey)]
      rfl

theorem rootText_append {above : List String} (habove : above ≠ []) (keys : List String) :
    rootText (above ++ keys) = rootText above ++ keys.flatMap appended := by
  cases above with
  | nil => exact absurd rfl habove
  | cons key above => simp [rootText]

theorem head?_rooted (keys : List String) : (rooted keys).head? ≠ some "" := by
  intro h
  have hfirst := List.head?_dropWhile_not (· = "") keys
  rw [rooted] at h
  simp [h] at hfirst

/-! ## Keys that go on where others end -/

/-- A quote in an escaped text has a backslash before it. -/
theorem getLast?_of_escapeQuotes_eq {cs l m : List Char} (h : escapeQuotes cs = l ++ '"' :: m) :
    l.getLast? = some '\\' := by
  induction cs generalizing l with
  | nil => simp [escapeQuotes] at h
  | cons c cs ih =>
    rw [escapeQuotes_cons] at h
    by_cases hc : c = '"'
    · rw [if_pos hc] at h
      match l with
      | [] => simp at h
      | [x] =>
        simp only [List.cons_append, List.cons.injEq] at h
        simp [← h.1]
      | x :: y :: l =>
        simp only [List.cons_append, List.nil_append, List.cons.injEq] at h
        have hlast := ih h.2.2
        cases l with
        | nil => simp at hlast
        | cons z l => simpa using hlast
    · rw [if_neg hc] at h
      cases l with
      | nil =>
        simp only [List.cons_append, List.nil_append, List.cons.injEq] at h
        exact (hc h.1).elim
      | cons x l =>
        simp only [List.cons_append, List.nil_append, List.cons.injEq] at h
        have hlast := ih h.2
        cases l with
        | nil => simp at hlast
        | cons z l => simpa using hlast

/-- Escaping keeps the last character. -/
theorem getLast?_escapeQuotes (cs : List Char) : (escapeQuotes cs).getLast? = cs.getLast? := by
  induction cs using List.reverseRecOn with
  | nil => rfl
  | append_singleton cs c _ =>
    rw [escapeQuotes, List.flatMap_append, List.getLast?_append]
    by_cases hc : c = '"'
    · simp [hc]
    · simp [hc]

/-- A key is written like another one and more.  Either a key without brackets round it has an
opening bracket where the other ends; or the other begins with a bracket and the key stands in
brackets; or both stand in brackets, and a backslash before the closing quote of the other makes
it one inside the key. -/
structure Extends (a b : String) : Prop where
  ne_empty : a ≠ ""
  begins : written a <+: written b
  kind : (¬ Bracketed b ∧ a.toList ++ ['['] <+: b.toList) ∨
    (¬ Bracketed a ∧ Bracketed b ∧ a.toList.head? = some '[') ∨
    (Bracketed a ∧ Bracketed b ∧ a.toList.getLast? = some '\\')

/-- Two sequences of keys part, at a key and one that extends it, and the keys under the first are
written like the rest of the other and the keys under that. -/
def Clash (p q : List String) : Prop :=
  ∃ above a s b t, p = above ++ a :: s ∧ q = above ++ b :: t ∧ Extends a b ∧
    s.flatMap appended = (written b).drop (written a).length ++ t.flatMap appended

section Parting

variable {a b : String} {s t p q : List String}

theorem written_of_extends (h : Extends a b) :
    written b = written a ++ (written b).drop (written a).length := by
  obtain ⟨rest, hrest⟩ := h.begins
  rw [← hrest, List.drop_left]

theorem written_ne_nil (h : a ≠ "") : written a ≠ [] := mt written_eq_nil_iff.1 h

/-- A key and one that extends it are set off from the keys above alike. -/
theorem head?_written_of_extends (h : Extends a b) : (written b).head? = (written a).head? := by
  rw [written_of_extends h, List.head?_append_of_ne_nil _ (written_ne_nil h.ne_empty)]

/-- What may follow a key: a bracket or a dot. -/
theorem head?_flatMap_appended {c : Char} {rest : List Char}
    (h : s.flatMap appended = c :: rest) : c = '[' ∨ c = '.' := by
  cases s with
  | nil => cases h
  | cons key s =>
    have hhead := congrArg List.head? h
    rw [List.flatMap_cons, List.head?_append_of_ne_nil _ (appended_ne_nil key)] at hhead
    unfold appended at hhead
    split at hhead
    · next hbracket =>
      rw [hbracket] at hhead
      exact .inl (Option.some.inj hhead).symm
    · exact .inr (Option.some.inj hhead).symm

/-- A quote in brackets that closes another key is behind a backslash. -/
theorem getLast?_of_written_append {c : Char} {rest : List Char} (ha : Bracketed a)
    (hb : Bracketed b) (h : written b = written a ++ c :: rest) :
    a.toList.getLast? = some '\\' := by
  rw [written_of_bracketed ha, written_of_bracketed hb] at h
  simp only [List.append_assoc, List.cons_append, List.nil_append, List.cons.injEq,
    true_and] at h
  rcases List.append_eq_append_iff.1 h with ⟨m, hshort, hlong⟩ | ⟨m, hlong, hshort⟩
  · have hlength := congrArg List.length hlong
    simp at hlength
    omega
  · cases m with
    | nil => simp at hshort
    | cons x m =>
      simp only [List.cons_append, List.cons.injEq] at hshort
      rw [← hshort.1] at hlong
      rw [← getLast?_escapeQuotes]
      exact getLast?_of_escapeQuotes_eq hlong

theorem head?_written_of_bracketed (h : Bracketed a) : (written a).head? = some '[' := by
  rw [written_of_bracketed h]
  rfl

/-- A key that is written like another one with a bracket or a dot behind it extends that. -/
theorem extends_of_written {c : Char} {rest : List Char}
    (hside : a ≠ "" ∨ (written b).head? ≠ some '[') (hc : c = '[' ∨ c = '.')
    (h : written b = written a ++ c :: rest) : Extends a b := by
  have hdot : ¬ Bracketed b → '.' ∉ written b := fun hb hdot =>
    hb (bracketed_iff_mem_written.2 (.inl hdot))
  have hne : a ≠ "" := by
    rintro rfl
    have hbracket := hside.resolve_left (by simp)
    rw [show written "" = [] from rfl, List.nil_append] at h
    obtain rfl | rfl := hc
    · exact hbracket (by rw [h]; rfl)
    · refine hdot (fun hb => hbracket (head?_written_of_bracketed hb)) ?_
      rw [h]
      exact List.mem_cons_self
  refine ⟨hne, ⟨_, h.symm⟩, ?_⟩
  by_cases hb : Bracketed b
  · by_cases ha : Bracketed a
    · exact .inr (.inr ⟨ha, hb, getLast?_of_written_append ha hb h⟩)
    · refine .inr (.inl ⟨ha, hb, ?_⟩)
      rw [← head?_written_of_bracketed hb, h,
        List.head?_append_of_ne_nil _ (written_ne_nil hne), written_of_not_bracketed ha]
  · have ha : ¬ Bracketed a := by
      rw [bracketed_iff_mem_written] at hb ⊢
      rw [h] at hb
      simp only [List.mem_append, not_or] at hb ⊢
      exact ⟨hb.1.1, hb.2.1⟩
    have hopen : c = '[' := by
      refine hc.resolve_right ?_
      rintro rfl
      exact hdot hb (by simp [h])
    subst hopen
    rw [written_of_not_bracketed ha, written_of_not_bracketed hb] at h
    exact .inl ⟨hb, rest, by rw [h]; simp⟩

/-- Texts that begin with two keys are the same only where one of these extends the other. -/
theorem clash_of_written_append (hne : a ≠ b)
    (hside : (a ≠ "" ∧ b ≠ "") ∨ ((written a).head? = some '[' ↔ (written b).head? = some '['))
    (h : written a ++ s.flatMap appended = written b ++ t.flatMap appended) :
    Clash (a :: s) (b :: t) ∨ Clash (b :: t) (a :: s) := by
  have hone : ∀ {a b : String} {s t : List String} {m : List Char}, a ≠ b →
      (a ≠ "" ∨ ((written a).head? = some '[' ↔ (written b).head? = some '[')) →
      written b = written a ++ m → s.flatMap appended = m ++ t.flatMap appended →
      Clash (a :: s) (b :: t) := by
    intro a b s t m hne hside hb hs
    have hextends : Extends a b := by
      cases m with
      | nil => exact absurd (written_injective (by simpa using hb.symm)) hne
      | cons c rest =>
        refine extends_of_written ?_ (head?_flatMap_appended hs) hb
        by_cases ha : a = ""
        · subst ha
          refine .inr fun hbracket => ?_
          have hempty := ((hside.resolve_left (by simp)).2 hbracket)
          cases hempty
        · exact .inl ha
    refine ⟨[], a, s, b, t, rfl, rfl, hextends, ?_⟩
    rw [hs, hb, List.drop_left]
  rcases List.append_eq_append_iff.1 h with ⟨m, hb, hs⟩ | ⟨m, ha, ht⟩
  · exact .inl (hone hne (hside.imp (·.1) id) hb hs)
  · exact .inr (hone hne.symm (hside.imp (·.2) Iff.symm) ha ht)

theorem Clash.append (above : List String) (h : Clash p q) : Clash (above ++ p) (above ++ q) := by
  obtain ⟨above', a, s, b, t, rfl, rfl, hclash⟩ := h
  exact ⟨above ++ above', a, s, b, t, (List.append_assoc ..).symm, (List.append_assoc ..).symm,
    hclash⟩

theorem clash_of_appended_append (hne : a ≠ b)
    (h : (a :: s).flatMap appended = (b :: t).flatMap appended) :
    Clash (a :: s) (b :: t) ∨ Clash (b :: t) (a :: s) := by
  rw [List.flatMap_cons, List.flatMap_cons] at h
  unfold appended at h
  by_cases ha : (written a).head? = some '['
  · by_cases hb : (written b).head? = some '['
    · rw [if_pos ha, if_pos hb] at h
      exact clash_of_written_append hne (.inr (iff_of_true ha hb)) h
    · rw [if_pos ha, if_neg hb] at h
      have hheads := congrArg List.head? h
      rw [List.head?_append, ha] at hheads
      cases hheads
  · by_cases hb : (written b).head? = some '['
    · rw [if_neg ha, if_pos hb] at h
      have hheads := congrArg List.head? h
      rw [List.head?_append, List.head?_append, hb] at hheads
      cases hheads
    · rw [if_neg ha, if_neg hb] at h
      exact clash_of_written_append hne (.inr (iff_of_false ha hb)) (List.cons.inj h).2

/-- Keys that clash are written alike. -/
theorem Clash.rootText_eq (h : Clash p q) : rootText p = rootText q := by
  obtain ⟨above, a, s, b, t, rfl, rfl, hextends, hrest⟩ := h
  have hwritten : written a ++ s.flatMap appended = written b ++ t.flatMap appended := by
    rw [hrest, ← List.append_assoc, ← written_of_extends hextends]
  by_cases habove : above = []
  · subst habove
    exact hwritten
  · rw [rootText_append habove, rootText_append habove, List.append_cancel_left_eq,
      List.flatMap_cons, List.flatMap_cons]
    unfold appended
    rw [head?_written_of_extends hextends]
    split
    · exact hwritten
    · exact congrArg ('.' :: ·) hwritten

/-- Different sequences of keys part somewhere. -/
theorem exists_parting {p q : List String} (h : p ≠ q) :
    ∃ above s t, p = above ++ s ∧ q = above ++ t ∧ s.head? ≠ t.head? := by
  induction p generalizing q with
  | nil =>
    cases q with
    | nil => exact (h rfl).elim
    | cons b q => exact ⟨[], [], b :: q, rfl, rfl, by simp⟩
  | cons a p ih =>
    cases q with
    | nil => exact ⟨[], a :: p, [], rfl, rfl, by simp⟩
    | cons b q =>
      by_cases hab : a = b
      · subst hab
        obtain ⟨above, s, t, hp, hq, hpart⟩ := ih fun hpq => h (by rw [hpq])
        exact ⟨a :: above, s, t, by rw [hp]; rfl, by rw [hq]; rfl, hpart⟩
      · exact ⟨[], a :: p, b :: q, rfl, rfl, by simpa using hab⟩

/-- Keys that are written alike are the same, or clash. -/
theorem rootText_eq_iff (hp : p.head? ≠ some "") (hq : q.head? ≠ some "") :
    rootText p = rootText q ↔ p = q ∨ Clash p q ∨ Clash q p := by
  constructor
  · intro h
    by_cases hne : p = q
    · exact .inl hne
    · right
      obtain ⟨above, s, t, rfl, rfl, hpart⟩ := exists_parting hne
      by_cases habove : above = []
      · subst habove
        cases s with
        | nil =>
          cases t with
          | nil => exact absurd rfl hpart
          | cons b t =>
            have hb : b ≠ "" := by simpa using hq
            exact absurd (List.append_eq_nil_iff.1 h.symm).1 (written_ne_nil hb)
        | cons a s =>
          have ha : a ≠ "" := by simpa using hp
          cases t with
          | nil => exact absurd (List.append_eq_nil_iff.1 h).1 (written_ne_nil ha)
          | cons b t =>
            have hb : b ≠ "" := by simpa using hq
            exact clash_of_written_append (by simpa using hpart) (.inl ⟨ha, hb⟩) h
      · rw [rootText_append habove, rootText_append habove, List.append_cancel_left_eq] at h
        cases s with
        | nil =>
          cases t with
          | nil => exact absurd rfl hpart
          | cons b t =>
            rw [List.flatMap_cons] at h
            exact absurd (List.append_eq_nil_iff.1 h.symm).1 (appended_ne_nil b)
        | cons a s =>
          cases t with
          | nil =>
            rw [List.flatMap_cons] at h
            exact absurd (List.append_eq_nil_iff.1 h).1 (appended_ne_nil a)
          | cons b t =>
            exact (clash_of_appended_append (by simpa using hpart) h).imp (.append above)
              (.append above)
  · rintro (rfl | h | h)
    · rfl
    · exact h.rootText_eq
    · exact h.rootText_eq.symm

/-- Two sequences of keys have one path exactly when they are the same but for empty keys at the
root, or clash. -/
theorem pathOf_eq_iff :
    pathOf p = pathOf q ↔
      rooted p = rooted q ∨ Clash (rooted p) (rooted q) ∨ Clash (rooted q) (rooted p) := by
  rw [← rootText_eq_iff (head?_rooted p) (head?_rooted q), ← toList_pathOf, ← toList_pathOf,
    String.toList_inj]

end Parting

/-! ## Plain keys -/

/-- A key that is not empty and has neither opening brackets nor backslashes. -/
structure PlainKey (key : String) : Prop where
  ne_empty : key ≠ ""
  bracket : '[' ∉ key.toList
  backslash : '\\' ∉ key.toList

/-- Plain keys extend no plain keys. -/
theorem not_extends_of_plain {a b : String} (ha : PlainKey a) (hb : PlainKey b) :
    ¬ Extends a b := by
  rintro ⟨-, -, ⟨-, hbracket⟩ | ⟨-, -, hbracket⟩ | ⟨-, -, hbackslash⟩⟩
  · exact hb.bracket (hbracket.subset (by simp))
  · exact ha.bracket (List.mem_of_head? hbracket)
  · exact ha.backslash (List.mem_of_getLast? hbackslash)

theorem not_clash_of_plain {p q : List String} (hp : ∀ key ∈ p, PlainKey key)
    (hq : ∀ key ∈ q, PlainKey key) : ¬ Clash p q := by
  rintro ⟨above, a, s, b, t, rfl, rfl, hextends, -⟩
  exact not_extends_of_plain (hp a (by simp)) (hq b (by simp)) hextends

theorem rooted_of_plain {keys : List String} (h : ∀ key ∈ keys, PlainKey key) :
    rooted keys = keys := by
  cases keys with
  | nil => rfl
  | cons key keys => exact List.dropWhile_cons_of_neg (by simpa using (h key (by simp)).ne_empty)

/-! ## Snapshots -/

/-- Differences under different keys have different paths. -/
def UniquePaths (before after : JsonValue) : Prop :=
  ∀ d ∈ locateSnapshots before after, ∀ d' ∈ locateSnapshots before after,
    d.keys ≠ d'.keys → d.difference.path ≠ d'.difference.path

/-- No two differences under different keys have the same keys but for empty ones at the root, or
keys that clash. -/
def DifferencesApart (before after : JsonValue) : Prop :=
  ∀ d ∈ locateSnapshots before after, ∀ d' ∈ locateSnapshots before after, d.keys ≠ d'.keys →
    rooted d.keys ≠ rooted d'.keys ∧ ¬ Clash (rooted d.keys) (rooted d'.keys) ∧
      ¬ Clash (rooted d'.keys) (rooted d.keys)

/-- The located differences are those that the code reports. -/
theorem map_difference_locateSnapshots (before after : JsonValue) :
    (locateSnapshots before after).map LocatedDifference.difference =
      (diffSchemaSnapshots before after).differences :=
  map_difference_locateValue before after []

/-- **Paths tell all differences apart exactly when no keys clash.** -/
theorem uniquePaths_iff (before after : SchemaSnapshot) :
    UniquePaths before after ↔ DifferencesApart before after := by
  refine forall₂_congr fun d hd => forall₂_congr fun d' hd' => imp_congr_right fun _ => ?_
  rw [path_of_mem_locateValue _ _ _ d hd, path_of_mem_locateValue _ _ _ d' hd', Ne,
    pathOf_eq_iff, not_or, not_or]

/-- Differences under plain keys are apart. -/
theorem differencesApart_of_plainKeys {before after : JsonValue}
    (h : ∀ d ∈ locateSnapshots before after, ∀ key ∈ d.keys, PlainKey key) :
    DifferencesApart before after := by
  intro d hd d' hd' hne
  rw [rooted_of_plain (h d hd), rooted_of_plain (h d' hd')]
  exact ⟨hne, not_clash_of_plain (h d hd) (h d' hd'), not_clash_of_plain (h d' hd') (h d hd)⟩

/-! ## Snapshots whose names have dots -/

/-- A schema with tables. -/
def schemaOf (tables : List (String × JsonValue)) : JsonValue :=
  .obj [("tables", .obj tables), ("enums", .obj []), ("sequences", .obj [])]

/-- A snapshot of the schemas of a PostgreSQL database. -/
def snapshotOf (schemas : List (String × JsonValue)) : JsonValue :=
  .obj [("dialect", .str "postgresql"), ("schemas", .obj schemas)]

/-- A table without columns. -/
def bareTable : JsonValue :=
  .obj [("columns", .obj []), ("primaryKey", .null), ("uniqueConstraints", .obj []),
    ("foreignKeys", .obj []), ("checkConstraints", .obj []), ("indexes", .obj [])]

theorem bareTable_wellFormed : bareTable.WellFormed := by
  refine .obj (by decide) ?_
  simp only [List.mem_cons, List.not_mem_nil, or_false, forall_eq_or_imp, forall_eq]
  exact ⟨.obj .nil (by simp), .null, .obj .nil (by simp), .obj .nil (by simp),
    .obj .nil (by simp), .obj .nil (by simp)⟩

theorem schemaOf_wellFormed {tables : List (String × JsonValue)}
    (hnodup : (OrderedMap.keys tables).Nodup) (h : ∀ e ∈ tables, e.2.WellFormed) :
    (schemaOf tables).WellFormed := by
  refine .obj (by simp) ?_
  simp only [List.mem_cons, List.not_mem_nil, or_false, forall_eq_or_imp, forall_eq]
  exact ⟨.obj hnodup h, .obj .nil (by simp), .obj .nil (by simp)⟩

theorem snapshotOf_wellFormed {schemas : List (String × JsonValue)}
    (hnodup : (OrderedMap.keys schemas).Nodup) (h : ∀ e ∈ schemas, e.2.WellFormed) :
    (snapshotOf schemas).WellFormed := by
  refine .obj (by simp) ?_
  simp only [List.mem_cons, List.not_mem_nil, or_false, forall_eq_or_imp, forall_eq]
  exact ⟨.str _, .obj hnodup h⟩

/-- A schema `["x` without tables. -/
def runningBefore : SchemaSnapshot :=
  ⟨snapshotOf [("[\"x", schemaOf [])],
    snapshotOf_wellFormed (by decide) (by
      simpa using @schemaOf_wellFormed [] (by decide) (by simp))⟩

/-- The schema with a table `y"]`, and a schema `x.tables.y`. -/
def runningAfter : SchemaSnapshot :=
  ⟨snapshotOf [("[\"x", schemaOf [("y\"]", bareTable)]), ("x.tables.y", schemaOf [])],
    snapshotOf_wellFormed (by decide) (by
      simp only [List.mem_cons, List.not_mem_nil, or_false, forall_eq_or_imp, forall_eq]
      exact ⟨schemaOf_wellFormed (by decide) (by simp [bareTable_wellFormed]),
        schemaOf_wellFormed (by decide) (by simp)⟩)⟩

/-- The table that was added and the schema that was added have the path
`schemas["x.tables.y"]`. -/
theorem running_not_uniquePaths : ¬ UniquePaths runningBefore runningAfter := by
  intro h
  let table : LocatedDifference :=
    { keys := ["schemas", "[\"x", "tables", "y\"]"]
      difference := ⟨"schemas[\"x.tables.y\"]", .added, none, some bareTable⟩ }
  let schema : LocatedDifference :=
    { keys := ["schemas", "x.tables.y"]
      difference := ⟨"schemas[\"x.tables.y\"]", .added, none, some (schemaOf [])⟩ }
  have htable : table ∈ locateSnapshots runningBefore runningAfter := by
    simp only [locateSnapshots, runningBefore, runningAfter, snapshotOf, schemaOf]
    simp [mem_locateValue_obj, locateKey, OrderedMap.get?]
    refine .inr (.inl ⟨table.difference, ?_, rfl⟩)
    have hpath : joinPath (pathOf ["schemas", "[\"x", "tables"]) "y\"]" =
        "schemas[\"x.tables.y\"]" := by decide
    simp [diffKey, OrderedMap.get?, table, hpath]
  have hschema : schema ∈ locateSnapshots runningBefore runningAfter := by
    simp only [locateSnapshots, runningBefore, runningAfter, snapshotOf, schemaOf]
    simp [mem_locateValue_obj, locateKey, OrderedMap.get?]
    refine .inr (.inr ⟨schema.difference, ?_, rfl⟩)
    have hpath : joinPath (pathOf ["schemas"]) "x.tables.y" =
        "schemas[\"x.tables.y\"]" := by decide
    simp [diffKey, OrderedMap.get?, schema, hpath, schemaOf]
  exact h table htable schema hschema (by decide) rfl

end SharedTsLibs.DrizzleUtils
