import SharedTsLibs.ApiCommon.PaginationUtils

/-!
# Reading all rows page by page

A server that answers each request with the page built from the first rows after the
requested cursor, one row more than the limit, and the client's loop against it.

* `pageServer` — the server.
* `DistinctCursors` — the cursors of the rows tell them apart.
* `serves_pageServer` — every request is answered with the next part of the rows left.
* `getPaginatedEntries_pageServer` — the client ends with exactly the rows after its start.
-/

namespace SharedTsLibs.ApiCommon

variable {P : Type} (objectPrototype : String → Option (JsValue P))
  (encodeCursor : JsObject P → Except PaginationError String)
  (cursorKeysOrBuilder : CursorKeysOrBuilder P)

/-! ## The server -/

/-- The cursor of a row, where it is a string. -/
def rowCursor (row : Row P) : Option String :=
  match lastElementCursor objectPrototype encodeCursor cursorKeysOrBuilder (some row) with
  | .ok (.str s) => some s
  | _ => none

/-- The rows strictly after a cursor. -/
def rowsAfter (rows : List (Row P)) : Option (JsValue P) → List (Row P)
  | none => rows
  | some (.str s) => Paging.after
      (fun row => rowCursor objectPrototype encodeCursor cursorKeysOrBuilder row == some s) rows
  | some _ => []

/-- A server over an ordered list of rows. -/
def pageServer (rows : List (Row P)) (defaultLimit : ℚ) (params : OptionalPaginationParams P) :
    Except PaginationError (PaginatedResponse P) :=
  let limit := params.limit.getD defaultLimit
  createPaginatedResponse objectPrototype encodeCursor
    ((rowsAfter objectPrototype encodeCursor cursorKeysOrBuilder rows params.after).take
      (limit.floor.toNat + 1)) limit cursorKeysOrBuilder

/-- The cursors of the rows are non-empty strings, pairwise distinct. -/
structure DistinctCursors (rows : List (Row P)) : Prop where
  isString : ∀ row ∈ rows, ∃ s, s ≠ "" ∧
    lastElementCursor objectPrototype encodeCursor cursorKeysOrBuilder (some row) = .ok (.str s)
  distinct : (rows.map (rowCursor objectPrototype encodeCursor cursorKeysOrBuilder)).Nodup

/-- `left` is what follows the row whose cursor is `start`, or everything. -/
def StartsAfter (rows : List (Row P)) (start : Option String) (left : List (Row P)) : Prop :=
  match start with
  | none => left = rows
  | some s => ∃ pre row, rows = pre ++ row :: left ∧
      rowCursor objectPrototype encodeCursor cursorKeysOrBuilder row = some s

/-- What a client has left to read when its next request names `place`. -/
def LeftAt (rows : List (Row P)) (place : Option (JsValue P)) (left : List (Row P)) : Prop :=
  ∃ start : Option String, place = start.map .str ∧
    StartsAfter objectPrototype encodeCursor cursorKeysOrBuilder rows start left

/-! ## One request -/

section Request

variable {objectPrototype : String → Option (JsValue P)}
  {encodeCursor : JsObject P → Except PaginationError String}
  {cursorKeysOrBuilder : CursorKeysOrBuilder P} {rows left : List (Row P)}

theorem rowCursor_eq_some_iff {row : Row P} {s : String} :
    rowCursor objectPrototype encodeCursor cursorKeysOrBuilder row = some s ↔
      lastElementCursor objectPrototype encodeCursor cursorKeysOrBuilder (some row) =
        .ok (.str s) := by
  unfold rowCursor
  constructor
  · intro h
    split at h
    · rename_i t ht
      cases h
      exact ht
    · cases h
  · intro h
    rw [h]

/-- Distinct cursors name the place of their row. -/
theorem rowsAfter_of_startsAfter
    (hdistinct : DistinctCursors objectPrototype encodeCursor cursorKeysOrBuilder rows)
    {start : Option String}
    (hstart : StartsAfter objectPrototype encodeCursor cursorKeysOrBuilder rows start left) :
    rowsAfter objectPrototype encodeCursor cursorKeysOrBuilder rows (start.map .str) = left := by
  cases start with
  | none => exact hstart.symm
  | some s =>
    obtain ⟨pre, row, rfl, hrow⟩ := hstart
    have hnodup := hdistinct.distinct
    rw [List.map_append, List.map_cons, List.nodup_append] at hnodup
    apply Paging.after_append_cons
    · intro other hother
      have hne := hnodup.2.2 _ (List.mem_map_of_mem hother) _ List.mem_cons_self
      rw [hrow] at hne
      simpa using hne
    · simp [hrow]

/-- An empty cursor would be left out of the request; the cursors of the rows are not. -/
theorem requestParams_after
    (hdistinct : DistinctCursors objectPrototype encodeCursor cursorKeysOrBuilder rows)
    {start : Option String}
    (hstart : StartsAfter objectPrototype encodeCursor cursorKeysOrBuilder rows start left)
    (limit : Option ℚ) :
    (requestParams (P := P) limit (start.map .str)).after = start.map .str := by
  cases start with
  | none => rfl
  | some s =>
    obtain ⟨pre, row, hrows, hrow⟩ := hstart
    have hmem : row ∈ rows := by simp [hrows]
    obtain ⟨t, ht, hcursor⟩ := hdistinct.isString row hmem
    rw [rowCursor_eq_some_iff, hcursor] at hrow
    cases hrow
    simp [requestParams, JsValue.truthy, Option.filter, ht]

/-- What the server is asked for by a client that has `left` before it. -/
theorem pageServer_requestParams
    (hdistinct : DistinctCursors objectPrototype encodeCursor cursorKeysOrBuilder rows)
    {start : Option String}
    (hstart : StartsAfter objectPrototype encodeCursor cursorKeysOrBuilder rows start left)
    {limit : ℕ} (hlimit : 0 < limit) (defaultLimit : ℚ) :
    pageServer objectPrototype encodeCursor cursorKeysOrBuilder rows defaultLimit
        (requestParams (some (limit : ℚ)) (start.map .str)) =
      createPaginatedResponse objectPrototype encodeCursor (left.take (limit + 1)) limit
        cursorKeysOrBuilder := by
  have hne : (limit : ℚ) ≠ 0 := by positivity
  have hfloor : (limit : ℚ).floor = (limit : ℤ) := floor_natCast limit
  have hparams : (requestParams (P := P) (some (limit : ℚ)) (start.map .str)).limit =
      some (limit : ℚ) := by
    simp [requestParams, Option.filter, hne]
  unfold pageServer
  simp only [hparams, requestParams_after hdistinct hstart, Option.getD_some, hfloor,
    rowsAfter_of_startsAfter hdistinct hstart, Int.toNat_natCast]

/-- What follows the last row of a page is what is left after the page. -/
theorem startsAfter_drop
    {start : Option String}
    (hstart : StartsAfter objectPrototype encodeCursor cursorKeysOrBuilder rows start left)
    {limit : ℕ} {last : Row P} {s : String} (hlast : (left.take limit).getLast? = some last)
    (hcursor : rowCursor objectPrototype encodeCursor cursorKeysOrBuilder last = some s) :
    StartsAfter objectPrototype encodeCursor cursorKeysOrBuilder rows (some s)
      (left.drop limit) := by
  obtain ⟨page, hpage⟩ := List.getLast?_eq_some_iff.1 hlast
  have hleft : left = page ++ last :: left.drop limit := by
    calc left = left.take limit ++ left.drop limit := (List.take_append_drop limit left).symm
      _ = page ++ last :: left.drop limit := by rw [hpage, List.append_assoc]; rfl
  cases start with
  | none =>
    refine ⟨page, last, ?_, hcursor⟩
    rw [← hleft]
    exact hstart.symm
  | some t =>
    obtain ⟨pre, row, hrows, -⟩ := hstart
    refine ⟨pre ++ row :: page, last, ?_, hcursor⟩
    rw [hrows, List.append_assoc, List.cons_append, ← hleft]

theorem mem_of_startsAfter {start : Option String}
    (hstart : StartsAfter objectPrototype encodeCursor cursorKeysOrBuilder rows start left)
    {row : Row P} (hrow : row ∈ left) : row ∈ rows := by
  cases start with
  | none => exact hstart ▸ hrow
  | some s =>
    obtain ⟨pre, first, rfl, -⟩ := hstart
    simp [hrow]

/-- The page a client with `left` before it is sent. -/
theorem fetchPage_pageServer (hkeys : cursorKeysOrBuilder ≠ .keys [])
    (hdistinct : DistinctCursors objectPrototype encodeCursor cursorKeysOrBuilder rows)
    {start : Option String}
    (hstart : StartsAfter objectPrototype encodeCursor cursorKeysOrBuilder rows start left)
    {limit : ℕ} (hlimit : 0 < limit) (defaultLimit : ℚ) {last : Row P} {s : String}
    (hlast : (left.take limit).getLast? = some last)
    (hcursor : lastElementCursor objectPrototype encodeCursor cursorKeysOrBuilder (some last) =
      .ok (.str s)) :
    fetchPage (pageServer objectPrototype encodeCursor cursorKeysOrBuilder rows defaultLimit)
        (some (limit : ℚ)) (start.map .str) =
      .ok (left.take limit, if limit < left.length then some (some (.str s)) else none) := by
  have htake : (left.take (limit + 1)).take limit = left.take limit := by
    rw [List.take_take, min_eq_left (by omega)]
  have hpage : left.take (limit + 1) ≠ [] := by
    intro hnil
    rw [← htake, hnil] at hlast
    simp at hlast
  have hmore : limit < (left.take (limit + 1)).length ↔ limit < left.length := by
    rw [List.length_take]
    omega
  rw [fetchPage, pageServer_requestParams hdistinct hstart hlimit,
    createPaginatedResponse_eq_ok hkeys hpage hlimit (by rw [htake, hlast]; exact hcursor), htake]
  show Except.ok (left.take limit,
    if decide (limit < (left.take (limit + 1)).length) = true then
      some (some (JsValue.str s)) else none) = _
  simp only [decide_eq_true_eq, hmore]

/-- Every request is answered with the next part of the rows that are left. -/
theorem serves_pageServer (hkeys : cursorKeysOrBuilder ≠ .keys [])
    (hdistinct : DistinctCursors objectPrototype encodeCursor cursorKeysOrBuilder rows)
    {start : Option String}
    (hstart : StartsAfter objectPrototype encodeCursor cursorKeysOrBuilder rows start left)
    {limit : ℕ} (hlimit : 0 < limit) (defaultLimit : ℚ) :
    Paging.Serves
      (fetchPage (pageServer objectPrototype encodeCursor cursorKeysOrBuilder rows defaultLimit)
        (some (limit : ℚ)))
      (LeftAt objectPrototype encodeCursor cursorKeysOrBuilder rows) (start.map .str) left := by
  cases hlast : (left.take limit).getLast? with
  | none =>
    have hnil : left = [] := by
      rcases List.take_eq_nil_iff.1 (List.getLast?_eq_none_iff.1 hlast) with h | h
      · omega
      · exact h
    subst hnil
    refine Or.inl ?_
    rw [fetchPage, pageServer_requestParams hdistinct hstart hlimit, List.take_nil,
      createPaginatedResponse_nil hkeys]
    rfl
  | some last =>
    have hmem : last ∈ rows :=
      mem_of_startsAfter hstart (List.mem_of_mem_take (List.mem_of_getLast? hlast))
    obtain ⟨s, -, hcursor⟩ := hdistinct.isString last hmem
    have hfetch := fetchPage_pageServer hkeys hdistinct hstart hlimit defaultLimit hlast hcursor
    by_cases hlength : limit < left.length
    · rw [if_pos hlength] at hfetch
      have hpage : left.take limit ≠ [] := by
        intro hnil
        simp [hnil] at hlast
      have hrow := rowCursor_eq_some_iff.2 hcursor
      exact Or.inr ⟨left.take limit, left.drop limit, some (.str s), hpage,
        (List.take_append_drop limit left).symm, hfetch, some s, rfl,
        startsAfter_drop hstart hlast hrow⟩
    · -- the last page, which may be exactly full
      rw [if_neg hlength, List.take_of_length_le (by omega)] at hfetch
      exact Or.inl hfetch

end Request

/-! ## All requests -/

/-- The client ends with exactly the rows after its start, each once and in order. -/
theorem getPaginatedEntries_pageServer (hkeys : cursorKeysOrBuilder ≠ .keys [])
    {rows : List (Row P)}
    (hdistinct : DistinctCursors objectPrototype encodeCursor cursorKeysOrBuilder rows)
    {limit : ℕ} (hlimit : 0 < limit) (defaultLimit : ℚ) {start : Option String}
    (hstart : ∀ s, start = some s → ∃ row ∈ rows,
      rowCursor objectPrototype encodeCursor cursorKeysOrBuilder row = some s) :
    ∃ left, StartsAfter objectPrototype encodeCursor cursorKeysOrBuilder rows start left ∧
      ∀ fuel, left.length < fuel →
        getPaginatedEntries
          (pageServer objectPrototype encodeCursor cursorKeysOrBuilder rows defaultLimit) fuel
          { limit := some (limit : ℚ), after := start.map .str } = some (.ok left) := by
  have hleft : ∃ left,
      StartsAfter objectPrototype encodeCursor cursorKeysOrBuilder rows start left := by
    cases start with
    | none => exact ⟨rows, rfl⟩
    | some s =>
      obtain ⟨row, hmem, hrow⟩ := hstart s rfl
      obtain ⟨pre, left, hrows⟩ := List.append_of_mem hmem
      exact ⟨left, pre, row, hrows, hrow⟩
  obtain ⟨left, hleft⟩ := hleft
  refine ⟨left, hleft, fun fuel hfuel => ?_⟩
  have hserves : ∀ place left', LeftAt objectPrototype encodeCursor cursorKeysOrBuilder rows place
      left' → Paging.Serves (fetchPage (pageServer objectPrototype encodeCursor
        cursorKeysOrBuilder rows defaultLimit) (some (limit : ℚ)))
        (LeftAt objectPrototype encodeCursor cursorKeysOrBuilder rows) place left' := by
    rintro place left' ⟨start', rfl, hstart'⟩
    exact serves_pageServer hkeys hdistinct hstart' hlimit defaultLimit
  exact Paging.collect_eq_ok hserves ⟨start, rfl, hleft⟩ hfuel []

section Fruit

/-- Three rows, no two of which agree in both keys. -/
def fruit : List (Row Unit) :=
  [⟨[("id", .str "1"), ("name", .str "plum")], by decide⟩,
    ⟨[("name", .str "plum"), ("id", .str "2")], by decide⟩,
    ⟨[("id", .str "2"), ("name", .str "pear"), ("color", .null)], by decide⟩]

/-- The encoding of the cursors of these rows. -/
def encodeFruit : JsObject Unit → Except PaginationError String
  | [("id", .str "1"), ("name", .str "plum")] => .ok "eyJpZCI6IjEiLCJuYW1lIjoicGx1bSJ9"
  | [("id", .str "2"), ("name", .str "plum")] => .ok "eyJpZCI6IjIiLCJuYW1lIjoicGx1bSJ9"
  | [("id", .str "2"), ("name", .str "pear")] => .ok "eyJpZCI6IjIiLCJuYW1lIjoicGVhciJ9"
  | _ => .error .typeError

theorem distinctCursors_fruit :
    DistinctCursors (fun _ => none) encodeFruit (.keys ["id", "name"]) fruit where
  isString := by
    intro row hrow
    simp only [fruit, List.mem_cons, List.not_mem_nil, or_false] at hrow
    rcases hrow with rfl | rfl | rfl
    · exact ⟨"eyJpZCI6IjEiLCJuYW1lIjoicGx1bSJ9", by decide, rfl⟩
    · exact ⟨"eyJpZCI6IjIiLCJuYW1lIjoicGx1bSJ9", by decide, rfl⟩
    · exact ⟨"eyJpZCI6IjIiLCJuYW1lIjoicGVhciJ9", by decide, rfl⟩
  distinct := by decide

theorem getPaginatedEntries_pageServer_fruit :
    ∃ left, StartsAfter (fun _ => none) encodeFruit (.keys ["id", "name"]) fruit
        (some "eyJpZCI6IjEiLCJuYW1lIjoicGx1bSJ9") left ∧
      ∀ fuel, left.length < fuel →
        getPaginatedEntries
          (pageServer (fun _ => none) encodeFruit (.keys ["id", "name"]) fruit 10) fuel
          { limit := some ((1 : ℕ) : ℚ),
            after := some (.str "eyJpZCI6IjEiLCJuYW1lIjoicGx1bSJ9") } = some (.ok left) := by
  have hstart : ∀ s, some "eyJpZCI6IjEiLCJuYW1lIjoicGx1bSJ9" = some s → ∃ row ∈ fruit,
      rowCursor (fun _ => none) encodeFruit (.keys ["id", "name"]) row = some s := by
    intro s hs
    cases hs
    exact ⟨_, List.mem_cons_self, rfl⟩
  exact getPaginatedEntries_pageServer (fun _ => none) encodeFruit (.keys ["id", "name"])
    (by simp) distinctCursors_fruit (by decide) 10 hstart

end Fruit

end SharedTsLibs.ApiCommon
