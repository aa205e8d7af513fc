import SharedTsLibs.ApiCommon.PaginationUtils
import SharedTsLibs.Lib.Fallible

/-!
# Pages and their limits

The pagination schema admits every positive limit, whole or not.  When a page is what is
expected for its limit.

* `PageOf` — the first rows, with the cursor of the last of them and what is said of the others.
* `createPaginatedResponse_of_le` — a limit that no row exceeds is as good as the number of rows.
* `exists_pageOf_iff` — a page is made as expected exactly for whole limits and for those that no
  row exceeds.
-/

namespace SharedTsLibs.ApiCommon

variable {P : Type}

/-- The response to a request for the first rows. -/
structure PageOf (objectPrototype : String → Option (JsValue P))
    (encodeCursor : JsObject P → Except PaginationError String)
    (cursorKeysOrBuilder : CursorKeysOrBuilder P) (page : List (Row P))
    (response : PaginatedResponse P) : Prop where
  /-- The rows returned are the first ones. -/
  initial : response.data <+: page
  count : response.«meta».count = response.data.length
  /-- The cursor is that of the last row returned, and there is none without rows. -/
  cursor : response.«meta».cursor.map Except.ok = response.data.getLast?.map fun item =>
    lastElementCursor objectPrototype encodeCursor cursorKeysOrBuilder (some item)
  /-- There is more exactly when a row is left out. -/
  hasMore : response.«meta».hasMore = true ↔ response.data.length < page.length

section Pages

variable {objectPrototype : String → Option (JsValue P)}
  {encodeCursor : JsObject P → Except PaginationError String}
  {cursorKeysOrBuilder : CursorKeysOrBuilder P} {page : List (Row P)} {limit : ℚ}

/-- Every row has a cursor, which is a text. -/
def StringCursors (objectPrototype : String → Option (JsValue P))
    (encodeCursor : JsObject P → Except PaginationError String)
    (cursorKeysOrBuilder : CursorKeysOrBuilder P) (page : List (Row P)) : Prop :=
  ∀ item ∈ page, ∃ s, lastElementCursor objectPrototype encodeCursor cursorKeysOrBuilder
    (some item) = .ok (.str s)

/-- A limit that no row exceeds is as good as the number of rows. -/
theorem createPaginatedResponse_of_le (h : (page.length : ℚ) ≤ limit) :
    createPaginatedResponse objectPrototype encodeCursor page limit cursorKeysOrBuilder =
      createPaginatedResponse objectPrototype encodeCursor page page.length
        cursorKeysOrBuilder := by
  have hnonneg : (0 : ℚ) ≤ page.length := Nat.cast_nonneg _
  have hfloor : page.length ≤ limit.floor.toNat := by
    have hle : (page.length : ℤ) ≤ ⌊limit⌋ := Int.le_floor.2 (by exact_mod_cast h)
    exact Int.le_toNat (hle.trans' (Int.natCast_nonneg _)) |>.2 hle
  have hlimit : (-1 : ℚ) < limit := lt_of_lt_of_le (by norm_num) (hnonneg.trans h)
  have hslice : slice page limit = slice page (page.length : ℚ) := by
    rw [slice_natCast, slice, if_pos hlimit, List.take_length, List.take_of_length_le hfloor]
  have hmeta : getMetaForNextPage objectPrototype encodeCursor page limit cursorKeysOrBuilder =
      getMetaForNextPage objectPrototype encodeCursor page page.length cursorKeysOrBuilder := by
    unfold getMetaForNextPage
    rw [min_eq_left h, min_self, decide_eq_false (not_lt.2 h),
      decide_eq_false (lt_irrefl (page.length : ℚ))]
  rw [createPaginatedResponse, createPaginatedResponse, hslice, hmeta]

/-- The page for a positive whole limit is as expected. -/
theorem exists_pageOf_natCast (hkeys : cursorKeysOrBuilder ≠ .keys [])
    (hcursors : StringCursors objectPrototype encodeCursor cursorKeysOrBuilder page)
    (hpage : page ≠ []) {n : ℕ} (hn : 0 < n) :
    ∃ response, createPaginatedResponse objectPrototype encodeCursor page n cursorKeysOrBuilder =
      .ok response ∧
        PageOf objectPrototype encodeCursor cursorKeysOrBuilder page response := by
  have hne : page.take n ≠ [] := by simpa [hn.ne'] using hpage
  have hlast := List.getLast?_eq_some_getLast hne
  obtain ⟨s, hs⟩ := hcursors ((page.take n).getLast hne)
    (List.take_subset n page (List.getLast_mem hne))
  have hresponse := createPaginatedResponse_eq_ok hkeys hpage hn (hlast.symm ▸ hs)
  refine ⟨_, hresponse, List.take_prefix n page, ?_, ?_, ?_⟩
  · show min (page.length : ℚ) n = ((page.take n).length : ℕ)
    rw [List.length_take, min_comm n]
    push_cast
    rfl
  · show some (Except.ok (JsValue.str s)) = (page.take n).getLast?.map _
    rw [hlast, Option.map_some, hs]
  · show decide (n < page.length) = true ↔ (page.take n).length < page.length
    rw [decide_eq_true_iff, List.length_take]
    omega

/-- The count of a page is the limit or the number of rows, whichever is less. -/
theorem count_of_createPaginatedResponse {response : PaginatedResponse P} (hpage : page ≠ [])
    (h : createPaginatedResponse objectPrototype encodeCursor page limit cursorKeysOrBuilder =
      .ok response) : response.«meta».count = min (page.length : ℚ) limit := by
  obtain ⟨«meta», hmeta, hresponse⟩ := Fallible.bind_eq_ok.1 h
  cases hresponse
  unfold getMetaForNextPage at hmeta
  split at hmeta
  · cases hmeta
  · rw [if_neg (by simpa using hpage)] at hmeta
    obtain ⟨cursor, -, hmeta⟩ := Fallible.bind_eq_ok.1 hmeta
    cases hmeta
    rfl

/-- **A page is made as expected exactly for whole limits and for those that no row exceeds.** -/
theorem exists_pageOf_iff (hkeys : cursorKeysOrBuilder ≠ .keys [])
    (hcursors : StringCursors objectPrototype encodeCursor cursorKeysOrBuilder page)
    (hlimit : 0 < limit) :
    (∃ response, createPaginatedResponse objectPrototype encodeCursor page limit
        cursorKeysOrBuilder = .ok response ∧
      PageOf objectPrototype encodeCursor cursorKeysOrBuilder page response) ↔
      limit.isInt = true ∨ (page.length : ℚ) ≤ limit := by
  constructor
  · rintro ⟨response, hresponse, hpageOf⟩
    by_cases hle : (page.length : ℚ) ≤ limit
    · exact .inr hle
    · left
      have hpage : page ≠ [] := by
        rintro rfl
        exact hle hlimit.le
      -- the count is the limit, and it counts rows
      have hcount := count_of_createPaginatedResponse hpage hresponse
      rw [hpageOf.count, min_eq_right (not_le.1 hle).le] at hcount
      rw [← hcount]
      rfl
  · intro h
    by_cases hpage : page = []
    · subst hpage
      refine ⟨_, createPaginatedResponse_nil hkeys limit, List.prefix_rfl, rfl, rfl, ?_⟩
      simp
    rcases h with hwhole | hle
    · have hint : ((limit.num : ℤ) : ℚ) = limit :=
        Rat.coe_int_num_of_den_eq_one (eq_of_beq hwhole)
      obtain ⟨n, hn⟩ := Int.eq_ofNat_of_zero_le (Rat.num_pos.2 hlimit).le
      have hcast : limit = ((n : ℕ) : ℚ) := by
        rw [← hint, hn]
        rfl
      rw [hcast] at hlimit ⊢
      exact exists_pageOf_natCast hkeys hcursors hpage (by exact_mod_cast hlimit)
    · rw [createPaginatedResponse_of_le hle]
      exact exists_pageOf_natCast hkeys hcursors hpage (List.length_pos_of_ne_nil hpage)

end Pages

/-! ## A limit with a fraction -/

/-- A row with an identifier. -/
def idRow (id : String) : Row Unit := ⟨[("id", .str id)], by simp [OrderedMap.keys]⟩

theorem stringCursors_idRow (ids : List String) :
    StringCursors (fun _ => none) (fun _ => .ok "") .undefined (ids.map idRow) := by
  intro item hitem
  obtain ⟨id, -, rfl⟩ := List.mem_map.1 hitem
  exact ⟨id, rfl⟩

/-- Two rows of two, for a limit of two and a half. -/
theorem exists_pageOf_two :
    ∃ response, createPaginatedResponse (fun _ => none) (fun _ => .ok "")
        (["a", "b"].map idRow) (5 / 2) .undefined = .ok response ∧
      PageOf (fun _ => none) (fun _ => .ok "") .undefined (["a", "b"].map idRow) response := by
  have hkeys : (.undefined : CursorKeysOrBuilder Unit) ≠ .keys [] := nofun
  have hlimit : (0 : ℚ) < 5 / 2 := by norm_num
  have hle : ((["a", "b"].map idRow).length : ℚ) ≤ 5 / 2 := by
    rw [List.length_map]
    norm_num
  exact (exists_pageOf_iff hkeys (stringCursors_idRow ["a", "b"]) hlimit).2 (.inr hle)

/-- Of three rows none is returned: a property of `undefined` is read. -/
theorem three_not_exists_pageOf :
    StringCursors (fun _ => none) (fun _ => .ok "") .undefined (["a", "b", "c"].map idRow) ∧
      ¬ ∃ response, createPaginatedResponse (fun _ => none) (fun _ => .ok "")
          (["a", "b", "c"].map idRow) (5 / 2) .undefined = .ok response ∧
        PageOf (fun _ => none) (fun _ => .ok "") .undefined (["a", "b", "c"].map idRow)
          response := by
  refine ⟨stringCursors_idRow _, ?_⟩
  rintro ⟨response, hresponse, -⟩
  have herror : createPaginatedResponse (fun _ => none) (fun _ => .ok "")
      (["a", "b", "c"].map idRow) (5 / 2) .undefined = .error .typeError := by
    have helement : (elementAt (["a", "b", "c"].map idRow)
        (min ((["a", "b", "c"].map idRow).length : ℚ) (5 / 2) - 1)).isNone = true := by
      decide +kernel
    unfold createPaginatedResponse getMetaForNextPage
    dsimp only
    rw [if_neg (by decide), Option.isNone_iff_eq_none.1 helement]
    rfl
  rw [herror] at hresponse
  cases hresponse

end SharedTsLibs.ApiCommon
