import SharedTsLibs.Lib.JsValue
import SharedTsLibs.Lib.PlainObject
import SharedTsLibs.Lib.Paging
import Mathlib.Data.Rat.Floor
import Mathlib.Tactic.NormNum

/-!
# Pagination

`paginationUtils.ts`: a server cuts a page out of the rows it has and says where the next
page starts; a client asks for page after page until it is told that there is none.

* `getMetaForNextPage`, `createPaginatedResponse` — the server's page, for every limit,
  whole or fractional.
* `getPaginatedEntries` — the client's loop, with a bound on the requests it makes.
* `createPaginatedResponse_eq_ok` — the page for a positive whole limit.

What `Object.prototype` holds and `encodeCursor`, which may throw, are parameters.
-/

namespace SharedTsLibs.ApiCommon

/-! ## Data -/

variable {P : Type}

/-- An item of a page. -/
abbrev Row (P : Type) := PlainObject (JsValue P)

inductive PaginationError where
  /-- An `Error` with a message. -/
  | error (message : String)
  /-- A property of `undefined` was read. -/
  | typeError
  deriving DecidableEq

inductive BuiltCursor (P : Type) where
  | str (s : String)
  | obj (fields : JsObject P)

/-- `cursorKeysOrBuilder`.  A builder is given the last element, `none` standing for
`undefined`. -/
inductive CursorKeysOrBuilder (P : Type) where
  | undefined
  | keys (ks : List String)
  | builder (build : Option (Row P) → Except PaginationError (BuiltCursor P))

structure PaginationMeta (P : Type) where
  count : ℚ
  cursor : Option (JsValue P)
  hasMore : Bool

structure PaginatedResponse (P : Type) where
  data : List (Row P)
  «meta» : PaginationMeta P

/-- `limit` and `after` of a request. -/
structure OptionalPaginationParams (P : Type) where
  limit : Option ℚ
  after : Option (JsValue P)

/-! ## The server's page -/

section Page

/-- `page.slice(0, limit)`: the limit loses its fraction, and one that is negative then
counts from the end. -/
def slice {α : Type*} (page : List α) (limit : ℚ) : List α :=
  if -1 < limit then page.take limit.floor.toNat
  else page.take (page.length - limit.ceil.natAbs)

/-- `page[index]`: only whole numbers name elements. -/
def elementAt {α : Type*} (page : List α) (index : ℚ) : Option α :=
  if index.den = 1 ∧ 0 ≤ index then page[index.num.toNat]? else none

variable (objectPrototype : String → Option (JsValue P))
  (encodeCursor : JsObject P → Except PaginationError String)

/-- `source[key]`, which may be inherited; `none` where `key in source` is false. -/
def property? (source : Row P) (key : String) : Option (JsValue P) :=
  (source.own? key).or (objectPrototype key)

/-- `element[key]`. -/
def readProperty (element : Option (Row P)) (key : String) :
    Except PaginationError (JsValue P) :=
  match element with
  | none => .error .typeError
  | some source => .ok ((property? objectPrototype source key).getD .undefined)

/-- Writing `__proto__` sets no entry. -/
def assign (key : String) (value : JsValue P) (result : JsObject P) : JsObject P :=
  if key = "__proto__" then result else OrderedMap.set key value result

def pick (source : Option (Row P)) (propNames : List String) :
    Except PaginationError (JsObject P) :=
  match source with
  | none => .error .typeError
  | some source =>
    .ok (propNames.foldl (fun result key =>
      match property? objectPrototype source key with
      | some value => assign key value result
      | none => result) [])

/-- The cursor of the last element of a page. -/
def lastElementCursor (cursorKeysOrBuilder : CursorKeysOrBuilder P)
    (lastElement : Option (Row P)) : Except PaginationError (JsValue P) :=
  match cursorKeysOrBuilder with
  | .undefined => readProperty objectPrototype lastElement "id"
  | .builder build => do
    match ← build lastElement with
    | .str s => pure (.str s)
    | .obj fields => .str <$> encodeCursor fields
  | .keys [key] => readProperty objectPrototype lastElement key
  | .keys ks => do
    let picked ← pick objectPrototype lastElement ks
    .str <$> encodeCursor picked

def getMetaForNextPage (currentPageData : List (Row P)) (pageLimit : ℚ)
    (cursorKeysOrBuilder : CursorKeysOrBuilder P) : Except PaginationError (PaginationMeta P) :=
  match cursorKeysOrBuilder with
  | .keys [] => .error (.error "cursorKeys cannot be an empty array")
  | cursorKeysOrBuilder =>
    if currentPageData.length = 0 then .ok { count := 0, cursor := none, hasMore := false }
    else do
      let count := min (currentPageData.length : ℚ) pageLimit
      let cursor ← lastElementCursor objectPrototype encodeCursor cursorKeysOrBuilder
        (elementAt currentPageData (count - 1))
      pure { count, cursor := some cursor,
             hasMore := decide (pageLimit < (currentPageData.length : ℚ)) }

def createPaginatedResponse (page : List (Row P)) (pageLimit : ℚ)
    (cursorKeysOrBuilder : CursorKeysOrBuilder P) :
    Except PaginationError (PaginatedResponse P) := do
  let «meta» ← getMetaForNextPage objectPrototype encodeCursor page pageLimit cursorKeysOrBuilder
  pure { data := slice page pageLimit, «meta» }

end Page

/-! ## Whole limits -/

section WholeLimit

theorem floor_natCast (limit : ℕ) : (limit : ℚ).floor = (limit : ℤ) := by
  show ⌊(limit : ℚ)⌋ = (limit : ℤ)
  exact Int.floor_natCast limit

theorem slice_natCast {α : Type*} (page : List α) (limit : ℕ) :
    slice page (limit : ℚ) = page.take limit := by
  have hlimit : (-1 : ℚ) < limit := lt_of_lt_of_le (by norm_num) (Nat.cast_nonneg limit)
  rw [slice, if_pos hlimit, floor_natCast, Int.toNat_natCast]

theorem elementAt_natCast {α : Type*} (page : List α) (i : ℕ) :
    elementAt page (i : ℚ) = page[i]? := by
  simp [elementAt]

/-- The last element of a page of `limit` rows. -/
theorem elementAt_min_sub_one {α : Type*} {page : List α} (hpage : page ≠ []) {limit : ℕ}
    (hlimit : 0 < limit) :
    elementAt page (min (page.length : ℚ) limit - 1) = (page.take limit).getLast? := by
  have hlength : 0 < page.length := List.length_pos_of_ne_nil hpage
  have hindex : min (page.length : ℚ) limit - 1 = ((min page.length limit - 1 : ℕ) : ℚ) := by
    have hpos : 1 ≤ min page.length limit := by omega
    push_cast [hpos]
    rfl
  rw [hindex, elementAt_natCast, List.getLast?_eq_getElem?, List.length_take, min_comm limit,
    List.getElem?_take_of_lt (by omega)]

variable {objectPrototype : String → Option (JsValue P)}
  {encodeCursor : JsObject P → Except PaginationError String}
  {cursorKeysOrBuilder : CursorKeysOrBuilder P}

theorem createPaginatedResponse_nil (hkeys : cursorKeysOrBuilder ≠ .keys []) (limit : ℚ) :
    createPaginatedResponse objectPrototype encodeCursor [] limit cursorKeysOrBuilder =
      .ok { data := [], «meta» := { count := 0, cursor := none, hasMore := false } } := by
  have hslice : slice ([] : List (Row P)) limit = [] := by simp [slice]
  rw [createPaginatedResponse, hslice]
  unfold getMetaForNextPage
  split
  · exact absurd rfl hkeys
  · rfl

/-- The page for a positive whole limit: the first rows, up to the limit, with the cursor
of the last of them, and more to come when some row is left out. -/
theorem createPaginatedResponse_eq_ok (hkeys : cursorKeysOrBuilder ≠ .keys [])
    {page : List (Row P)} (hpage : page ≠ []) {limit : ℕ} (hlimit : 0 < limit)
    {cursor : JsValue P}
    (hcursor : lastElementCursor objectPrototype encodeCursor cursorKeysOrBuilder
      (page.take limit).getLast? = .ok cursor) :
    createPaginatedResponse objectPrototype encodeCursor page limit cursorKeysOrBuilder =
      .ok { data := page.take limit,
            «meta» := { count := min (page.length : ℚ) limit, cursor := some cursor,
                        hasMore := decide (limit < page.length) } } := by
  have hlength : page.length ≠ 0 := by simpa using hpage
  have hmore : decide ((limit : ℚ) < (page.length : ℚ)) = decide (limit < page.length) := by
    simp
  have hmeta : getMetaForNextPage objectPrototype encodeCursor page limit cursorKeysOrBuilder =
      .ok { count := min (page.length : ℚ) limit, cursor := some cursor,
            hasMore := decide (limit < page.length) } := by
    unfold getMetaForNextPage
    split
    · exact absurd rfl hkeys
    · simp only [if_neg hlength, elementAt_min_sub_one hpage hlimit, hcursor, hmore]
      rfl
  rw [createPaginatedResponse, hmeta, slice_natCast]
  rfl

end WholeLimit

/-! ## The client's loop -/

section Client

variable (apiCall : OptionalPaginationParams P → Except PaginationError (PaginatedResponse P))

/-- The parameters of a request: a limit of `0` and an empty cursor are left out. -/
def requestParams (limit : Option ℚ) (currentCursor : Option (JsValue P)) :
    OptionalPaginationParams P where
  limit := limit.filter (· ≠ 0)
  after := currentCursor.filter JsValue.truthy

/-- One turn of the loop: the page, and the cursor of the next turn where there is one. -/
def fetchPage (limit : Option ℚ) (currentCursor : Option (JsValue P)) :
    Except PaginationError (List (Row P) × Option (Option (JsValue P))) := do
  let pageResult ← apiCall (requestParams limit currentCursor)
  pure (pageResult.data,
    if pageResult.«meta».hasMore = true then some pageResult.«meta».cursor else none)

/-- `none` when the loop has not ended after `fuel` requests. -/
def getPaginatedEntries (fuel : ℕ) (pagination : OptionalPaginationParams P) :
    Option (Except PaginationError (List (Row P))) :=
  Paging.collect (fetchPage apiCall pagination.limit) fuel pagination.after []

end Client

end SharedTsLibs.ApiCommon
