import SharedTsLibs.Lib.JsonText

/-!
# Rooms and their ids

`websockets-common`: `getRoomId` writes a room as one string, its name and then its parameters
as JSON, and `getRoomFromRoomId` reads it back.

* `Parameters`, `Same` — parameters in any key order, and when they are equal.
* `Zod` — what the schemas accept and return.
* `RoomName.schema`, `getRoomId`, `getRoomFromRoomId`, `ROOM_ID_SCHEMA` — the functions.
* `getRoomFromRoomId_getRoomId` — a room is read back from its id.
* `getRoomId_canonical` — rooms have the same id exactly when they are equal, and every string
  that is accepted for a room has an accepted id of that room beside it.
-/

namespace SharedTsLibs.WebsocketsCommon

/-! ## Parameters -/

/-- An object with strings, or `undefined`, under its keys. -/
abbrev Parameters := List (JsString × Option JsString)

namespace Parameters

/-- The string under a key; a key with `undefined` is like an absent one. -/
def value (p : Parameters) (k : JsString) : Option JsString := (OrderedMap.get? p k).join

/-- Equal up to the order of the keys and the keys with `undefined`. -/
def Same (p q : Parameters) : Prop := ∀ k, p.value k = q.value k

/-- Strings under their keys. -/
def present (ms : List (JsString × JsString)) : Parameters := ms.map fun m => (m.1, some m.2)

end Parameters

open Parameters

/-- The same as the members of a JSON object. -/
def json {N : Type} (ms : List (JsString × JsString)) : Json N :=
  .obj (ms.map fun m => (m.1, .str m.2))

/-! ## Schemas -/

/-- `Uuid` or `Uuid.optional()` under a key. -/
structure Field where
  key : JsString
  isOptional : Bool

/-- The argument of `z.object`. -/
structure Shape where
  fields : List Field
  nodup : (fields.map Field.key).Nodup

/-- The type of a schema: its keys and no others, each with a string of the format, and
`undefined` or nothing only where the field is optional. -/
structure Valid (isGuid : JsString → Bool) (shape : Shape) (p : Parameters) : Prop where
  nodup : (OrderedMap.keys p).Nodup
  known : ∀ k ∈ OrderedMap.keys p, k ∈ shape.fields.map Field.key
  guid : ∀ f ∈ shape.fields, ∀ s, p.value f.key = some s → isGuid s = true
  required : ∀ f ∈ shape.fields, p.value f.key = none → f.isOptional = true

def isHexDigit (u : UInt16) : Bool :=
  (0x30 ≤ u && u ≤ 0x39) || (0x41 ≤ u && u ≤ 0x46) || (0x61 ≤ u && u ≤ 0x66)

def hyphen : UInt16 := 0x2D

/-- The validation library: `z.guid()`, and `parse` of an object schema, `none` where it
throws. -/
structure Zod (N : Type) where
  isGuid : JsString → Bool
  /-- Such identifiers are made of hexadecimal digits and hyphens. -/
  isGuid_units : ∀ s, isGuid s = true → ∀ u ∈ s, isHexDigit u = true ∨ u = hyphen
  parse : Shape → Json N → Option Parameters
  /-- What is returned has the type of the schema; other keys are left out. -/
  parse_valid : ∀ shape v p, parse shape v = some p → Valid isGuid shape p
  /-- An object of that type is returned as it is. -/
  parse_of_valid : ∀ shape ms, Valid isGuid shape (present ms) →
    ∃ p, parse shape (json ms) = some p ∧ Same p (present ms)

/-! ## Rooms -/

def workspaceId : JsString := JsString.ofChars "workspaceId".toList

def projectId : JsString := JsString.ofChars "projectId".toList

def userId : JsString := JsString.ofChars "userId".toList

def languageId : JsString := JsString.ofChars "languageId".toList

def integrationId : JsString := JsString.ofChars "integrationId".toList

def WORKSPACE_ID_SCHEMA : Shape := ⟨[⟨workspaceId, false⟩], by decide⟩

def PROJECT_ID_SCHEMA : Shape := ⟨[⟨projectId, false⟩], by decide⟩

def USER_ID_SCHEMA : Shape := ⟨[⟨userId, false⟩], by decide⟩

def PROJECT_USER_ID_SCHEMA : Shape := ⟨[⟨projectId, false⟩, ⟨userId, false⟩], by decide⟩

def PROJECT_LANGUAGE_ID_SCHEMA : Shape := ⟨[⟨projectId, false⟩, ⟨languageId, true⟩], by decide⟩

def INTEGRATION_ID_SCHEMA : Shape := ⟨[⟨integrationId, false⟩], by decide⟩

inductive RoomName where
  | shopify | «import» | git | upload | «export» | translation | segment | workspace | project
  | user | contentManager | translationMemory | projectUser
  deriving DecidableEq

namespace RoomName

def all : List RoomName :=
  [shopify, «import», git, upload, «export», translation, segment, workspace, project, user,
    contentManager, translationMemory, projectUser]

def text : RoomName → JsString
  | shopify => JsString.ofChars "shopify".toList
  | «import» => JsString.ofChars "import".toList
  | git => JsString.ofChars "git".toList
  | upload => JsString.ofChars "upload".toList
  | «export» => JsString.ofChars "export".toList
  | translation => JsString.ofChars "translation".toList
  | segment => JsString.ofChars "segment".toList
  | workspace => JsString.ofChars "workspace".toList
  | project => JsString.ofChars "project".toList
  | user => JsString.ofChars "user".toList
  | contentManager => JsString.ofChars "content-manager".toList
  | translationMemory => JsString.ofChars "translation-memory".toList
  | projectUser => JsString.ofChars "project-user".toList

/-- `RoomSchemas[name]` -/
def schema : RoomName → Shape
  | shopify => INTEGRATION_ID_SCHEMA
  | «import» => PROJECT_ID_SCHEMA
  | git => PROJECT_ID_SCHEMA
  | upload => USER_ID_SCHEMA
  | «export» => PROJECT_ID_SCHEMA
  | translation => PROJECT_ID_SCHEMA
  | segment => PROJECT_ID_SCHEMA
  | workspace => WORKSPACE_ID_SCHEMA
  | project => PROJECT_ID_SCHEMA
  | user => USER_ID_SCHEMA
  | contentManager => PROJECT_LANGUAGE_ID_SCHEMA
  | translationMemory => WORKSPACE_ID_SCHEMA
  | projectUser => PROJECT_USER_ID_SCHEMA

/-- The own key of `RoomSchemas` that a string is. -/
def ofText (s : JsString) : Option RoomName := all.find? fun name => name.text = s

end RoomName

structure Room where
  name : RoomName
  parameters : Parameters

/-- `'|'` -/
def SEPARATOR : UInt16 := 0x7C

/-- `JSON.stringify(parameters, Object.keys(parameters).sort())` takes the keys in order and
leaves out the ones with `undefined`. -/
def sortedParameters (parameters : Parameters) : List (JsString × JsString) :=
  (JsString.sort (OrderedMap.keys parameters)).filterMap fun k =>
    (parameters.value k).map fun s => (k, s)

section Functions

variable {N : Type} (zod : Zod N) (format : NumberFormat N)

def getRoomId (roomName : RoomName) (parameters : Parameters) : JsString :=
  roomName.text ++ SEPARATOR :: Json.stringify format (json (sortedParameters parameters))

/-- The names that `in` finds in the prototype of `RoomSchemas`. -/
def objectPrototypeKeys : List JsString :=
  ["constructor", "__defineGetter__", "__defineSetter__", "hasOwnProperty", "__lookupGetter__",
    "__lookupSetter__", "isPrototypeOf", "propertyIsEnumerable", "toString", "valueOf",
    "__proto__", "toLocaleString"].map fun key => JsString.ofChars key.toList

def isRoomName (roomName : JsString) : Bool :=
  (RoomName.ofText roomName).isSome || roomName ∈ objectPrototypeKeys

inductive Thrown where
  | unknownRoomId (roomId : JsString)
  /-- By `JSON.parse`. -/
  | syntaxError
  /-- An inherited name has no schema. -/
  | typeError
  | zodError

def getRoomFromRoomId (roomId : JsString) : Except Thrown Room :=
  match roomId.splitOn SEPARATOR with
  | name :: parameters :: _ =>
    if isRoomName name then
      match Json.parse format parameters, RoomName.ofText name with
      | none, _ => .error .syntaxError
      | some _, none => .error .typeError
      | some value, some name =>
        match zod.parse name.schema value with
        | none => .error .zodError
        | some parameters => .ok ⟨name, parameters⟩
    else .error (.unknownRoomId roomId)
  | _ => .error (.unknownRoomId roomId)

/-- A string is accepted when reading it does not throw. -/
def ROOM_ID_SCHEMA (value : JsString) : Bool :=
  match getRoomFromRoomId zod format value with
  | .ok _ => true
  | .error _ => false

end Functions

/-! ## Sorted parameters -/

theorem value_present (ms : List (JsString × JsString)) (k : JsString) :
    (present ms).value k = OrderedMap.get? ms k := by
  induction ms with
  | nil => rfl
  | cons m ms ih =>
    show (OrderedMap.get? ((m.1, some m.2) :: present ms) k).join = _
    rw [OrderedMap.get?_cons, OrderedMap.get?_cons]
    split
    · rfl
    · exact ih

theorem value_cons (k s : JsString) (p : Parameters) (k' : JsString) :
    value ((k, some s) :: p) k' = if k = k' then some s else value p k' := by
  rw [value, OrderedMap.get?_cons]
  split <;> rfl

theorem mem_keys_of_value {p : Parameters} {k s : JsString} (h : p.value k = some s) :
    k ∈ OrderedMap.keys p := by
  rw [← OrderedMap.get?_isSome_iff, Option.isSome_iff_exists]
  exact ⟨some s, Option.join_eq_some_iff.1 h⟩

theorem value_eq_none {p : Parameters} {k : JsString} (h : k ∉ OrderedMap.keys p) :
    p.value k = none := by
  rw [value, OrderedMap.get?_eq_none_iff.2 h]
  rfl

theorem keys_sortedParameters (p : Parameters) : OrderedMap.keys (sortedParameters p)
    = (JsString.sort (OrderedMap.keys p)).filter fun k => (p.value k).isSome := by
  unfold sortedParameters
  induction JsString.sort (OrderedMap.keys p) with
  | nil => rfl
  | cons k ks ih =>
    cases hvalue : p.value k with
    | none => simpa [hvalue] using ih
    | some s => simpa [hvalue] using ih

theorem nodup_keys_sortedParameters {p : Parameters} (h : (OrderedMap.keys p).Nodup) :
    (OrderedMap.keys (sortedParameters p)).Nodup := by
  rw [keys_sortedParameters]
  exact ((JsString.sort_perm _).nodup_iff.2 h).filter _

theorem mem_sortedParameters {p : Parameters} {k s : JsString} :
    (k, s) ∈ sortedParameters p ↔ p.value k = some s := by
  rw [sortedParameters, List.mem_filterMap]
  constructor
  · rintro ⟨k', -, hk'⟩
    obtain ⟨s', hs', heq⟩ := Option.map_eq_some_iff.1 hk'
    cases heq
    exact hs'
  · intro h
    exact ⟨k, (JsString.sort_perm _).mem_iff.2 (mem_keys_of_value h), by rw [h]; rfl⟩

/-- Sorting changes no value. -/
theorem same_sortedParameters {p : Parameters} (h : (OrderedMap.keys p).Nodup) :
    Same (present (sortedParameters p)) p := by
  intro k
  rw [value_present]
  ext s
  rw [OrderedMap.get?_eq_some_iff (nodup_keys_sortedParameters h), mem_sortedParameters]

/-- Equal parameters are sorted to one list. -/
theorem sortedParameters_congr {p q : Parameters} (hp : (OrderedMap.keys p).Nodup)
    (hq : (OrderedMap.keys q).Nodup) (h : Same p q) :
    sortedParameters p = sortedParameters q := by
  have hvalue : p.value = q.value := funext h
  -- the keys with a string are the same, in some order
  have hkeys : ((OrderedMap.keys p).filter fun k => (q.value k).isSome).Perm
      ((OrderedMap.keys q).filter fun k => (q.value k).isSome) := by
    refine (List.perm_ext_iff_of_nodup (hp.filter _) (hq.filter _)).2 fun k => ?_
    rw [List.mem_filter, List.mem_filter, and_congr_left_iff]
    intro hsome
    obtain ⟨s, hs⟩ := Option.isSome_iff_exists.1 hsome
    exact iff_of_true (mem_keys_of_value ((h k).trans hs)) (mem_keys_of_value hs)
  have hfilter : ∀ r : Parameters, r.value = q.value → sortedParameters r
      = (JsString.sort ((OrderedMap.keys r).filter fun k => (q.value k).isSome)).filterMap
        fun k => (q.value k).map fun s => (k, s) := by
    intro r hr
    rw [sortedParameters, hr, ← JsString.sort_filter, List.filterMap_filter]
    refine List.filterMap_congr fun k _ => ?_
    cases hk : q.value k <;> simp
  rw [hfilter p hvalue, hfilter q rfl, JsString.sort_eq_iff.2 hkeys]

/-- The order of the keys does not matter. -/
theorem same_of_perm {p q : Parameters} (hp : (OrderedMap.keys p).Nodup) (h : p.Perm q) :
    Same p q := by
  have hq : (OrderedMap.keys q).Nodup := (h.map Prod.fst).nodup_iff.1 hp
  intro k
  have hget : OrderedMap.get? p k = OrderedMap.get? q k := by
    ext v
    rw [OrderedMap.get?_eq_some_iff hp, OrderedMap.get?_eq_some_iff hq, h.mem_iff]
  rw [value, value, hget]

theorem valid_sortedParameters {isGuid : JsString → Bool} {shape : Shape} {p : Parameters}
    (h : Valid isGuid shape p) : Valid isGuid shape (present (sortedParameters p)) := by
  have hsame := same_sortedParameters h.nodup
  have hkeys : OrderedMap.keys (present (sortedParameters p))
      = OrderedMap.keys (sortedParameters p) := by
    simp [OrderedMap.keys, present]
  refine ⟨hkeys ▸ nodup_keys_sortedParameters h.nodup, fun k hk => ?_, fun f hf s hs => ?_,
    fun f hf hnone => ?_⟩
  · rw [hkeys, keys_sortedParameters, List.mem_filter] at hk
    exact h.known k ((JsString.sort_perm _).mem_iff.1 hk.1)
  · exact h.guid f hf s ((hsame f.key).symm.trans hs)
  · exact h.required f hf ((hsame f.key).symm.trans hnone)

/-! ## Ids are read back -/

theorem separator_notMem_text (name : RoomName) : SEPARATOR ∉ name.text := by
  cases name <;> decide

theorem separator_notMem_key (name : RoomName) :
    ∀ k ∈ name.schema.fields.map Field.key, SEPARATOR ∉ k := by
  cases name <;> decide

theorem ofText_text (name : RoomName) : RoomName.ofText name.text = some name := by
  cases name <;> rfl

theorem text_of_ofText {s : JsString} {name : RoomName} (h : RoomName.ofText s = some name) :
    name.text = s := by
  simpa using List.find?_some h

theorem isRoomName_text (name : RoomName) : isRoomName name.text = true := by
  rw [isRoomName, ofText_text]
  rfl

section ReadBack

variable {N : Type} {zod : Zod N} {format : NumberFormat N}

theorem separator_notMem_guid {s : JsString} (h : zod.isGuid s = true) : SEPARATOR ∉ s := by
  intro hmem
  rcases zod.isGuid_units s h SEPARATOR hmem with hhex | hhyphen
  · exact absurd hhex (by decide)
  · exact absurd hhyphen (by decide)

/-- There is no separator in the JSON of valid parameters. -/
theorem separator_notMem_stringify {name : RoomName} {p : Parameters}
    (h : Valid zod.isGuid name.schema p) :
    SEPARATOR ∉ Json.stringify format (json (sortedParameters p)) := by
  intro hmem
  rcases Json.mem_stringify hmem with ⟨s, hs, hu⟩ | hescape | hnumeral | ⟨m, hm⟩
  · rw [json, Json.strings_obj, List.mem_flatMap] at hs
    obtain ⟨e, he, hs⟩ := hs
    obtain ⟨⟨k, guid⟩, hentry, rfl⟩ := List.mem_map.1 he
    have hvalue := mem_sortedParameters.1 hentry
    have hknown := h.known k (mem_keys_of_value hvalue)
    have hstring : s = k ∨ s = guid := by
      simpa [Json.strings, Json.tokens, Json.Token.string?] using hs
    rcases hstring with rfl | rfl
    · exact separator_notMem_key name s hknown hu
    · obtain ⟨f, hf, rfl⟩ := List.mem_map.1 hknown
      exact separator_notMem_guid (h.guid f hf s hvalue) hu
  · exact absurd hescape (by decide)
  · exact absurd hnumeral (by decide)
  · revert hm
    cases m <;> decide

theorem wellFormed_json {ms : List (JsString × JsString)} (h : (OrderedMap.keys ms).Nodup) :
    (json ms : Json N).WellFormed := by
  refine .obj ?_ fun e he => ?_
  · simpa [OrderedMap.keys, Function.comp_def] using h
  · obtain ⟨m, -, rfl⟩ := List.mem_map.1 he
    exact .str m.2

/-- How a string is read whose first two parts are known. -/
theorem getRoomFromRoomId_of_split {name : RoomName} {roomId parameters : JsString}
    {more : List JsString} (h : roomId.splitOn SEPARATOR = name.text :: parameters :: more) :
    getRoomFromRoomId zod format roomId
      = match Json.parse format parameters with
        | none => .error .syntaxError
        | some value =>
          match zod.parse name.schema value with
          | none => .error .zodError
          | some parameters => .ok ⟨name, parameters⟩ := by
  unfold getRoomFromRoomId
  rw [h]
  dsimp only
  rw [if_pos (isRoomName_text name), ofText_text]
  cases Json.parse format parameters with
  | none => rfl
  | some value => rfl

/-- An id has two parts. -/
theorem splitOn_getRoomId {name : RoomName} {p : Parameters}
    (h : Valid zod.isGuid name.schema p) : (getRoomId format name p).splitOn SEPARATOR
      = [name.text, Json.stringify format (json (sortedParameters p))] := by
  rw [getRoomId, List.splitOn_append_cons_self_of_not_mem (separator_notMem_text name),
    List.splitOn_eq_singleton (separator_notMem_stringify h)]

variable (format)

/-- A room is read back from its id. -/
theorem getRoomFromRoomId_getRoomId {name : RoomName} {p : Parameters}
    (h : Valid zod.isGuid name.schema p) :
    ∃ q, getRoomFromRoomId zod format (getRoomId format name p) = .ok ⟨name, q⟩ ∧ Same q p := by
  obtain ⟨q, hparse, hsame⟩ := zod.parse_of_valid name.schema _ (valid_sortedParameters h)
  refine ⟨q, ?_, fun k => (hsame k).trans (same_sortedParameters h.nodup k)⟩
  have hjson : Json.parse format (Json.stringify format (json (sortedParameters p)))
      = some (json (sortedParameters p)) :=
    Json.parse_stringify format (wellFormed_json (nodup_keys_sortedParameters h.nodup))
  rw [getRoomFromRoomId_of_split (splitOn_getRoomId h), hjson]
  dsimp only
  rw [hparse]

variable {format}

/-- What a string has to be for a room to be read from it. -/
theorem of_getRoomFromRoomId {roomId : JsString} {room : Room}
    (h : getRoomFromRoomId zod format roomId = .ok room) :
    ∃ text more value, roomId.splitOn SEPARATOR = room.name.text :: text :: more ∧
      Json.parse format text = some value ∧
      zod.parse room.name.schema value = some room.parameters := by
  unfold getRoomFromRoomId at h
  split at h
  · rename_i name text more hsplit
    split at h
    · split at h
      · cases h
      · cases h
      · rename_i value name' hjson hname
        split at h
        · cases h
        · rename_i parameters hparse
          cases h
          exact ⟨text, more, value, by rw [hsplit, text_of_ofText hname], hjson, hparse⟩
    · cases h
  · cases h

theorem ROOM_ID_SCHEMA_eq_true {roomId : JsString} :
    ROOM_ID_SCHEMA zod format roomId = true ↔
      ∃ room, getRoomFromRoomId zod format roomId = .ok room := by
  unfold ROOM_ID_SCHEMA
  cases getRoomFromRoomId zod format roomId with
  | ok room => simp
  | error thrown => simp

/-- A string begins with its first part and a separator, if it has a second part. -/
theorem prefix_of_splitOn {s first second : JsString} {more : List JsString}
    (h : s.splitOn SEPARATOR = first :: second :: more) : first ++ [SEPARATOR] <+: s := by
  have hs : [SEPARATOR].intercalate (s.splitOn SEPARATOR) = s := List.intercalate_splitOn SEPARATOR
  rw [h, List.intercalate_cons_cons] at hs
  exact ⟨_, hs⟩

end ReadBack

/-! ## Rooms and their ids -/

section Canonical

variable {N : Type} (zod : Zod N) (format : NumberFormat N)

/-- Every room is read back from its id. -/
def RoundTrip : Prop :=
  ∀ name p, Valid zod.isGuid (RoomName.schema name) p →
    ∃ q, getRoomFromRoomId zod format (getRoomId format name p) = .ok ⟨name, q⟩ ∧ Same q p

/-- Two rooms have one id exactly when they have one name and the same parameters; the order
of the keys is no difference. -/
def OneId : Prop :=
  (∀ name p q, Valid zod.isGuid (RoomName.schema name) p → p.Perm q →
    getRoomId format name p = getRoomId format name q) ∧
  ∀ name name' p q, Valid zod.isGuid (RoomName.schema name) p →
    Valid zod.isGuid (RoomName.schema name') q →
    (getRoomId format name p = getRoomId format name' q ↔ name = name' ∧ Same p q)

/-- Every accepted string is the id of the room that is read from it. -/
def OnlyIds : Prop :=
  ∀ roomId, ROOM_ID_SCHEMA zod format roomId = true → ∃ name p,
    getRoomFromRoomId zod format roomId = .ok ⟨name, p⟩ ∧ roomId = getRoomId format name p

/-- What stands behind a name and a separator, and has none itself, is accepted exactly when it
is JSON of any layout with a value that the schema accepts. -/
def AnyLayout : Prop :=
  ∀ name text p, SEPARATOR ∉ text →
    (getRoomFromRoomId zod format (RoomName.text name ++ SEPARATOR :: text) = .ok ⟨name, p⟩ ↔
      ∃ value, Json.parse format text = some value ∧ zod.parse name.schema value = some p)

/-- Every accepted string begins with the name of the room that is read from it and a
separator, and that room has an id that is accepted for it. -/
def IdsBeside : Prop :=
  ∀ roomId, ROOM_ID_SCHEMA zod format roomId = true → ∃ name p,
    getRoomFromRoomId zod format roomId = .ok ⟨name, p⟩ ∧
    Valid zod.isGuid (RoomName.schema name) p ∧ name.text ++ [SEPARATOR] <+: roomId ∧
    ROOM_ID_SCHEMA zod format (getRoomId format name p) = true ∧
    ∃ q, getRoomFromRoomId zod format (getRoomId format name p) = .ok ⟨name, q⟩ ∧ Same q p

variable {zod format}

theorem getRoomId_eq_iff {name name' : RoomName} {p q : Parameters}
    (hp : Valid zod.isGuid name.schema p) (hq : Valid zod.isGuid name'.schema q) :
    getRoomId format name p = getRoomId format name' q ↔ name = name' ∧ Same p q := by
  constructor
  · intro heq
    obtain ⟨p', hp', hsame⟩ := getRoomFromRoomId_getRoomId format hp
    obtain ⟨q', hq', hsame'⟩ := getRoomFromRoomId_getRoomId format hq
    rw [heq, hq'] at hp'
    cases hp'
    exact ⟨rfl, fun k => (hsame k).symm.trans (hsame' k)⟩
  · rintro ⟨rfl, hsame⟩
    rw [getRoomId, getRoomId, sortedParameters_congr hp.nodup hq.nodup hsame]

variable (zod format)

theorem roundTrip : RoundTrip zod format := fun _ _ h =>
  getRoomFromRoomId_getRoomId format h

theorem oneId : OneId zod format := by
  refine ⟨fun name p q hp hperm => ?_, fun name name' p q hp hq => getRoomId_eq_iff hp hq⟩
  have hq : (OrderedMap.keys q).Nodup := (hperm.map Prod.fst).nodup_iff.1 hp.nodup
  rw [getRoomId, getRoomId, sortedParameters_congr hp.nodup hq (same_of_perm hp.nodup hperm)]

theorem idsBeside : IdsBeside zod format := by
  intro roomId haccepted
  obtain ⟨⟨name, p⟩, hroom⟩ := ROOM_ID_SCHEMA_eq_true.1 haccepted
  obtain ⟨text, more, value, hsplit, -, hparse⟩ := of_getRoomFromRoomId hroom
  have hvalid := zod.parse_valid name.schema value p hparse
  obtain ⟨q, hid, hsame⟩ := getRoomFromRoomId_getRoomId format hvalid
  exact ⟨name, p, hroom, hvalid, prefix_of_splitOn hsplit,
    ROOM_ID_SCHEMA_eq_true.2 ⟨⟨name, q⟩, hid⟩, q, hid, hsame⟩

theorem anyLayout : AnyLayout zod format := by
  intro name text p htext
  have hsplit : (name.text ++ SEPARATOR :: text).splitOn SEPARATOR = [name.text, text] := by
    rw [List.splitOn_append_cons_self_of_not_mem (separator_notMem_text name),
      List.splitOn_eq_singleton htext]
  rw [getRoomFromRoomId_of_split hsplit]
  cases Json.parse format text with
  | none => simp
  | some value =>
    cases hparse : zod.parse name.schema value with
    | none => simp [hparse]
    | some q => simp [hparse]

/-- **What the ids of rooms are.**  A room is read back from its id, equal rooms and only these
have one id, and each accepted string has an accepted id of its room beside it; the string
need not be that id, as its JSON may have any layout. -/
theorem getRoomId_canonical : RoundTrip zod format ∧ OneId zod format ∧ IdsBeside zod format ∧
    AnyLayout zod format :=
  ⟨roundTrip zod format, oneId zod format, idsBeside zod format, anyLayout zod format⟩

end Canonical

/-! ## White space -/

/-- An identifier, unit by unit: `true` stands for a hyphen, `false` for a digit. -/
def fitsTemplate : List Bool → JsString → Bool
  | [], [] => true
  | isHyphen :: template, u :: s =>
    (if isHyphen then u = hyphen else isHexDigit u) && fitsTemplate template s
  | _, _ => false

/-- Groups of 8, 4, 4, 4 and 12 hexadecimal digits. -/
def isGuid : JsString → Bool :=
  fitsTemplate ([true].intercalate ([8, 4, 4, 4, 12].map fun n => List.replicate n false))

theorem fitsTemplate_units {template : List Bool} {s : JsString}
    (h : fitsTemplate template s = true) : ∀ u ∈ s, isHexDigit u = true ∨ u = hyphen := by
  induction s generalizing template with
  | nil => simp
  | cons u s ih =>
    cases template with
    | nil => cases h
    | cons isHyphen template =>
      rw [fitsTemplate, Bool.and_eq_true] at h
      refine List.forall_mem_cons.2 ⟨?_, ih h.2⟩
      cases isHyphen with
      | false => exact Or.inl h.1
      | true => exact Or.inr (by simpa using h.1)

/-- The fields of an object, one after another. -/
def parseFields {N : Type} (members : List (JsString × Json N)) : List Field → Option Parameters
  | [] => some []
  | f :: fs =>
    match OrderedMap.get? members f.key with
    | some (.str s) =>
      if isGuid s then (parseFields members fs).map ((f.key, some s) :: ·) else none
    | some _ => none
    | none => if f.isOptional then parseFields members fs else none

def parseObject {N : Type} (shape : Shape) : Json N → Option Parameters
  | .obj members => parseFields members shape.fields
  | _ => none

theorem keys_parseFields {N : Type} {members : List (JsString × Json N)} {fs : List Field}
    {p : Parameters} (h : parseFields members fs = some p) :
    (OrderedMap.keys p).Sublist (fs.map Field.key) := by
  induction fs generalizing p with
  | nil =>
    cases h
    exact List.Sublist.refl []
  | cons f fs ih =>
    rw [parseFields] at h
    split at h
    · split at h
      · obtain ⟨q, hq, rfl⟩ := Option.map_eq_some_iff.1 h
        exact (ih hq).cons_cons f.key
      · cases h
    · cases h
    · split at h
      · exact (ih h).cons f.key
      · cases h

/-- Each field that was read has the type of its schema. -/
theorem value_parseFields {N : Type} {members : List (JsString × Json N)} {fs : List Field}
    (hnodup : (fs.map Field.key).Nodup) {p : Parameters} (h : parseFields members fs = some p) :
    ∀ f ∈ fs, (∀ s, p.value f.key = some s → isGuid s = true) ∧
      (p.value f.key = none → f.isOptional = true) := by
  induction fs generalizing p with
  | nil => simp
  | cons f fs ih =>
    rw [List.map_cons, List.nodup_cons] at hnodup
    have hother : ∀ g ∈ fs, f.key ≠ g.key := by
      intro g hg heq
      exact hnodup.1 (heq ▸ List.mem_map_of_mem hg)
    rw [parseFields] at h
    split at h
    · rename_i s _
      split at h
      · rename_i hguid
        obtain ⟨q, hq, rfl⟩ := Option.map_eq_some_iff.1 h
        have hvalue := value_cons f.key s q
        refine List.forall_mem_cons.2 ⟨?_, fun g hg => ?_⟩
        · rw [hvalue, if_pos rfl]
          refine ⟨fun s' hs' => ?_, fun hnone => by cases hnone⟩
          cases hs'
          exact hguid
        · rw [hvalue, if_neg (hother g hg)]
          exact ih hnodup.2 hq g hg
      · cases h
    · cases h
    · split at h
      · rename_i hoptional
        have habsent : p.value f.key = none :=
          value_eq_none fun hkey => hnodup.1 ((keys_parseFields h).subset hkey)
        refine List.forall_mem_cons.2 ⟨⟨fun s hs => ?_, fun _ => hoptional⟩, ih hnodup.2 h⟩
        rw [habsent] at hs
        cases hs
      · cases h

theorem valid_parseObject {N : Type} (shape : Shape) (v : Json N) (p : Parameters)
    (h : parseObject shape v = some p) : Valid isGuid shape p := by
  cases v with
  | obj members =>
    have hvalue := value_parseFields shape.nodup h
    exact ⟨(keys_parseFields h).nodup shape.nodup, (keys_parseFields h).subset,
      fun f hf => (hvalue f hf).1, fun f hf => (hvalue f hf).2⟩
  | _ => cases h

theorem get?_str {N : Type} (ms : List (JsString × JsString)) (k : JsString) :
    OrderedMap.get? (ms.map fun m => (m.1, (.str m.2 : Json N))) k
      = (OrderedMap.get? ms k).map .str := by
  induction ms with
  | nil => rfl
  | cons m ms ih =>
    rw [List.map_cons, OrderedMap.get?_cons, OrderedMap.get?_cons]
    split
    · rfl
    · exact ih

/-- Fields that have the type of their schema are read as they are. -/
theorem exists_parseFields {N : Type} {ms : List (JsString × JsString)} {fs : List Field}
    (hguid : ∀ f ∈ fs, ∀ s, OrderedMap.get? ms f.key = some s → isGuid s = true)
    (hrequired : ∀ f ∈ fs, OrderedMap.get? ms f.key = none → f.isOptional = true) :
    ∃ p, parseFields (ms.map fun m => (m.1, (.str m.2 : Json N))) fs = some p ∧
      ∀ k ∈ fs.map Field.key, value p k = OrderedMap.get? ms k := by
  induction fs with
  | nil => exact ⟨[], rfl, by simp⟩
  | cons f fs ih =>
    obtain ⟨hf, hfs⟩ := List.forall_mem_cons.1 hguid
    obtain ⟨hf', hfs'⟩ := List.forall_mem_cons.1 hrequired
    obtain ⟨p, hp, hvalue⟩ := ih hfs hfs'
    cases hmember : OrderedMap.get? ms f.key with
    | none =>
      refine ⟨p, ?_, List.forall_mem_cons.2 ⟨?_, hvalue⟩⟩
      · rw [parseFields, get?_str, hmember]
        simp [hf' hmember, hp]
      · rw [hmember]
        by_cases hk : f.key ∈ fs.map Field.key
        · exact (hvalue f.key hk).trans hmember
        · exact value_eq_none fun hkey => hk ((keys_parseFields hp).subset hkey)
    | some s =>
      refine ⟨(f.key, some s) :: p, ?_, List.forall_mem_cons.2 ⟨?_, fun k hk => ?_⟩⟩
      · rw [parseFields, get?_str, hmember]
        simp [hf s hmember, hp]
      · rw [value_cons, if_pos rfl, hmember]
      · rw [value_cons, hvalue k hk]
        split
        · rename_i heq
          rw [← heq, hmember]
        · rfl

theorem parseObject_of_valid {N : Type} (shape : Shape) (ms : List (JsString × JsString))
    (h : Valid isGuid shape (present ms)) :
    ∃ p, parseObject shape (json ms : Json N) = some p ∧ Same p (present ms) := by
  have hparse : ∃ p, parseObject shape (json ms : Json N) = some p ∧
      ∀ k ∈ shape.fields.map Field.key, value p k = OrderedMap.get? ms k :=
    exists_parseFields (fun f hf s hs => h.guid f hf s ((value_present ms f.key).trans hs))
      fun f hf hnone => h.required f hf ((value_present ms f.key).trans hnone)
  obtain ⟨p, hp, hvalue⟩ := hparse
  have hkeys := keys_parseFields hp
  refine ⟨p, hp, fun k => ?_⟩
  by_cases hk : k ∈ shape.fields.map Field.key
  · rw [hvalue k hk, value_present]
  · rw [value_eq_none fun hkey => hk (hkeys.subset hkey),
      value_eq_none fun hkey => hk (h.known k hkey)]

/-- Object schemas of identifiers. -/
def objectSchemas (N : Type) : Zod N where
  isGuid := isGuid
  isGuid_units _ h := fitsTemplate_units h
  parse := parseObject
  parse_valid := valid_parseObject
  parse_of_valid := parseObject_of_valid

/-- `{projectId: '0000000a-aa00-0aaa-a00a-00aaa0000001'}` -/
def exportParameters : Parameters :=
  [(projectId, some (JsString.ofChars "0000000a-aa00-0aaa-a00a-00aaa0000001".toList))]

/-- The id of the room `export` with these parameters. -/
def exportRoomId : JsString :=
  JsString.ofChars
    "export|\x7b\"projectId\":\"0000000a-aa00-0aaa-a00a-00aaa0000001\"\x7d".toList

/-- The id with a blank before the JSON. -/
def spacedRoomId : JsString :=
  JsString.ofChars
    "export| \x7b\"projectId\":\"0000000a-aa00-0aaa-a00a-00aaa0000001\"\x7d".toList

theorem getRoomId_exportParameters :
    getRoomId decimal RoomName.export exportParameters = exportRoomId := by
  decide +kernel

theorem getRoomFromRoomId_spacedRoomId :
    getRoomFromRoomId (objectSchemas ℕ) decimal spacedRoomId
      = .ok ⟨RoomName.export, exportParameters⟩ := by
  have hread : (getRoomFromRoomId (objectSchemas ℕ) decimal spacedRoomId).toOption.map
      (fun room => (room.name, room.parameters)) = some (RoomName.export, exportParameters) := by
    decide +kernel
  cases hroom : getRoomFromRoomId (objectSchemas ℕ) decimal spacedRoomId with
  | error thrown =>
    rw [hroom] at hread
    cases hread
  | ok room =>
    rw [hroom] at hread
    obtain ⟨name, p⟩ := room
    obtain ⟨rfl, rfl⟩ : name = RoomName.export ∧ p = exportParameters := by
      simpa [Except.toOption] using hread
    rfl

/-- The id with a blank before its JSON is accepted for the room, and is not its id. -/
theorem spacedRoomId_not_onlyIds :
    ROOM_ID_SCHEMA (objectSchemas ℕ) decimal spacedRoomId = true ∧
      getRoomFromRoomId (objectSchemas ℕ) decimal spacedRoomId
        = .ok ⟨RoomName.export, exportParameters⟩ ∧
      getRoomId decimal RoomName.export exportParameters = exportRoomId ∧
      ¬ (RoundTrip (objectSchemas ℕ) decimal ∧ OneId (objectSchemas ℕ) decimal ∧
        OnlyIds (objectSchemas ℕ) decimal) := by
  have haccepted : ROOM_ID_SCHEMA (objectSchemas ℕ) decimal spacedRoomId = true :=
    ROOM_ID_SCHEMA_eq_true.2 ⟨_, getRoomFromRoomId_spacedRoomId⟩
  refine ⟨haccepted, getRoomFromRoomId_spacedRoomId, getRoomId_exportParameters,
    fun ⟨_, _, honly⟩ => ?_⟩
  obtain ⟨name, p, hroom, hid⟩ := honly spacedRoomId haccepted
  rw [getRoomFromRoomId_spacedRoomId] at hroom
  cases hroom
  rw [getRoomId_exportParameters] at hid
  exact absurd hid (by decide)

end SharedTsLibs.WebsocketsCommon
