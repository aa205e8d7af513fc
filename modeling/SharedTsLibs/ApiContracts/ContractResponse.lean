import SharedTsLibs.Lib.PlainObject
import SharedTsLibs.Lib.JsRuntime
import SharedTsLibs.Lib.JsText
import SharedTsLibs.Lib.Precedence

/-!
# Contract responses

`contractResponse.ts`: the responses an API contract declares for its status codes, and
what a client makes of a response with some status and content type.

* `ResponseEntry`, `BodyDescriptor` — what a contract declares for a status and for a
  media type.
* `resolveContentEntry`, `resolveContractResponse` — the kind of body under one entry.
* `resolveResponseEntry` — the entry for a status, and the kind of body under it.

Zod schemas are values of a type `Schema`; status keys and media types are the keys of
plain objects.  No status key is a name that plain objects inherit.
-/

namespace SharedTsLibs.ApiContracts

/-! ## Contracts -/

abbrev SseSchemaByEventName (Schema : Type) := PlainObject Schema

/-- The body a media type carries. -/
inductive BodyDescriptor (Schema : Type) where
  | json (schema : Schema)
  | blob
  | sse (schemaByEventName : SseSchemaByEventName Schema)

abbrev ResponseContentMap (Schema : Type) := PlainObject (BodyDescriptor Schema)

/-- What a contract declares for a status: a bare schema or a content-map entry. -/
inductive ResponseEntry (Schema : Type) where
  | json (schema : Schema)
  | body (content : ResponseContentMap Schema) (allowNoBody : Bool)
  | noBody

abbrev ResponsesByStatusCode (Schema : Type) := PlainObject (ResponseEntry Schema)

inductive ResponseKind (Schema : Type) where
  | noContent
  | blob
  | json (schema : Schema)
  | sse (schemaByEventName : SseSchemaByEventName Schema)

variable {Schema : Type}

def isSseBody : BodyDescriptor Schema → Bool
  | .sse _ => true
  | _ => false

def isJsonResponse : ResponseEntry Schema → Bool
  | .json _ => true
  | _ => false

/-- `entry.content`. -/
def ResponseEntry.content : ResponseEntry Schema → Option (ResponseContentMap Schema)
  | .body content _ => some content
  | _ => none

/-- `entry.allowNoBody`. -/
def ResponseEntry.allowNoBody : ResponseEntry Schema → Bool
  | .json _ => false
  | .body _ allowNoBody => allowNoBody
  | .noBody => true

/-! ## The client's reading of a response -/

section Client

variable (runtime : JsRuntime)

def normalizeMediaType (contentType : String) : List Char :=
  runtime.toLowerCase (JsText.trim (contentType.toList.takeWhile (· ≠ ';')))

/-- A content type that a condition takes as given: neither missing nor empty. -/
def givenContentType (contentType : Option String) : Option String :=
  contentType.filter (· ≠ "")

def matchTypedResponse (schema : Schema) (contentType : String) : Option (ResponseKind Schema) :=
  if normalizeMediaType runtime contentType = "application/json".toList then some (.json schema)
  else none

def resolveByKind (schema : Schema) : ResponseKind Schema := .json schema

def descriptorToKind : BodyDescriptor Schema → ResponseKind Schema
  | .blob => .blob
  | .sse schemaByEventName => .sse schemaByEventName
  | .json schema => .json schema

/-- Outside strict mode, the only descriptor of a content map. -/
def onlyDescriptorKind (content : ResponseContentMap Schema) (strict : Bool) :
    Option (ResponseKind Schema) :=
  match content.entries with
  | [(_, descriptor)] => if strict = true then none else some (descriptorToKind descriptor)
  | _ => none

/-- The first descriptor whose media type is the content type, parameters, case and
surrounding white space aside. -/
def matchDescriptor (content : ResponseContentMap Schema) (contentType : String) :
    Option (String × BodyDescriptor Schema) :=
  content.entries.find? fun e =>
    normalizeMediaType runtime e.1 = normalizeMediaType runtime contentType

def resolveContentEntry (entry : ResponseEntry Schema) (contentType : Option String)
    (strict : Bool) : Option (ResponseKind Schema) :=
  match entry.content with
  | none => some .noContent
  | some content =>
    match givenContentType contentType with
    | none =>
      if entry.allowNoBody = true then some .noContent else onlyDescriptorKind content strict
    | some contentType =>
      match matchDescriptor runtime content contentType with
      | some (_, descriptor) => some (descriptorToKind descriptor)
      | none => onlyDescriptorKind content strict

def resolveContractResponse (schemaEntry : ResponseEntry Schema) (contentType : Option String)
    (strict : Bool) : Option (ResponseKind Schema) :=
  match schemaEntry with
  | .json schema =>
    match givenContentType contentType with
    | none => if strict = true then none else some (resolveByKind schema)
    | some contentType =>
      (matchTypedResponse runtime schema contentType).or
        (if strict = true then none else some (resolveByKind schema))
  | entry => resolveContentEntry runtime entry contentType strict

end Client

def getRangeKey : JsNumber → Option String
  | .finite q =>
    if 100 ≤ q ∧ q < 200 then some "1xx"
    else if 200 ≤ q ∧ q < 300 then some "2xx"
    else if 300 ≤ q ∧ q < 400 then some "3xx"
    else if 400 ≤ q ∧ q < 500 then some "4xx"
    else if 500 ≤ q ∧ q < 600 then some "5xx"
    else none
  | _ => none

/-- The kind of body a client takes a response for: exact code, then range, then
`default`, the first entry there is. -/
def resolveResponseEntry (runtime : JsRuntime)
    (responsesByStatusCode : ResponsesByStatusCode Schema) (statusCode : JsNumber)
    (contentType : Option String) (strictContentType : Bool) : Option (ResponseKind Schema) :=
  match responsesByStatusCode.own? (runtime.numberToString statusCode) with
  | some exactEntry => resolveContractResponse runtime exactEntry contentType strictContentType
  | none =>
  match (getRangeKey statusCode).bind responsesByStatusCode.own? with
  | some rangeEntry => resolveContractResponse runtime rangeEntry contentType strictContentType
  | none =>
  match responsesByStatusCode.own? "default" with
  | some defaultEntry => resolveContractResponse runtime defaultEntry contentType strictContentType
  | none => none

/-! ## Lookup -/

/-- The status keys of a status, the most specific first. -/
def statusKeys (runtime : JsRuntime) (statusCode : JsNumber) : List String :=
  runtime.numberToString statusCode :: (getRangeKey statusCode).toList ++ ["default"]

/-- The entry of a contract for a status: the first there is. -/
def entryFor (runtime : JsRuntime) (responses : ResponsesByStatusCode Schema)
    (statusCode : JsNumber) : Option (ResponseEntry Schema) :=
  (statusKeys runtime statusCode).findSome? responses.own?

theorem resolveResponseEntry_eq (runtime : JsRuntime) (responses : ResponsesByStatusCode Schema)
    (statusCode : JsNumber) (contentType : Option String) (strict : Bool) :
    resolveResponseEntry runtime responses statusCode contentType strict =
      (entryFor runtime responses statusCode).bind fun entry =>
        resolveContractResponse runtime entry contentType strict := by
  rw [entryFor, statusKeys, Precedence.findSome?_specific]
  unfold resolveResponseEntry
  cases responses.own? (runtime.numberToString statusCode) with
  | some entry => rfl
  | none =>
    cases (getRangeKey statusCode).bind responses.own? with
    | some entry => rfl
    | none =>
      cases responses.own? "default" with
      | some entry => rfl
      | none => rfl

theorem givenContentType_some {contentType : String} (h : contentType ≠ "") :
    givenContentType (some contentType) = some contentType := by
  simp [givenContentType, h]

/-- A media type in plain lower case stands for itself. -/
theorem normalizeMediaType_json (runtime : JsRuntime) :
    normalizeMediaType runtime "application/json" = "application/json".toList := by
  apply runtime.toLowerCase_ascii
  have hascii : ("application/json".toList.all fun c =>
      c.toNat < 128 ∧ c.isUpper = false) = true := by decide
  intro c hc
  exact of_decide_eq_true (List.all_eq_true.1 hascii c hc)

end SharedTsLibs.ApiContracts
