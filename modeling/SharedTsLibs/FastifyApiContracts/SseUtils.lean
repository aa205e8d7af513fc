import SharedTsLibs.ApiContracts.ContractResponse

/-!
# Selecting an SSE representation

`sseUtils.ts`: which of the SSE representations that a contract declares a call of
`sse.start()` streams.
-/

namespace SharedTsLibs.FastifyApiContracts

open SharedTsLibs.ApiContracts

variable {Schema : Type}

/-- One SSE representation of a contract, under its status key and media type. -/
structure SseRuntimeSelection (Schema : Type) where
  statusCode : String
  contentType : String
  events : SseSchemaByEventName Schema

/-- The status code of a selection: a number, or a status key. -/
inductive StatusCode where
  | number (n : JsNumber)
  | key (s : String)

structure SseStartOptions where
  statusCode : Option StatusCode := none
  contentType : Option String := none

inductive SseSelectionError where
  | noneDeclared
  | selectionRequired
  | notDeclared (statusCode contentType : String)

def SseSelectionError.message : SseSelectionError → String
  | .noneDeclared => "Contract does not declare any SSE response."
  | .selectionRequired =>
    "The contract declares several SSE representations — sse.start() requires \x7b statusCode, contentType \x7d to select which event schemas apply."
  | .notDeclared statusCode contentType =>
    "Contract does not declare an SSE response for status " ++ statusCode ++
      " and content-type \"" ++ contentType ++ "\"."

/-- `${Math.floor(status / 100)}xx`, for a status from 100 and below 600. -/
def floorRangeKey : JsNumber → Option String
  | .finite q => if 100 ≤ q ∧ q < 600 then some (toString ⌊q / 100⌋ ++ "xx") else none
  | _ => none

/-- `String(statusCode)`. -/
def StatusCode.exactKey (runtime : JsRuntime) : StatusCode → String
  | .number n => runtime.numberToString n
  | .key s => s

/-- Only a number has a range. -/
def StatusCode.rangeKey : StatusCode → Option String
  | .number n => floorRangeKey n
  | .key _ => none

/-- `selections.find((s) => s.statusCode === key && s.contentType === contentType)`. -/
def findSelection (selections : List (SseRuntimeSelection Schema)) (contentType key : String) :
    Option (SseRuntimeSelection Schema) :=
  selections.find? fun s => s.statusCode = key ∧ s.contentType = contentType

def resolveSseSelection (runtime : JsRuntime) (selections : List (SseRuntimeSelection Schema))
    (startOptions : SseStartOptions) : Except SseSelectionError (SseRuntimeSelection Schema) :=
  match selections with
  | [] => .error .noneDeclared
  | [firstSelection] => .ok firstSelection
  | selections =>
    match startOptions.statusCode, startOptions.contentType with
    | some statusCode, some contentType =>
      let exactKey := statusCode.exactKey runtime
      let found := ((findSelection selections contentType exactKey).or
        (statusCode.rangeKey.bind (findSelection selections contentType))).or
          (findSelection selections contentType "default")
      match found with
      | some selection => .ok selection
      | none => .error (.notDeclared exactKey contentType)
    | _, _ => .error .selectionRequired

end SharedTsLibs.FastifyApiContracts
