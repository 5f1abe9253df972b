/-
# The small values inside a command configuration

`app/elaborations/models/dtos/configuration_command_dto.py`: the enumerations,
the normalisers, and the nested models a configuration is built from
(references, result constants, HTTP input nodes, message templates).

A nested model is the type of what its validator lets through, so a reference
without an id or a form body with a blank key cannot be written down.  Each has
a `create` that is the validator (it reads the raw JSON fields and raises where
the source raises), a `modelDump` that is `model_dump()`, and a lemma that
`create` reads back what `modelDump` wrote.
-/

import QualityFlow.Py.Except
import QualityFlow.Py.Json

namespace QualityFlow
namespace Command

open Py

/-! ### Reading fields -/

/-- `_first_non_empty`: the value of the first key that is neither missing, nor
null, nor a blank text. -/
def firstNonEmpty (data : List (String × Json)) : List String → Json
  | [] => .null
  | key :: keys =>
    match Json.field data key with
    | .null => firstNonEmpty data keys
    | .str s => if strip s = "" then firstNonEmpty data keys else .str s
    | v => v

/-- `value or default`. -/
def orElse (x d : Json) : Json := if x.truthy then x else d

/-- A field declared `str`. -/
def strField : Json → Except String String
  | .str s => .ok s
  | _ => .error "Input should be a valid string"

/-- A field declared `str | None`. -/
def optStrField : Json → Except String (Option String)
  | .null => .ok none
  | .str s => .ok (some s)
  | _ => .error "Input should be a valid string"

/-- A field declared `int`. -/
def intField : Json → Except String ℤ
  | .int n => .ok n
  | .bool b => .ok (if b then 1 else 0)
  | .float q => if q.den = 1 then .ok q.num else .error "Input should be a valid integer"
  | .str s =>
    match intOfText s with
    | some n => .ok n
    | none => .error "Input should be a valid integer"
  | _ => .error "Input should be a valid integer"

/-- A field declared `dict | None`. -/
def optDictField : Json → Except String (Option (List (String × Json)))
  | .null => .ok none
  | .obj kvs => .ok (some kvs)
  | _ => .error "Input should be a valid dictionary"

@[simp] theorem strField_str (s : String) : strField (.str s) = .ok s := rfl

@[simp] theorem optStrField_null : optStrField .null = .ok none := rfl

@[simp] theorem optStrField_str (s : String) : optStrField (.str s) = .ok (some s) := rfl

@[simp] theorem intField_int (n : ℤ) : intField (.int n) = .ok n := rfl

@[simp] theorem optDictField_null : optDictField .null = .ok none := rfl

theorem orElse_str {s : String} (h : s ≠ "") (d : Json) : orElse (.str s) d = .str s :=
  if_pos (by simpa [Json.truthy] using h)

@[simp] theorem orElse_null (d : Json) : orElse .null d = d := rfl

/-- A required text after `_normalize_token`, with the message of its check. -/
def requireToken (message : String) (s : String) : Except String Token :=
  match Token.ofString? s with
  | some t => .ok t
  | none => .error message

@[simp] theorem requireToken_val (message : String) (t : Token) :
    requireToken message t.val = .ok t := by
  simp [requireToken]

/-! ### Enumerations -/

inductive CommandType where
  | context
  | action
  | assert
deriving DecidableEq

namespace CommandType

def value : CommandType → String
  | .context => "context"
  | .action => "action"
  | .assert => "assert"

def ofString? (s : String) : Option CommandType :=
  [context, action, assert].find? fun c => c.value = s

@[simp] theorem ofString?_value (c : CommandType) : ofString? c.value = some c := by
  cases c <;> decide

end CommandType

inductive ConstantContext where
  | runEnvelope
  | globalScope
  | localScope
  | resultScope
deriving DecidableEq

namespace ConstantContext

def value : ConstantContext → String
  | .runEnvelope => "runEnvelope"
  | .globalScope => "global"
  | .localScope => "local"
  | .resultScope => "result"

def ofString? (s : String) : Option ConstantContext :=
  [runEnvelope, globalScope, localScope, resultScope].find? fun c => c.value = s

@[simp] theorem ofString?_value (c : ConstantContext) : ofString? c.value = some c := by
  cases c <;> decide

end ConstantContext

/-- `ConstantSourceType`; `RAW` is an alias of `VALUE`. -/
inductive ConstantSourceType where
  | value
  | json
  | jsonArray
  | dataset
  | function
  | sqsQueue
deriving DecidableEq

namespace ConstantSourceType

def text : ConstantSourceType → String
  | .value => "value"
  | .json => "json"
  | .jsonArray => "jsonArray"
  | .dataset => "dataset"
  | .function => "function"
  | .sqsQueue => "sqsQueue"

def ofString? (s : String) : Option ConstantSourceType :=
  [value, json, jsonArray, dataset, function, sqsQueue].find? fun c => c.text = s

@[simp] theorem ofString?_text (c : ConstantSourceType) : ofString? c.text = some c := by
  cases c <;> decide

end ConstantSourceType

/-- `SUPPORTED_RUNTIME_FUNCTIONS`. -/
inductive RuntimeFunction where
  | now
  | today
deriving DecidableEq

namespace RuntimeFunction

def value : RuntimeFunction → String
  | .now => "now"
  | .today => "today"

def ofString? (s : String) : Option RuntimeFunction := [now, today].find? fun f => f.value = s

@[simp] theorem ofString?_value (f : RuntimeFunction) : ofString? f.value = some f := by
  cases f <;> decide

end RuntimeFunction

inductive HttpBodyType where
  | json
  | text
  | formUrlEncoded
deriving DecidableEq

namespace HttpBodyType

def value : HttpBodyType → String
  | .json => "json"
  | .text => "text"
  | .formUrlEncoded => "formUrlEncoded"

end HttpBodyType

/-- `_normalize_http_body_type`. -/
def normalizeHttpBodyType (x : Json) : Except String HttpBodyType :=
  let key := lower (removeChar '_' (removeChar '-' x.token))
  if key = "" then .ok .json
  else if key = "json" then .ok .json
  else if key = "text" then .ok .text
  else if key = "formurlencoded" ∨ key = "xwwwformurlencoded" then .ok .formUrlEncoded
  else .error "bodyType must be one of: json, text, formUrlEncoded."

@[simp] theorem normalizeHttpBodyType_value (b : HttpBodyType) :
    normalizeHttpBodyType (.str b.value) = .ok b := by
  cases b <;> rfl

/-- `_normalize_value_type` with `allow_sources=True`. -/
def normalizeValueType (s : String) : Except String ConstantSourceType :=
  let normalized := if strip s = "raw" then "value" else strip s
  match ConstantSourceType.ofString? normalized with
  | some t => .ok t
  | none => .error "Unsupported valueType."

@[simp] theorem normalizeValueType_text (t : ConstantSourceType) :
    normalizeValueType t.text = .ok t := by
  cases t <;> rfl

/-! ### References and result constants -/

/-- `RuntimeValueRefDto`. -/
structure RuntimeValueRefDto where
  definitionId : Token
deriving DecidableEq

namespace RuntimeValueRefDto

def create (definitionId : Json) : Except String RuntimeValueRefDto := do
  let s ← strField definitionId
  return ⟨← requireToken "definitionId is required." s⟩

def modelDump (r : RuntimeValueRefDto) : Json := .obj [("definitionId", .str r.definitionId.val)]

/-- A field declared `RuntimeValueRefDto | None`. -/
def field : Json → Except String (Option RuntimeValueRefDto)
  | .null => .ok none
  | .obj d => do return some (← create (Json.field d "definitionId"))
  | _ => .error "Input should be a valid dictionary"

@[simp] theorem field_null : field .null = .ok none := rfl

@[simp] theorem field_modelDump (r : RuntimeValueRefDto) : field r.modelDump = .ok (some r) := by
  simp [field, modelDump, create, Json.field, strField]

end RuntimeValueRefDto

/-- `InputRefDto`: its kind decides which of the two ids is there. -/
inductive InputRefDto where
  | runtimeValue (definitionId : Token)
  | source (sourceCode : Token)
deriving DecidableEq

namespace InputRefDto

def create (kind definitionId sourceCode : Json) : Except String InputRefDto := do
  let kind ← strField kind
  let definitionId ← optStrField definitionId
  let sourceCode ← optStrField sourceCode
  if strip kind = "runtimeValue" then
    return .runtimeValue
      (← requireToken "definitionId is required for runtimeValue refs." (definitionId.getD ""))
  else if strip kind = "source" then
    return .source (← requireToken "sourceCode is required for source refs." (sourceCode.getD ""))
  else
    .error "kind must be one of: runtimeValue, source."

def modelDump : InputRefDto → Json
  | .runtimeValue d =>
    .obj [("kind", .str "runtimeValue"), ("definitionId", .str d.val), ("sourceCode", .null)]
  | .source c =>
    .obj [("kind", .str "source"), ("definitionId", .null), ("sourceCode", .str c.val)]

/-- A field declared `InputRefDto | None`. -/
def field : Json → Except String (Option InputRefDto)
  | .null => .ok none
  | .obj d => do
    return some (← create (Json.field d "kind") (Json.field d "definitionId")
      (Json.field d "sourceCode"))
  | _ => .error "Input should be a valid dictionary"

@[simp] theorem field_null : field .null = .ok none := rfl

@[simp] theorem field_modelDump (r : InputRefDto) : field r.modelDump = .ok (some r) := by
  cases r with
  | runtimeValue d =>
    simp [field, modelDump, create, Json.field, strField, optStrField,
      show strip "runtimeValue" = "runtimeValue" from rfl]
  | source c =>
    simp [field, modelDump, create, Json.field, strField, optStrField,
      show strip "source" = "source" from rfl]

/-- The id of the constant the reference reads, if it reads one. -/
def definitionId? : InputRefDto → Option String
  | .runtimeValue d => some d.val
  | .source _ => none

end InputRefDto

/-- `ResultConstantDto`. -/
structure ResultConstantDto where
  definitionId : Token
  name : Token
  valueType : ConstantSourceType
deriving DecidableEq

namespace ResultConstantDto

/-- The validator; `valueType` defaults to `json` where the field is missing. -/
def create (d : List (String × Json)) : Except String ResultConstantDto := do
  let definitionId ← strField (Json.field d "definitionId")
  let name ← strField (Json.field d "name")
  let valueType ← strField ((Dict.get? d "valueType").getD (.str "json"))
  let valueType ← normalizeValueType valueType
  let definitionId ← requireToken "resultConstant.definitionId is required." definitionId
  let name ← requireToken "resultConstant.name is required." name
  return ⟨definitionId, name, valueType⟩

def modelDump (r : ResultConstantDto) : Json :=
  .obj [("definitionId", .str r.definitionId.val), ("name", .str r.name.val),
    ("valueType", .str r.valueType.text)]

/-- A field declared `ResultConstantDto | None`. -/
def field : Json → Except String (Option ResultConstantDto)
  | .null => .ok none
  | .obj d => do return some (← create d)
  | _ => .error "Input should be a valid dictionary"

@[simp] theorem field_null : field .null = .ok none := rfl

@[simp] theorem field_modelDump (r : ResultConstantDto) : field r.modelDump = .ok (some r) := by
  simp [field, modelDump, create, Json.field, strField]

end ResultConstantDto

end Command
end QualityFlow
