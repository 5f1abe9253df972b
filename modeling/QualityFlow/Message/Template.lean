/-
# Templates of messages

`app/elaborations/services/operations/send_message_template_service.py`.

A template makes one message of each instance that its path reaches in the input.  A row holds
what a message can take from its instance: the items of the instance and of the values above it,
under dotted keys.

What a constant reads when it is evaluated, the context of the run and the clock, is given for
each row and each constant.
-/

import QualityFlow.Command.Fields
import QualityFlow.Py.Loops
import QualityFlow.Py.Value

namespace QualityFlow
namespace Message

open Py Command

/-! ### Paths -/

/-- `_normalize_template_path`. -/
def normalizeTemplatePath (value : Option String) : List String :=
  let raw := strip (value.getD "")
  if raw = "" ∨ raw = "$" then []
  else
    let raw :=
      if startsWith raw "$." then dropChars 2 raw
      else if startsWith raw "$" then dropChars 1 raw
      else raw
    let raw := stripChar '.' raw
    if raw = "" then [] else (split '.' raw).filter (· ≠ "")

/-- `_segment_parts`. -/
def segmentParts (segment : String) : String × Bool :=
  let normalized := (strip segment).toList
  if "[*]".toList.isSuffixOf normalized then
    (String.ofList (normalized.take (normalized.length - 3)), true)
  else (String.ofList normalized, false)

/-- A path with one more key. -/
def extendPath (path key : String) : String := if path = "" then key else path ++ "." ++ key

/-! ### Rows -/

/-- What a message can take, under dotted keys. -/
abbrev Row := Dict String Value

mutual

/-- `_flatten_template_value`. -/
def flattenTemplateValue (path : String) : Value → Row
  | .obj kvs => flattenItems path kvs (if path = "" then [] else [(path, .obj kvs)])
  | value => if path = "" then [] else [(path, value)]

/-- Its loop over the items. -/
def flattenItems (path : String) : List (String × Value) → Row → Row
  | [], result => result
  | (rawKey, child) :: kvs, result =>
    let key := strip rawKey
    if key = "" then flattenItems path kvs result
    else flattenItems path kvs
      (result.update (flattenTemplateValue (extendPath path key) child))

end

/-- The row of a value that is no list. -/
def rowOf (ancestors : Row) : Value → Row
  | .obj kvs => ancestors.update (flattenTemplateValue "" (.obj kvs))
  | current => ancestors.set "value" current

mutual

/-- `_append_match`. -/
def appendMatch (ancestors : Row) : List Row → Value → List Row
  | found, .arr xs => appendMatches ancestors found xs
  | found, current => found ++ [rowOf ancestors current]

/-- Its loop over the items of a list. -/
def appendMatches (ancestors : Row) : List Row → List Value → List Row
  | found, [] => found
  | found, x :: xs => appendMatches ancestors (appendMatch ancestors found x) xs

end

/-- `walk` of `_extract_template_matches`. -/
def walk (found : List Row) (current : Value) (ancestors : Row) (path : String) :
    List String → List Row
  | [] => appendMatch ancestors found current
  | segment :: segments =>
    let (segmentName, isArray) := segmentParts segment
    match current with
    | .obj kvs =>
      match Dict.get? kvs segmentName with
      | none => found
      | some nextValue =>
        let nextPath := extendPath path segmentName
        let nextAncestors (item : Value) : Row :=
          if segments = [] then ancestors
          else ancestors.update (flattenTemplateValue nextPath item)
        if isArray then
          match nextValue with
          | .arr items => items.foldl (fun found item =>
              walk found item (nextAncestors item) nextPath segments) found
          | _ => found
        else walk found nextValue (nextAncestors nextValue) nextPath segments
    | _ => found

/-- `_extract_template_matches`. -/
def extractTemplateMatches (root : Value) (forEach : Option String) : List Row :=
  walk [] root [] "" (normalizeTemplatePath forEach)

/-- `preview_send_message_template_rows`. -/
def previewSendMessageTemplateRows (inputData : Value) (sourceType : String)
    (forEach : Option String) : List Row :=
  if strip sourceType = "dataset" then
    match inputData with
    | .arr items => (items.map (flattenTemplateValue "")).filter fun row => !row.isEmpty
    | .obj kvs => [flattenTemplateValue "" (.obj kvs)]
    | _ => []
  else
    match inputData with
    | .arr items => items.flatMap fun item => extractTemplateMatches item forEach
    | _ => if strip sourceType = "jsonArray" then [] else extractTemplateMatches inputData forEach

/-! ### Messages -/

mutual

/-- A value that a configuration holds. -/
def ofJson : Json → Value
  | .null => .null
  | .bool b => .bool b
  | .int n => .int n
  | .float q => .float (Double.ofRat q)
  | .str s => .str s
  | .arr xs => .arr (ofJsonList xs)
  | .obj kvs => .obj (ofJsonItems kvs)

def ofJsonList : List Json → List Value
  | [] => []
  | x :: xs => ofJson x :: ofJsonList xs

def ofJsonItems : List (String × Json) → List (String × Value)
  | [] => []
  | (k, x) :: kvs => (k, ofJson x) :: ofJsonItems kvs

end

/-- What a constant reads. -/
structure Moment where
  /-- `resolve_dynamic_value` in the scope of the context. -/
  resolve : String → Except String Value
  /-- `date.today().isoformat()`. -/
  today : String
  /-- `datetime.now(UTC).replace(microsecond=0).isoformat()`. -/
  now : String

/-- A number that is written as a text. -/
def numberOfText (text : String) : Except String Value :=
  if '.' ∈ text.toList then
    match Double.ofText text with
    | some x => .ok (.float x)
    | none => .error ("could not convert string to float: " ++ Json.reprStr text)
  else
    match intOfText text with
    | some n => .ok (.int n)
    | none => .error ("invalid literal for int() with base 10: " ++ Json.reprStr text)

/-- `_evaluate_template_constant`. -/
def evaluateTemplateConstant (moment : Moment) :
    SendMessageTemplateConstantDto → Except String Value
  | .ofPlain _ .number value =>
    match ofJson value with
    | .bool b => .ok (.bool b)
    | .int n => .ok (.int n)
    | .float x => .ok (.float x)
    | value => numberOfText value.token
  | .ofPlain _ .boolean value =>
    match ofJson value with
    | .bool b => .ok (.bool b)
    | value => .ok (.bool (lower value.token ∈ ["true", "1", "yes", "y", "on"]))
  | .ofPlain _ _ value => .ok (ofJson value)
  | .ofVariable _ value => moment.resolve value.val
  | .ofFunction _ .today => .ok (.str moment.today)
  | .ofFunction _ .now => .ok (.str moment.now)

/-- `constant.name`. -/
def constantName : SendMessageTemplateConstantDto → String
  | .ofPlain name _ _ => name.val
  | .ofVariable name _ => name.val
  | .ofFunction name _ => name.val

/-- The loop over the fields. -/
def takeFields (row : Row) (fields : List Token) : Row :=
  fields.foldl (fun payload field =>
    match row.get? field.val with
    | some value => payload.set field.val value
    | none => payload) []

/-- The loop over the constants, counted from a number. -/
def setConstants (moments : ℕ → Moment) :
    ℕ → Row → List SendMessageTemplateConstantDto → Except String Row
  | _, payload, [] => .ok payload
  | j, payload, constant :: constants => do
    let value ← evaluateTemplateConstant (moments j) constant
    setConstants moments (j + 1) (payload.set (constantName constant) value) constants

/-- `build_send_message_payloads`, with what each constant reads at each row. -/
def buildSendMessagePayloads (moments : ℕ → ℕ → Moment) (inputData : Value) (sourceType : String)
    (messageTemplate : Option SendMessageTemplateDto) : Except String (List Value) :=
  match messageTemplate with
  | none =>
    match inputData with
    | .arr items => .ok items
    | _ => .ok [inputData]
  | some template => do
    let rows := previewSendMessageTemplateRows inputData sourceType
      (template.forEach.map Token.val)
    let payloads ← enumM (fun i row =>
      setConstants (moments i) 0 (takeFields row template.fields) template.constants) 0 rows
    return payloads.map .obj

end Message
end QualityFlow
