/-
# The template generators

`app/templating/templates/send_verify.py`, `app/templating/templates/mock_assert.py`
and `app/templating/template_registry.py`.

A generator turns the configuration of a template into the commands of a test.  It
numbers them from zero in the order it appends them.  For each assertion it appends
a command that reads what is to be checked and a command that checks it, and names
the constant between the two after the position of the assertion.
-/

import QualityFlow.Suite.Items

namespace QualityFlow
namespace Template

open Py Command Suite

/-! ### Helpers -/

/-- `_normalize_token`. -/
def normalizeToken (value : Json) : String := lower value.token

/-- `_require_str`. -/
def requireStr (value : Json) (message : String) : Except String Token :=
  requireToken message value.token

/-- `_require_dict`. -/
def requireDict (value : Json) (message : String) : Except String (List (String × Json)) :=
  match value with
  | .obj d => .ok d
  | _ => .error message

/-- `_coerce_wait_ms`. -/
def coerceWaitMs (value : Json) (default : ℤ) : Except String ℤ :=
  match value with
  | .null => .ok default
  | value =>
    match pyInt value with
    | .error _ => .error "wait_ms must be an integer."
    | .ok result =>
      if result < 0 then .error "wait_ms must be greater than or equal to zero." else .ok result

/-- One item of `_coerce_assert_list`. -/
def coerceAssert (item : Json × ℕ) : Except String (List (String × Json)) :=
  match item.1 with
  | .obj d => .ok d
  | _ => .error s!"asserts[{item.2}] must be an object."

/-- `_coerce_assert_list`. -/
def coerceAssertList (value : Json) : Except String (List (List (String × Json))) :=
  match value with
  | .null => .ok []
  | .arr items => items.zipIdx.mapM coerceAssert
  | _ => .error "asserts must be a list."

/-- `_OPERATOR_TO_COMMAND_CODE`. -/
def operatorToCommandCode : Dict String AssertCode :=
  [("equals", .jsonEquals), ("exists", .jsonNotEmpty)]

/-- The variables of a generator. -/
structure GeneratorState where
  order : ℤ
  commands : List CreateSuiteItemCommandDto

/-- `commands.append(_wrap(order, ...))` and `order += 1`. -/
def GeneratorState.push (s : GeneratorState) (description : String)
    (cfg : ConfigurationCommandDto) : GeneratorState where
  order := s.order + 1
  commands := s.commands ++ [{ order := s.order, description, cfg := some cfg }]

/-! ### The steps both generators have -/

/-- The reference of an assertion to the constant its read declares. -/
def runtimeValueRef (definitionId : String) : Json :=
  .obj [("kind", .str "runtimeValue"), ("definitionId", .str definitionId)]

/-- The constant that a read declares. -/
def resultConstant (definitionId name : String) : Json :=
  .obj [("definitionId", .str definitionId), ("name", .str name)]

/-- The sleep of a generator, where it waits. -/
def generateSleep (waitMs : ℤ) (what : String) (s : GeneratorState) :
    Except String GeneratorState :=
  if waitMs > 0 then do
    let sleep ← SleepConfigurationCommandDto.create [("duration", .int waitMs)]
    return s.push s!"Wait {waitMs}ms for {what}" (.sleep sleep)
  else .ok s

/-- The read of an assertion: a queue or a query. -/
def generateRead (definitionId name : String) (index : ℕ) (target : String)
    (spec : List (String × Json)) (s : GeneratorState) : Except String GeneratorState :=
  if target = "queue" then do
    let readQueueId ← requireStr (Json.field spec "queue_id")
      s!"assert[{index}].queue_id is required when target=queue."
    let receive ← ReceiveQueueConfigurationCommandDto.create
      [("queue_id", .str readQueueId.val), ("max_messages", .int 1), ("retry", .int 3),
       ("wait_time_seconds", .int 1), ("target", .str ("$.local.constants." ++ name)),
       ("resultConstant", resultConstant definitionId name)]
    return s.push s!"Receive messages from queue '{readQueueId.val}' for assert {index}"
      (.receiveQueue receive)
  else do
    let connectionId ← requireStr (Json.field spec "connection_id")
      s!"assert[{index}].connection_id is required when target=database."
    let databaseQuery ← requireStr (Json.field spec "database_query")
      s!"assert[{index}].database_query is required when target=database."
    let query ← QueryDatabaseConfigurationCommandDto.create
      [("connection_id", .str connectionId.val), ("query", .str databaseQuery.val),
       ("target", .str ("$.local.constants." ++ name)),
       ("resultConstant", resultConstant definitionId name)]
    return s.push s!"Query database '{connectionId.val}' for assert {index}" (.queryDatabase query)

/-- The `expected` argument of an assertion. -/
def expectedArg (index : ℕ) (operator : String) (spec : List (String × Json)) :
    Except String (List (String × Json)) :=
  if operator = "equals" then
    if Dict.has spec "expected" then .ok [("expected", Json.field spec "expected")]
    else .error s!"assert[{index}].expected is required when operator=equals."
  else .ok []

/-- The check of an assertion. -/
def generateCheck (definitionId : String) (index : ℕ) (target operator : String)
    (code : AssertCode) (spec : List (String × Json)) (s : GeneratorState) :
    Except String GeneratorState := do
  let expected ← expectedArg index operator spec
  let check ← AssertConfigurationCommandDto.create
    ([("commandCode", .str code.value), ("commandType", .str CommandType.assert.value),
      ("actualRef", runtimeValueRef definitionId)] ++ expected)
  return s.push s!"Assert {operator} on {target} for assert {index}" (.assert check)

/-- An assertion whose target has been checked: its read, then its check. -/
def generateAssert (idPrefix : String) (index : ℕ) (target : String)
    (spec : List (String × Json)) (s : GeneratorState) : Except String GeneratorState := do
  let operator := normalizeToken (Json.field spec "operator")
  match operatorToCommandCode.get? operator with
  | none => .error (s!"assert[{index}].operator must be one of ['equals', 'exists']; "
      ++ s!"got '{operator}'.")
  | some code =>
    let definitionId := idPrefix ++ toString index
    let s ← generateRead definitionId ("actual_" ++ toString index) index target spec s
    generateCheck definitionId index target operator code spec s

/-! ### `send_verify` -/

namespace SendVerify

/-- `_SUPPORTED_TARGETS`. -/
def supportedTargets : List String := ["database", "none", "queue"]

/-- The id of the payload constant. -/
def payloadDefinitionId : String := "tpl_sv_payload"

/-- The prefix of the ids of the constants that the assertions read. -/
def actualPrefix : String := "tpl_sv_actual_"

/-- One round of the loop over the assertions. -/
def generateRound (s : GeneratorState) (item : List (String × Json) × ℕ) :
    Except String GeneratorState :=
  let target := normalizeToken (Json.field item.1 "target")
  if target ∉ supportedTargets then
    .error (s!"assert[{item.2}].target must be one of ['database', 'none', 'queue']; "
      ++ s!"got '{target}'.")
  else if target = "none" then .ok s
  else generateAssert actualPrefix item.2 target item.1 s

/-- The two commands that send the payload. -/
def generateSend (queueId : Token) (payloadValue : Json) (s : GeneratorState) :
    Except String GeneratorState := do
  let payload ← SetVariableConfigurationCommandDto.create
    [("commandCode", .str CommandCode.setVariable.value),
     ("commandType", .str CommandType.context.value),
     ("definitionId", .str payloadDefinitionId), ("name", .str "payload"),
     ("context", .str ConstantContext.localScope.value),
     ("valueType", .str ConstantSourceType.json.text), ("value", payloadValue)]
  let s := s.push "Materialize inline JSON payload" (.setVariable payload)
  let send ← SendMessageQueueConfigurationCommandDto.create
    [("queue_id", .str queueId.val), ("inputRef", runtimeValueRef payloadDefinitionId)]
  return s.push s!"Send message to queue '{queueId.val}'" (.sendMessageQueue send)

/-- `SendVerifyTemplate.generate_commands`. -/
def generateCommands (config : List (String × Json)) :
    Except String (List CreateSuiteItemCommandDto) := do
  let queueId ← requireStr (Json.field config "queue_id") "queue_id is required for send_verify."
  let payload ← requireDict (Json.field config "payload") "payload is required for send_verify."
  let waitMs ← coerceWaitMs (Json.field config "wait_ms") 500
  let asserts ← coerceAssertList (Json.field config "asserts")
  let payloadKind := normalizeToken (Json.field payload "kind")
  if payloadKind ≠ "json_inline" then
    .error s!"payload.kind must be one of ['json_inline']; got '{payloadKind}'."
  else
    let s ← generateSend queueId (Json.field payload "value") { order := 0, commands := [] }
    let s ← generateSleep waitMs "side effects" s
    let s ← asserts.zipIdx.foldlM generateRound s
    return s.commands

end SendVerify

/-! ### `mock_assert` -/

namespace MockAssert

/-- `_SUPPORTED_TARGETS`. -/
def supportedTargets : List String := ["database", "queue"]

/-- The prefix of the ids of the constants that the assertions read. -/
def actualPrefix : String := "tpl_ma_actual_"

/-- One round of the loop over the assertions. -/
def generateRound (s : GeneratorState) (item : List (String × Json) × ℕ) :
    Except String GeneratorState :=
  let target := normalizeToken (Json.field item.1 "target")
  if target ∉ supportedTargets then
    .error s!"assert[{item.2}].target must be one of ['database', 'queue']; got '{target}'."
  else generateAssert actualPrefix item.2 target item.1 s

/-- `MockAssertTemplate.generate_commands`. -/
def generateCommands (config : List (String × Json)) :
    Except String (List CreateSuiteItemCommandDto) := do
  let waitMs ← coerceWaitMs (Json.field config "wait_ms") 1000
  let asserts ← coerceAssertList (Json.field config "asserts")
  if asserts = [] then
    .error "mock_assert requires at least one assert."
  else
    let s ← generateSleep waitMs "the external trigger to land" { order := 0, commands := [] }
    let s ← asserts.zipIdx.foldlM generateRound s
    return s.commands

end MockAssert

/-! ### The registry -/

/-- `template_registry.generate_commands`. -/
def generateCommands (kind : TemplateKind) (config : Option (List (String × Json))) :
    Except String (List CreateSuiteItemCommandDto) :=
  match kind with
  | .custom => .error "No template engine registered for kind 'custom'."
  | .sendVerify => SendVerify.generateCommands (config.getD [])
  | .mockAssert => MockAssert.generateCommands (config.getD [])

end Template
end QualityFlow
