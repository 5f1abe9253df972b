/-
# Command configurations

The sixteen classes of `ConfigurationCommandTypes` in
`app/elaborations/models/dtos/configuration_command_dto.py`.

`create` is the class applied to the fields of a request: the declared types and
defaults, then the validators.  The type of a class holds exactly what its
validators leave, so a value of it is a configuration the API accepts.
`modelDump` is what the store keeps.
-/

import QualityFlow.Command.Fields

namespace QualityFlow
namespace Command

open Py

/-- The codes of `CommandCode` that name an action or a change of the context. -/
inductive CommandCode where
  | setVariable
  | deleteVariable
  | sleep
  | readApi
  | writeApi
  | sendMessageQueue
  | saveTable
  | dropTable
  | cleanTable
  | exportDataset
  | dropDataset
  | cleanDataset
  | runSuite
  | receiveQueue
  | queryDatabase
deriving DecidableEq

def CommandCode.value : CommandCode → String
  | .setVariable => "setVariable"
  | .deleteVariable => "deleteVariable"
  | .sleep => "sleep"
  | .readApi => "readApi"
  | .writeApi => "writeApi"
  | .sendMessageQueue => "sendMessageQueue"
  | .saveTable => "saveTable"
  | .dropTable => "dropTable"
  | .cleanTable => "cleanTable"
  | .exportDataset => "exportDataset"
  | .dropDataset => "dropDataset"
  | .cleanDataset => "cleanDataset"
  | .runSuite => "runSuite"
  | .receiveQueue => "receiveQueue"
  | .queryDatabase => "queryDatabase"

/-- The codes of `CommandCode` that name an assertion. -/
inductive AssertCode where
  | jsonEquals
  | jsonEmpty
  | jsonNotEmpty
  | jsonContains
  | jsonArrayEquals
  | jsonArrayEmpty
  | jsonArrayNotEmpty
  | jsonArrayContains
deriving DecidableEq

namespace AssertCode

def value : AssertCode → String
  | .jsonEquals => "jsonEquals"
  | .jsonEmpty => "jsonEmpty"
  | .jsonNotEmpty => "jsonNotEmpty"
  | .jsonContains => "jsonContains"
  | .jsonArrayEquals => "jsonArrayEquals"
  | .jsonArrayEmpty => "jsonArrayEmpty"
  | .jsonArrayNotEmpty => "jsonArrayNotEmpty"
  | .jsonArrayContains => "jsonArrayContains"

def ofString? (s : String) : Option AssertCode :=
  [jsonEquals, jsonEmpty, jsonNotEmpty, jsonContains, jsonArrayEquals, jsonArrayEmpty,
    jsonArrayNotEmpty, jsonArrayContains].find? fun c => c.value = s

@[simp] theorem ofString?_value (c : AssertCode) : ofString? c.value = some c := by
  cases c <;> decide

end AssertCode

/-! ### Variables -/

/-- `valueType`, `value` and `functionName` of a `setVariable`: a function has no
value, and only a function has a name. -/
inductive VariableValue where
  | value (v : Json)
  | json (v : Json)
  | jsonArray (v : Json)
  | dataset (v : Json)
  | function (f : RuntimeFunction)

namespace VariableValue

def valueType : VariableValue → ConstantSourceType
  | .value _ => .value
  | .json _ => .json
  | .jsonArray _ => .jsonArray
  | .dataset _ => .dataset
  | .function _ => .function

/-- The value that is stored. -/
def payload : VariableValue → Json
  | .value v | .json v | .jsonArray v | .dataset v => v
  | .function _ => .null

def functionName : VariableValue → Json
  | .function f => .str f.value
  | _ => .null

/-- The end of `validate_configuration` of a `setVariable`: the declared type
decides what of the value is kept. -/
def create (valueType : String) (value : Json) (functionName : String) :
    Except String VariableValue :=
  match ConstantSourceType.ofString? (if strip valueType = "raw" then "value" else strip valueType)
    with
  | some .jsonArray => .ok (.jsonArray value)
  | some .dataset => .ok (.dataset value)
  | some .value => .ok (.value value)
  | some .json => .ok (.json value)
  | some .function =>
    match RuntimeFunction.ofString? (lower (strip functionName)) with
    | some f => .ok (.function f)
    | none => .error "functionName must be one of: now, today."
  | _ => .error "Unsupported valueType."

end VariableValue

/-- `a or b or ...` on optional texts: the first that is neither missing nor empty. -/
def firstTruthy : List (Option String) → String
  | [] => ""
  | some s :: xs => if s = "" then firstTruthy xs else s
  | none :: xs => firstTruthy xs

/-- `SetVariableConfigurationCommandDto`. -/
structure SetVariableConfigurationCommandDto where
  keys : CommandKeys
  definitionId : Token
  name : Token
  context : ConstantContext
  value : VariableValue
  sourceType : Option String
  data : Json
  resolver : Option String
  function : Option String
  datasetId : Option String
  jsonArrayId : Option String
  parameters : Option (List (String × Json))
  target : Option TargetPath
  key : Option String
  scope : Option String

namespace SetVariableConfigurationCommandDto

/-- The context and the name that a target path of three segments or more stands
for. -/
def targetDefaults (target : Option TargetPath) : Option String × Option String :=
  match target with
  | none => (none, none)
  | some t =>
    let tokens := (split '.' t.path).filter (· ≠ "")
    if 3 ≤ tokens.length then (tokens[1]?, tokens.getLast?) else (none, none)

/-- The context names of an earlier release. -/
def contextAliases : Dict String String :=
  [("run", "runEnvelope"), ("vars", "global"), ("auto", "local")]

/-- The class. -/
def create (d : List (String × Json)) : Except String SetVariableConfigurationCommandDto := do
  let definitionId ← optStrField (Json.field d "definitionId")
  let name ← optStrField (Json.field d "name")
  let context ← optStrField (Json.field d "context")
  let valueType ← optStrField (Json.field d "valueType")
  let sourceType ← optStrField (Json.field d "sourceType")
  let value := Json.field d "value"
  let data := Json.field d "data"
  let functionName ← optStrField (Json.field d "functionName")
  let resolver ← optStrField (Json.field d "resolver")
  let function ← optStrField (Json.field d "function")
  let datasetId ← optStrField (Json.field d "dataset_id")
  let jsonArrayId ← optStrField (Json.field d "json_array_id")
  let parameters ← optDictField (Json.field d "parameters")
  let target ← TargetPath.field (Json.field d "target")
  let key ← optStrField (Json.field d "key")
  let scope ← optStrField (Json.field d "scope")
  let keys ← CommandKeys.create d (.str CommandCode.setVariable.value) .context
  let definitionId ← requireToken "definitionId is required for setVariable."
    (definitionId.getD "")
  let fromTarget := targetDefaults target
  let name ← requireToken "name is required for setVariable."
    (firstTruthy [name, fromTarget.2, key])
  let context := strip (firstTruthy [context, fromTarget.1, scope, some "local"])
  let context ← match ConstantContext.ofString? ((contextAliases.get? context).getD context) with
    | some c => .ok c
    | none => .error "context must be one of: runEnvelope, global, local, result."
  let value ← VariableValue.create (firstTruthy [sourceType, valueType, some "value"])
    (if value = .null then data else value) (firstTruthy [functionName, resolver, function])
  return { keys, definitionId, name, context, value, sourceType, data, resolver, function,
           datasetId, jsonArrayId, parameters, target, key, scope }

def modelDump (c : SetVariableConfigurationCommandDto) : List (String × Json) :=
  c.keys.modelDump ++
    [("definitionId", .str c.definitionId.val), ("name", .str c.name.val),
     ("context", .str c.context.value), ("valueType", .str c.value.valueType.text),
     ("sourceType", .ofOption c.sourceType), ("value", c.value.payload), ("data", c.data),
     ("functionName", c.value.functionName), ("resolver", .ofOption c.resolver),
     ("function", .ofOption c.function), ("dataset_id", .ofOption c.datasetId),
     ("json_array_id", .ofOption c.jsonArrayId),
     ("parameters", (c.parameters.map Json.obj).getD .null),
     ("target", .ofOption (c.target.map TargetPath.path)), ("key", .ofOption c.key),
     ("scope", .ofOption c.scope)]

end SetVariableConfigurationCommandDto

/-- `DeleteVariableConfigurationCommandDto`. -/
structure DeleteVariableConfigurationCommandDto where
  keys : CommandKeys
  targetRuntimeValueRef : RuntimeValueRefDto
  targetConstantRef : Option RuntimeValueRefDto

namespace DeleteVariableConfigurationCommandDto

/-- The class. -/
def create (d : List (String × Json)) : Except String DeleteVariableConfigurationCommandDto := do
  let target ← RuntimeValueRefDto.field (Json.field d "targetRuntimeValueRef")
  let targetConstantRef ← RuntimeValueRefDto.field (Json.field d "targetConstantRef")
  let keys ← CommandKeys.create d (.str CommandCode.deleteVariable.value) .context
  match target <|> targetConstantRef with
  | some targetRuntimeValueRef => return { keys, targetRuntimeValueRef, targetConstantRef }
  | none => .error "targetRuntimeValueRef is required for deleteVariable."

def modelDump (c : DeleteVariableConfigurationCommandDto) : List (String × Json) :=
  c.keys.modelDump ++
    [("targetRuntimeValueRef", c.targetRuntimeValueRef.modelDump),
     ("targetConstantRef", (c.targetConstantRef.map RuntimeValueRefDto.modelDump).getD .null)]

end DeleteVariableConfigurationCommandDto

/-! ### Actions without an input -/

/-- `SleepConfigurationCommandDto`. -/
structure SleepConfigurationCommandDto where
  keys : CommandKeys
  duration : ℤ

namespace SleepConfigurationCommandDto

/-- The class. -/
def create (d : List (String × Json)) : Except String SleepConfigurationCommandDto := do
  let duration ← intField (Json.field d "duration")
  let keys ← CommandKeys.create d (.str CommandCode.sleep.value) .action
  return { keys, duration }

def modelDump (c : SleepConfigurationCommandDto) : List (String × Json) :=
  c.keys.modelDump ++ [("duration", .int c.duration)]

end SleepConfigurationCommandDto

/-- The classes whose only field of their own is a text: a table name or a dataset id. -/
structure NamedConfigurationCommandDto where
  keys : CommandKeys
  name : String

namespace NamedConfigurationCommandDto

/-- Such a class, given its code and the name of its field. -/
def create (code : CommandCode) (field : String) (d : List (String × Json)) :
    Except String NamedConfigurationCommandDto := do
  let name ← strField (Json.field d field)
  let keys ← CommandKeys.create d (.str code.value) .action
  return { keys, name }

def modelDump (field : String) (c : NamedConfigurationCommandDto) : List (String × Json) :=
  c.keys.modelDump ++ [(field, .str c.name)]

end NamedConfigurationCommandDto

/-- `DropTableConfigurationCommandDto`. -/
def DropTableConfigurationCommandDto.create :=
  NamedConfigurationCommandDto.create .dropTable "table_name"

/-- `CleanTableConfigurationCommandDto`. -/
def CleanTableConfigurationCommandDto.create :=
  NamedConfigurationCommandDto.create .cleanTable "table_name"

/-- `DropDatasetConfigurationCommandDto`. -/
def DropDatasetConfigurationCommandDto.create :=
  NamedConfigurationCommandDto.create .dropDataset "dataset_id"

/-- `CleanDatasetConfigurationCommandDto`. -/
def CleanDatasetConfigurationCommandDto.create :=
  NamedConfigurationCommandDto.create .cleanDataset "dataset_id"

/-! ### HTTP requests -/

/-- The fields a `readApi` and a `writeApi` share. -/
structure HttpRequestFields where
  url : Token
  queryParams : Option HttpKvParams
  headers : Option HttpKvParams
  pathParams : Option HttpKvParams
  authorization : Option HttpAuthorization
  timeoutSeconds : Option Timeout
  resultConstant : Option ResultConstantDto

/-- The dump of a field that may be null. -/
def dumpOption {α : Type} (dump : α → Json) : Option α → Json
  | none => .null
  | some x => dump x

namespace HttpRequestFields

/-- The shared part of the two validators. -/
def create (code : CommandCode) (d : List (String × Json)) : Except String HttpRequestFields := do
  let url ← strField (Json.field d "url")
  let queryParams ← HttpKvParams.listField (Json.field d "queryParams")
  let headers ← HttpKvParams.field (Json.field d "headers")
  let pathParams ← HttpKvParams.field (Json.field d "pathParams")
  let authorization ← HttpAuthorization.field (Json.field d "authorization")
  let resultConstant ← ResultConstantDto.field (Json.field d "resultConstant")
  let url ← requireToken s!"url is required for {code.value}." url
  let timeoutSeconds ← Timeout.field (fieldD d "timeoutSeconds" (.int 30))
  return { url, queryParams, headers, pathParams, authorization, timeoutSeconds, resultConstant }

end HttpRequestFields

/-- `_normalize_http_method`. -/
def normalizeHttpMethod (value : String) : String := upper (strip value)

/-- `ReadApiConfigurationCommandDto`; its method is `GET`. -/
structure ReadApiConfigurationCommandDto extends HttpRequestFields where
  keys : CommandKeys
  bodyType : HttpBodyType

namespace ReadApiConfigurationCommandDto

/-- The class. -/
def create (d : List (String × Json)) : Except String ReadApiConfigurationCommandDto := do
  let method ← strField (fieldD d "method" (.str "GET"))
  let bodyType ← strField (fieldD d "bodyType" (.str "json"))
  let keys ← CommandKeys.create d (.str CommandCode.readApi.value) .action
  let bodyType ← normalizeHttpBodyType (.str bodyType)
  if normalizeHttpMethod (firstTruthy [some method, some "GET"]) = "GET" then
    return { toHttpRequestFields := ← HttpRequestFields.create .readApi d, keys, bodyType }
  else
    .error "readApi.method must be GET."

def modelDump (c : ReadApiConfigurationCommandDto) : List (String × Json) :=
  c.keys.modelDump ++
    [("method", .str "GET"), ("url", .str c.url.val),
     ("queryParams", dumpOption HttpKvParams.modelDump c.queryParams),
     ("headers", dumpOption HttpKvParams.modelDump c.headers),
     ("pathParams", dumpOption HttpKvParams.modelDump c.pathParams),
     ("authorization", dumpOption HttpAuthorization.modelDump c.authorization),
     ("bodyType", .str c.bodyType.value),
     ("timeoutSeconds", dumpOption Timeout.modelDump c.timeoutSeconds),
     ("resultConstant", dumpOption ResultConstantDto.modelDump c.resultConstant)]

end ReadApiConfigurationCommandDto

/-- The methods of a `writeApi`. -/
inductive WriteMethod where
  | post
  | put
  | patch
  | delete
deriving DecidableEq

namespace WriteMethod

def value : WriteMethod → String
  | .post => "POST"
  | .put => "PUT"
  | .patch => "PATCH"
  | .delete => "DELETE"

def ofString? (s : String) : Option WriteMethod :=
  [post, put, patch, delete].find? fun m => m.value = s

end WriteMethod

/-- `body` and `bodyType` of a `writeApi`: the type decides how the body is read. -/
inductive HttpBody where
  | json (t : HttpInputTree)
  | text (t : HttpInputTree)
  | formUrlEncoded (f : Option HttpFormBody)

namespace HttpBody

def bodyType : HttpBody → HttpBodyType
  | .json _ => .json
  | .text _ => .text
  | .formUrlEncoded _ => .formUrlEncoded

def create (bodyType : HttpBodyType) (body : Json) : Except String HttpBody :=
  match bodyType with
  | .json => .json <$> HttpInputTree.coerce body
  | .text => .text <$> HttpInputTree.coerce body
  | .formUrlEncoded => .formUrlEncoded <$> HttpFormBody.coerce body

def modelDump : HttpBody → Json
  | .json t => t.modelDump
  | .text t => t.modelDump
  | .formUrlEncoded f => dumpOption HttpFormBody.modelDump f

@[simp] theorem create_modelDump (b : HttpBody) : create b.bodyType b.modelDump = .ok b := by
  cases b with
  | json t => simp [create, bodyType, modelDump]
  | text t => simp [create, bodyType, modelDump]
  | formUrlEncoded f => cases f <;> simp [create, bodyType, modelDump, dumpOption]

end HttpBody

/-- `WriteApiConfigurationCommandDto`. -/
structure WriteApiConfigurationCommandDto extends HttpRequestFields where
  keys : CommandKeys
  method : WriteMethod
  body : HttpBody

namespace WriteApiConfigurationCommandDto

/-- The class. -/
def create (d : List (String × Json)) : Except String WriteApiConfigurationCommandDto := do
  let method ← strField (Json.field d "method")
  let bodyType ← strField (fieldD d "bodyType" (.str "json"))
  let keys ← CommandKeys.create d (.str CommandCode.writeApi.value) .action
  let bodyType ← normalizeHttpBodyType (.str bodyType)
  let body ← HttpBody.create bodyType (Json.field d "body")
  match WriteMethod.ofString? (normalizeHttpMethod method) with
  | some method =>
    return { toHttpRequestFields := ← HttpRequestFields.create .writeApi d, keys, method, body }
  | none => .error "writeApi.method must be one of: POST, PUT, PATCH, DELETE."

def modelDump (c : WriteApiConfigurationCommandDto) : List (String × Json) :=
  c.keys.modelDump ++
    [("method", .str c.method.value), ("url", .str c.url.val),
     ("queryParams", dumpOption HttpKvParams.modelDump c.queryParams),
     ("headers", dumpOption HttpKvParams.modelDump c.headers),
     ("pathParams", dumpOption HttpKvParams.modelDump c.pathParams),
     ("authorization", dumpOption HttpAuthorization.modelDump c.authorization),
     ("body", c.body.modelDump), ("bodyType", .str c.body.bodyType.value),
     ("timeoutSeconds", dumpOption Timeout.modelDump c.timeoutSeconds),
     ("resultConstant", dumpOption ResultConstantDto.modelDump c.resultConstant)]

end WriteApiConfigurationCommandDto

/-! ### Messages, tables and datasets -/

/-- `_coerce_input_ref(inputRef or sourceConstantRef)` on fields that have been read. -/
def coerceInputRef (inputRef : Option InputRefDto) (constantRef : Option RuntimeValueRefDto) :
    Option InputRefDto :=
  inputRef <|> constantRef.map fun r => .runtimeValue r.definitionId

/-- The input of a command that requires one, and the legacy field it may come from. -/
structure InputFields where
  inputRef : InputRefDto
  sourceConstantRef : Option RuntimeValueRefDto

namespace InputFields

/-- The shared part of the validators. -/
def create (code : CommandCode) (d : List (String × Json)) : Except String InputFields := do
  let inputRef ← InputRefDto.field (Json.field d "inputRef")
  let sourceConstantRef ← RuntimeValueRefDto.field (Json.field d "sourceConstantRef")
  match coerceInputRef inputRef sourceConstantRef with
  | some inputRef => return { inputRef, sourceConstantRef }
  | none => .error s!"inputRef is required for {code.value}."

end InputFields

/-- `SendMessageQueueConfigurationCommandDto`. -/
structure SendMessageQueueConfigurationCommandDto extends InputFields where
  keys : CommandKeys
  queueId : String
  messageTemplate : Option SendMessageTemplateDto
  templateId : Option String
  templateParams : Option (List (String × Json))
  resultConstant : Option ResultConstantDto

namespace SendMessageQueueConfigurationCommandDto

/-- The class. -/
def create (d : List (String × Json)) : Except String SendMessageQueueConfigurationCommandDto := do
  let queueId ← strField (Json.field d "queue_id")
  let messageTemplate ← SendMessageTemplateDto.field (Json.field d "message_template")
  let templateId ← optStrField (Json.field d "template_id")
  let templateParams ← optDictField (Json.field d "template_params")
  let resultConstant ← ResultConstantDto.field (Json.field d "resultConstant")
  let keys ← CommandKeys.create d (.str CommandCode.sendMessageQueue.value) .action
  return { toInputFields := ← InputFields.create .sendMessageQueue d, keys, queueId,
           messageTemplate, templateId, templateParams, resultConstant }

def modelDump (c : SendMessageQueueConfigurationCommandDto) : List (String × Json) :=
  c.keys.modelDump ++
    [("queue_id", .str c.queueId), ("inputRef", c.inputRef.modelDump),
     ("sourceConstantRef", dumpOption RuntimeValueRefDto.modelDump c.sourceConstantRef),
     ("message_template", dumpOption SendMessageTemplateDto.modelDump c.messageTemplate),
     ("template_id", .ofOption c.templateId),
     ("template_params", dumpOption Json.obj c.templateParams),
     ("resultConstant", dumpOption ResultConstantDto.modelDump c.resultConstant)]

end SendMessageQueueConfigurationCommandDto

/-- `SaveTableConfigurationCommandDto`. -/
structure SaveTableConfigurationCommandDto extends InputFields where
  keys : CommandKeys
  tableName : String
  resultConstant : Option ResultConstantDto

namespace SaveTableConfigurationCommandDto

/-- The class. -/
def create (d : List (String × Json)) : Except String SaveTableConfigurationCommandDto := do
  let tableName ← strField (Json.field d "table_name")
  let resultConstant ← ResultConstantDto.field (Json.field d "resultConstant")
  let keys ← CommandKeys.create d (.str CommandCode.saveTable.value) .action
  return { toInputFields := ← InputFields.create .saveTable d, keys, tableName, resultConstant }

def modelDump (c : SaveTableConfigurationCommandDto) : List (String × Json) :=
  c.keys.modelDump ++
    [("table_name", .str c.tableName), ("inputRef", c.inputRef.modelDump),
     ("sourceConstantRef", dumpOption RuntimeValueRefDto.modelDump c.sourceConstantRef),
     ("resultConstant", dumpOption ResultConstantDto.modelDump c.resultConstant)]

end SaveTableConfigurationCommandDto

/-- The modes of an `exportDataset`. -/
inductive ExportMode where
  | append
  | dropCreate
  | insertUpdate
deriving DecidableEq

namespace ExportMode

def value : ExportMode → String
  | .append => "append"
  | .dropCreate => "drop-create"
  | .insertUpdate => "insert-update"

/-- The normalisation and the check of `validate_configuration`. -/
def create (mode : String) : Except String ExportMode :=
  let normalized := lower (replaceChar '_' '-' (strip mode))
  if normalized = "" then .ok .append
  else match [append, dropCreate, insertUpdate].find? fun m => m.value = normalized with
    | some m => .ok m
    | none => .error "mode must be one of: append, drop-create, insert-update."

@[simp] theorem create_value (m : ExportMode) : create m.value = .ok m := by
  cases m <;> rfl

end ExportMode

/-- `ExportDatasetConfigurationCommandDto`. -/
structure ExportDatasetConfigurationCommandDto extends InputFields where
  keys : CommandKeys
  connectionId : Option String
  tableName : Option String
  mode : ExportMode
  mappingKeys : Option CompareKeys
  datasetDescription : Option String
  datasetId : Option String
  resultConstant : Option ResultConstantDto

namespace ExportDatasetConfigurationCommandDto

/-- The class. -/
def create (d : List (String × Json)) : Except String ExportDatasetConfigurationCommandDto := do
  let connectionId ← optStrField (Json.field d "connection_id")
  let tableName ← optStrField (Json.field d "table_name")
  let mode ← strField (fieldD d "mode" (.str "append"))
  let mappingKeys ← CompareKeys.field (Json.field d "mapping_keys")
  let datasetDescription ← optStrField (Json.field d "dataset_description")
  let datasetId ← optStrField (Json.field d "dataset_id")
  let resultConstant ← ResultConstantDto.field (Json.field d "resultConstant")
  let keys ← CommandKeys.create d (.str CommandCode.exportDataset.value) .action
  let input ← InputFields.create .exportDataset d
  let mode ← ExportMode.create mode
  return { toInputFields := input, keys, connectionId, tableName, mode, mappingKeys,
           datasetDescription, datasetId, resultConstant }

def modelDump (c : ExportDatasetConfigurationCommandDto) : List (String × Json) :=
  c.keys.modelDump ++
    [("connection_id", .ofOption c.connectionId), ("table_name", .ofOption c.tableName),
     ("inputRef", c.inputRef.modelDump),
     ("sourceConstantRef", dumpOption RuntimeValueRefDto.modelDump c.sourceConstantRef),
     ("mode", .str c.mode.value), ("mapping_keys", CompareKeys.modelDump c.mappingKeys),
     ("dataset_description", .ofOption c.datasetDescription), ("dataset_id", .ofOption c.datasetId),
     ("resultConstant", dumpOption ResultConstantDto.modelDump c.resultConstant)]

end ExportDatasetConfigurationCommandDto

/-! ### Queues, queries and suites -/

/-- `ReceiveQueueConfigurationCommandDto`. -/
structure ReceiveQueueConfigurationCommandDto where
  keys : CommandKeys
  queueId : Token
  maxMessages : ℤ
  retry : ℤ
  waitTimeSeconds : ℤ
  target : Option TargetPath
  resultConstant : Option ResultConstantDto
  maxMessages_pos : 0 < maxMessages
  retry_nonneg : 0 ≤ retry
  waitTimeSeconds_nonneg : 0 ≤ waitTimeSeconds

namespace ReceiveQueueConfigurationCommandDto

/-- The class. -/
def create (d : List (String × Json)) : Except String ReceiveQueueConfigurationCommandDto := do
  let queueId ← strField (Json.field d "queue_id")
  let maxMessages ← intField (fieldD d "max_messages" (.int 1))
  let retry ← intField (fieldD d "retry" (.int 3))
  let waitTimeSeconds ← intField (fieldD d "wait_time_seconds" (.int 1))
  let target ← TargetPath.field (Json.field d "target")
  let resultConstant ← ResultConstantDto.field (Json.field d "resultConstant")
  let keys ← CommandKeys.create d (.str CommandCode.receiveQueue.value) .action
  let queueId ← requireToken "queue_id is required for receiveQueue." queueId
  if hm : maxMessages ≤ 0 then
    .error "max_messages must be greater than zero for receiveQueue."
  else if hr : retry < 0 then
    .error "retry must be greater than or equal to zero for receiveQueue."
  else if hw : waitTimeSeconds < 0 then
    .error "wait_time_seconds must be greater than or equal to zero for receiveQueue."
  else
    return { keys, queueId, maxMessages, retry, waitTimeSeconds, target, resultConstant,
             maxMessages_pos := by omega, retry_nonneg := by omega,
             waitTimeSeconds_nonneg := by omega }

def modelDump (c : ReceiveQueueConfigurationCommandDto) : List (String × Json) :=
  c.keys.modelDump ++
    [("queue_id", .str c.queueId.val), ("max_messages", .int c.maxMessages),
     ("retry", .int c.retry), ("wait_time_seconds", .int c.waitTimeSeconds),
     ("target", .ofOption (c.target.map TargetPath.path)),
     ("resultConstant", dumpOption ResultConstantDto.modelDump c.resultConstant)]

end ReceiveQueueConfigurationCommandDto

/-- `QueryDatabaseConfigurationCommandDto`. -/
structure QueryDatabaseConfigurationCommandDto where
  keys : CommandKeys
  connectionId : Token
  query : Token
  target : Option TargetPath
  resultConstant : Option ResultConstantDto

namespace QueryDatabaseConfigurationCommandDto

/-- The class. -/
def create (d : List (String × Json)) : Except String QueryDatabaseConfigurationCommandDto := do
  let connectionId ← strField (Json.field d "connection_id")
  let query ← strField (Json.field d "query")
  let target ← TargetPath.field (Json.field d "target")
  let resultConstant ← ResultConstantDto.field (Json.field d "resultConstant")
  let keys ← CommandKeys.create d (.str CommandCode.queryDatabase.value) .action
  let connectionId ← requireToken "connection_id is required for queryDatabase." connectionId
  let query ← requireToken "query is required for queryDatabase." query
  return { keys, connectionId, query, target, resultConstant }

def modelDump (c : QueryDatabaseConfigurationCommandDto) : List (String × Json) :=
  c.keys.modelDump ++
    [("connection_id", .str c.connectionId.val), ("query", .str c.query.val),
     ("target", .ofOption (c.target.map TargetPath.path)),
     ("resultConstant", dumpOption ResultConstantDto.modelDump c.resultConstant)]

end QueryDatabaseConfigurationCommandDto

/-- `RunSuiteConfigurationCommandDto`: the legacy references are kept, and stand at
the end of the references too. -/
structure RunSuiteConfigurationCommandDto where
  keys : CommandKeys
  suiteId : Token
  runtimeValueRefs : List RuntimeValueRefDto
  constantRefs : List RuntimeValueRefDto
  resultConstant : Option ResultConstantDto
  constantRefs_suffix : constantRefs <:+ runtimeValueRefs

namespace RunSuiteConfigurationCommandDto

/-- An item declared `RuntimeValueRefDto`. -/
def refItem : Json → Except String RuntimeValueRefDto
  | .obj d => RuntimeValueRefDto.create (Json.field d "definitionId")
  | _ => .error "Input should be a valid dictionary"

/-- A field declared `list[RuntimeValueRefDto]`. -/
def refsField : Json → Except String (List RuntimeValueRefDto)
  | .arr xs => xs.mapM refItem
  | _ => .error "Input should be a valid list"

def dumpRefs (refs : List RuntimeValueRefDto) : Json := .arr (refs.map RuntimeValueRefDto.modelDump)

@[simp] theorem refsField_dumpRefs (refs : List RuntimeValueRefDto) :
    refsField (dumpRefs refs) = .ok refs :=
  mapM_map_ok fun r _ => by
    simp [refItem, RuntimeValueRefDto.modelDump, RuntimeValueRefDto.create, Json.field, strField]

/-- The class. -/
def create (d : List (String × Json)) : Except String RunSuiteConfigurationCommandDto := do
  let suiteId ← strField (Json.field d "suite_id")
  let runtimeValueRefs ← refsField (fieldD d "runtimeValueRefs" (.arr []))
  let constantRefs ← refsField (fieldD d "constantRefs" (.arr []))
  let resultConstant ← ResultConstantDto.field (Json.field d "resultConstant")
  let keys ← CommandKeys.create d (.str CommandCode.runSuite.value) .action
  let suiteId ← requireToken "suite_id is required for runSuite." suiteId
  return { keys, suiteId, runtimeValueRefs := runtimeValueRefs ++ constantRefs, constantRefs,
           resultConstant, constantRefs_suffix := List.suffix_append _ _ }

def modelDump (c : RunSuiteConfigurationCommandDto) : List (String × Json) :=
  c.keys.modelDump ++
    [("suite_id", .str c.suiteId.val), ("runtimeValueRefs", dumpRefs c.runtimeValueRefs),
     ("constantRefs", dumpRefs c.constantRefs),
     ("resultConstant", dumpOption ResultConstantDto.modelDump c.resultConstant)]

end RunSuiteConfigurationCommandDto

/-! ### Assertions -/

/-- The fields that `AssertConfigurationCommandDto` requires for a code: the message
of the check that fails, if one does. -/
def AssertCode.requiredError (code : AssertCode) (expected : Json)
    (expectedRef : Option InputRefDto) (compareKeys : Option CompareKeys) : Option String :=
  let arrayCode := code = .jsonArrayEquals ∨ code = .jsonArrayContains
  if arrayCode ∧ expectedRef = none then
    some "expectedRef is required for jsonArray assert commands."
  else if arrayCode ∧ compareKeys = none then
    some "compare_keys is required for jsonArray assert commands."
  else if code = .jsonContains ∧ expected = .null ∧ expectedRef = none then
    some "expected or expectedRef is required for jsonContains."
  else if code = .jsonContains ∧ compareKeys = none then
    some "compare_keys is required for jsonContains."
  else if code = .jsonEquals ∧ expected = .null ∧ expectedRef = none then
    some "expected or expectedRef is required for jsonEquals."
  else none

/-- `_normalize_path_token(value).lower()`. -/
def normalizeEvaluatedObjectType (value : String) : String :=
  lower (replaceChar '_' '-' (strip value))

@[simp] theorem normalizeEvaluatedObjectType_idem (value : String) :
    normalizeEvaluatedObjectType (normalizeEvaluatedObjectType value)
      = normalizeEvaluatedObjectType value := by
  have hgone := underscore_not_mem_lower
    (not_mem_replaceChar (a := '_') (b := '-') (by decide) (strip value))
  have hstrip : strip (normalizeEvaluatedObjectType value) = normalizeEvaluatedObjectType value := by
    rw [normalizeEvaluatedObjectType, strip_lower, strip_replaceChar (by decide) (by decide),
      strip_strip]
  rw [normalizeEvaluatedObjectType, hstrip, normalizeEvaluatedObjectType,
    replaceChar_of_not_mem hgone, lower_lower]

/-- `AssertConfigurationCommandDto`. -/
structure AssertConfigurationCommandDto where
  code : AssertCode
  commandType : CommandType
  errorMessage : Option String
  evaluatedObjectType : String
  actualRef : InputRefDto
  actualConstantRef : Option RuntimeValueRefDto
  expected : Json
  expectedRef : Option InputRefDto
  expectedJsonArrayId : Option String
  compareKeys : Option CompareKeys
  jsonSchema : Option (List (String × Json))
  evaluatedObjectType_normal :
    normalizeEvaluatedObjectType evaluatedObjectType = evaluatedObjectType
  required : code.requiredError expected expectedRef compareKeys = none

namespace AssertConfigurationCommandDto

/-- `expectedRef`, or the source that `expected_json_array_id` names. -/
def resolveExpectedRef (expectedRef : Option InputRefDto) (expectedJsonArrayId : Option String) :
    Option InputRefDto :=
  expectedRef <|> (Token.ofString? (expectedJsonArrayId.getD "")).map .source

/-- The end of `validate_configuration`: the fields the code requires. -/
def checkRequired (code : AssertCode) (commandType : CommandType) (errorMessage : Option String)
    (evaluatedObjectType : String) (actualRef : InputRefDto)
    (actualConstantRef : Option RuntimeValueRefDto) (expected : Json)
    (expectedRef : Option InputRefDto) (expectedJsonArrayId : Option String)
    (compareKeys : Option CompareKeys) (jsonSchema : Option (List (String × Json))) :
    Except String AssertConfigurationCommandDto :=
  match required : code.requiredError expected expectedRef compareKeys with
  | some e => .error e
  | none => .ok
      { code, commandType, errorMessage,
        evaluatedObjectType := normalizeEvaluatedObjectType evaluatedObjectType,
        actualRef, actualConstantRef, expected, expectedRef, expectedJsonArrayId, compareKeys,
        jsonSchema, evaluatedObjectType_normal := normalizeEvaluatedObjectType_idem _, required }

/-- The class. -/
def create (d : List (String × Json)) : Except String AssertConfigurationCommandDto := do
  let errorMessage ← optStrField (Json.field d "error_message")
  let evaluatedObjectType ← strField (fieldD d "evaluated_object_type" (.str "json-data"))
  let actualRef ← InputRefDto.field (Json.field d "actualRef")
  let actualConstantRef ← RuntimeValueRefDto.field (Json.field d "actualConstantRef")
  let expectedRef ← InputRefDto.field (Json.field d "expectedRef")
  let expectedJsonArrayId ← optStrField (Json.field d "expected_json_array_id")
  let compareKeys ← CompareKeys.field (Json.field d "compare_keys")
  let jsonSchema ← optDictField (Json.field d "json_schema")
  let keys ← CommandKeys.create d .null .assert
  match AssertCode.ofString? keys.commandCode, coerceInputRef actualRef actualConstantRef with
  | none, _ => .error "Unsupported assert commandCode."
  | some _, none => .error "actualRef is required for assert commands."
  | some code, some actualRef =>
    checkRequired code keys.commandType errorMessage evaluatedObjectType actualRef
      actualConstantRef (Json.field d "expected")
      (resolveExpectedRef expectedRef expectedJsonArrayId) expectedJsonArrayId compareKeys
      jsonSchema

/-- The fields of an assertion pass the checks it has passed. -/
theorem checkRequired_fields (c : AssertConfigurationCommandDto) :
    checkRequired c.code c.commandType c.errorMessage c.evaluatedObjectType c.actualRef
      c.actualConstantRef c.expected c.expectedRef c.expectedJsonArrayId c.compareKeys
      c.jsonSchema = .ok c := by
  unfold checkRequired
  split
  · rename_i e he
    rw [c.required] at he
    simp at he
  · simp only [c.evaluatedObjectType_normal]

theorem checkRequired_eq_ok {code : AssertCode} {commandType : CommandType}
    {errorMessage : Option String} {evaluatedObjectType : String} {actualRef : InputRefDto}
    {actualConstantRef : Option RuntimeValueRefDto} {expected : Json}
    {expectedRef : Option InputRefDto} {expectedJsonArrayId : Option String}
    {compareKeys : Option CompareKeys} {jsonSchema : Option (List (String × Json))}
    {c : AssertConfigurationCommandDto}
    (h : checkRequired code commandType errorMessage evaluatedObjectType actualRef
      actualConstantRef expected expectedRef expectedJsonArrayId compareKeys jsonSchema = .ok c) :
    c.errorMessage = errorMessage ∧
      c.evaluatedObjectType = normalizeEvaluatedObjectType evaluatedObjectType ∧
      c.actualConstantRef = actualConstantRef ∧ c.expected = expected ∧
      c.expectedJsonArrayId = expectedJsonArrayId := by
  unfold checkRequired at h
  split at h
  · simp at h
  · obtain rfl := Except.ok.inj h
    exact ⟨rfl, rfl, rfl, rfl, rfl⟩

def modelDump (c : AssertConfigurationCommandDto) : List (String × Json) :=
  [("commandCode", .str c.code.value), ("commandType", .str c.commandType.value),
   ("error_message", .ofOption c.errorMessage),
   ("evaluated_object_type", .str c.evaluatedObjectType), ("actualRef", c.actualRef.modelDump),
   ("actualConstantRef", dumpOption RuntimeValueRefDto.modelDump c.actualConstantRef),
   ("expected", c.expected),
   ("expectedRef", dumpOption InputRefDto.modelDump c.expectedRef),
   ("expected_json_array_id", .ofOption c.expectedJsonArrayId),
   ("compare_keys", CompareKeys.modelDump c.compareKeys),
   ("json_schema", dumpOption Json.obj c.jsonSchema)]

/-- `assert_type`. -/
def assertType (c : AssertConfigurationCommandDto) : String :=
  match c.code with
  | .jsonEquals => "equals"
  | .jsonEmpty => "empty"
  | .jsonNotEmpty => "not-empty"
  | .jsonContains => "contains"
  | .jsonArrayEquals => "json-array-equals"
  | .jsonArrayEmpty => "empty"
  | .jsonArrayNotEmpty => "not-empty"
  | .jsonArrayContains => "json-array-contains"

end AssertConfigurationCommandDto

/-! ### The union -/

/-- `ConfigurationCommandTypes`. -/
inductive ConfigurationCommandDto where
  | setVariable (c : SetVariableConfigurationCommandDto)
  | deleteVariable (c : DeleteVariableConfigurationCommandDto)
  | sleep (c : SleepConfigurationCommandDto)
  | readApi (c : ReadApiConfigurationCommandDto)
  | writeApi (c : WriteApiConfigurationCommandDto)
  | sendMessageQueue (c : SendMessageQueueConfigurationCommandDto)
  | saveTable (c : SaveTableConfigurationCommandDto)
  | dropTable (c : NamedConfigurationCommandDto)
  | cleanTable (c : NamedConfigurationCommandDto)
  | exportDataset (c : ExportDatasetConfigurationCommandDto)
  | dropDataset (c : NamedConfigurationCommandDto)
  | cleanDataset (c : NamedConfigurationCommandDto)
  | receiveQueue (c : ReceiveQueueConfigurationCommandDto)
  | queryDatabase (c : QueryDatabaseConfigurationCommandDto)
  | runSuite (c : RunSuiteConfigurationCommandDto)
  | assert (c : AssertConfigurationCommandDto)

namespace ConfigurationCommandDto

/-- `dto.model_dump()`. -/
def modelDump : ConfigurationCommandDto → List (String × Json)
  | .setVariable c => c.modelDump
  | .deleteVariable c => c.modelDump
  | .sleep c => c.modelDump
  | .readApi c => c.modelDump
  | .writeApi c => c.modelDump
  | .sendMessageQueue c => c.modelDump
  | .saveTable c => c.modelDump
  | .dropTable c => c.modelDump "table_name"
  | .cleanTable c => c.modelDump "table_name"
  | .exportDataset c => c.modelDump
  | .dropDataset c => c.modelDump "dataset_id"
  | .cleanDataset c => c.modelDump "dataset_id"
  | .receiveQueue c => c.modelDump
  | .queryDatabase c => c.modelDump
  | .runSuite c => c.modelDump
  | .assert c => c.modelDump

/-- `dto.commandCode`. -/
def commandCode : ConfigurationCommandDto → String
  | .setVariable c => c.keys.commandCode
  | .deleteVariable c => c.keys.commandCode
  | .sleep c => c.keys.commandCode
  | .readApi c => c.keys.commandCode
  | .writeApi c => c.keys.commandCode
  | .sendMessageQueue c => c.keys.commandCode
  | .saveTable c => c.keys.commandCode
  | .dropTable c | .cleanTable c | .dropDataset c | .cleanDataset c => c.keys.commandCode
  | .exportDataset c => c.keys.commandCode
  | .receiveQueue c => c.keys.commandCode
  | .queryDatabase c => c.keys.commandCode
  | .runSuite c => c.keys.commandCode
  | .assert c => c.code.value

/-- `dto.commandType`. -/
def commandType : ConfigurationCommandDto → CommandType
  | .setVariable c => c.keys.commandType
  | .deleteVariable c => c.keys.commandType
  | .sleep c => c.keys.commandType
  | .readApi c => c.keys.commandType
  | .writeApi c => c.keys.commandType
  | .sendMessageQueue c => c.keys.commandType
  | .saveTable c => c.keys.commandType
  | .dropTable c | .cleanTable c | .dropDataset c | .cleanDataset c => c.keys.commandType
  | .exportDataset c => c.keys.commandType
  | .receiveQueue c => c.keys.commandType
  | .queryDatabase c => c.keys.commandType
  | .runSuite c => c.keys.commandType
  | .assert c => c.commandType

/-- `dto.inputRef`, for the classes that have one. -/
def inputRef? : ConfigurationCommandDto → Option InputRefDto
  | .sendMessageQueue c => some c.inputRef
  | .saveTable c => some c.inputRef
  | .exportDataset c => some c.inputRef
  | _ => none

/-- `dto.actualRef`, for the class that has one. -/
def actualRef? : ConfigurationCommandDto → Option InputRefDto
  | .assert c => some c.actualRef
  | _ => none

/-- `dto.expectedRef`, for the class that has one. -/
def expectedRef? : ConfigurationCommandDto → Option InputRefDto
  | .assert c => c.expectedRef
  | _ => none

end ConfigurationCommandDto

end Command
end QualityFlow
