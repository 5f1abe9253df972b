/-
# What a command does

The executors of `app/elaborations/services/operations/`, one for each command, and
`execute_operation` of `command_executor_composite.py` beside them, which chooses among them.

An executor reads of the run what its configuration names, acts on the tables, the queues and
the services, and writes to the context of the run.  A computation that asks says in which
order: each action is a question, and what comes back from the outside its answer.  The
context of the run is the state of a handler, which reads and writes it as the source does;
what a reference that is found leads to, and every other answer, is left to the outside, which
may answer as it likes at each time.

The log is left out, and so are the types of the columns of a table that is made.
-/

import QualityFlow.Assert.Evaluators
import QualityFlow.Broker.Receive
import QualityFlow.Context.Isolation
import QualityFlow.Py.Handled
import QualityFlow.Suite.Reading

namespace QualityFlow
namespace Suite

open Py Command Assert
open Asks (ofExcept)
open Context (RunContext)

/-! ### Actions -/

/-- A response, as `HttpOperationExecutor` takes it apart. -/
structure HttpResponse where
  url : String
  status : ℤ
  headers : List (String × Json)
  body : Json
  elapsedMs : ℤ
  ok : Bool

/-- What comes back from `requests.request`; a timeout with its text in seconds. -/
inductive HttpAnswer where
  | timeout (after : String)
  | exception (text : String)
  | response (r : HttpResponse)

/-- What is done to a table. -/
inductive TableStatement where
  | drop
  | clean
  | ensure (sampleRow : List (String × Json))
  | insert (rows : List Row)
  | deleteAndInsert (keys : List String) (rows : List Row)

/-- What an executor asks, and what it does. -/
inductive Action where
  | read (q : Question)
  /-- `write_context_path`. -/
  | write (path : String) (value : Json)
  /-- `remove_context_path`. -/
  | remove (path : String)
  /-- `append_assert_artifact`. -/
  | appendArtifact (artifact : AssertArtifact)
  | sleep (seconds : ℤ)
  | request (method : String) (bodyType : Option HttpBodyType) (timeout : Option Timeout)
    (kwargs : RequestKwargs)
  /-- `QueueService().get_by_id` and the connection of its broker: the code of the queue. -/
  | queue (queueId : String)
  /-- `build_send_message_payloads`, made safe for JSON. -/
  | payloads (inputData : Json) (sourceType : String) (template : Option SendMessageTemplateDto)
  | publish (queueId : String) (messages : List Json)
  /-- `receive_messages`, by the number of the call and the number of messages. -/
  | polls (queueId : String)
  /-- The connection of an id, with its schema. -/
  | connection (connectionId : String)
  | query (connectionId query : String)
  /-- A statement on a table of a connection, or of the tenant's own database. -/
  | statement (connectionId : Option String) (table : String) (statement : TableStatement)
  /-- The connection and the table of a dataset. -/
  | datasetTable (datasetId : String)
  | deleteDataset (datasetId : String)
  /-- `update` of a dataset, or `insert` of a new one: its id. -/
  | saveDataset (datasetId : Option String) (description : String) (payload : List (String × Json))
  /-- `execute_test_suite_by_id`: the id of the execution. -/
  | startSuite (suiteId : String) (constants : List (String × Json))

/-- The answers to an action. -/
abbrev Action.Answer : Action → Type
  | .read q => q.Answer
  | .write _ _ | .remove _ | .sleep _ | .publish _ _ | .statement _ _ _ | .deleteDataset _ =>
    Except String Unit
  | .appendArtifact _ => Unit
  | .request _ _ _ _ => HttpAnswer
  | .queue _ | .connection _ | .saveDataset _ _ _ | .startSuite _ _ => Except String String
  | .payloads _ _ _ | .query _ _ => Except String (List Json)
  | .polls _ => ℕ → ℤ → Except String (List Json)
  | .datasetTable _ => Except String (String × String)

/-- A computation of an executor that acts. -/
abbrev Acting := Asks Action.Answer

/-- What is read, as a part of what is done. -/
def reading {α : Type} : Reading α → Acting α :=
  Asks.within fun q => Asks.question (Action.read q)

/-- An action that may raise. -/
def act {α : Type} (a : Action) (h : a.Answer = Except String α) : Acting α :=
  .ask a fun answer => ofExcept (h ▸ answer)

def write (path : String) (value : Json) : Acting Unit := act (.write path value) rfl

def remove (path : String) : Acting Unit := act (.remove path) rfl

def statement (connectionId : Option String) (table : String) (s : TableStatement) : Acting Unit :=
  act (.statement connectionId table s) rfl

/-- What is not read of the run but known beforehand: what the evaluators call, and
`json.loads`. -/
structure Library where
  services : Services
  loads : String → Except String Json

/-! ### Results -/

/-- `write_result_constant`. -/
def writeResultConstant (resultConstant : Option ResultConstantDto) (value : Json) : Acting Unit :=
  match resultConstant with
  | none => return ()
  | some r => do
    let (_, path) ← reading (resolveDefinitionPath r.definitionId.val)
    write path value

/-- The result of a command: its data, and a message with some more fields. -/
def resultOf (data : Json) (message : String) (fields : List (String × Json)) :
    ExecutionResultDto where
  data := data
  result := [.obj (("message", .str message) :: fields)]

/-! ### The executors of constants -/

/-- `_load_value` of `DataOperationExecutor`. -/
def loadValue : VariableValue → Acting Json
  | .value v | .json v => return v
  | .function f => reading (Asks.question (Question.clock f.value))
  | v => .raised s!"Unsupported valueType '{v.valueType.text}' for setVariable."

/-- `DataOperationExecutor`. -/
def executeSetVariable (c : SetVariableConfigurationCommandDto) : Acting ExecutionResultDto := do
  let resolvedValue ← loadValue c.value
  write (constantPath c.context c.name) resolvedValue
  return resultOf resolvedValue
    s!"Initialized constant '{c.name.val}' in context '{c.context.value}'."
    [("name", .str c.name.val), ("context", .str c.context.value),
     ("valueType", .str c.value.valueType.text)]

/-- `DeleteConstantOperationExecutor`. -/
def executeDeleteVariable (c : DeleteVariableConfigurationCommandDto) (data : Json) :
    Acting ExecutionResultDto := do
  let (definition, targetPath) ←
    reading (resolveDefinitionPath c.targetRuntimeValueRef.definitionId.val)
  remove targetPath
  return resultOf data
    (s!"Deleted constant '{definition.name}' from context "
      ++ s!"'{definition.contextScope.value}'.")
    [("name", .str definition.name), ("context", .str definition.contextScope.value)]

/-- `SleepOperationExecutor`. -/
def executeSleep (c : SleepConfigurationCommandDto) (data : Json) : Acting ExecutionResultDto := do
  act (.sleep c.duration) rfl
  return resultOf data s!"Slept for {c.duration} second(s)." []

/-! ### The executor of requests -/

/-- The envelope of a response. -/
def envelope (method url : String) (r : HttpResponse) : List (String × Json) :=
  [("method", .str method), ("url", .str (if r.url = "" then url else r.url)),
   ("status", .int r.status), ("headers", .obj r.headers), ("body", r.body),
   ("elapsed_ms", .int r.elapsedMs), ("ok", .bool r.ok)]

/-- What `HttpOperationExecutor` does with what comes back. -/
def executeResponse (resultConstant : Option ResultConstantDto) (method url : String)
    (data : Json) : HttpAnswer → Acting ExecutionResultDto
  | .timeout after => .raised s!"HTTP {method} {url} timed out after {after}s."
  | .exception text => .raised s!"HTTP {method} {url} failed: {text}"
  | .response r => do
    let envelope := envelope method url r
    writeResultConstant resultConstant (.obj envelope)
    let shown := if r.url = "" then url else r.url
    let message := s!"HTTP {method} {shown} returned status {r.status}."
    if r.ok then return resultOf data message envelope else .raised message

/-- `HttpOperationExecutor`. -/
def executeHttp (fields : HttpRequestFields) (method : String) (body : Option HttpBody)
    (data : Json) : Acting ExecutionResultDto := do
  let kwargs ← reading (requestKwargs fields body)
  let url := strip kwargs.url
  if url = "" then .raised "url must resolve to a non-empty string."
  else do
    let answer ← Asks.question
      (Action.request method (body.map HttpBody.bodyType) fields.timeoutSeconds kwargs)
    executeResponse fields.resultConstant method url data answer

/-! ### The executors of queues -/

/-- `PublishToQueueOperationExecutor`. -/
def executeSendMessageQueue (c : SendMessageQueueConfigurationCommandDto) (data : Json) :
    Acting ExecutionResultDto := do
  let code ← act (.queue c.queueId) rfl
  let (inputData, inputType) ← reading (resolveInputReference (some c.inputRef) data)
  let msg ← act (.payloads inputData inputType c.messageTemplate) rfl
  act (.publish c.queueId msg) rfl
  writeResultConstant c.resultConstant
    (.obj [("queue_id", .str c.queueId), ("queue_code", .str code),
      ("published", .int msg.length), ("renderedPayloads", .arr msg)])
  return resultOf inputData s!"Published {msg.length} message(s) to queue '{code}'" []

/-- `if cfg.target: write_context_path(cfg.target, rows)`. -/
def writeTarget (target : Option TargetPath) (rows : List Json) : Acting Unit :=
  match target with
  | none => return ()
  | some target => write target.path (.arr rows)

/-- `ReceiveQueueOperationExecutor`. -/
def executeReceiveQueue (library : Library) (c : ReceiveQueueConfigurationCommandDto) :
    Acting ExecutionResultDto := do
  let code ← act (.queue c.queueId.val) rfl
  let receive ← Asks.question (Action.polls c.queueId.val)
  let polling := Broker.receiveMessages receive c.maxMessages c.retry
  match polling.raised with
  | some e => .raised e
  | none => do
    let rows ← ofExcept (Broker.receivedRows library.loads polling.collected)
    writeTarget c.target rows
    return resultOf (.arr rows) s!"Loaded {rows.length} row(s) from queue '{code}'." []

/-! ### The executors of tables -/

/-- `QueryDatabaseOperationExecutor`. -/
def executeQueryDatabase (c : QueryDatabaseConfigurationCommandDto) :
    Acting ExecutionResultDto := do
  let _ ← act (.connection c.connectionId.val) rfl
  let rows ← act (.query c.connectionId.val c.query.val) rfl
  writeTarget c.target rows
  return resultOf (.arr rows)
    s!"Query on connection '{c.connectionId.val}' returned {rows.length} row(s)." []

/-- `coerce_rows`. -/
def coerceRows : Json → List Row
  | .arr items => items.filterMap fun
    | .obj row => some row
    | _ => none
  | .obj row => [row]
  | _ => []

/-- `sample_row`. -/
def sampleRow (rows : List Row) : List (String × Json) := rows.foldl Dict.update []

/-- `SaveInternalDbOperationExecutor`. -/
def executeSaveTable (c : SaveTableConfigurationCommandDto) (data : Json) :
    Acting ExecutionResultDto := do
  let (inputData, _) ← reading (resolveInputReference (some c.inputRef) data)
  let rows := coerceRows inputData
  if rows = [] then return resultOf inputData s!"No data to insert into {c.tableName} table" []
  else do
    statement none c.tableName (.ensure (sampleRow rows))
    statement none c.tableName (.insert rows)
    writeResultConstant c.resultConstant
      (.obj [("table_name", .str c.tableName), ("inserted_rows", .int rows.length)])
    return resultOf inputData s!"Created {rows.length} rows in {c.tableName} table" []

/-- `DropTableOperationExecutor`. -/
def executeDropTable (c : NamedConfigurationCommandDto) (data : Json) :
    Acting ExecutionResultDto := do
  statement none c.name .drop
  return resultOf data s!"Dropped internal table '{c.name}'." [("table_name", .str c.name)]

/-- `CleanTableOperationExecutor`. -/
def executeCleanTable (c : NamedConfigurationCommandDto) (data : Json) :
    Acting ExecutionResultDto := do
  statement none c.name .clean
  return resultOf data s!"Cleaned internal table '{c.name}'." [("table_name", .str c.name)]

/-! ### The executors of datasets -/

/-- `DropDatasetOperationExecutor`. -/
def executeDropDataset (c : NamedConfigurationCommandDto) (data : Json) :
    Acting ExecutionResultDto := do
  let (connectionId, table) ← act (.datasetTable c.name) rfl
  statement (some connectionId) table .drop
  act (.deleteDataset c.name) rfl
  return resultOf data s!"Dropped dataset '{c.name}' and table '{table}'."
    [("dataset_id", .str c.name)]

/-- `CleanDatasetOperationExecutor`. -/
def executeCleanDataset (c : NamedConfigurationCommandDto) (data : Json) :
    Acting ExecutionResultDto := do
  let (connectionId, table) ← act (.datasetTable c.name) rfl
  statement (some connectionId) table .clean
  return resultOf data s!"Cleaned dataset '{c.name}' table '{table}'."
    [("dataset_id", .str c.name)]

/-- The statements of an export, by its mode. -/
def exportRows (c : ExportDatasetConfigurationCommandDto) (connectionId table : String)
    (rows : List Row) : Acting Unit := do
  if c.mode = .dropCreate then statement (some connectionId) table .drop
  statement (some connectionId) table (.ensure (sampleRow rows))
  match c.mode, c.mappingKeys with
  | .insertUpdate, some keys =>
    statement (some connectionId) table (.deleteAndInsert (keys.keys.map Token.val) rows)
  | mode, _ => do
    if mode = .dropCreate then statement (some connectionId) table (.ensure (sampleRow rows))
    statement (some connectionId) table (.insert rows)

/-- The payload of the dataset of an export; a table name may hold the schema. -/
def datasetPayload (connectionId tableName dbSchema : String) : List (String × Json) :=
  let cut := tableName.toList.takeWhile (· ≠ '.')
  let dotted := '.' ∈ tableName.toList
  let schema := if dotted then String.ofList cut else dbSchema
  let object := if dotted then String.ofList (tableName.toList.drop (cut.length + 1)) else tableName
  [("connection_id", .str connectionId), ("object_name", .str object),
   ("object_type", .str "table")] ++ if schema = "" then [] else [("schema", .str schema)]

/-- `SaveToExternalDbOperationExecutor`. -/
def executeExportDataset (c : ExportDatasetConfigurationCommandDto) (data : Json) :
    Acting ExecutionResultDto := do
  let connectionId := strip (c.connectionId.getD "")
  let tableName := strip (c.tableName.getD "")
  let (inputData, _) ← reading (resolveInputReference (some c.inputRef) data)
  let rows := coerceRows inputData
  if connectionId = "" then .raised "exportDataset requires connection_id."
  else if tableName = "" then .raised "exportDataset requires table_name."
  else do
    let dbSchema ← act (.connection connectionId) rfl
    if rows = [] then return resultOf inputData s!"No data to insert into {tableName} table" []
    else do
      exportRows c connectionId tableName rows
      let description := c.datasetDescription.getD ""
      let datasetId ← act (.saveDataset (c.datasetId.filter (· ≠ ""))
        (if description = "" then tableName else description)
        (datasetPayload connectionId tableName dbSchema)) rfl
      writeResultConstant c.resultConstant
        (.obj [("table_name", .str tableName), ("inserted_rows", .int rows.length),
          ("connection_id", .str connectionId), ("dataset_id", .str datasetId),
          ("mode", .str c.mode.value)])
      return resultOf inputData s!"Created {rows.length} rows in {tableName} table" []

/-! ### The executors of suites and assertions -/

/-- `RunSuiteOperationExecutor`. -/
def executeRunSuite (c : RunSuiteConfigurationCommandDto) (data : Json) :
    Acting ExecutionResultDto := do
  let constants ← reading (runSuiteConstants c.runtimeValueRefs)
  let payload : List (String × Json) := Dict.update [] constants
  let executionId ← act (.startSuite c.suiteId.val payload) rfl
  let result := [("suite_id", .str c.suiteId.val), ("execution_id", .str executionId),
    ("constants", .obj payload)]
  writeResultConstant c.resultConstant (.obj result)
  return resultOf data
    s!"Test suite '{c.suiteId.val}' started with execution_id '{executionId}'" result

/-- `AssertOperationExecutor`. -/
def executeAssert (library : Library) (operationId : String) (c : AssertConfigurationCommandDto)
    (data : Json) : Acting ExecutionResultDto := do
  let (actual, expected) ← reading (assertOperands c data)
  match evaluateAssert library.services c (dataToEvaluate actual data) actual expected with
  | .error technicalMessage => do
    Asks.question (Action.appendArtifact
      { commandId := operationId, assertType := c.assertType, status := "failed", actual, expected,
        error := some technicalMessage })
    let configuredMessage := strip (c.errorMessage.getD "")
    .raised (if configuredMessage = "" then technicalMessage else configuredMessage)
  | .ok () => do
    Asks.question (Action.appendArtifact
      { commandId := operationId, assertType := c.assertType, status := "passed", actual, expected,
        error := none })
    return resultOf data
      (s!"Assert '{c.code.value}' passed for " ++ s!"'{c.evaluatedObjectType}' data.") []

/-- `execute_operation`. -/
def executeOperation (library : Library) (operationId : String) (data : Json) :
    ConfigurationCommandDto → Acting ExecutionResultDto
  | .setVariable c => executeSetVariable c
  | .deleteVariable c => executeDeleteVariable c data
  | .sleep c => executeSleep c data
  | .readApi c => executeHttp c.toHttpRequestFields "GET" none data
  | .writeApi c => executeHttp c.toHttpRequestFields c.method.value (some c.body) data
  | .sendMessageQueue c => executeSendMessageQueue c data
  | .saveTable c => executeSaveTable c data
  | .dropTable c => executeDropTable c data
  | .cleanTable c => executeCleanTable c data
  | .exportDataset c => executeExportDataset c data
  | .dropDataset c => executeDropDataset c data
  | .cleanDataset c => executeCleanDataset c data
  | .receiveQueue c => executeReceiveQueue library c
  | .queryDatabase c => executeQueryDatabase c
  | .runSuite c => executeRunSuite c data
  | .assert c => executeAssert library operationId c data

/-! ### The context, and the outside -/

/-- The context of a run, and what has been asked and done so far, each with its answer. -/
structure World where
  context : RunContext
  heap : Heap
  record : List ((a : Action) × a.Answer)

/-- The outside: what it answers may depend on all that has been asked and done. -/
abbrev Outside := World → (a : Action) → a.Answer

/-- `append_assert_artifact`, where the artifact is a value already. -/
def appendAssertArtifact (c : RunContext) (h : Heap) (artifact : Val) : Heap :=
  let (h, artifacts) :=
    if h.isDict (h.field c.resultScope "artifacts") then (h, h.field c.resultScope "artifacts")
    else
      let (h, l) := h.alloc (.dict [])
      (h.setItem c.resultScope (.name "artifacts") (.ref l), .ref l)
  match artifacts with
  | .ref l =>
    match h.obj? (h.field l "asserts") with
    | some (.list _) =>
      match h.field l "asserts" with
      | .ref items => h.append items artifact
      | _ => h
    | _ =>
      let (h, items) := h.alloc (.list [])
      (h.setItem l (.name "asserts") (.ref items)).append items artifact
  | _ => h

/-- An artifact as a value. -/
def artifactJson (a : AssertArtifact) : Json :=
  .obj ([("command_id", .str a.commandId), ("assert_type", .str a.assertType),
    ("status", .str a.status), ("actual", a.actual), ("expected", a.expected)] ++
    match a.error with
    | some error => [("error", .str error)]
    | none => [])

namespace World

/-- The answer to an action, and the heap after it. -/
def perform (outside : Outside) (w : World) : (a : Action) → Heap × a.Answer
  | .write path value =>
    let (h, v) := w.heap.ofJson value
    Context.writeContextPath w.context h path v
  | .remove path => Context.removeContextPath w.context w.heap path
  | .appendArtifact artifact =>
    let (h, v) := w.heap.ofJson (artifactJson artifact)
    (appendAssertArtifact w.context h v, ())
  | .read (.constant definitionId path) =>
    match Context.resolveIn w.context w.heap path with
    | (h, .error e) => (h, .error e)
    | (h, .ok none) => (h, .ok (.str path))
    | (h, .ok (some _)) => (h, outside w (.read (.constant definitionId path)))
  | a => (w.heap, outside w a)

/-- One action. -/
def answer (outside : Outside) (w : World) (a : Action) : World × a.Answer :=
  let (heap, answer) := w.perform outside a
  ({ w with heap, record := w.record ++ [⟨a, answer⟩] }, answer)

theorem answer_snd (outside : Outside) (w : World) (a : Action) :
    (w.answer outside a).2 = (w.perform outside a).2 := rfl

/-- What a computation leaves of a run, and what it returns or raises. -/
def run {α : Type} (outside : Outside) (w : World) (x : Acting α) : World × Except String α :=
  x.handle (answer outside) w

end World

end Suite
end QualityFlow
