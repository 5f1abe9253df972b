/-
# The events of a run and its live view

The events that `_execute`, `_execute_item` and `execute_operations` publish on the bus of an
execution, and what `_apply_event` of the user interface makes of them.

A run is put together from the loop over the items and the loop over the commands of an item.
Between the start and the end of an item stand the events of its commands, and anywhere the
texts of its log.  The engine publishes `command_finished` with a `command_id`, and the view
waits for `operation_finished` with an `operation_id`: so the items and the suite are followed,
and the commands are not.
-/

import QualityFlow.Suite.Execute
import QualityFlow.Suite.Steps
import QualityFlow.Suite.Update
import QualityFlow.Ui.ExecutionStream

namespace QualityFlow
namespace Suite

open Py Command Ui

/-! ### The engine -/

/-- An item that has been executed: its outcome, the commands it has, and what they have
published. -/
structure ItemCall where
  item : SuiteItemEntity
  outcome : Except String (List Json)
  operations : List StoredOperation
  commands : List CommandFinished

/-- What a run changes: the executors' own state, the rows of the commands, and the record of
the items. -/
structure Engine (σ : Type) where
  env : σ
  tables : Tables
  calls : List ItemCall

/-- What the execution of an item goes to: the executors of its commands, the commands that
are stored for it, and the contexts that are bound before it and left after it; and the run
context as it is written in the end. -/
structure ItemServices (σ τ : Type) where
  executors : Executors σ
  operations : σ → SuiteItemEntity → List StoredOperation
  enter : σ → SuiteItemEntity → τ → Dict String (List (String × Json)) → σ
  leave : σ → SuiteItemEntity → Option Json → σ
  newLocals : σ → σ × τ
  resetLocal : σ → σ
  serializeRunContext : σ → Option JsonUtils.PyObject
  takesJson : String → Bool

/-- The ids of an execution; a row of an item is numbered by its place among them, and one of
a command by the row of the item and its place among the commands. -/
structure RunIds where
  executionId : Token
  testSuiteExecutionId : Token
  suiteItemExecutionId : ℕ → Token
  suiteItemOperationExecutionId : ℕ → ℕ → Token

section

variable {σ τ : Type}

/-- Executors that keep a record of what is published. -/
def recording (executors : Executors σ) : Executors (σ × List CommandFinished) where
  executeOperation s id cfg data :=
    let (env, result) := executors.executeOperation s.1 id cfg data
    ((env, s.2), result)
  publishResult s event :=
    match executors.publishResult s.1 event with
    | (env, .ok ()) => ((env, s.2 ++ [event]), .ok ())
    | (env, .error e) => ((env, s.2), .error e)
  publishError s event := (executors.publishError s.1 event, s.2 ++ [event])

/-- The ids that are bound while an item is executed. -/
def RunIds.bound (ids : RunIds) (rowId : ℕ) (item : SuiteItemEntity) : ExecutionIds where
  executionId := ids.executionId.val
  suiteExecutionId := ""
  suiteTestExecutionId := ""
  suiteTestId := ""
  testSuiteExecutionId := ids.testSuiteExecutionId.val
  suiteItemExecutionId := (ids.suiteItemExecutionId rowId).val
  suiteItemId := item.id

/-- `execute_suite_item`, in the contexts of `_execute_item`. -/
def executeSuiteItem (services : ItemServices σ τ) (ids : RunIds) (engine : Engine σ)
    (item : SuiteItemEntity) (locals : τ) (visible : Dict String (List (String × Json))) :
    Engine σ × Except String (List Json) :=
  let env := services.enter engine.env item locals visible
  let operations := services.operations env item
  let (s, result) := executeOperations (recording services.executors)
    (ids.bound engine.calls.length item) (resolveSuiteItemScope item)
    { env := (env, []), tables := engine.tables } operations (.arr [])
  let outcome := result.map Assert.ExecutionResultDto.result
  ({ env := services.leave s.env.1 item (result.toOption.map Assert.ExecutionResultDto.data)
     tables := s.tables
     calls := engine.calls ++ [{ item, outcome, operations, commands := s.env.2 }] }, outcome)

/-- The executor of the items. -/
def itemExecutor (services : ItemServices σ τ) (ids : RunIds) :
    ItemExecutor (Engine σ) τ (List Json) where
  execute := executeSuiteItem services ids
  newLocals engine :=
    let (env, locals) := services.newLocals engine.env
    ({ engine with env }, locals)
  resetLocal engine := { engine with env := services.resetLocal engine.env }
  serializeRunContext engine := services.serializeRunContext engine.env
  takesJson := services.takesJson

/-- The engine before a run: it has no rows of it. -/
def Engine.start (env : σ) : Engine σ where
  env := env
  tables := ⟨[], []⟩
  calls := []

/-- `_execute`, with the commands of the items. -/
def runSuite (services : ItemServices σ τ) (ids : RunIds) (suite : LoadedSuite) (env : σ) :
    RunResult (Engine σ) (List Json) :=
  execute suite (itemExecutor services ids) (.start env)

end

/-! ### What is published -/

def ExecutionStatus.value : ExecutionStatus → String
  | .running => "running"
  | .success => "success"
  | .error => "error"

/-- `"hook"` or `"test"`. -/
def eventPrefix (item : SuiteItemEntity) : String :=
  if item.kind = .hook then "hook" else "test"

/-- What `suite_started` says of the run. -/
structure RunTitle where
  testSuiteId : String
  testSuiteDescription : String
  targetTestId : Option String

section

variable (ids : RunIds) (title : RunTitle)

/-- `publish_execution_event`, but for the time. -/
def publishEvent (name : String) (payload : List (String × Json)) : StreamEvent where
  name := name
  data := [("execution_id", .str ids.executionId.val), ("event", .str name)] ++ payload

/-- The fields that all events of an item have. -/
def itemFields (rowId : ℕ) (item : SuiteItemEntity) : List (String × Json) :=
  [("test_suite_execution_id", .str ids.testSuiteExecutionId.val),
    ("suite_item_execution_id", .str (ids.suiteItemExecutionId rowId).val),
    ("suite_item_id", .str item.id), ("item_kind", .str item.kind.value),
    ("hook_phase", ((item.hookPhase.map HookPhase.value).map Json.str).getD .null),
    ("item_description", .str item.description)]

/-- The last fields of the end of an item, and of a command. -/
def outcomeFields : Except String (List Json) → List (String × Json)
  | .ok results => [("status", .str "success"), ("result", .arr results)]
  | .error e => [("status", .str "error"), ("error", .str e)]

/-- The event of a command. -/
def commandEvent (rowId : ℕ) (item : SuiteItemEntity) (place : ℕ) (command : CommandFinished) :
    StreamEvent :=
  publishEvent ids "command_finished" ([("suite_test_id", .str ""),
    ("suite_test_execution_id", .null), ("test_operation_execution_id", .null),
    ("suite_item_id", .str item.id),
    ("suite_item_execution_id", .str (ids.suiteItemExecutionId rowId).val),
    ("suite_item_operation_execution_id",
      .str (ids.suiteItemOperationExecutionId rowId place).val),
    ("command_id", .str command.commandId),
    ("command_description", .str command.commandDescription),
    ("command_scope", ((command.commandScope.map ExecutionScope.value).map Json.str).getD .null),
    ("command_family", ((command.commandFamily.map CommandType.value).map Json.str).getD .null)] ++
    outcomeFields command.outcome)

/-- What is published for an event of a run; before the end of an item come the events of its
commands. -/
def streamed (calls : List ItemCall) : ExecutionEvent (List Json) → List StreamEvent
  | .suiteStarted =>
    [publishEvent ids "suite_started"
      [("test_suite_execution_id", .str ids.testSuiteExecutionId.val),
        ("test_suite_id", .str title.testSuiteId),
        ("test_suite_description", .str title.testSuiteDescription),
        ("target_test_id", (title.targetTestId.map Json.str).getD .null),
        ("include_previous", .bool false)]]
  | .suiteProgress executedTests totalTests =>
    [publishEvent ids "suite_progress"
      [("test_suite_execution_id", .str ids.testSuiteExecutionId.val),
        ("executed_tests", .int executedTests), ("total_tests", .int totalTests)]]
  | .itemStarted rowId item position =>
    [publishEvent ids (eventPrefix item ++ "_started")
      (itemFields ids rowId item ++ [("position", .int position)])]
  | .itemFinished rowId item outcome =>
    ((calls[rowId]?).elim [] ItemCall.commands).mapIdx (commandEvent ids rowId item) ++
      [publishEvent ids (eventPrefix item ++ "_finished")
        (itemFields ids rowId item ++ outcomeFields outcome)]
  | .suiteFinished status error =>
    [publishEvent ids "suite_finished"
      [("test_suite_execution_id", .str ids.testSuiteExecutionId.val),
        ("status", .str status.value), ("error", (error.map Json.str).getD .null)]]

/-- The events of a run, but for those of its log. -/
def published (calls : List ItemCall) (events : List (ExecutionEvent (List Json))) :
    List StreamEvent :=
  events.flatMap (streamed ids title calls)

end

/-- An event that is no text of the log. -/
def notLog (event : StreamEvent) : Bool := event.name ≠ "execution_log"

/-! ### What the view should show -/

/-- The status of the last execution of an item. -/
def lastItemStatus (calls : List ItemCall) (itemId : String) : Option String :=
  (calls.reverse.find? fun call => call.item.id = itemId).map
    fun call => (outcomeStatus call.outcome).value

/-- The key of a command of an item. -/
def OperationExecution.key (row : OperationExecution) : String :=
  operationKey (row.itemId.getD "") (row.operationId.getD "")

/-- The status of the last execution of a command. -/
def lastCommandStatus (rows : List OperationExecution) (key : String) : Option String :=
  (rows.reverse.find? fun row => row.key = key).map fun row => row.status.value

theorem lastItemStatus_concat (calls : List ItemCall) (call : ItemCall) (itemId : String) :
    lastItemStatus (calls ++ [call]) itemId =
      if call.item.id = itemId then some (outcomeStatus call.outcome).value
      else lastItemStatus calls itemId := by
  unfold lastItemStatus
  rw [List.reverse_append, List.reverse_singleton, List.singleton_append, List.find?_cons]
  by_cases h : call.item.id = itemId
  · simp [h]
  · simp [h]

/-- The view agrees with a run: with the last outcome of each item, with the last row of each
command, and with the status of the suite. -/
structure ViewAgrees {σ : Type} (engine : Engine σ) (execution : TestSuiteExecutionEntity)
    (view : LiveView) : Prop where
  items : ∀ itemId, Dict.get? view.itemStatus itemId = lastItemStatus engine.calls itemId
  commands : ∀ key, Dict.get? view.operationStatus key =
    lastCommandStatus engine.tables.suiteItemOperations key
  status : view.status = execution.status.value

/-! ### The rows of the commands -/

section

variable {σ τ : Type}

/-- The row of an item's command is there from then on. -/
theorem rows_of_extends_add {t t' : Tables} {ids : ExecutionIds} {op : StoredOperation}
    {status : ExecutionStatus} {errorMessage : Option String} {finished : Bool}
    (hknown : strip ids.testSuiteExecutionId ≠ "" ∧ strip ids.suiteItemExecutionId ≠ "")
    (h : (t.add ids op status errorMessage finished).Extends t') :
    t'.suiteItemOperations ≠ [] := by
  intro hempty
  have hmark := h.suiteItemOperations
  rw [hempty, List.prefix_nil, Tables.add, ExecutionIds.itemRows, if_pos hknown] at hmark
  simp at hmark

/-- The commands of an item leave no rows just where there are none. -/
theorem rows_executeFrom {executors : Executors σ} {ids : ExecutionIds}
    {scope : Option ExecutionScope} {s : ExecutionState σ} {acc : Assert.ExecutionResultDto}
    {operations : List StoredOperation}
    (hknown : strip ids.testSuiteExecutionId ≠ "" ∧ strip ids.suiteItemExecutionId ≠ "") :
    (executeFrom executors ids scope s acc operations).1.tables.suiteItemOperations = [] ↔
      s.tables.suiteItemOperations = [] ∧ operations = [] := by
  cases operations with
  | nil => simp [executeFrom]
  | cons op operations =>
    refine iff_of_false ?_ (by simp)
    rcases @executeFrom_cons _ executors ids scope s acc op operations with
      ⟨e, -, hrun⟩ | ⟨cfg, -, ⟨env, env', e, -, hrun⟩ | ⟨env, result, -, hrun⟩⟩
    · rw [hrun]
      exact rows_of_extends_add hknown (.refl _)
    · rw [hrun]
      exact rows_of_extends_add hknown (.refl _)
    · rw [hrun]
      have hextends : (s.tables.add ids op .success none true).Extends
          (executeFrom executors ids scope ⟨env, s.tables.add ids op .success none true⟩
            (acc.extend result) operations).1.tables :=
        @extends_executeFrom _ executors ids scope ⟨env, _⟩ (acc.extend result) operations
      exact rows_of_extends_add hknown hextends

/-- What the execution of an item does with the record and the rows. -/
theorem executeSuiteItem_spec (services : ItemServices σ τ) (ids : RunIds) (engine : Engine σ)
    (item : SuiteItemEntity) (locals : τ) (visible : Dict String (List (String × Json))) :
    ∃ call : ItemCall, call.item = item ∧
      call.outcome = (executeSuiteItem services ids engine item locals visible).2 ∧
      (executeSuiteItem services ids engine item locals visible).1.calls = engine.calls ++ [call] ∧
      ((executeSuiteItem services ids engine item locals visible).1.tables.suiteItemOperations
          = [] ↔
        engine.tables.suiteItemOperations = [] ∧ call.operations = []) := by
  refine ⟨_, rfl, rfl, rfl, ?_⟩
  refine rows_executeFrom ⟨?_, ?_⟩
  · exact ids.testSuiteExecutionId.strip_ne_empty
  · exact (ids.suiteItemExecutionId _).strip_ne_empty

end

/-! ### What the view makes of the events -/

/-- An id as the database gives it: it is not blank, and has no blanks around it. -/
def IsId (id : String) : Prop := strip id = id ∧ id ≠ ""

instance (id : String) : Decidable (IsId id) :=
  inferInstanceAs (Decidable (strip id = id ∧ id ≠ ""))

section

variable (ids : RunIds) (title : RunTitle)

theorem eventPrefix_spec (item : SuiteItemEntity) :
    eventPrefix item = "hook" ∨ eventPrefix item = "test" := by
  unfold eventPrefix
  split
  · exact .inl rfl
  · exact .inr rfl

/-- The item is running. -/
theorem applyView_itemStarted (view : LiveView) {item : SuiteItemEntity} (hid : IsId item.id)
    (rowId : ℕ) (payload : List (String × Json)) :
    applyView view (publishEvent ids (eventPrefix item ++ "_started")
      (itemFields ids rowId item ++ payload)) =
      some { view with itemStatus := view.itemStatus.set item.id "running" } := by
  have hkey : (Json.field (publishEvent ids (eventPrefix item ++ "_started")
      (itemFields ids rowId item ++ payload)).data "suite_item_id").token = item.id := by
    simp [publishEvent, itemFields, Json.field, hid.1]
  unfold applyView
  rw [hkey]
  rcases eventPrefix_spec item with hmark | hmark <;> rw [hmark]
  · exact congrArg some (if_neg hid.2)
  · exact congrArg some (if_neg hid.2)

/-- The commands of an item change nothing in the view. -/
theorem foldlM_commandEvents (view : LiveView) (rowId : ℕ) (item : SuiteItemEntity)
    (commands : List CommandFinished) :
    (commands.mapIdx (commandEvent ids rowId item)).foldlM applyView view = some view := by
  have hkeeps : ∀ event ∈ commands.mapIdx (commandEvent ids rowId item),
      applyView view event = some view := by
    intro event hevent
    obtain ⟨place, hplace, rfl⟩ := List.mem_mapIdx.1 hevent
    rfl
  generalize commands.mapIdx (commandEvent ids rowId item) = events at hkeeps
  induction events with
  | nil => rfl
  | cons event events ih =>
    rw [List.foldlM_cons, hkeeps event List.mem_cons_self]
    exact ih fun event hevent => hkeeps event (List.mem_cons_of_mem _ hevent)

/-- The item has its status, and the commands have theirs as before. -/
theorem applyView_itemFinished (view : LiveView) {item : SuiteItemEntity} (hid : IsId item.id)
    (rowId : ℕ) (outcome : Except String (List Json)) :
    ∃ view', applyView view (publishEvent ids (eventPrefix item ++ "_finished")
        (itemFields ids rowId item ++ outcomeFields outcome)) = some view' ∧
      view'.itemStatus = view.itemStatus.set item.id (outcomeStatus outcome).value ∧
      view'.operationStatus = view.operationStatus := by
  have hkey : (Json.field (publishEvent ids (eventPrefix item ++ "_finished")
      (itemFields ids rowId item ++ outcomeFields outcome)).data "suite_item_id").token
      = item.id := by
    simp [publishEvent, itemFields, Json.field, hid.1]
  have hstatus : statusOf (Json.field (publishEvent ids (eventPrefix item ++ "_finished")
      (itemFields ids rowId item ++ outcomeFields outcome)).data "status")
      = (outcomeStatus outcome).value := by
    cases outcome with
    | ok results =>
      have hfield : Json.field (publishEvent ids (eventPrefix item ++ "_finished")
          (itemFields ids rowId item ++ outcomeFields (.ok results))).data "status"
          = .str "success" := by
        simp [publishEvent, itemFields, Json.field, outcomeFields]
      rw [hfield]
      rfl
    | error e =>
      have hfield : Json.field (publishEvent ids (eventPrefix item ++ "_finished")
          (itemFields ids rowId item ++ outcomeFields (.error e))).data "status"
          = .str "error" := by
        simp [publishEvent, itemFields, Json.field, outcomeFields]
      rw [hfield]
      rfl
  unfold applyView
  rw [hkey, hstatus]
  rcases eventPrefix_spec item with hmark | hmark <;> rw [hmark]
  · exact ⟨_, congrArg some (if_neg hid.2), rfl, rfl⟩
  · exact ⟨_, congrArg some (if_neg hid.2), rfl, rfl⟩

/-- The events of one execution of an item give it its status, and change no other. -/
theorem foldlM_item (view : LiveView) {item : SuiteItemEntity} (hid : IsId item.id)
    (rowId position : ℕ) (outcome : Except String (List Json)) (calls : List ItemCall) :
    ∃ view', (streamed ids title calls (.itemStarted rowId item position) ++
        streamed ids title calls (.itemFinished rowId item outcome)).foldlM applyView view
          = some view' ∧
      (∀ itemId, Dict.get? view'.itemStatus itemId =
        if item.id = itemId then some (outcomeStatus outcome).value
        else Dict.get? view.itemStatus itemId) ∧
      view'.operationStatus = view.operationStatus := by
  obtain ⟨view', hfinished, hitems, hoperations⟩ := applyView_itemFinished ids
    { view with itemStatus := view.itemStatus.set item.id "running" } hid rowId outcome
  refine ⟨view', ?_, fun itemId => ?_, hoperations⟩
  · simp only [streamed, List.foldlM_append, List.foldlM_cons, List.foldlM_nil,
      applyView_itemStarted ids view hid, foldlM_commandEvents, Option.pure_def,
      Option.bind_eq_bind, Option.bind_some, hfinished]
  · rw [hitems, Dict.get?_set, Dict.get?_set]
    split
    · rfl
    · rfl

/-- Progress sets the counts. -/
theorem applyView_suiteProgress (view : LiveView) (calls : List ItemCall)
    (executedTests totalTests : ℕ) :
    (published ids title calls [.suiteProgress executedTests totalTests]).foldlM applyView view =
      some { view with executedTests, totalTests } := by
  show (countOf (.int executedTests) >>= fun executedTests =>
    countOf (.int totalTests) >>= fun totalTests =>
      some { view with executedTests, totalTests }) >>= pure = _
  rw [countOf_int, countOf_int]
  rfl

/-! ### The run and its view -/

/-- The events of a run are the same with more calls in the record. -/
theorem published_concat {calls : List ItemCall} (call : ItemCall)
    {events : List (ExecutionEvent (List Json))}
    (h : ∀ rowId item outcome, .itemFinished rowId item outcome ∈ events → rowId < calls.length) :
    published ids title (calls ++ [call]) events = published ids title calls events := by
  refine List.flatMap_congr fun event hevent => ?_
  cases event with
  | itemFinished rowId item outcome =>
    have hlt := h rowId item outcome hevent
    rw [streamed, streamed, List.getElem?_append_left hlt]
  | suiteStarted | suiteProgress | itemStarted | suiteFinished => rfl

theorem published_append (calls : List ItemCall)
    (events events' : List (ExecutionEvent (List Json))) :
    published ids title calls (events ++ events') =
      published ids title calls events ++ published ids title calls events' :=
  List.flatMap_append

/-- No event of a run is a text of its log. -/
theorem notLog_of_mem_published {calls : List ItemCall}
    {events : List (ExecutionEvent (List Json))} :
    ∀ event ∈ published ids title calls events, notLog event = true := by
  intro event hevent
  obtain ⟨source, -, hmem⟩ := List.mem_flatMap.1 hevent
  cases source with
  | suiteStarted | suiteProgress | suiteFinished =>
    obtain rfl := List.mem_singleton.1 hmem
    rfl
  | itemStarted rowId item position =>
    obtain rfl := List.mem_singleton.1 hmem
    rcases eventPrefix_spec item with hmark | hmark <;> rw [hmark] <;> rfl
  | itemFinished rowId item outcome =>
    rcases List.mem_append.1 hmem with hcommand | hlast
    · obtain ⟨place, hplace, rfl⟩ := List.mem_mapIdx.1 hcommand
      rfl
    · obtain rfl := List.mem_singleton.1 hlast
      rcases eventPrefix_spec item with hmark | hmark <;> rw [hmark] <;> rfl

variable {σ τ : Type}

/-- What holds of a run and its view at every step. -/
structure Followed (s : RunState (Engine σ) (List Json)) : Prop where
  numbered : s.ctx.calls.length = s.rows.length
  finished : ∀ rowId item outcome, .itemFinished rowId item outcome ∈ s.events →
    rowId < s.ctx.calls.length
  view : ∃ view, (published ids title s.ctx.calls s.events).foldlM applyView LiveView.new
      = some view ∧
    (∀ itemId, Dict.get? view.itemStatus itemId = lastItemStatus s.ctx.calls itemId) ∧
    view.operationStatus = []
  rows : s.ctx.tables.suiteItemOperations = [] ↔ ∀ call ∈ s.ctx.calls, call.operations = []

/-- A run that has been announced is followed. -/
theorem followed_start (suite : LoadedSuite) (env : σ) :
    Followed ids title (startState suite (Engine.start env)) where
  numbered := rfl
  finished := by simp [startState]
  view := by
    refine ⟨{ LiveView.new with totalTests := suite.tests.length }, ?_, fun _ => rfl, rfl⟩
    have hprogress := applyView_suiteProgress ids title LiveView.new [] 0 suite.tests.length
    exact hprogress
  rows := by simp [startState, Engine.start]

/-- Variables and contexts change nothing that is followed. -/
theorem Followed.change {s s' : RunState (Engine σ) (List Json)} (h : Followed ids title s)
    (hcalls : s'.ctx.calls = s.ctx.calls) (htables : s'.ctx.tables = s.ctx.tables)
    (hrows : s'.rows = s.rows) (hevents : s'.events = s.events) : Followed ids title s' where
  numbered := by rw [hcalls, hrows, h.numbered]
  finished := by rw [hcalls, hevents]; exact h.finished
  view := by rw [hcalls, hevents]; exact h.view
  rows := by rw [hcalls, htables]; exact h.rows

/-- An event of progress changes nothing either. -/
theorem Followed.progress {s : RunState (Engine σ) (List Json)} (h : Followed ids title s)
    (executedTests totalTests : ℕ) :
    Followed ids title { s with
      executedTests, events := s.events ++ [.suiteProgress executedTests totalTests] } where
  numbered := h.numbered
  finished rowId item outcome hmem := by
    refine h.finished rowId item outcome ?_
    simpa using hmem
  view := by
    obtain ⟨view, hview, hitems, hoperations⟩ := h.view
    refine ⟨{ view with executedTests, totalTests }, ?_, hitems, hoperations⟩
    show (published ids title s.ctx.calls
      (s.events ++ [.suiteProgress executedTests totalTests])).foldlM applyView _ = _
    rw [published_append, List.foldlM_append, hview]
    exact applyView_suiteProgress ids title view _ executedTests totalTests
  rows := h.rows

/-- The execution of an item is followed. -/
theorem Followed.item {s : RunState (Engine σ) (List Json)} (h : Followed ids title s)
    (services : ItemServices σ τ) {item : SuiteItemEntity} (hid : IsId item.id) (locals : τ)
    (visible : Dict String (List (String × Json))) :
    Followed ids title (executeItem (itemExecutor services ids) s item locals visible).1 := by
  obtain ⟨call, hitem, houtcome, hcalls, hrows⟩ :=
    executeSuiteItem_spec services ids s.ctx item locals visible
  generalize hrun : executeSuiteItem services ids s.ctx item locals visible = run
    at houtcome hcalls hrows
  have hstate : (executeItem (itemExecutor services ids) s item locals visible).1 =
      { s with
        ctx := run.1
        rows := finishRow s.rows.length run.2
          (s.rows ++ [createItemExecution s.rows.length item s.executionPosition])
        events := s.events ++ [.itemStarted s.rows.length item s.executionPosition,
          .itemFinished s.rows.length item run.2] } := by
    rw [executeItem, ← hrun]
    rfl
  rw [hstate]
  constructor
  · simp [hcalls, h.numbered, finishRow]
  · intro rowId item' outcome hmem
    simp only [hcalls, List.length_append, List.length_singleton]
    rcases List.mem_append.1 hmem with hold | hnew
    · have := h.finished rowId item' outcome hold
      omega
    · have hid : rowId = s.rows.length := by simp_all
      rw [hid, h.numbered]
      omega
  · obtain ⟨view, hview, hitems, hoperations⟩ := h.view
    obtain ⟨view', hview', hitems', hoperations'⟩ := foldlM_item ids title view hid s.rows.length
      s.executionPosition run.2 run.1.calls
    refine ⟨view', ?_, fun itemId => ?_, hoperations'.trans hoperations⟩
    · dsimp only
      rw [published_append, List.foldlM_append]
      rw [hcalls, published_concat ids title call h.finished, ← hcalls, hview]
      rw [published, List.flatMap_cons, List.flatMap_singleton]
      exact hview'
    · dsimp only
      rw [hitems', hcalls, lastItemStatus_concat, hitem, houtcome, hitems]
  · dsimp only
    rw [hrows, h.rows, hcalls, List.forall_mem_append, List.forall_mem_singleton]

/-- **Every step of a run is followed.** -/
theorem Followed.step {suite : LoadedSuite} {services : ItemServices σ τ}
    (hids : ∀ item ∈ suite.planned, IsId item.id) {s s' : RunState (Engine σ) (List Json)}
    (hstep : RunStep suite (itemExecutor services ids) s s') (h : Followed ids title s) :
    Followed ids title s' := by
  cases hstep with
  | item item locals visible hitem =>
    exact h.item ids title services (hids item hitem) locals visible
  | progress executedTests => exact h.progress ids title executedTests _
  | assign | newLocals | resetLocal => exact h.change ids title rfl rfl rfl rfl

/-- A run that ends is followed. -/
theorem followed_runItems {suite : LoadedSuite} {services : ItemServices σ τ} {env : σ}
    (hids : ∀ item ∈ suite.planned, IsId item.id) {s : RunState (Engine σ) (List Json)}
    (hrun : runItems suite (itemExecutor services ids) (Engine.start env) = .ok s) :
    Followed ids title s :=
  (RunSteps.runItems hrun).keeps (fun hstep => Followed.step ids title hids hstep)
    (followed_start ids title suite env)

/-- The view that a run which is closed is shown with. -/
theorem foldlM_runSuite {suite : LoadedSuite} {services : ItemServices σ τ} {env : σ}
    (hids : ∀ item ∈ suite.planned, IsId item.id) {execution : TestSuiteExecutionEntity}
    (hclosed : (runSuite services ids suite env).execution = some execution) :
    ∃ view, (published ids title (runSuite services ids suite env).ctx.calls
        (runSuite services ids suite env).events).foldlM applyView LiveView.new = some view ∧
      (∀ itemId, Dict.get? view.itemStatus itemId =
        lastItemStatus (runSuite services ids suite env).ctx.calls itemId) ∧
      view.operationStatus = [] ∧ view.status = execution.status.value ∧
      ((runSuite services ids suite env).ctx.tables.suiteItemOperations = [] ↔
        ∀ call ∈ (runSuite services ids suite env).ctx.calls, call.operations = []) := by
  obtain ⟨s, text, hrun, htext⟩ := exists_of_stored hclosed
  have hrunSuite : runSuite services ids suite env = s.closed text := by
    rw [runSuite, execute_of_runItems hrun, htext]
    rfl
  rw [hrunSuite] at hclosed ⊢
  obtain rfl := Option.some.inj hclosed
  have hfollowed := followed_runItems ids title hids hrun
  obtain ⟨view, hview, hitems, hoperations⟩ := hfollowed.view
  refine ⟨{ view with running := false, status := s.status.value }, ?_, hitems, hoperations, rfl,
    hfollowed.rows⟩
  have hlast : (published ids title s.ctx.calls
      [.suiteFinished s.status s.errorMessage]).foldlM applyView view =
        some { view with running := false, status := s.status.value } := by
    cases s.status <;> rfl
  show (published ids title s.ctx.calls
    (s.events ++ [.suiteFinished s.status s.errorMessage])).foldlM applyView LiveView.new = _
  rw [published_append, List.foldlM_append, hview]
  exact hlast

/-- What is followed of a run with its log is what is followed of it without. -/
theorem follow_of_filter {events sequence : List StreamEvent}
    (h : sequence.filter notLog = events) :
    (follow sequence).map ExecutionState.toLiveView =
      events.foldlM applyView LiveView.new := by
  rw [follow, map_toLiveView_foldlM, ← h]
  symm
  refine foldlM_applyView_filter sequence (fun view event _ hevent => ?_) LiveView.new
  have hname : event.name = "execution_log" := by simpa [notLog] using hevent
  unfold applyView
  rw [hname]
  rfl

theorem follow_published (calls : List ItemCall) (events : List (ExecutionEvent (List Json))) :
    (follow (published ids title calls events)).map ExecutionState.toLiveView =
      (published ids title calls events).foldlM applyView LiveView.new :=
  follow_of_filter (List.filter_eq_self.2 (notLog_of_mem_published ids title))

/-- A run in which a command is executed is not what the view shows. -/
theorem not_viewAgrees_of_row {engine : Engine σ} {execution : TestSuiteExecutionEntity}
    {view : LiveView} (hrows : engine.tables.suiteItemOperations ≠ [])
    (hoperations : view.operationStatus = []) : ¬ViewAgrees engine execution view := by
  intro hagrees
  obtain ⟨row, rows, hrow⟩ := List.exists_cons_of_ne_nil hrows
  have hcommand := hagrees.commands row.key
  rw [hoperations, Dict.get?_nil, lastCommandStatus, eq_comm, Option.map_eq_none_iff,
    List.find?_eq_none] at hcommand
  exact hcommand row (by simp [hrow]) (by simp)

end

/-- **The live view agrees with a run just where the run executes no command.**  The items and
the suite have the statuses of the run in any case; a command has none. -/
theorem follow_agrees_iff {σ τ : Type} (services : ItemServices σ τ) (ids : RunIds)
    (title : RunTitle) (suite : LoadedSuite) (env : σ)
    (hids : ∀ item ∈ suite.planned, IsId item.id) (execution : TestSuiteExecutionEntity)
    (hclosed : (runSuite services ids suite env).execution = some execution)
    (sequence : List StreamEvent)
    (hsequence : sequence.filter notLog = published ids title
      (runSuite services ids suite env).ctx.calls (runSuite services ids suite env).events) :
    (∃ state, follow sequence = some state ∧
        ViewAgrees (runSuite services ids suite env).ctx execution state.toLiveView) ↔
      ∀ call ∈ (runSuite services ids suite env).ctx.calls, call.operations = [] := by
  obtain ⟨view, hview, hitems, hoperations, hstatus, hrows⟩ :=
    foldlM_runSuite ids title hids hclosed
  have hfollow := follow_of_filter hsequence
  rw [hview] at hfollow
  obtain ⟨state, hstate, rfl⟩ := Option.map_eq_some_iff.1 hfollow
  rw [← hrows]
  constructor
  · rintro ⟨state', hstate', hagrees⟩
    obtain rfl := Option.some.inj (hstate.symm.trans hstate')
    by_contra hsome
    exact not_viewAgrees_of_row hsome hoperations hagrees
  · intro hempty
    refine ⟨state, hstate, hitems, fun key => ?_, hstatus⟩
    rw [hoperations, hempty]
    rfl

/-! ### A run with a command, and one without -/

/-- A suite of a hook before each test, and two tests. -/
def pairSuite : LoadedSuite where
  beforeAll := none
  beforeEach := some (item "prepare" .hook (some .beforeEach))
  afterEach := none
  afterAll := none
  tests := [item "first" .test none, item "second" .test none]
where
  item (id : String) (kind : SuiteItemKind) (hookPhase : Option HookPhase) : SuiteItemEntity :=
    { id, testSuiteId := "s", kind, hookPhase, description := id, sourcesJson := [], position := 0,
      onFailure := "ABORT", templateKind := .custom, templateConfig := none }

/-- A suite of one test. -/
def oneTestSuite : LoadedSuite where
  beforeAll := none
  beforeEach := none
  afterEach := none
  afterAll := none
  tests := [pairSuite.item "t" .test none]

/-- Services that find the same commands for every item, and commands that return. -/
def quietServices (operations : List StoredOperation) : ItemServices Unit Unit where
  executors := quietExecutors
  operations _ _ := operations
  enter env _ _ _ := env
  leave env _ _ := env
  newLocals env := (env, ())
  resetLocal env := env
  serializeRunContext _ := some (.dict [])
  takesJson _ := true

def demoIds : RunIds where
  executionId := ⟨"run", rfl, by decide⟩
  testSuiteExecutionId := ⟨"row", rfl, by decide⟩
  suiteItemExecutionId _ := ⟨"item", rfl, by decide⟩
  suiteItemOperationExecutionId _ _ := ⟨"operation", rfl, by decide⟩

/-- The row of a run that has succeeded, with an empty context. -/
def quietExecution : TestSuiteExecutionEntity where
  status := .success
  errorMessage := none
  finished := true
  resultJson := "\x7b\x7d"

/-- How a run with quiet services ends, and how many commands its items have. -/
def quietOutcome (operations : List StoredOperation) (suite : LoadedSuite) :
    Option (ExecutionStatus × Option String × List ℕ) :=
  (runItems suite (itemExecutor (quietServices operations) demoIds) (Engine.start ())).toOption.map
    fun s => (s.status, s.errorMessage, s.ctx.calls.map fun call => call.operations.length)

theorem runSuite_quiet {operations : List StoredOperation} {suite : LoadedSuite}
    {lengths : List ℕ} (h : quietOutcome operations suite = some (.success, none, lengths)) :
    (runSuite (quietServices operations) demoIds suite ()).execution = some quietExecution ∧
      (runSuite (quietServices operations) demoIds suite ()).ctx.calls.map
        (fun call => call.operations.length) = lengths := by
  unfold quietOutcome at h
  cases hrun : runItems suite (itemExecutor (quietServices operations) demoIds)
      (Engine.start ()) with
  | error e =>
    rw [hrun] at h
    cases h
  | ok s =>
    rw [hrun] at h
    obtain ⟨hstatus, hrest⟩ := Prod.mk.inj (Option.some.inj h)
    obtain ⟨hmessage, hlengths⟩ := Prod.mk.inj hrest
    have hclosed : runSuite (quietServices operations) demoIds suite () =
        s.closed "\x7b\x7d" := by
      rw [runSuite, execute_of_runItems hrun]
      rfl
    rw [hclosed]
    exact ⟨by rw [RunState.closed, hstatus, hmessage]; rfl, hlengths⟩

/-- A command that waits for a second. -/
def sleepOperation : StoredOperation :=
  storedOperation [("commandCode", .str "sleep"), ("commandType", .str "action"),
    ("duration", .int 1)]

/-- A text of the log of a run. -/
def logEvent : StreamEvent :=
  publishEvent demoIds "execution_log"
    [("subject_type", .str "SUITE_EXECUTION"), ("subject", .str "s"), ("level", .str "INFO"),
      ("message", .str "prepared"), ("payload", .null), ("suite_id", .str ""),
      ("suite_test_id", .str "")]

/-- A run of two tests with a hook before each and no commands is shown as it is, with a text of
the log among its events. -/
theorem pairSuite_agrees :
    let run := runSuite (quietServices []) demoIds pairSuite ()
    let events := published demoIds ⟨"s", "", none⟩ run.ctx.calls run.events
    ∃ state, follow (events.take 4 ++ logEvent :: events.drop 4) = some state ∧
      ViewAgrees run.ctx quietExecution state.toLiveView := by
  obtain ⟨hclosed, hlengths⟩ := runSuite_quiet
    (show quietOutcome [] pairSuite = some (.success, none, [0, 0, 0, 0]) by decide +kernel)
  refine (follow_agrees_iff (quietServices []) demoIds ⟨"s", "", none⟩ pairSuite () ?_
    quietExecution hclosed _ ?_).2 ?_
  · decide
  · rw [List.filter_append, List.filter_cons_of_neg (by decide), ← List.filter_append,
      List.take_append_drop]
    exact List.filter_eq_self.2 (notLog_of_mem_published demoIds _)
  · intro call hcall
    have hlength : call.operations.length ∈ [0, 0, 0, 0] := by
      rw [← hlengths]
      exact List.mem_map_of_mem hcall
    exact List.eq_nil_of_length_eq_zero (by simpa using hlength)

/-- A test with a command is not. -/
theorem sleepTest_not_agrees :
    ¬∃ state, follow (published demoIds ⟨"s", "", none⟩
          (runSuite (quietServices [sleepOperation]) demoIds oneTestSuite ()).ctx.calls
          (runSuite (quietServices [sleepOperation]) demoIds oneTestSuite ()).events)
            = some state ∧
        ViewAgrees (runSuite (quietServices [sleepOperation]) demoIds oneTestSuite ()).ctx
          quietExecution state.toLiveView := by
  obtain ⟨hclosed, hlengths⟩ := runSuite_quiet
    (show quietOutcome [sleepOperation] oneTestSuite = some (.success, none, [1]) by
      decide +kernel)
  obtain ⟨view, hview, -, hoperations, -, hrows⟩ :=
    foldlM_runSuite demoIds ⟨"s", "", none⟩ (by decide) hclosed
  rintro ⟨state, hstate, hagrees⟩
  have hfollow := follow_published demoIds ⟨"s", "", none⟩
    (runSuite (quietServices [sleepOperation]) demoIds oneTestSuite ()).ctx.calls
    (runSuite (quietServices [sleepOperation]) demoIds oneTestSuite ()).events
  rw [hview, hstate, Option.map_some] at hfollow
  obtain rfl := Option.some.inj hfollow
  refine not_viewAgrees_of_row (fun hempty => ?_) hoperations hagrees
  have hnone := hrows.1 hempty
  have hzero : ∀ n ∈ (runSuite (quietServices [sleepOperation]) demoIds oneTestSuite
      ()).ctx.calls.map (fun call => call.operations.length), n = 0 := by
    intro n hn
    obtain ⟨call, hcall, rfl⟩ := List.mem_map.1 hn
    rw [hnone call hcall, List.length_nil]
  rw [hlengths] at hzero
  exact absurd (hzero 1 (List.mem_singleton_self 1)) (by decide)

end Suite
end QualityFlow
