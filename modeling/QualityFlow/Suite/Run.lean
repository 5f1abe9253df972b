/-
# Running a suite

`_execute` and `_execute_item` in
`app/elaborations/services/test_suites/test_suite_executor_thread.py`.

The run goes through the items of a suite in one database transaction and
publishes an event at every step.  A failure inside an item is caught there and
becomes the item's outcome; a failure outside leaves the whole run, and the
transaction is rolled back with everything the run has stored.  The last step of a
run is such a place: the run context is written to a column as JSON, with whatever
the items have left in it.

What an item does is a parameter: any state, any way it changes it, any outcome.
-/

import QualityFlow.JsonUtils.Safe
import QualityFlow.Suite.Items

namespace QualityFlow
namespace Suite

open Py Command

/-! ### The parameters of a run -/

/-- `execute_suite_item` inside the contexts that `_execute_item` binds, the
creation of a `local_context`, and `reset_local_context`.  A run context that contains
itself is no value, and a database may refuse a text that `json.dumps` has written for a
column of type `JSON`: PostgreSQL does where it finds `NaN` or `Infinity`. -/
structure ItemExecutor (σ τ ρ : Type) where
  execute : σ → SuiteItemEntity → τ → Dict String (List (String × Json)) → σ × Except String ρ
  newLocals : σ → σ × τ
  resetLocal : σ → σ
  serializeRunContext : σ → Option JsonUtils.PyObject
  takesJson : String → Bool

/-- What `_execute` reads of a suite before it starts. -/
structure LoadedSuite where
  beforeAll : Option SuiteItemEntity
  beforeEach : Option SuiteItemEntity
  afterEach : Option SuiteItemEntity
  afterAll : Option SuiteItemEntity
  tests : List SuiteItemEntity

/-! ### Rows and events -/

inductive ExecutionStatus where
  | running
  | success
  | error
deriving DecidableEq

/-- `SuiteItemExecutionEntity`. -/
structure SuiteItemExecutionEntity where
  id : ℕ
  suiteItemId : String
  itemKind : SuiteItemKind
  hookPhase : Option HookPhase
  itemDescription : String
  position : ℕ
  status : ExecutionStatus
  errorMessage : Option String
  finished : Bool
deriving DecidableEq

/-- The closing fields of `TestSuiteExecutionEntity`. -/
structure TestSuiteExecutionEntity where
  status : ExecutionStatus
  errorMessage : Option String
  finished : Bool
  resultJson : String
deriving DecidableEq

/-- The events of a run. -/
inductive ExecutionEvent (ρ : Type) where
  | suiteStarted
  | suiteProgress (executedTests totalTests : ℕ)
  | itemStarted (rowId : ℕ) (item : SuiteItemEntity) (position : ℕ)
  | itemFinished (rowId : ℕ) (item : SuiteItemEntity) (outcome : Except String ρ)
  | suiteFinished (status : ExecutionStatus) (error : Option String)

/-- The variables of `_execute`, the rows of its session and the events so far. -/
structure RunState (σ ρ : Type) where
  ctx : σ
  rows : List SuiteItemExecutionEntity
  events : List (ExecutionEvent ρ)
  executionPosition : ℕ
  executedTests : ℕ
  anyError : Bool
  firstErrorMessage : String

/-- What is left of a run: its execution row and its item rows where the
transaction was committed, and in any case the events that were published. -/
structure RunResult (σ ρ : Type) where
  ctx : σ
  execution : Option TestSuiteExecutionEntity
  rows : List SuiteItemExecutionEntity
  events : List (ExecutionEvent ρ)

/-! ### One item -/

section

variable {σ τ ρ : Type}

/-- The status and the error message that an outcome is stored with. -/
def outcomeStatus : Except String ρ → ExecutionStatus
  | .ok _ => .success
  | .error _ => .error

def outcomeError : Except String ρ → Option String
  | .ok _ => none
  | .error e => some e

/-- `_create_item_execution`. -/
def createItemExecution (id : ℕ) (item : SuiteItemEntity) (position : ℕ) :
    SuiteItemExecutionEntity where
  id := id
  suiteItemId := item.id
  itemKind := item.kind
  hookPhase := item.hookPhase
  itemDescription := item.description
  position := position
  status := .running
  errorMessage := none
  finished := false

/-- The update at the end of an item. -/
def finishRow (id : ℕ) (outcome : Except String ρ) (rows : List SuiteItemExecutionEntity) :
    List SuiteItemExecutionEntity :=
  rows.map fun r => if r.id = id then
    { r with status := outcomeStatus outcome, errorMessage := outcomeError outcome, finished := true }
    else r

/-- `_execute_item`. -/
def executeItem (exec : ItemExecutor σ τ ρ) (s : RunState σ ρ) (item : SuiteItemEntity)
    (locals : τ) (visible : Dict String (List (String × Json))) :
    RunState σ ρ × Except String ρ :=
  let id := s.rows.length
  let (ctx, outcome) := exec.execute s.ctx item locals visible
  ({ s with
      ctx
      rows := finishRow id outcome (s.rows ++ [createItemExecution id item s.executionPosition])
      events := s.events ++
        [.itemStarted id item s.executionPosition, .itemFinished id item outcome] },
    outcome)

/-- A call of `_execute_item` in `_execute`: the position moves on, and the visible
sources are built before the call. -/
def runItem (suite : LoadedSuite) (exec : ItemExecutor σ τ ρ) (s : RunState σ ρ)
    (item : SuiteItemEntity) (locals : τ) :
    Except (RunState σ ρ × String) (RunState σ ρ × Except String ρ) :=
  let s := { s with executionPosition := s.executionPosition + 1 }
  match buildVisibleSources suite.beforeAll suite.beforeEach item with
  | .error e => .error (s, e)
  | .ok visible => .ok (executeItem exec s item locals visible)

/-- What `_execute` notes of an outcome. -/
def noteOutcome (s : RunState σ ρ) : Except String ρ → RunState σ ρ
  | .ok _ => s
  | .error e =>
    { s with
      anyError := true
      firstErrorMessage := if s.firstErrorMessage = "" then e else s.firstErrorMessage }

/-- Whether an outcome is a failure. -/
def failed : Except String ρ → Bool
  | .ok _ => false
  | .error _ => true

/-! ### The run -/

/-- A hook inside a test round, where there is one. -/
def runHook (suite : LoadedSuite) (exec : ItemExecutor σ τ ρ) (s : RunState σ ρ)
    (hook : Option SuiteItemEntity) (locals : τ) :
    Except (RunState σ ρ × String) (RunState σ ρ × Bool) :=
  match hook with
  | none => .ok (s, false)
  | some item => do
    let (s, outcome) ← runItem suite exec s item locals
    return (noteOutcome s outcome, failed outcome)

/-- The test of a round; progress is published before the outcome is noted. -/
def runTest (suite : LoadedSuite) (exec : ItemExecutor σ τ ρ) (s : RunState σ ρ)
    (test : SuiteItemEntity) (locals : τ) :
    Except (RunState σ ρ × String) (RunState σ ρ × Bool) := do
  let (s, outcome) ← runItem suite exec s test locals
  let s := { s with
    executedTests := s.executedTests + 1
    events := s.events ++ [.suiteProgress (s.executedTests + 1) suite.tests.length] }
  return (noteOutcome s outcome, failed outcome)

/-- One round of the loop over the tests: the state after it, and `test_failed`. -/
def runRound (suite : LoadedSuite) (exec : ItemExecutor σ τ ρ) (s : RunState σ ρ)
    (test : SuiteItemEntity) : Except (RunState σ ρ × String) (RunState σ ρ × Bool) := do
  let (ctx, locals) := exec.newLocals s.ctx
  let s := { s with ctx }
  let (s, beforeFailed) ← runHook suite exec s suite.beforeEach locals
  let (s, testFailed) ← runTest suite exec s test locals
  let (s, afterFailed) ← runHook suite exec s suite.afterEach locals
  return ({ s with ctx := exec.resetLocal s.ctx }, beforeFailed || testFailed || afterFailed)

/-- `str(test_item.on_failure or "").upper() == OnFailure.ABORT.value`. -/
def abortsOnFailure (test : SuiteItemEntity) : Bool := upper test.onFailure = "ABORT"

/-- The loop over the tests. -/
def runTests (suite : LoadedSuite) (exec : ItemExecutor σ τ ρ) :
    RunState σ ρ → List SuiteItemEntity → Except (RunState σ ρ × String) (RunState σ ρ)
  | s, [] => .ok s
  | s, test :: tests => do
    let (s, testFailed) ← runRound suite exec s test
    if testFailed && abortsOnFailure test then
      return s
    else
      runTests suite exec s tests

/-- The hook before all tests: its outcome is the first that can fail. -/
def runBeforeAll (suite : LoadedSuite) (exec : ItemExecutor σ τ ρ) (s : RunState σ ρ) :
    Except (RunState σ ρ × String) (RunState σ ρ) :=
  match suite.beforeAll with
  | none => .ok s
  | some hook => do
    let (ctx, locals) := exec.newLocals s.ctx
    let (s, outcome) ← runItem suite exec { s with ctx } hook locals
    match outcome with
    | .ok _ => return s
    | .error e => return { s with anyError := true, firstErrorMessage := e }

/-- The hook after all tests. -/
def runAfterAll (suite : LoadedSuite) (exec : ItemExecutor σ τ ρ) (s : RunState σ ρ) :
    Except (RunState σ ρ × String) (RunState σ ρ) :=
  match suite.afterAll with
  | none => .ok s
  | some hook => do
    let (ctx, locals) := exec.newLocals s.ctx
    let (s, outcome) ← runItem suite exec { s with ctx } hook locals
    return noteOutcome s outcome

/-- The variables of `_execute` once the run has been announced. -/
def startState (suite : LoadedSuite) (ctx : σ) : RunState σ ρ where
  ctx := ctx
  rows := []
  events := [.suiteStarted, .suiteProgress 0 suite.tests.length]
  executionPosition := 0
  executedTests := 0
  anyError := false
  firstErrorMessage := ""

/-- `if not any_error:` and the loop under it. -/
def runAllTests (suite : LoadedSuite) (exec : ItemExecutor σ τ ρ) (s : RunState σ ρ) :
    Except (RunState σ ρ × String) (RunState σ ρ) :=
  if s.anyError then .ok s else runTests suite exec s suite.tests

/-- The items of a run, from `suite_started` on. -/
def runItems (suite : LoadedSuite) (exec : ItemExecutor σ τ ρ) (ctx : σ) :
    Except (RunState σ ρ × String) (RunState σ ρ) := do
  let s ← runBeforeAll suite exec (startState suite ctx)
  let s ← runAllTests suite exec s
  runAfterAll suite exec s

/-- The status a run is closed with. -/
def RunState.status (s : RunState σ ρ) : ExecutionStatus := if s.anyError then .error else .success

/-- `first_error_message or None`. -/
def RunState.errorMessage (s : RunState σ ρ) : Option String :=
  if s.firstErrorMessage = "" then none else some s.firstErrorMessage

/-- What the column `result_json` is set to, where it can be. -/
def ItemExecutor.resultJson (exec : ItemExecutor σ τ ρ) (ctx : σ) : Option String := do
  let value ← exec.serializeRunContext ctx
  let text ← (JsonUtils.dumps value).toOption
  if exec.takesJson text then some text else none

/-- A run that an exception has left: its transaction is rolled back. -/
def RunState.left (s : RunState σ ρ) : RunResult σ ρ where
  ctx := s.ctx
  execution := none
  rows := []
  events := s.events

/-- A run that has been closed, and committed. -/
def RunState.closed (s : RunState σ ρ) (resultJson : String) : RunResult σ ρ where
  ctx := s.ctx
  execution := some
    { status := s.status, errorMessage := s.errorMessage, finished := true, resultJson }
  rows := s.rows
  events := s.events ++ [.suiteFinished s.status s.errorMessage]

/-- `_execute`, once the suite has been loaded: what the transaction leaves.  The update
that closes the run is flushed before the last event is published. -/
def execute (suite : LoadedSuite) (exec : ItemExecutor σ τ ρ) (ctx : σ) : RunResult σ ρ :=
  match runItems suite exec ctx with
  | .error (s, _) => s.left
  | .ok s => ((exec.resultJson s.ctx).map s.closed).getD s.left

/-! ### What a run goes through -/

/-- The items a run has executed, in order, each with its outcome. -/
abbrev Trace (ρ : Type) := List (SuiteItemEntity × Except String ρ)

/-- Whether an item of a trace has failed. -/
def Trace.fails (trace : Trace ρ) : Bool := trace.any fun x => failed x.2

/-- The messages of the failures of a trace. -/
def Trace.messages (trace : Trace ρ) : List String := trace.filterMap fun x => outcomeError x.2

/-- The first message of a trace that is not empty. -/
def Trace.firstMessage (trace : Trace ρ) : Option String := trace.messages.find? (· ≠ "")

/-- The row of the item at a place of a trace. -/
def rowOf (i : ℕ) (x : SuiteItemEntity × Except String ρ) : SuiteItemExecutionEntity :=
  { createItemExecution i x.1 (i + 1) with
    status := outcomeStatus x.2, errorMessage := outcomeError x.2, finished := true }

/-- The rows of a trace: positions from one, in order. -/
def Trace.rows (trace : Trace ρ) : List SuiteItemExecutionEntity := trace.mapIdx rowOf

/-- The items that some events report as finished. -/
def finishedItems (events : List (ExecutionEvent ρ)) : Trace ρ :=
  events.filterMap fun
    | .itemFinished _ item outcome => some (item, outcome)
    | _ => none

/-- Whether an event closes the run. -/
def closes : ExecutionEvent ρ → Bool
  | .suiteFinished _ _ => true
  | _ => false

/-- A record of the calls of an executor that it keeps itself. -/
structure ItemExecutor.Logs (exec : ItemExecutor σ τ ρ) (log : σ → Trace ρ) : Prop where
  execute : ∀ ctx item locals visible,
    log (exec.execute ctx item locals visible).1
      = log ctx ++ [(item, (exec.execute ctx item locals visible).2)]
  newLocals : ∀ ctx, log (exec.newLocals ctx).1 = log ctx
  resetLocal : ∀ ctx, log (exec.resetLocal ctx) = log ctx

/-- The items of the round of a test. -/
def LoadedSuite.round (suite : LoadedSuite) (test : SuiteItemEntity) : List SuiteItemEntity :=
  suite.beforeEach.toList ++ test :: suite.afterEach.toList

/-- The items of a run in which nothing fails. -/
def LoadedSuite.planned (suite : LoadedSuite) : List SuiteItemEntity :=
  suite.beforeAll.toList ++ suite.tests.flatMap suite.round ++ suite.afterAll.toList

/-- The rounds a run may make over some tests: each goes through all its items, and
one that contains a failure is the last where its test says so. -/
inductive Rounds (suite : LoadedSuite) : List SuiteItemEntity → List (Trace ρ) → Prop
  | done : Rounds suite [] []
  | abort {test : SuiteItemEntity} {tests : List SuiteItemEntity} {round : Trace ρ}
      (hitems : round.map Prod.fst = suite.round test) (hfails : round.fails = true)
      (habort : abortsOnFailure test = true) : Rounds suite (test :: tests) [round]
  | next {test : SuiteItemEntity} {tests : List SuiteItemEntity} {round : Trace ρ}
      {rounds : List (Trace ρ)} (hitems : round.map Prod.fst = suite.round test)
      (hgoes : ¬ (round.fails = true ∧ abortsOnFailure test = true))
      (hrest : Rounds suite tests rounds) : Rounds suite (test :: tests) (round :: rounds)

/-- What a run may go through: the hook before all tests, the rounds where it did not
fail, and in any case the hook after all tests. -/
def Schedule (suite : LoadedSuite) (trace : Trace ρ) : Prop :=
  ∃ (opening : Trace ρ) (rounds : List (Trace ρ)) (closing : Trace ρ),
    trace = opening ++ rounds.flatten ++ closing ∧
      opening.map Prod.fst = suite.beforeAll.toList ∧
      closing.map Prod.fst = suite.afterAll.toList ∧
      if opening.fails then rounds = [] else Rounds suite suite.tests rounds

/-- What the variables of `_execute` say about the items executed so far. -/
structure RunInv (exec : ItemExecutor σ τ ρ) (start : σ) (s : RunState σ ρ) (trace : Trace ρ) :
    Prop where
  rows : s.rows = trace.rows
  position : s.executionPosition = trace.length
  anyError : s.anyError = trace.fails
  firstErrorMessage : s.firstErrorMessage = trace.firstMessage.getD ""
  finished : finishedItems s.events = trace
  notClosed : s.events.countP closes = 0
  calls : ∀ log, exec.Logs log → log s.ctx = log start ++ trace

theorem rows_append (trace : Trace ρ) (x : SuiteItemEntity × Except String ρ) :
    Trace.rows (trace ++ [x]) = trace.rows ++ [rowOf trace.length x] := by
  simp [Trace.rows, List.mapIdx_append]

/-- The update at the end of an item touches its own row only. -/
theorem finishRow_rows (trace : Trace ρ) (item : SuiteItemEntity) (outcome : Except String ρ) :
    finishRow trace.length outcome
        (trace.rows ++ [createItemExecution trace.length item (trace.length + 1)])
      = Trace.rows (trace ++ [(item, outcome)]) := by
  have hold : finishRow trace.length outcome trace.rows = trace.rows := by
    refine (List.map_congr_left ?_).trans (List.map_id _)
    intro r hr
    obtain ⟨i, hi, rfl⟩ := List.mem_mapIdx.1 hr
    exact if_neg (Nat.ne_of_lt hi)
  rw [rows_append, finishRow, List.map_append]
  congr 1
  simp [createItemExecution, rowOf]

/-- The positions of the rows are counted from one. -/
theorem positions_rows (trace : Trace ρ) :
    trace.rows.map (·.position) = List.range' 1 trace.length := by
  apply List.ext_getElem
  · simp [Trace.rows]
  · intro i h₁ h₂
    simp [Trace.rows, rowOf, createItemExecution, Nat.add_comm]

/-- Every row has the status of its outcome. -/
theorem statuses_rows (trace : Trace ρ) :
    trace.rows.map (·.status) = trace.map fun x => outcomeStatus x.2 := by
  apply List.ext_getElem
  · simp [Trace.rows]
  · intro i h₁ h₂
    simp [Trace.rows, rowOf]

/-- The rows are those of the items, in order. -/
theorem ids_rows (trace : Trace ρ) : trace.rows.map (·.suiteItemId) = trace.map (·.1.id) := by
  apply List.ext_getElem
  · simp [Trace.rows]
  · intro i h₁ h₂
    simp [Trace.rows, rowOf, createItemExecution]

theorem ne_empty_of_firstMessage {trace : Trace ρ} {message : String}
    (h : trace.firstMessage = some message) : message ≠ "" := by
  simpa using List.find?_some h

/-- Keeping an empty text for no message loses nothing. -/
theorem firstMessage_getD (trace : Trace ρ) :
    (if trace.firstMessage.getD "" = "" then none else some (trace.firstMessage.getD ""))
      = trace.firstMessage := by
  cases h : trace.firstMessage with
  | none => rfl
  | some message => simp [ne_empty_of_firstMessage h]

theorem fails_append (trace trace' : Trace ρ) :
    Trace.fails (trace ++ trace') = (trace.fails || trace'.fails) := by
  simp [Trace.fails]

theorem firstMessage_append (trace : Trace ρ) (x : SuiteItemEntity × Except String ρ) :
    (Trace.firstMessage (trace ++ [x])).getD ""
      = if trace.firstMessage.getD "" = "" then (outcomeError x.2).getD ""
        else trace.firstMessage.getD "" := by
  have happend : Trace.firstMessage (trace ++ [x])
      = (trace.firstMessage).or ((outcomeError x.2).toList.find? (· ≠ "")) := by
    unfold Trace.firstMessage Trace.messages
    rw [List.filterMap_append, List.find?_append]
    congr 2
  rw [happend]
  cases h : trace.firstMessage with
  | some m => simp [ne_empty_of_firstMessage h]
  | none =>
    cases x.2 with
    | ok r => simp [outcomeError]
    | error e => by_cases he : e = "" <;> simp [outcomeError, he]

/-! ### One step -/

@[simp] theorem noteOutcome_rows (s : RunState σ ρ) (outcome : Except String ρ) :
    (noteOutcome s outcome).rows = s.rows := by
  cases outcome <;> rfl

@[simp] theorem noteOutcome_events (s : RunState σ ρ) (outcome : Except String ρ) :
    (noteOutcome s outcome).events = s.events := by
  cases outcome <;> rfl

@[simp] theorem noteOutcome_ctx (s : RunState σ ρ) (outcome : Except String ρ) :
    (noteOutcome s outcome).ctx = s.ctx := by
  cases outcome <;> rfl

@[simp] theorem noteOutcome_position (s : RunState σ ρ) (outcome : Except String ρ) :
    (noteOutcome s outcome).executionPosition = s.executionPosition := by
  cases outcome <;> rfl

@[simp] theorem noteOutcome_anyError (s : RunState σ ρ) (outcome : Except String ρ) :
    (noteOutcome s outcome).anyError = (s.anyError || failed outcome) := by
  cases outcome <;> simp [noteOutcome, failed]

@[simp] theorem noteOutcome_firstErrorMessage (s : RunState σ ρ) (outcome : Except String ρ) :
    (noteOutcome s outcome).firstErrorMessage
      = if s.firstErrorMessage = "" then (outcomeError outcome).getD ""
        else s.firstErrorMessage := by
  cases outcome <;> by_cases h : s.firstErrorMessage = "" <;> simp [noteOutcome, outcomeError, h]

/-- What a run knows does not depend on its events of other kinds, on its counter of
tests or on a context with the same record of calls. -/
theorem RunInv.change {exec : ItemExecutor σ τ ρ} {start : σ} {s s' : RunState σ ρ}
    {trace : Trace ρ} (hinv : RunInv exec start s trace) (hrows : s'.rows = s.rows)
    (hposition : s'.executionPosition = s.executionPosition)
    (hany : s'.anyError = s.anyError) (hfirst : s'.firstErrorMessage = s.firstErrorMessage)
    (hfinished : finishedItems s'.events = finishedItems s.events)
    (hclosed : s'.events.countP closes = s.events.countP closes)
    (hcalls : ∀ log, exec.Logs log → log s'.ctx = log s.ctx) : RunInv exec start s' trace where
  rows := by rw [hrows, hinv.rows]
  position := by rw [hposition, hinv.position]
  anyError := by rw [hany, hinv.anyError]
  firstErrorMessage := by rw [hfirst, hinv.firstErrorMessage]
  finished := by rw [hfinished, hinv.finished]
  notClosed := by rw [hclosed, hinv.notClosed]
  calls := fun log hlog => by rw [hcalls log hlog, hinv.calls log hlog]

theorem RunInv.newLocals {exec : ItemExecutor σ τ ρ} {start : σ} {s : RunState σ ρ}
    {trace : Trace ρ} (hinv : RunInv exec start s trace) :
    RunInv exec start { s with ctx := (exec.newLocals s.ctx).1 } trace :=
  hinv.change rfl rfl rfl rfl rfl rfl fun _ hlog => hlog.newLocals _

theorem RunInv.resetLocal {exec : ItemExecutor σ τ ρ} {start : σ} {s : RunState σ ρ}
    {trace : Trace ρ} (hinv : RunInv exec start s trace) :
    RunInv exec start { s with ctx := exec.resetLocal s.ctx } trace :=
  hinv.change rfl rfl rfl rfl rfl rfl fun _ hlog => hlog.resetLocal _

/-- An item that is executed and noted is one more item of the trace. -/
theorem runItem_inv (suite : LoadedSuite) {exec : ItemExecutor σ τ ρ} {start : σ}
    {s : RunState σ ρ} {trace : Trace ρ} {item : SuiteItemEntity} (locals : τ)
    (hinv : RunInv exec start s trace)
    (hvisible : ∃ v, buildVisibleSources suite.beforeAll suite.beforeEach item = .ok v) :
    ∃ s' outcome, runItem suite exec s item locals = .ok (s', outcome) ∧
      s'.anyError = s.anyError ∧ s'.firstErrorMessage = s.firstErrorMessage ∧
      RunInv exec start (noteOutcome s' outcome) (trace ++ [(item, outcome)]) := by
  obtain ⟨visible, hv⟩ := hvisible
  let call := exec.execute s.ctx item locals visible
  let s' := { s with executionPosition := s.executionPosition + 1 }
  refine ⟨(executeItem exec s' item locals visible).1, call.2, by rw [runItem, hv]; rfl, rfl, rfl,
    ?_⟩
  have hlength : s.rows.length = trace.length := by simp [hinv.rows, Trace.rows]
  constructor
  · rw [noteOutcome_rows]
    change finishRow s.rows.length call.2
      (s.rows ++ [createItemExecution s.rows.length item (s.executionPosition + 1)]) = _
    rw [hlength, hinv.rows, hinv.position, finishRow_rows]
  · simp [s', executeItem, hinv.position]
  · rw [noteOutcome_anyError]
    change (s.anyError || failed call.2) = _
    simp [hinv.anyError, Trace.fails]
  · rw [noteOutcome_firstErrorMessage, firstMessage_append]
    change (if s.firstErrorMessage = "" then _ else s.firstErrorMessage) = _
    rw [hinv.firstErrorMessage]
  · have hfinished := hinv.finished
    unfold finishedItems at hfinished ⊢
    rw [noteOutcome_events, executeItem, List.filterMap_append, hfinished]
    rfl
  · rw [noteOutcome_events, executeItem, List.countP_append, hinv.notClosed]
    rfl
  · intro log hlog
    rw [noteOutcome_ctx]
    change log call.1 = _
    rw [hlog.execute, hinv.calls log hlog, List.append_assoc]

/-- A hook inside a round. -/
theorem runHook_inv {suite : LoadedSuite} {exec : ItemExecutor σ τ ρ} {start : σ}
    {s : RunState σ ρ} {trace : Trace ρ} (hook : Option SuiteItemEntity) (locals : τ)
    (hinv : RunInv exec start s trace)
    (hvisible : ∀ item ∈ hook.toList,
      ∃ v, buildVisibleSources suite.beforeAll suite.beforeEach item = .ok v) :
    ∃ (s' : RunState σ ρ) (part : Trace ρ),
      runHook suite exec s hook locals = .ok (s', part.fails) ∧
        part.map Prod.fst = hook.toList ∧ RunInv exec start s' (trace ++ part) := by
  cases hook with
  | none => exact ⟨s, [], rfl, rfl, by simpa using hinv⟩
  | some item =>
    obtain ⟨s', outcome, hrun, -, -, hinv'⟩ := runItem_inv suite locals hinv (hvisible item (by simp))
    refine ⟨noteOutcome s' outcome, [(item, outcome)], ?_, rfl, hinv'⟩
    simp [runHook, hrun, Trace.fails]

/-- The test of a round. -/
theorem runTest_inv {suite : LoadedSuite} {exec : ItemExecutor σ τ ρ} {start : σ}
    {s : RunState σ ρ} {trace : Trace ρ} {test : SuiteItemEntity} (locals : τ)
    (hinv : RunInv exec start s trace)
    (hvisible : ∃ v, buildVisibleSources suite.beforeAll suite.beforeEach test = .ok v) :
    ∃ (s' : RunState σ ρ) (part : Trace ρ),
      runTest suite exec s test locals = .ok (s', part.fails) ∧
        part.map Prod.fst = [test] ∧ RunInv exec start s' (trace ++ part) := by
  obtain ⟨s', outcome, hrun, -, -, hinv'⟩ := runItem_inv suite locals hinv hvisible
  refine ⟨_, [(test, outcome)], by simp [runTest, hrun, Trace.fails]; rfl, rfl, ?_⟩
  -- the progress event comes between the item and the note of its outcome
  refine hinv'.change ?_ ?_ ?_ ?_ ?_ ?_ ?_
  · simp
  · simp
  · simp
  · simp
  · simp [finishedItems]
  · simp [closes]
  · simp

/-- **A round goes through all its items whatever they do, and reports whether one of
them has failed.** -/
theorem runRound_inv {suite : LoadedSuite} {exec : ItemExecutor σ τ ρ} {start : σ}
    {s : RunState σ ρ} {trace : Trace ρ} (test : SuiteItemEntity)
    (hinv : RunInv exec start s trace)
    (hvisible : ∀ item ∈ suite.round test,
      ∃ v, buildVisibleSources suite.beforeAll suite.beforeEach item = .ok v) :
    ∃ (s' : RunState σ ρ) (round : Trace ρ),
      runRound suite exec s test = .ok (s', round.fails) ∧
        round.map Prod.fst = suite.round test ∧ RunInv exec start s' (trace ++ round) := by
  obtain ⟨s₁, before, hbefore, hbeforeItems, hinv₁⟩ :=
    runHook_inv suite.beforeEach (exec.newLocals s.ctx).2 hinv.newLocals
      fun item hitem => hvisible item (List.mem_append_left _ hitem)
  obtain ⟨s₂, middle, hmiddle, hmiddleItems, hinv₂⟩ :=
    runTest_inv (exec.newLocals s.ctx).2 hinv₁
      (hvisible test (List.mem_append_right _ List.mem_cons_self))
  obtain ⟨s₃, after, hafter, hafterItems, hinv₃⟩ :=
    runHook_inv suite.afterEach (exec.newLocals s.ctx).2 hinv₂
      fun item hitem => hvisible item (List.mem_append_right _ (List.mem_cons_of_mem _ hitem))
  refine ⟨{ s₃ with ctx := exec.resetLocal s₃.ctx }, before ++ middle ++ after, ?_, ?_, ?_⟩
  · simp [runRound, hbefore, hmiddle, hafter, fails_append, Bool.or_assoc]
  · simp [hbeforeItems, hmiddleItems, hafterItems, LoadedSuite.round]
  · rw [← List.append_assoc, ← List.append_assoc]
    exact hinv₃.resetLocal

/-- **The loop over the tests makes the rounds of a schedule.** -/
theorem runTests_inv {suite : LoadedSuite} {exec : ItemExecutor σ τ ρ} {start : σ}
    {s : RunState σ ρ} {trace : Trace ρ} {tests : List SuiteItemEntity}
    (hinv : RunInv exec start s trace)
    (hvisible : ∀ item ∈ tests.flatMap suite.round,
      ∃ v, buildVisibleSources suite.beforeAll suite.beforeEach item = .ok v) :
    ∃ (s' : RunState σ ρ) (rounds : List (Trace ρ)),
      runTests suite exec s tests = .ok s' ∧ Rounds suite tests rounds ∧
        RunInv exec start s' (trace ++ rounds.flatten) := by
  induction tests generalizing s trace with
  | nil => exact ⟨s, [], rfl, .done, by simpa using hinv⟩
  | cons test tests ih =>
    obtain ⟨s₁, round, hround, hitems, hinv₁⟩ := runRound_inv test hinv
      fun item hitem => hvisible item (by simp [hitem])
    by_cases hends : round.fails = true ∧ abortsOnFailure test = true
    · refine ⟨s₁, [round], ?_, .abort hitems hends.1 hends.2, by simpa using hinv₁⟩
      simp [runTests, hround, hends.1, hends.2]
    · obtain ⟨s₂, rounds, hrest, hrounds, hinv₂⟩ := ih hinv₁
        fun item hitem => hvisible item (List.mem_flatMap.2 (by
          obtain ⟨test', htest', hitem'⟩ := List.mem_flatMap.1 hitem
          exact ⟨test', List.mem_cons_of_mem _ htest', hitem'⟩))
      refine ⟨s₂, round :: rounds, ?_, .next hitems hends hrounds, ?_⟩
      · simp only [runTests, hround, ok_bind]
        rw [if_neg (by simpa using hends)]
        exact hrest
      · rw [List.flatten_cons, ← List.append_assoc]
        exact hinv₂

/-- Nothing has been executed where a run starts. -/
theorem runInv_start (suite : LoadedSuite) (exec : ItemExecutor σ τ ρ) (ctx : σ) :
    RunInv exec ctx (startState suite ctx) [] where
  rows := rfl
  position := rfl
  anyError := rfl
  firstErrorMessage := rfl
  finished := rfl
  notClosed := rfl
  calls := by simp [startState]

/-- The hook before all tests: nothing has failed before it. -/
theorem runBeforeAll_inv {suite : LoadedSuite} {exec : ItemExecutor σ τ ρ} {start : σ}
    {s : RunState σ ρ} (hinv : RunInv exec start s [])
    (hvisible : ∀ item ∈ suite.beforeAll.toList,
      ∃ v, buildVisibleSources suite.beforeAll suite.beforeEach item = .ok v) :
    ∃ (s' : RunState σ ρ) (opening : Trace ρ), runBeforeAll suite exec s = .ok s' ∧
      opening.map Prod.fst = suite.beforeAll.toList ∧ RunInv exec start s' opening := by
  unfold runBeforeAll
  cases hhook : suite.beforeAll with
  | none => exact ⟨s, [], rfl, rfl, hinv⟩
  | some hook =>
    rw [hhook] at hvisible
    obtain ⟨s', outcome, hrun, -, hfirst, hinv'⟩ :=
      runItem_inv suite (exec.newLocals s.ctx).2 hinv.newLocals
        (by rw [hhook]; exact hvisible hook (by simp))
    have hempty : s'.firstErrorMessage = "" := by
      rw [hfirst]
      exact hinv.firstErrorMessage
    refine ⟨noteOutcome s' outcome, [(hook, outcome)], ?_, rfl, hinv'⟩
    cases outcome <;> simp [hrun, noteOutcome, hempty]

/-- The hook after all tests. -/
theorem runAfterAll_inv {suite : LoadedSuite} {exec : ItemExecutor σ τ ρ} {start : σ}
    {s : RunState σ ρ} {trace : Trace ρ} (hinv : RunInv exec start s trace)
    (hvisible : ∀ item ∈ suite.afterAll.toList,
      ∃ v, buildVisibleSources suite.beforeAll suite.beforeEach item = .ok v) :
    ∃ (s' : RunState σ ρ) (closing : Trace ρ), runAfterAll suite exec s = .ok s' ∧
      closing.map Prod.fst = suite.afterAll.toList ∧ RunInv exec start s' (trace ++ closing) := by
  unfold runAfterAll
  cases hhook : suite.afterAll with
  | none => exact ⟨s, [], rfl, rfl, by simpa using hinv⟩
  | some hook =>
    rw [hhook] at hvisible
    obtain ⟨s', outcome, hrun, -, -, hinv'⟩ :=
      runItem_inv suite (exec.newLocals s.ctx).2 hinv.newLocals
        (hvisible hook (by simp))
    exact ⟨noteOutcome s' outcome, [(hook, outcome)], by simp [hrun], rfl, hinv'⟩

/-- The tests are run where the hook before them has not failed. -/
theorem runAllTests_inv {suite : LoadedSuite} {exec : ItemExecutor σ τ ρ} {start : σ}
    {s : RunState σ ρ} {opening : Trace ρ} (hinv : RunInv exec start s opening)
    (hvisible : ∀ item ∈ suite.tests.flatMap suite.round,
      ∃ v, buildVisibleSources suite.beforeAll suite.beforeEach item = .ok v) :
    ∃ (s' : RunState σ ρ) (rounds : List (Trace ρ)), runAllTests suite exec s = .ok s' ∧
      (if opening.fails then rounds = [] else Rounds suite suite.tests rounds) ∧
        RunInv exec start s' (opening ++ rounds.flatten) := by
  unfold runAllTests
  rw [hinv.anyError]
  by_cases hfails : opening.fails = true
  · exact ⟨s, [], by rw [if_pos hfails], by rw [if_pos hfails], by simpa using hinv⟩
  · obtain ⟨s', rounds, hrun, hrounds, hinv'⟩ := runTests_inv hinv hvisible
    refine ⟨s', rounds, ?_, ?_, hinv'⟩
    · rw [if_neg hfails, hrun]
    · rwa [if_neg hfails]

/-- The items of a run, from its first to its last. -/
theorem runItems_inv (suite : LoadedSuite) (exec : ItemExecutor σ τ ρ) (ctx : σ)
    (hvisible : ∀ item ∈ suite.planned,
      ∃ v, buildVisibleSources suite.beforeAll suite.beforeEach item = .ok v) :
    ∃ (s : RunState σ ρ) (trace : Trace ρ), runItems suite exec ctx = .ok s ∧
      Schedule suite trace ∧ RunInv exec ctx s trace := by
  obtain ⟨s₁, opening, hopen, hopening, hinv₁⟩ :=
    runBeforeAll_inv (runInv_start suite exec ctx) fun item hitem =>
      hvisible item (by simp [LoadedSuite.planned, hitem])
  obtain ⟨s₂, rounds, hrun, hrounds, hinv₂⟩ := runAllTests_inv hinv₁ fun item hitem =>
    hvisible item (List.mem_append_left _ (List.mem_append_right _ hitem))
  obtain ⟨s₃, closing, hclose, hclosing, hinv₃⟩ := runAfterAll_inv hinv₂ fun item hitem =>
    hvisible item (List.mem_append_right _ hitem)
  refine ⟨s₃, opening ++ rounds.flatten ++ closing, ?_,
    ⟨opening, rounds, closing, rfl, hopening, hclosing, hrounds⟩, hinv₃⟩
  unfold runItems
  rw [hopen, ok_bind, hrun, ok_bind, hclose]

/-- A run that leaves its items comes to the update that closes it. -/
theorem execute_of_runItems {suite : LoadedSuite} {exec : ItemExecutor σ τ ρ} {ctx : σ}
    {s : RunState σ ρ} (h : runItems suite exec ctx = .ok s) :
    execute suite exec ctx = ((exec.resultJson s.ctx).map s.closed).getD s.left := by
  rw [execute, h]

/-- A run that is stored has come to its end, with a context that could be written. -/
theorem exists_of_stored {suite : LoadedSuite} {exec : ItemExecutor σ τ ρ} {ctx : σ}
    {row : TestSuiteExecutionEntity} (h : (execute suite exec ctx).execution = some row) :
    ∃ s text, runItems suite exec ctx = .ok s ∧ exec.resultJson s.ctx = some text := by
  cases hrun : runItems suite exec ctx with
  | error e =>
    rw [execute, hrun] at h
    cases h
  | ok s =>
    rw [execute_of_runItems hrun] at h
    cases htext : exec.resultJson s.ctx with
    | some text => exact ⟨s, text, rfl, htext⟩
    | none =>
      rw [htext] at h
      cases h

/-- No item is reported by the event that closes a run. -/
theorem finishedItems_execute {suite : LoadedSuite} {exec : ItemExecutor σ τ ρ} {ctx : σ}
    {s : RunState σ ρ} (h : runItems suite exec ctx = .ok s) :
    finishedItems (execute suite exec ctx).events = finishedItems s.events := by
  rw [execute_of_runItems h]
  cases exec.resultJson s.ctx with
  | none => rfl
  | some text =>
    rw [Option.map_some, Option.getD_some, RunState.closed, finishedItems, List.filterMap_append]
    exact List.append_nil _

/-- **A suite whose visible sources can be built is run by its schedule**, whether or not
the run is stored in the end: so its events say, and the calls of the executor. -/
theorem execute_follows (suite : LoadedSuite) (exec : ItemExecutor σ τ ρ) (ctx : σ)
    (hvisible : ∀ item ∈ suite.planned,
      ∃ v, buildVisibleSources suite.beforeAll suite.beforeEach item = .ok v) :
    ∃ trace : Trace ρ, Schedule suite trace ∧
      finishedItems (execute suite exec ctx).events = trace ∧
      ∀ log, exec.Logs log → log (execute suite exec ctx).ctx = log ctx ++ trace := by
  obtain ⟨s, trace, hrun, hschedule, hinv⟩ := runItems_inv suite exec ctx hvisible
  refine ⟨trace, hschedule, (finishedItems_execute hrun).trans hinv.finished, ?_⟩
  intro log hlog
  rw [execute_of_runItems hrun, ← hinv.calls log hlog]
  cases exec.resultJson s.ctx <;> rfl

/-- The run context can be written where the items have left it: it does not contain
itself, each of its leaves is JSON that is not too long, and the database takes the text. -/
def ContextStored (suite : LoadedSuite) (exec : ItemExecutor σ τ ρ) (ctx : σ) : Prop :=
  ∀ s, runItems suite exec ctx = .ok s → ∃ value, exec.serializeRunContext s.ctx = some value ∧
    (∀ x ∈ value.leaves, x.IsJson ∧ x.Prints) ∧
    ∀ text, JsonUtils.dumps value = .ok text → exec.takesJson text = true

theorem exists_resultJson (exec : ItemExecutor σ τ ρ) (ctx : σ) :
    (∃ text, exec.resultJson ctx = some text) ↔ ∃ value, exec.serializeRunContext ctx = some value ∧
      (∀ x ∈ value.leaves, x.IsJson ∧ x.Prints) ∧
      ∀ text, JsonUtils.dumps value = .ok text → exec.takesJson text = true := by
  have hleaves (value : JsonUtils.PyObject) : (∀ x ∈ value.leaves, x.IsJson ∧ x.Prints) ↔
      ∃ text, JsonUtils.dumps value = .ok text := by
    rw [JsonUtils.exists_dumps]
    exact forall₂_congr fun x _ => (JsonUtils.exists_dumps_leaf x).symm
  simp only [ItemExecutor.resultJson, hleaves]
  cases exec.serializeRunContext ctx with
  | none => simp
  | some value =>
    simp only [Option.bind_eq_bind, Option.bind_some, Option.some.injEq, exists_eq_left']
    cases JsonUtils.dumps value with
    | error e => simp [Except.toOption]
    | ok text => by_cases htakes : exec.takesJson text = true <;> simp [Except.toOption, htakes]

/-- What a run is to store of the items it has executed: their rows in order, numbered from
one, each with the status of its outcome, and a row of its own, which is an error just where
an item has failed, with the first message of a failure that is not empty. -/
structure RunResult.Records (result : RunResult σ ρ) (trace : Trace ρ) : Prop where
  rows : result.rows = trace.rows
  ids : result.rows.map (·.suiteItemId) = trace.map (·.1.id)
  positions : result.rows.map (·.position) = List.range' 1 trace.length
  statuses : result.rows.map (·.status) = trace.map fun x => outcomeStatus x.2
  execution : ∃ resultJson, result.execution = some
    { status := if trace.fails then .error else .success
      errorMessage := trace.firstMessage, finished := true, resultJson }

theorem RunInv.records {exec : ItemExecutor σ τ ρ} {start : σ} {s : RunState σ ρ}
    {trace : Trace ρ} (hinv : RunInv exec start s trace) (resultJson : String) :
    (s.closed resultJson).Records trace where
  rows := hinv.rows
  ids := by rw [RunState.closed, hinv.rows, ids_rows]
  positions := by rw [RunState.closed, hinv.rows, positions_rows]
  statuses := by rw [RunState.closed, hinv.rows, statuses_rows]
  execution := by
    have hmessage : s.errorMessage = trace.firstMessage := by
      rw [RunState.errorMessage, hinv.firstErrorMessage]
      exact firstMessage_getD trace
    exact ⟨resultJson, by rw [RunState.closed, hmessage, RunState.status, hinv.anyError]⟩

/-- **A suite whose visible sources can be built is run by its schedule and recorded, just
where the run context can be written in the end.**  The items are executed in the order of
the schedule in any case; where the context cannot be written, the update that closes the run
raises, and neither the items nor the suite have a status. -/
theorem execute_schedule_iff (suite : LoadedSuite) (exec : ItemExecutor σ τ ρ) (ctx : σ)
    (hvisible : ∀ item ∈ suite.planned,
      ∃ v, buildVisibleSources suite.beforeAll suite.beforeEach item = .ok v) :
    (∃ trace : Trace ρ, Schedule suite trace ∧ (execute suite exec ctx).Records trace ∧
        finishedItems (execute suite exec ctx).events = trace ∧
        ∀ log, exec.Logs log → log (execute suite exec ctx).ctx = log ctx ++ trace) ↔
      ContextStored suite exec ctx := by
  obtain ⟨s, trace, hrun, -, hinv⟩ := runItems_inv suite exec ctx hvisible
  have hstored : ContextStored suite exec ctx ↔ ∃ text, exec.resultJson s.ctx = some text := by
    rw [exists_resultJson]
    exact ⟨fun h => h s hrun, fun h s' hs' => Except.ok.inj (hrun.symm.trans hs') ▸ h⟩
  rw [hstored]
  constructor
  · rintro ⟨_, -, hrecords, -⟩
    obtain ⟨_, hexecution⟩ := hrecords.execution
    rw [execute_of_runItems hrun] at hexecution
    cases htext : exec.resultJson s.ctx with
    | some text => exact ⟨text, rfl⟩
    | none =>
      rw [htext] at hexecution
      cases hexecution
  · rintro ⟨text, htext⟩
    obtain ⟨trace', hschedule, hfinished, hcalls⟩ := execute_follows suite exec ctx hvisible
    have hclosed : execute suite exec ctx = s.closed text := by
      rw [execute_of_runItems hrun, htext]
      rfl
    -- the trace of the events is the one that the rows were kept for
    have htrace : trace' = trace := by
      rw [← hfinished, finishedItems_execute hrun, hinv.finished]
    rw [← htrace] at hinv
    exact ⟨trace', hschedule, hclosed ▸ hinv.records text, hfinished, hcalls⟩

/-- A suite of two tests with hooks around each of them: the first test has a source
and ends the run when it fails. -/
def smokeSuite : LoadedSuite where
  beforeAll := none
  beforeEach := some (item "prepare" .hook (some .beforeEach) "CONTINUE" [])
  afterEach := some (item "clean" .hook (some .afterEach) "CONTINUE" [])
  afterAll := some (item "close" .hook (some .afterAll) "CONTINUE" [])
  tests := [item "first" .test none "abort" [[("sourceCode", .str "orders")]],
    item "second" .test none "CONTINUE" []]
where
  item (id : String) (kind : SuiteItemKind) (hookPhase : Option HookPhase) (onFailure : String)
      (sourcesJson : List (List (String × Json))) : SuiteItemEntity :=
    { id, testSuiteId := "smoke", kind, hookPhase, description := id, sourcesJson, position := 0,
      onFailure, templateKind := .custom, templateConfig := none }

/-- An executor that lists the items it is called for, and fails one of them. -/
def failingExecutor (failing : String) : ItemExecutor (List String) Unit Unit where
  execute calls item _ _ :=
    (calls ++ [item.id], if item.id = failing then .error "not found" else .ok ())
  newLocals calls := (calls, ())
  resetLocal calls := calls
  serializeRunContext calls := some (.list (calls.map fun id => .leaf (.str id)))
  takesJson _ := true

theorem smokeSuite_visible : ∀ item ∈ smokeSuite.planned,
    ∃ v, buildVisibleSources smokeSuite.beforeAll smokeSuite.beforeEach item = .ok v := by
  intro item hitem
  rw [buildVisibleSources_isOk]
  revert item
  decide

/-- The run of the suite in which the first test fails is recorded. -/
theorem execute_schedule_smoke : ∃ trace : Trace Unit, Schedule smokeSuite trace ∧
    (execute smokeSuite (failingExecutor "first") []).Records trace ∧
    trace.map (fun x => (x.1.id, outcomeStatus x.2)) =
      [("prepare", .success), ("first", .error), ("clean", .success), ("close", .success)] := by
  have hstored : ContextStored smokeSuite (failingExecutor "first") [] := by
    intro s _
    refine ⟨_, rfl, fun x hx => ?_, fun _ _ => rfl⟩
    obtain ⟨id, -, rfl⟩ : ∃ id ∈ s.ctx, JsonUtils.Leaf.str id = x := by
      simpa [JsonUtils.PyObject.leaves, JsonUtils.PyObject.leavesList_eq, eq_comm] using hx
    exact ⟨trivial, trivial⟩
  obtain ⟨trace, hschedule, hrecords, hfinished, -⟩ :=
    (execute_schedule_iff smokeSuite (failingExecutor "first") [] smokeSuite_visible).2 hstored
  obtain ⟨s, hrun, hitems⟩ : ∃ s, runItems smokeSuite (failingExecutor "first") [] = .ok s ∧
      (finishedItems s.events).map (fun x => (x.1.id, outcomeStatus x.2)) =
        [("prepare", .success), ("first", .error), ("clean", .success), ("close", .success)] :=
    ⟨_, rfl, by decide⟩
  refine ⟨trace, hschedule, hrecords, ?_⟩
  rw [← hfinished, finishedItems_execute hrun]
  exact hitems

/-- A suite with a hook after all tests and nothing else. -/
def clockSuite : LoadedSuite where
  beforeAll := none
  beforeEach := none
  afterEach := none
  afterAll := some (smokeSuite.item "clock" .hook (some .afterAll) "CONTINUE" [])
  tests := []

def clockTime : Datetime where
  date := ⟨2026, 5, 28, by decide⟩
  time := .min
  offset := Offset.mk? false 0

/-- What `SELECT now()` returns. -/
def clockRows : JsonUtils.PyObject := .list [.dict [("now", .leaf (.datetime clockTime))]]

/-- An executor whose items ask a database for the time: the context is the data of the last
item, as `set_context_last` leaves it. -/
def clockExecutor : ItemExecutor (Option (String × JsonUtils.PyObject)) Unit Unit where
  execute _ item _ _ := (some (item.id, clockRows), .ok ())
  newLocals last := (last, ())
  resetLocal _ := none
  serializeRunContext last := some (.dict
    [("run_id", .leaf (.str "run")), ("runEnvelope", runEnvelope),
      ("global", .dict [("runEnvelope", runEnvelope), ("constants", .dict [])]),
      ("local", .dict [("global", .dict [("runEnvelope", runEnvelope), ("constants", .dict [])]),
        ("constants", .dict [])]),
      ("result", .dict [("artifacts", .dict []), ("commands", .dict []), ("constants", .dict [])]),
      ("invocation_id", .leaf .none), ("visible_sources", .dict []),
      ("last", match last with
        | none => .dict [("item_id", .leaf (.str "")), ("data", .leaf .none)]
        | some (itemId, data) => .dict [("item_id", .leaf (.str itemId)), ("data", data)])])
  takesJson _ := true
where
  runEnvelope : JsonUtils.PyObject :=
    .dict [("run_id", .leaf (.str "run")), ("event", .dict []), ("constants", .dict [])]

/-- A `datetime` is no JSON. -/
theorem clockExecutor_resultJson (itemId : String) :
    clockExecutor.resultJson (some (itemId, clockRows)) = none := by
  rw [Option.eq_none_iff_forall_ne_some]
  intro text htext
  obtain ⟨value, hvalue, hleaves, -⟩ := (exists_resultJson _ _).1 ⟨text, htext⟩
  obtain rfl := Option.some.inj hvalue
  refine (hleaves (.datetime clockTime) ?_).1
  simp [JsonUtils.PyObject.leaves, JsonUtils.PyObject.leavesItems_eq,
    JsonUtils.PyObject.leavesList_eq, clockRows]

/-- The hook succeeds, and the run is not recorded. -/
theorem clockSuite_not_recorded :
    (∀ item ∈ clockSuite.planned,
      ∃ v, buildVisibleSources clockSuite.beforeAll clockSuite.beforeEach item = .ok v) ∧
    ¬∃ trace : Trace Unit, Schedule clockSuite trace ∧
      (execute clockSuite clockExecutor none).Records trace ∧
      finishedItems (execute clockSuite clockExecutor none).events = trace ∧
      ∀ log, clockExecutor.Logs log →
        log (execute clockSuite clockExecutor none).ctx = log none ++ trace := by
  refine ⟨fun item hitem => ?_, ?_⟩
  · rw [buildVisibleSources_isOk]
    revert item
    decide
  · rintro ⟨trace, -, hrecords, -⟩
    obtain ⟨resultJson, hexecution⟩ := hrecords.execution
    obtain ⟨s, hrun, hlast⟩ : ∃ s, runItems clockSuite clockExecutor none = .ok s ∧
        s.ctx = some ("clock", clockRows) := ⟨_, rfl, rfl⟩
    rw [execute_of_runItems hrun, hlast, clockExecutor_resultJson] at hexecution
    cases hexecution

end

end Suite
end QualityFlow
