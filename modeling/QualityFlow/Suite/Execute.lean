/-
# Executing the commands of an item

`execute_operations` of
`app/elaborations/services/operations/command_executor_composite.py`.

Before a command is run a row is inserted that says it is running.  Its configuration is
read next, outside of the block that closes the row where something raises; the policy,
the executor and the event that is published are inside of it.

The executors and the bus are a parameter, which acts on a state of its own and may
raise at any call.
-/

import QualityFlow.Assert.Evaluators
import QualityFlow.Py.Lists
import QualityFlow.Suite.Policy

namespace QualityFlow
namespace Suite

open Py Command Assert

/-! ### Rows -/

/-- `TestOperationExecutionEntity` and `SuiteItemOperationExecutionEntity`: the executions
it is part of, the item if that is known, and the command. -/
structure OperationExecution where
  suiteExecutionId : String
  itemExecutionId : String
  itemId : Option String
  operationId : Option String
  description : String
  order : ℤ
  status : ExecutionStatus
  errorMessage : Option String
  /-- Whether `finished_at` is set. -/
  finished : Bool
deriving DecidableEq

/-- The rows of the two services, in the order they were inserted in. -/
structure Tables where
  testOperations : List OperationExecution
  suiteItemOperations : List OperationExecution

/-- A stored command: `TestOperationEntity` or `SuiteItemOperationEntity`. -/
structure StoredOperation where
  id : String
  configurationJson : Json
  description : String
  order : ℤ

/-- The ids of `execution_runtime_context`. -/
structure ExecutionIds where
  executionId : String
  suiteExecutionId : String
  suiteTestExecutionId : String
  suiteTestId : String
  testSuiteExecutionId : String
  suiteItemExecutionId : String
  suiteItemId : String

/-- `s or None`. -/
def orNone (s : String) : Option String := if s = "" then none else some s

/-- The configuration of a stored command, where it is an object. -/
def StoredOperation.cfgJson (op : StoredOperation) : List (String × Json) :=
  match op.configurationJson with
  | .obj cfg => cfg
  | _ => []

/-- A row of a command, for the executions of some ids. -/
def operationExecution (suiteExecutionId itemExecutionId itemId : String) (op : StoredOperation)
    (status : ExecutionStatus) (errorMessage : Option String) (finished : Bool) :
    OperationExecution where
  suiteExecutionId := strip suiteExecutionId
  itemExecutionId := strip itemExecutionId
  itemId := orNone (strip itemId)
  operationId := orNone op.id
  description := op.description
  order := op.order
  status := status
  errorMessage := errorMessage
  finished := finished

/-- The rows that a command has, where the ids for them are known. -/
def ExecutionIds.testRows (ids : ExecutionIds) (op : StoredOperation) (status : ExecutionStatus)
    (errorMessage : Option String) (finished : Bool) : List OperationExecution :=
  if strip ids.suiteExecutionId ≠ "" ∧ strip ids.suiteTestExecutionId ≠ "" then
    [operationExecution ids.suiteExecutionId ids.suiteTestExecutionId ids.suiteTestId op status
      errorMessage finished]
  else []

def ExecutionIds.itemRows (ids : ExecutionIds) (op : StoredOperation) (status : ExecutionStatus)
    (errorMessage : Option String) (finished : Bool) : List OperationExecution :=
  if strip ids.testSuiteExecutionId ≠ "" ∧ strip ids.suiteItemExecutionId ≠ "" then
    [operationExecution ids.testSuiteExecutionId ids.suiteItemExecutionId ids.suiteItemId op status
      errorMessage finished]
  else []

/-- The tables with the rows of one more command. -/
def Tables.add (t : Tables) (ids : ExecutionIds) (op : StoredOperation) (status : ExecutionStatus)
    (errorMessage : Option String) (finished : Bool) : Tables where
  testOperations := t.testOperations ++ ids.testRows op status errorMessage finished
  suiteItemOperations := t.suiteItemOperations ++ ids.itemRows op status errorMessage finished

/-- `insert` of the two services: the row of a command is running. -/
def Tables.insert (t : Tables) (ids : ExecutionIds) (op : StoredOperation) : Tables :=
  t.add ids op .running none false

/-- `update` of a row with a status, a message if there is one, and a finish time. -/
def OperationExecution.finish (row : OperationExecution) (status : ExecutionStatus)
    (errorMessage : Option String) : OperationExecution :=
  { row with status, errorMessage := errorMessage <|> row.errorMessage, finished := true }

/-- `update` of the rows inserted last, from those on that were there before. -/
def Tables.finish (t before : Tables) (status : ExecutionStatus) (errorMessage : Option String) :
    Tables where
  testOperations :=
    t.testOperations.modify before.testOperations.length fun r => r.finish status errorMessage
  suiteItemOperations :=
    t.suiteItemOperations.modify before.suiteItemOperations.length
      fun r => r.finish status errorMessage

/-! ### The loop -/

/-- A `command_finished` event. -/
structure CommandFinished where
  commandId : String
  commandDescription : String
  commandScope : Option ExecutionScope
  commandFamily : Option CommandType
  /-- The result of the command, or its error. -/
  outcome : Except String (List Json)

/-- The executors, and the bus: a result that has no JSON text cannot be published. -/
structure Executors (σ : Type) where
  executeOperation : σ → String → ConfigurationCommandDto → Json →
    σ × Except String ExecutionResultDto
  publishResult : σ → CommandFinished → σ × Except String Unit
  publishError : σ → CommandFinished → σ

section

variable {σ : Type} (executors : Executors σ) (ids : ExecutionIds) (scope : Option ExecutionScope)

/-- What is done in the `try` block before anything is published: the policy, then the
executor. -/
def runCommand (env : σ) (op : StoredOperation) (cfg : ConfigurationCommandDto) (data : Json) :
    σ × Except String (OperationContract × ExecutionResultDto) :=
  match validateOperationPolicy cfg scope with
  | .error e => (env, .error e)
  | .ok contract =>
    match executors.executeOperation env op.id cfg data with
    | (env, .error e) => (env, .error e)
    | (env, .ok result) => (env, .ok (contract, result))

/-- The event of a command that has returned. -/
def publishSuccess (env : σ) (op : StoredOperation) (contract : OperationContract)
    (result : ExecutionResultDto) : σ × Except String Unit :=
  if ids.executionId = "" then (env, .ok ())
  else executors.publishResult env
    { commandId := op.id, commandDescription := op.description, commandScope := scope,
      commandFamily := some contract.family, outcome := .ok result.result }

/-- The event of a command that has raised. -/
def publishFailure (env : σ) (op : StoredOperation) (family : Option CommandType)
    (message : String) : σ :=
  if ids.executionId = "" then env
  else executors.publishError env
    { commandId := op.id, commandDescription := op.description, commandScope := scope,
      commandFamily := family, outcome := .error message }

/-- The state of the run: that of the executors, and the rows. -/
structure ExecutionState (σ : Type) where
  env : σ
  tables : Tables

/-- The `except` block. -/
def closeFailed (s : ExecutionState σ) (before : Tables) (op : StoredOperation)
    (family : Option CommandType) (message : String) :
    ExecutionState σ × Except String ExecutionResultDto :=
  ({ env := publishFailure executors ids scope s.env op family message
     tables := s.tables.finish before .error (some message) }, .error message)

/-- One round of the loop of `execute_operations`. -/
@[irreducible] def executeOne (s : ExecutionState σ) (op : StoredOperation) (data : Json) :
    ExecutionState σ × Except String ExecutionResultDto :=
  let tables := s.tables.insert ids op
  match convertToConfigCommandType op.cfgJson with
  | .error e => ({ s with tables }, .error e)
  | .ok cfg =>
    match runCommand executors scope s.env op cfg data with
    | (env, .error e) =>
      -- the contract is bound once the policy has been passed
      let family := (validateOperationPolicy cfg scope).toOption.map OperationContract.family
      closeFailed executors ids scope { env, tables } s.tables op family e
    | (env, .ok (contract, result)) =>
      let tables := tables.finish s.tables .success none
      match publishSuccess executors ids scope env op contract result with
      | (env, .error e) =>
        closeFailed executors ids scope { env, tables } s.tables op (some contract.family) e
      | (env, .ok ()) => ({ env, tables }, .ok result)

/-- The loop of `execute_operations`, with the result so far. -/
def executeFrom (s : ExecutionState σ) (executionResult : ExecutionResultDto) :
    List StoredOperation → ExecutionState σ × Except String ExecutionResultDto
  | [] => (s, .ok executionResult)
  | op :: operations =>
    match executeOne executors ids scope s op executionResult.data with
    | (s, .error e) => (s, .error e)
    | (s, .ok new) => executeFrom s (executionResult.extend new) operations

/-- `execute_operations`. -/
def executeOperations (s : ExecutionState σ) (operations : List StoredOperation) (data : Json) :
    ExecutionState σ × Except String ExecutionResultDto :=
  executeFrom executors ids scope s { data, result := [] } operations

end

/-! ### Rows that are closed -/

/-- The rows of a run are closed: those of each command that returns are a success, those of
the one that raises an error with what is raised, and there are none for the commands after
it. -/
inductive RowsClosed (ids : ExecutionIds) :
    Tables → List StoredOperation → Tables → Except String ExecutionResultDto → Prop where
  | done {t : Tables} {result : ExecutionResultDto} : RowsClosed ids t [] t (.ok result)
  | failed {t : Tables} {op : StoredOperation} {operations : List StoredOperation}
      {message : String} :
      RowsClosed ids t (op :: operations) (t.add ids op .error (some message) true)
        (.error message)
  | succeeded {t t' : Tables} {op : StoredOperation} {operations : List StoredOperation}
      {outcome : Except String ExecutionResultDto}
      (rest : RowsClosed ids (t.add ids op .success none true) operations t' outcome) :
      RowsClosed ids t (op :: operations) t' outcome

/-- The executions of a command are known, so that it has rows. -/
def ExecutionIds.Known (ids : ExecutionIds) : Prop :=
  strip ids.suiteExecutionId ≠ "" ∧ strip ids.suiteTestExecutionId ≠ "" ∨
    strip ids.testSuiteExecutionId ≠ "" ∧ strip ids.suiteItemExecutionId ≠ ""

section

variable {σ : Type} {executors : Executors σ} {ids : ExecutionIds} {scope : Option ExecutionScope}

/-- What the executors and the bus do with a command whose configuration has been read. -/
def attempt (executors : Executors σ) (ids : ExecutionIds) (scope : Option ExecutionScope) (env : σ)
    (op : StoredOperation) (cfg : ConfigurationCommandDto) (data : Json) :
    σ × Except String ExecutionResultDto :=
  match runCommand executors scope env op cfg data with
  | (env, .error e) => (env, .error e)
  | (env, .ok (contract, result)) =>
    match publishSuccess executors ids scope env op contract result with
    | (env, .error e) => (env, .error e)
    | (env, .ok ()) => (env, .ok result)

/-- The turn of a command comes: each before it can be read and returns. -/
inductive TurnComes (executors : Executors σ) (ids : ExecutionIds)
    (scope : Option ExecutionScope) : σ → Json → List StoredOperation → StoredOperation → Prop where
  | first {env : σ} {data : Json} {op : StoredOperation} {operations : List StoredOperation} :
      TurnComes executors ids scope env data (op :: operations) op
  | later {env env' : σ} {data : Json} {op op' : StoredOperation}
      {operations : List StoredOperation} {cfg : ConfigurationCommandDto}
      {result : ExecutionResultDto}
      (read : convertToConfigCommandType op.cfgJson = .ok cfg)
      (returned : attempt executors ids scope env op cfg data = (env', .ok result))
      (rest : TurnComes executors ids scope env' result.data operations op') :
      TurnComes executors ids scope env data (op :: operations) op'

/-! ### The rows of one command -/

theorem finish_append_rows {rows : List OperationExecution} {known : Prop} [Decidable known]
    {row row' : OperationExecution} {status : ExecutionStatus} {errorMessage : Option String}
    (h : row.finish status errorMessage = row') :
    (rows ++ if known then [row] else []).modify rows.length
        (fun r => r.finish status errorMessage)
      = rows ++ if known then [row'] else [] := by
  split_ifs
  · rw [modify_concat_length, h]
  · rw [List.append_nil, List.modify_eq_self le_rfl]

/-- The rows inserted last are closed. -/
theorem Tables.finish_add (t : Tables) (ids : ExecutionIds) (op : StoredOperation)
    (status status' : ExecutionStatus) (finished : Bool) (errorMessage : Option String) :
    (t.add ids op status none finished).finish t status' errorMessage
      = t.add ids op status' errorMessage true := by
  have hfinish (a b c : String) :
      (operationExecution a b c op status none finished).finish status' errorMessage
        = operationExecution a b c op status' errorMessage true := by
    cases errorMessage <;> rfl
  unfold Tables.finish Tables.add ExecutionIds.testRows ExecutionIds.itemRows
  simp only [finish_append_rows (hfinish _ _ _)]

theorem executeOne_of_error {s : ExecutionState σ} {op : StoredOperation} {data : Json} {e : String}
    (h : convertToConfigCommandType op.cfgJson = .error e) :
    executeOne executors ids scope s op data
      = ({ s with tables := s.tables.add ids op .running none false }, .error e) := by
  unfold executeOne
  rw [h]
  rfl

/-- **The rows of a command that can be read are closed, whatever the executors do.** -/
theorem executeOne_of_ok {s : ExecutionState σ} {op : StoredOperation} {data : Json}
    {cfg : ConfigurationCommandDto} (h : convertToConfigCommandType op.cfgJson = .ok cfg) :
    (∀ env e, attempt executors ids scope s.env op cfg data = (env, .error e) →
        ∃ env', executeOne executors ids scope s op data
          = ({ env := env', tables := s.tables.add ids op .error (some e) true }, .error e)) ∧
      ∀ env result, attempt executors ids scope s.env op cfg data = (env, .ok result) →
        executeOne executors ids scope s op data
          = ({ env, tables := s.tables.add ids op .success none true }, .ok result) := by
  unfold executeOne attempt
  rw [h]
  simp only [Tables.insert, closeFailed]
  match hrun : runCommand executors scope s.env op cfg data with
  | (env, .error e) =>
    simp only [Tables.finish_add, Prod.mk.injEq, Except.error.injEq, reduceCtorEq, and_false,
      false_implies, implies_true, and_true]
    rintro env' e' ⟨rfl, rfl⟩
    exact ⟨_, ⟨rfl, rfl⟩⟩
  | (env, .ok (contract, result)) =>
    simp only
    match hpublish : publishSuccess executors ids scope env op contract result with
    | (env', .error e) =>
      simp only [Tables.finish_add, Prod.mk.injEq, Except.error.injEq, reduceCtorEq, and_false,
        false_implies, implies_true, and_true]
      rintro env'' e' ⟨rfl, rfl⟩
      exact ⟨_, ⟨rfl, rfl⟩⟩
    | (env', .ok ()) =>
      simp only [Tables.finish_add, Prod.mk.injEq, reduceCtorEq, and_false, false_implies,
        implies_true, true_and, Except.ok.injEq]
      rintro env'' result' ⟨rfl, rfl⟩
      exact ⟨rfl, rfl⟩

theorem executeFrom_of_raised {s s' : ExecutionState σ} {acc : ExecutionResultDto}
    {op : StoredOperation} {operations : List StoredOperation} {e : String}
    (h : executeOne executors ids scope s op acc.data = (s', .error e)) :
    executeFrom executors ids scope s acc (op :: operations) = (s', .error e) := by
  rw [executeFrom, h]

theorem executeFrom_of_returned {s s' : ExecutionState σ} {acc new : ExecutionResultDto}
    {op : StoredOperation} {operations : List StoredOperation}
    (h : executeOne executors ids scope s op acc.data = (s', .ok new)) :
    executeFrom executors ids scope s acc (op :: operations)
      = executeFrom executors ids scope s' (acc.extend new) operations := by
  rw [executeFrom, h]

/-- What the first command of a run does: it cannot be read, or it raises, or it returns and
the run goes on. -/
theorem executeFrom_cons (s : ExecutionState σ) (acc : ExecutionResultDto) (op : StoredOperation)
    (operations : List StoredOperation) :
    (∃ e, convertToConfigCommandType op.cfgJson = .error e ∧
        executeFrom executors ids scope s acc (op :: operations)
          = ({ s with tables := s.tables.add ids op .running none false }, .error e)) ∨
      ∃ cfg, convertToConfigCommandType op.cfgJson = .ok cfg ∧
        ((∃ env env' e, attempt executors ids scope s.env op cfg acc.data = (env, .error e) ∧
            executeFrom executors ids scope s acc (op :: operations)
              = ({ env := env', tables := s.tables.add ids op .error (some e) true }, .error e)) ∨
          ∃ env result, attempt executors ids scope s.env op cfg acc.data = (env, .ok result) ∧
            executeFrom executors ids scope s acc (op :: operations)
              = executeFrom executors ids scope
                  { env, tables := s.tables.add ids op .success none true } (acc.extend result)
                  operations) := by
  obtain ⟨read, hread⟩ : ∃ read, convertToConfigCommandType op.cfgJson = read := ⟨_, rfl⟩
  cases read with
  | error e => exact .inl ⟨e, hread, executeFrom_of_raised (executeOne_of_error hread)⟩
  | ok cfg =>
    right
    refine ⟨cfg, hread, ?_⟩
    obtain ⟨hraised, hreturned⟩ := @executeOne_of_ok _ executors ids scope s op acc.data cfg hread
    match hattempt : attempt executors ids scope s.env op cfg acc.data with
    | (env, .error e) =>
      obtain ⟨env', hone⟩ := hraised env e hattempt
      exact .inl ⟨env, env', e, rfl, executeFrom_of_raised hone⟩
    | (env, .ok result) =>
      exact .inr ⟨env, result, rfl, executeFrom_of_returned (hreturned env result hattempt)⟩

/-! ### The rows of a run -/

/-- The tables have the rows they had, and others after them. -/
structure Tables.Extends (t t' : Tables) : Prop where
  testOperations : t.testOperations <+: t'.testOperations
  suiteItemOperations : t.suiteItemOperations <+: t'.suiteItemOperations

theorem Tables.Extends.refl (t : Tables) : t.Extends t := ⟨List.prefix_rfl, List.prefix_rfl⟩

theorem Tables.Extends.trans {t t' t'' : Tables} (h : t.Extends t') (h' : t'.Extends t'') :
    t.Extends t'' :=
  ⟨h.testOperations.trans h'.testOperations, h.suiteItemOperations.trans h'.suiteItemOperations⟩

theorem Tables.extends_add (t : Tables) (ids : ExecutionIds) (op : StoredOperation)
    (status : ExecutionStatus) (errorMessage : Option String) (finished : Bool) :
    t.Extends (t.add ids op status errorMessage finished) :=
  ⟨List.prefix_append _ _, List.prefix_append _ _⟩

/-- Rows of one command with two states do not extend each other. -/
theorem status_eq_of_extends {t : Tables} {op : StoredOperation} {status status' : ExecutionStatus}
    {errorMessage errorMessage' : Option String} {finished finished' : Bool} (hknown : ids.Known)
    (h : (t.add ids op status errorMessage finished).Extends
      (t.add ids op status' errorMessage' finished')) : status = status' := by
  obtain ⟨htest, hitem⟩ := h
  simp only [Tables.add, List.prefix_append_right_inj] at htest hitem
  rcases hknown with hknown | hknown
  · rw [ExecutionIds.testRows, if_pos hknown, ExecutionIds.testRows, if_pos hknown] at htest
    have hrow := (List.cons_prefix_cons.1 htest).1
    exact congrArg OperationExecution.status hrow
  · rw [ExecutionIds.itemRows, if_pos hknown, ExecutionIds.itemRows, if_pos hknown] at hitem
    have hrow := (List.cons_prefix_cons.1 hitem).1
    exact congrArg OperationExecution.status hrow

/-- A command has no rows where its executions are not known. -/
theorem Tables.add_of_not_known (t : Tables) {ids : ExecutionIds} (h : ¬ ids.Known)
    (op : StoredOperation) (status : ExecutionStatus) (errorMessage : Option String)
    (finished : Bool) : t.add ids op status errorMessage finished = t := by
  obtain ⟨htest, hitem⟩ := not_or.1 h
  rw [Tables.add, ExecutionIds.testRows, if_neg htest, ExecutionIds.itemRows, if_neg hitem,
    List.append_nil, List.append_nil]

theorem RowsClosed.extends {t t' : Tables} {operations : List StoredOperation}
    {outcome : Except String ExecutionResultDto} (h : RowsClosed ids t operations t' outcome) :
    t.Extends t' := by
  induction h with
  | done => exact .refl _
  | failed => exact Tables.extends_add _ _ _ _ _ _
  | succeeded rest ih => exact (Tables.extends_add _ _ _ _ _ _).trans ih

/-- **A run closes its rows where every command whose turn comes can be read, or where no
rows are inserted.** -/
theorem rowsClosed_executeFrom {s : ExecutionState σ} {acc : ExecutionResultDto}
    {operations : List StoredOperation}
    (h : ids.Known → ∀ op, TurnComes executors ids scope s.env acc.data operations op →
      ∃ cfg, convertToConfigCommandType op.cfgJson = .ok cfg) :
    RowsClosed ids s.tables operations
      (executeFrom executors ids scope s acc operations).1.tables
      (executeFrom executors ids scope s acc operations).2 := by
  induction operations generalizing s acc with
  | nil => exact .done
  | cons op operations ih =>
    rcases @executeFrom_cons _ executors ids scope s acc op operations with
      ⟨e, hread, hrun⟩ | ⟨cfg, hread, ⟨env, env', e, -, hrun⟩ | ⟨env, result, hattempt, hrun⟩⟩
    · have hunknown : ¬ ids.Known := by
        intro hknown
        obtain ⟨cfg, hcfg⟩ := h hknown op .first
        rw [hread] at hcfg
        simp at hcfg
      rw [hrun]
      have hfailed : RowsClosed ids s.tables (op :: operations) _ (.error e) := .failed
      rw [Tables.add_of_not_known _ hunknown] at hfailed
      simp only [Tables.add_of_not_known _ hunknown]
      exact hfailed
    · rw [hrun]
      exact .failed
    · rw [hrun]
      refine .succeeded (@ih ⟨env, s.tables.add ids op .success none true⟩ (acc.extend result) ?_)
      intro hknown op' hop'
      exact h hknown op' (.later hread hattempt hop')

/-- Where the rows are closed, the first command has failed or has succeeded. -/
theorem RowsClosed.first {t t' : Tables} {op : StoredOperation} {operations : List StoredOperation}
    {outcome : Except String ExecutionResultDto}
    (h : RowsClosed ids t (op :: operations) t' outcome) :
    (∃ message, outcome = .error message ∧ t' = t.add ids op .error (some message) true) ∨
      RowsClosed ids (t.add ids op .success none true) operations t' outcome := by
  cases h with
  | failed => exact .inl ⟨_, rfl, rfl⟩
  | succeeded rest => exact .inr rest

/-- Rows that are running are not closed. -/
theorem not_rowsClosed_running {t : Tables} {op : StoredOperation}
    {operations : List StoredOperation} {outcome : Except String ExecutionResultDto}
    (hknown : ids.Known) :
    ¬ RowsClosed ids t (op :: operations) (t.add ids op .running none false) outcome := by
  intro h
  rcases h.first with ⟨message, -, heq⟩ | hrest
  · have hextends := Tables.Extends.refl (t.add ids op .running none false)
    nth_rewrite 2 [heq] at hextends
    have hstatus := status_eq_of_extends hknown hextends
    simp at hstatus
  · have hstatus := status_eq_of_extends hknown hrest.extends
    simp at hstatus

/-- A run leaves the rows there were. -/
theorem extends_executeFrom (s : ExecutionState σ) (acc : ExecutionResultDto)
    (operations : List StoredOperation) :
    s.tables.Extends (executeFrom executors ids scope s acc operations).1.tables := by
  induction operations generalizing s acc with
  | nil => exact .refl _
  | cons op operations ih =>
    rcases @executeFrom_cons _ executors ids scope s acc op operations with
      ⟨e, -, hrun⟩ | ⟨cfg, -, ⟨env, env', e, -, hrun⟩ | ⟨env, result, -, hrun⟩⟩
    · rw [hrun]
      exact Tables.extends_add _ _ _ _ _ _
    · rw [hrun]
      exact Tables.extends_add _ _ _ _ _ _
    · rw [hrun]
      exact (Tables.extends_add _ _ _ _ _ _).trans
        (ih ⟨env, s.tables.add ids op .success none true⟩ (acc.extend result))

/-- **Where a run closes its rows, and has some, every command whose turn comes can be
read.** -/
theorem read_of_rowsClosed {s : ExecutionState σ} {acc : ExecutionResultDto}
    {operations : List StoredOperation} (hknown : ids.Known)
    (h : RowsClosed ids s.tables operations
      (executeFrom executors ids scope s acc operations).1.tables
      (executeFrom executors ids scope s acc operations).2) :
    ∀ op, TurnComes executors ids scope s.env acc.data operations op →
      ∃ cfg, convertToConfigCommandType op.cfgJson = .ok cfg := by
  induction operations generalizing s acc with
  | nil =>
    intro op hop
    cases hop
  | cons op operations ih =>
    rcases @executeFrom_cons _ executors ids scope s acc op operations with
      ⟨e, -, hrun⟩ | ⟨cfg, hread, ⟨env, env', e, hattempt, -⟩ | ⟨env, result, hattempt, hrun⟩⟩
    · rw [hrun] at h
      exact absurd h (not_rowsClosed_running hknown)
    · intro op' hop'
      cases hop' with
      | first => exact ⟨cfg, hread⟩
      | later hread' hattempt' hrest =>
        rw [hread] at hread'
        obtain rfl := Except.ok.inj hread'
        rw [hattempt] at hattempt'
        simp at hattempt'
    · rw [hrun] at h
      have hclosed := h.first
      intro op' hop'
      cases hop' with
      | first => exact ⟨cfg, hread⟩
      | later hread' hattempt' hrest =>
        rw [hread] at hread'
        obtain rfl := Except.ok.inj hread'
        rw [hattempt] at hattempt'
        obtain ⟨rfl, hresult⟩ := Prod.mk.inj hattempt'
        obtain rfl := Except.ok.inj hresult
        rcases hclosed with ⟨message, -, heq⟩ | hclosed
        · -- the run goes on from the rows of a success
          have hextends := @extends_executeFrom _ executors ids scope
            { env, tables := s.tables.add ids op .success none true } (acc.extend result) operations
          rw [heq] at hextends
          have hstatus := status_eq_of_extends hknown hextends
          simp at hstatus
        · exact @ih ⟨env, s.tables.add ids op .success none true⟩ (acc.extend result) hclosed op'
            hrest

/-- Rows that are closed have a final status and a finish time. -/
theorem RowsClosed.finished {t t' : Tables} {operations : List StoredOperation}
    {outcome : Except String ExecutionResultDto} (h : RowsClosed ids t operations t' outcome) :
    (∃ added, t'.testOperations = t.testOperations ++ added ∧
        ∀ row ∈ added, row.status ≠ .running ∧ row.finished = true) ∧
      ∃ added, t'.suiteItemOperations = t.suiteItemOperations ++ added ∧
        ∀ row ∈ added, row.status ≠ .running ∧ row.finished = true := by
  have hrow (op : StoredOperation) (status : ExecutionStatus) (errorMessage : Option String)
      (hstatus : status ≠ .running) :
      (∀ row ∈ ids.testRows op status errorMessage true,
          row.status ≠ .running ∧ row.finished = true) ∧
        ∀ row ∈ ids.itemRows op status errorMessage true,
          row.status ≠ .running ∧ row.finished = true := by
    unfold ExecutionIds.testRows ExecutionIds.itemRows
    constructor
    · split_ifs <;> simp [operationExecution, hstatus]
    · split_ifs <;> simp [operationExecution, hstatus]
  induction h with
  | done => exact ⟨⟨[], by simp⟩, [], by simp⟩
  | @failed _ op _ message =>
    obtain ⟨htest, hitem⟩ := hrow op .error (some message) (by decide)
    exact ⟨⟨_, rfl, htest⟩, _, rfl, hitem⟩
  | @succeeded _ _ op _ _ rest ih =>
    obtain ⟨htest, hitem⟩ := hrow op .success none (by decide)
    obtain ⟨⟨added, htests, hadded⟩, added', hitems, hadded'⟩ := ih
    rw [Tables.add, List.append_assoc] at htests hitems
    exact ⟨⟨_, htests, List.forall_mem_append.2 ⟨htest, hadded⟩⟩, _, hitems,
      List.forall_mem_append.2 ⟨hitem, hadded'⟩⟩

/-- **The rows of a run are closed just where every command whose turn comes can be read, or
where no rows are inserted.** -/
theorem rowsClosed_iff (s : ExecutionState σ) (operations : List StoredOperation) (data : Json) :
    RowsClosed ids s.tables operations
        (executeOperations executors ids scope s operations data).1.tables
        (executeOperations executors ids scope s operations data).2
      ↔ (ids.Known → ∀ op, TurnComes executors ids scope s.env data operations op →
          ∃ cfg, convertToConfigCommandType op.cfgJson = .ok cfg) :=
  ⟨fun h hknown => read_of_rowsClosed hknown h, fun h =>
    @rowsClosed_executeFrom _ executors ids scope s { data, result := [] } operations h⟩

end

/-! ### A configuration that cannot be read -/

/-- Executors that return what came in. -/
def quietExecutors : Executors Unit where
  executeOperation env _ _ data := (env, .ok { data, result := [] })
  publishResult env _ := (env, .ok ())
  publishError env _ := env

/-- The ids of a test of a suite. -/
def testIds : ExecutionIds where
  executionId := "run"
  suiteExecutionId := ""
  suiteTestExecutionId := ""
  suiteTestId := ""
  testSuiteExecutionId := "run"
  suiteItemExecutionId := "test run"
  suiteItemId := "test"

/-- A stored command. -/
def storedOperation (cfg : List (String × Json)) : StoredOperation where
  id := "command"
  configurationJson := .obj cfg
  description := "wait"
  order := 1

theorem convert_empty :
    convertToConfigCommandType (storedOperation []).cfgJson
      = .error "Unsupported command code: " := by
  rw [← raised?_eq_some]
  decide +kernel

theorem known_testIds : testIds.Known := by
  right
  decide +kernel

/-- **A command whose configuration cannot be read leaves a row that is running.** -/
theorem row_left_running :
    (executeOperations quietExecutors testIds (some .test) { env := (), tables := ⟨[], []⟩ }
        [storedOperation []] .null).1.tables.suiteItemOperations
      = [operationExecution "run" "test run" "test" (storedOperation []) .running none false] ∧
      ¬ RowsClosed testIds ⟨[], []⟩ [storedOperation []]
        (executeOperations quietExecutors testIds (some .test) { env := (), tables := ⟨[], []⟩ }
          [storedOperation []] .null).1.tables
        (executeOperations quietExecutors testIds (some .test) { env := (), tables := ⟨[], []⟩ }
          [storedOperation []] .null).2 := by
  have hrun : executeOperations quietExecutors testIds (some .test)
      { env := (), tables := ⟨[], []⟩ } [storedOperation []] .null
        = ({ env := (), tables := (Tables.mk [] []).add testIds (storedOperation []) .running none
              false }, .error "Unsupported command code: ") :=
    executeFrom_of_raised (executeOne_of_error convert_empty)
  rw [hrun]
  refine ⟨?_, not_rowsClosed_running known_testIds⟩
  decide +kernel

end Suite
end QualityFlow
