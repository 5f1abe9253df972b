/-
# The live view of an execution

`_apply_event` of `app/ui/test_suites/services/execution_stream_service.py`.

The state of an execution keeps the last thousand events, and a view that the events change:
the statuses of the items and of the operations, and the status of the suite.  An event of
another name than the handled ones leaves the view as it is.
-/

import Mathlib.Data.List.DropRight
import QualityFlow.Py.Json

namespace QualityFlow
namespace Ui

open Py

/-- An event as it is received: its name and its data. -/
structure StreamEvent where
  name : String
  data : List (String × Json)

/-- The fields of an execution state that the events of a run change. -/
structure LiveView where
  running : Bool
  status : String
  executedTests : ℤ
  totalTests : ℤ
  itemStatus : Dict String String
  itemError : Dict String String
  operationStatus : Dict String String
  operationError : Dict String String
deriving DecidableEq

/-- An execution state. -/
structure ExecutionState extends LiveView where
  events : List StreamEvent

/-- The view of an execution of which nothing is known. -/
def LiveView.new : LiveView where
  running := true
  status := "running"
  executedTests := 0
  totalTests := 0
  itemStatus := []
  itemError := []
  operationStatus := []
  operationError := []

/-- `_new_execution_state`. -/
def newExecutionState : ExecutionState := { LiveView.new with events := [] }

/-- `_operation_key`. -/
def operationKey (suiteItemId operationId : String) : String := suiteItemId ++ ":" ++ operationId

/-- `str(value or default)`. -/
def textOr (default : String) (value : Json) : String :=
  if value.truthy then value.pyStr else default

/-- `int(value or 0)`, where that is a number. -/
def countOf (value : Json) : Option ℤ :=
  if value.truthy then
    match value with
    | .bool b => some (if b then 1 else 0)
    | .int n => some n
    | .float q => some (q.num.tdiv q.den)
    | .str s => intOfText s
    | _ => none
  else some 0

theorem countOf_int (n : ℤ) : countOf (.int n) = some n := by
  by_cases h : n = 0
  · subst h
    rfl
  · simp [countOf, Json.truthy, h]

/-- `str(value or "").strip() or "idle"`. -/
def statusOf (value : Json) : String := if value.token = "" then "idle" else value.token

/-- The errors after a status: `error` has a text, and any other status has none. -/
def noteError (errors : Dict String String) (key status : String) (error : Json) :
    Dict String String :=
  if status = "error" then errors.set key (textOr "" error) else errors.erase key

/-- What `_apply_event` does with the view, unless a count is no number. -/
def applyView (view : LiveView) (event : StreamEvent) : Option LiveView :=
  let suiteItemId := (Json.field event.data "suite_item_id").token
  let status := statusOf (Json.field event.data "status")
  let error := Json.field event.data "error"
  match event.name with
  | "suite_started" => some LiveView.new
  | "suite_progress" => do
    let executedTests ← countOf (Json.field event.data "executed_tests")
    let totalTests ← countOf (Json.field event.data "total_tests")
    return { view with executedTests, totalTests }
  | "test_started" | "hook_started" =>
    some (if suiteItemId = "" then view
      else { view with itemStatus := view.itemStatus.set suiteItemId "running" })
  | "test_finished" | "hook_finished" =>
    some (if suiteItemId = "" then view
      else { view with
        itemStatus := view.itemStatus.set suiteItemId status
        itemError := noteError view.itemError suiteItemId status error })
  | "operation_finished" =>
    let operationId := (Json.field event.data "operation_id").token
    let key := operationKey suiteItemId operationId
    some (if suiteItemId = "" ∨ operationId = "" then view
      else { view with
        operationStatus := view.operationStatus.set key status
        operationError := noteError view.operationError key status error })
  | "suite_finished" =>
    some { view with
      running := false, status := textOr "finished" (Json.field event.data "status") }
  | _ => some view

/-- `_append_event`. -/
def appendEvent {α : Type} (events : List α) (event : α) : List α :=
  let events := events ++ [event]
  if 1000 < events.length then events.rtake 1000 else events

/-- `_apply_event`. -/
def applyEvent (state : ExecutionState) (event : StreamEvent) : Option ExecutionState := do
  let view ← applyView state.toLiveView event
  return { view with events := appendEvent state.events event }

/-- The state after some events. -/
def follow (events : List StreamEvent) : Option ExecutionState :=
  events.foldlM applyEvent newExecutionState

/-! ### The view alone -/

/-- The events that are kept do not matter to the view. -/
theorem map_toLiveView_foldlM (events : List StreamEvent) (state : ExecutionState) :
    (events.foldlM applyEvent state).map ExecutionState.toLiveView =
      events.foldlM applyView state.toLiveView := by
  induction events generalizing state with
  | nil => rfl
  | cons event events ih =>
    rw [List.foldlM_cons, List.foldlM_cons, applyEvent]
    cases applyView state.toLiveView event with
    | none => rfl
    | some view => exact ih { view with events := appendEvent state.events event }

/-- Events that leave the view as it is can be left out. -/
theorem foldlM_applyView_filter {p : StreamEvent → Bool} (events : List StreamEvent)
    (hp : ∀ view, ∀ event ∈ events, p event = false → applyView view event = some view)
    (view : LiveView) :
    (events.filter p).foldlM applyView view = events.foldlM applyView view := by
  induction events generalizing view with
  | nil => rfl
  | cons event events ih =>
    have hrest := ih fun view e he => hp view e (List.mem_cons_of_mem _ he)
    rw [List.foldlM_cons]
    cases hevent : p event with
    | false =>
      rw [List.filter_cons_of_neg (by simp [hevent]), hrest,
        hp view event List.mem_cons_self hevent]
      rfl
    | true =>
      rw [List.filter_cons_of_pos hevent, List.foldlM_cons]
      exact bind_congr hrest

end Ui
end QualityFlow
