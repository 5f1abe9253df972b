/-
# Triggering schedules

`app/elaborations/services/test_suite_schedules/test_suite_scheduler_service.py` over the
rows of `_alembic/models/test_suite_schedule_entity.py`.

Each call works in a session of its own.  A session that a call raises in is rolled back
(`managed_session`), so that whatever the call wrote before it raised is lost.

What happens outside the session is given for each call: the rows of executions that it
reads, and whether the executor thread it starts can be started.  An id of `uuid4` is the
number of its draw, so that no two of them are the same.
-/

import Mathlib.Data.List.Sort
import QualityFlow.Schedule.Times

namespace QualityFlow
namespace Schedule

open Py

/-! ### Rows -/

/-- An id that `uuid4` has drawn. -/
abbrev Uuid := ℕ

/-- `TestSuiteScheduleEntity`. -/
structure ScheduleRow where
  id : String
  testSuiteId : String
  active : Bool
  frequencyUnit : String
  frequencyValue : ℤ
  startAt : Option ℤ
  endAt : Option ℤ
  nextRunAt : Option ℤ
  lastRunAt : Option ℤ
  lastStatus : String
  lastExecutionId : Option Uuid
  lastErrorMessage : Option String
deriving DecidableEq

/-- `TestSuiteExecutionEntity`. -/
structure ExecutionRow where
  id : Uuid
  testSuiteId : String
  status : String
  errorMessage : Option String
deriving DecidableEq

/-- The tables of the suites and of their schedules, with the keys they keep. -/
structure Db where
  suites : List String
  schedules : List ScheduleRow
  ids_nodup : (schedules.map ScheduleRow.id).Nodup
  suite_mem : ∀ s ∈ schedules, s.testSuiteId ∈ suites

/-- What a call finds outside its session. -/
structure Env where
  /-- The rows of `test_suite_executions` that it reads. -/
  executions : List ExecutionRow
  /-- What `execute_test_suite_by_id` does. -/
  start : Except String Uuid

namespace Db

/-- `get_by_id`. -/
def getById (db : Db) (id : String) : Option ScheduleRow := db.schedules.find? (·.id = id)

/-- The rows after an update of some of them that keeps their keys. -/
def mapRows (db : Db) (f : ScheduleRow → ScheduleRow) (hid : ∀ s, (f s).id = s.id)
    (hsuite : ∀ s, (f s).testSuiteId = s.testSuiteId) : Db where
  suites := db.suites
  schedules := db.schedules.map f
  ids_nodup := by
    rw [List.map_map]
    exact (List.map_congr_left fun s _ => hid s) ▸ db.ids_nodup
  suite_mem := by
    intro s hs
    obtain ⟨r, hr, rfl⟩ := List.mem_map.1 hs
    rw [hsuite r]
    exact db.suite_mem r hr

end Db

/-! ### Updates of a row -/

/-- The keyword arguments of a call of `update_fields`. -/
inductive Fields where
  /-- The validity window has ended. -/
  | expired
  /-- The suite is already running. -/
  | skipped (nextRunAt : Option ℤ)
  /-- The execution could not be started. -/
  | failed (nextRunAt : Option ℤ) (message : String)
  | started (nextRunAt : Option ℤ) (now : ℤ) (executionId : Uuid)
  /-- The execution of the schedule has ended. -/
  | synced (status : String) (errorMessage : Option String)
deriving DecidableEq

/-- `setattr` for each of them. -/
def Fields.set : Fields → ScheduleRow → ScheduleRow
  | .expired, s => { s with active := false, nextRunAt := none, lastStatus := "idle" }
  | .skipped nextRunAt, s =>
    { s with
      nextRunAt, lastStatus := "skipped"
      lastErrorMessage := some "Skipped because the suite is already running." }
  | .failed nextRunAt message, s =>
    { s with nextRunAt, lastStatus := "error", lastErrorMessage := some message }
  | .started nextRunAt now executionId, s =>
    { s with
      nextRunAt, lastRunAt := some now, lastStatus := "running"
      lastExecutionId := some executionId, lastErrorMessage := none }
  | .synced status errorMessage, s =>
    { s with lastStatus := status, lastErrorMessage := errorMessage }

@[simp] theorem Fields.set_id (f : Fields) (s : ScheduleRow) : (f.set s).id = s.id := by
  cases f <;> rfl

@[simp] theorem Fields.set_testSuiteId (f : Fields) (s : ScheduleRow) :
    (f.set s).testSuiteId = s.testSuiteId := by
  cases f <;> rfl

/-- `update_fields`. -/
def Db.updateFields (db : Db) (id : String) (fields : Fields) : Db :=
  db.mapRows (fun s => if s.id = id then fields.set s else s)
    (fun s => by split <;> simp) (fun s => by split <;> simp)

/-! ### The state of what a schedule has started -/

/-- What `_refresh_running_schedule_states` sets in a row. -/
def syncedFields? (executions : List ExecutionRow) (s : ScheduleRow) : Option Fields :=
  if s.lastStatus = "running" then
    s.lastExecutionId.bind fun executionId =>
      (executions.find? (·.id = executionId)).bind fun execution =>
        let status := lower (strip execution.status)
        let message := strip (execution.errorMessage.getD "")
        if status = "running" then none
        else some (.synced (if status = "" then "error" else status)
          (if message = "" then none else some message))
  else none

/-- One turn of the loop of `_refresh_running_schedule_states`. -/
def refreshRow (executions : List ExecutionRow) (s : ScheduleRow) : ScheduleRow :=
  match syncedFields? executions s with
  | some fields => fields.set s
  | none => s

@[simp] theorem refreshRow_id (executions : List ExecutionRow) (s : ScheduleRow) :
    (refreshRow executions s).id = s.id := by
  unfold refreshRow
  split
  · rw [Fields.set_id]
  · rfl

@[simp] theorem refreshRow_testSuiteId (executions : List ExecutionRow) (s : ScheduleRow) :
    (refreshRow executions s).testSuiteId = s.testSuiteId := by
  unfold refreshRow
  split
  · rw [Fields.set_testSuiteId]
  · rfl

/-- `_refresh_running_schedule_states`.  Each turn reads and writes one row, so that they
may be taken in any order. -/
def Db.refresh (db : Db) (executions : List ExecutionRow) : Db :=
  db.mapRows (refreshRow executions) (refreshRow_id executions) (refreshRow_testSuiteId executions)

/-- How many rows `_refresh_running_schedule_states` updates. -/
def Db.refreshCount (db : Db) (executions : List ExecutionRow) : ℕ :=
  db.schedules.countP fun s => (syncedFields? executions s).isSome

/-- `has_running_execution`. -/
def hasRunningExecution (executions : List ExecutionRow) (testSuiteId : String) : Bool :=
  executions.any fun e => e.testSuiteId = testSuiteId ∧ e.status = "running"

/-! ### A trigger -/

/-- What `trigger_schedule` returns. -/
structure TriggerResult where
  id : String
  testSuiteId : String
  status : String
  executionId : Option Uuid
  message : String
deriving DecidableEq

/-- `_serialize_trigger_result`. -/
def serializeTriggerResult (s : ScheduleRow) (status : String) (executionId : Option Uuid)
    (message : String) : TriggerResult :=
  { id := s.id, testSuiteId := s.testSuiteId, status, executionId, message }

/-- The checks of `trigger_schedule` before it looks at the executions of the suite. -/
inductive Gate where
  | inactive
  | notDue
  | expired
  | passed
deriving DecidableEq

def gate (manual : Bool) (now : ℤ) (s : ScheduleRow) : Gate :=
  if manual = false ∧ s.active = false then .inactive
  else if manual = false ∧ s.startAt.any (now < ·) then .notDue
  else if manual = false ∧ s.endAt.any (· < now) then .expired
  else .passed

/-- The next run of a schedule from `now` on; the clock has no offset, and so neither has
the result. -/
def recompute (now : ℤ) (s : ScheduleRow) : Except String (Option ℤ) :=
  Option.map Datetime.wall <$>
    computeNextRunAt s.active s.frequencyUnit s.frequencyValue (s.startAt.map naive)
      (s.endAt.map naive) (naive now) (some (naive now))

/-- What a trigger sets in the row where the suite is already running. -/
def skippedFields (now : ℤ) (s : ScheduleRow) : Except String Fields :=
  Fields.skipped <$> if s.active then recompute now s else .ok s.nextRunAt

/-- What a trigger sets in the row where the execution cannot be started. -/
def failedFields (now : ℤ) (message : String) (s : ScheduleRow) : Except String Fields :=
  (Fields.failed · message) <$> if s.active then recompute now s else .ok none

/-- What a trigger sets in the row where it has started an execution. -/
def startedFields (now : ℤ) (executionId : Uuid) (s : ScheduleRow) : Except String Fields :=
  (Fields.started · now executionId) <$> if s.active then recompute now s else .ok none

/-- `managed_session`: a session that is raised in is rolled back. -/
def managedSession {α : Type} (body : Db → Except String α × Db) (db : Db) : Except String α × Db :=
  match body db with
  | (.ok a, db') => (.ok a, db')
  | (.error e, _) => (.error e, db)

/-- The session of `trigger_schedule`. -/
def triggerSession (env : Env) (manual : Bool) (now : ℤ) (scheduleId : String) (db : Db) :
    Except String TriggerResult × Db :=
  match db.getById scheduleId with
  | none => (.error s!"No test suite schedule found with id [ {scheduleId} ]", db)
  | some schedule =>
    if schedule.testSuiteId ∉ db.suites then
      (.error s!"No test suite found with id [ {schedule.testSuiteId} ]", db)
    else
      let db := db.refresh env.executions
      match gate manual now schedule with
      | .inactive =>
        (.ok (serializeTriggerResult schedule "inactive" none "Schedule is inactive."), db)
      | .notDue =>
        (.ok (serializeTriggerResult schedule "not_due" none
          "Schedule is not within the active window yet."), db)
      | .expired =>
        (.ok (serializeTriggerResult schedule "expired" none
          "Schedule validity window has ended."), db.updateFields schedule.id .expired)
      | .passed =>
        if hasRunningExecution env.executions schedule.testSuiteId then
          match skippedFields now schedule with
          | .error e => (.error e, db)
          | .ok fields =>
            (.ok (serializeTriggerResult schedule "skipped" none
              "Skipped because the suite is already running."),
              db.updateFields schedule.id fields)
        else
          match env.start with
          | .error exc =>
            match failedFields now exc schedule with
            | .error e => (.error e, db)
            -- the handler raises again, out of the session
            | .ok fields => (.error exc, db.updateFields schedule.id fields)
          | .ok executionId =>
            match startedFields now executionId schedule with
            | .error e => (.error e, db)
            | .ok fields =>
              (.ok (serializeTriggerResult schedule "started" (some executionId)
                "Scheduled execution started."), db.updateFields schedule.id fields)

/-- `trigger_schedule`. -/
def triggerSchedule (env : Env) (manual : Bool) (now : ℤ) (scheduleId : String) :
    Db → Except String TriggerResult × Db :=
  managedSession (triggerSession env manual now scheduleId)

/-- `sync_schedule_execution_states`. -/
def syncScheduleExecutionStates (env : Env) : Db → Except String ℕ × Db :=
  managedSession fun db => (.ok (db.refreshCount env.executions), db.refresh env.executions)

/-! ### What a trigger does -/

namespace Db

variable {db : Db}

theorem getById_eq_some {id : String} {s : ScheduleRow} :
    db.getById id = some s ↔ s ∈ db.schedules ∧ s.id = id := by
  constructor
  · intro h
    exact ⟨List.mem_of_find?_eq_some h, by simpa using List.find?_some h⟩
  · rintro ⟨hmem, rfl⟩
    unfold getById
    cases hfind : db.schedules.find? (·.id = s.id) with
    | none => exact absurd (List.find?_eq_none.1 hfind s hmem) (by simp)
    | some t =>
      have ht : t ∈ db.schedules := List.mem_of_find?_eq_some hfind
      have hid : t.id = s.id := by simpa using List.find?_some hfind
      rw [List.inj_on_of_nodup_map db.ids_nodup ht hmem hid]

theorem getById_mapRows {f : ScheduleRow → ScheduleRow} {hid : ∀ s, (f s).id = s.id}
    {hsuite : ∀ s, (f s).testSuiteId = s.testSuiteId} (id : String) :
    (db.mapRows f hid hsuite).getById id = (db.getById id).map f := by
  unfold getById mapRows
  rw [List.find?_map]
  congr 2
  funext s
  simp [hid s]

@[simp] theorem getById_refresh (executions : List ExecutionRow) (id : String) :
    (db.refresh executions).getById id = (db.getById id).map (refreshRow executions) :=
  getById_mapRows id

theorem getById_updateFields_self {id : String} {fields : Fields} {s : ScheduleRow}
    (h : db.getById id = some s) : (db.updateFields id fields).getById id = some (fields.set s) := by
  rw [updateFields, getById_mapRows, h, Option.map_some, if_pos (getById_eq_some.1 h).2]

theorem getById_updateFields_of_ne {id id' : String} (h : id' ≠ id) (fields : Fields) :
    (db.updateFields id fields).getById id' = db.getById id' := by
  rw [updateFields, getById_mapRows]
  cases hfind : db.getById id' with
  | none => rfl
  | some s =>
    have hne : s.id ≠ id := (getById_eq_some.1 hfind).2.trans_ne h
    rw [Option.map_some, if_neg hne]

end Db

/-- What a trigger sets in its row, and how it returns. -/
inductive Booked (env : Env) (manual : Bool) (now : ℤ) (s : ScheduleRow) : Option Fields → Prop
  | kept (h : gate manual now s = .inactive ∨ gate manual now s = .notDue) :
    Booked env manual now s none
  | expired (h : gate manual now s = .expired) : Booked env manual now s (some .expired)
  | skipped {fields : Fields} (h : gate manual now s = .passed)
    (hrunning : hasRunningExecution env.executions s.testSuiteId = true)
    (hfields : skippedFields now s = .ok fields) : Booked env manual now s (some fields)
  | started {executionId : Uuid} {fields : Fields} (h : gate manual now s = .passed)
    (hrunning : hasRunningExecution env.executions s.testSuiteId = false)
    (hstart : env.start = .ok executionId) (hfields : startedFields now executionId s = .ok fields) :
    Booked env manual now s (some fields)

/-- The tables after a trigger that has booked these fields. -/
def Db.book (db : Db) (executions : List ExecutionRow) (id : String) : Option Fields → Db
  | none => db.refresh executions
  | some fields => (db.refresh executions).updateFields id fields

/-- **A trigger that returns has booked what its turn asks for**, and the states of what
has ended. -/
theorem triggerSchedule_ok {env : Env} {manual : Bool} {now : ℤ} {id : String} {db db' : Db}
    {r : TriggerResult} (h : triggerSchedule env manual now id db = (.ok r, db')) :
    ∃ s fields?, db.getById id = some s ∧ Booked env manual now s fields? ∧
      db' = db.book env.executions id fields? := by
  unfold triggerSchedule managedSession at h
  split at h
  · rename_i r' db'' hsession
    obtain ⟨-, rfl⟩ := Prod.mk.inj h
    unfold triggerSession at hsession
    split at hsession
    · exact absurd hsession (by simp)
    · rename_i s hs
      obtain rfl := (Db.getById_eq_some.1 hs).2
      refine ⟨s, ?_⟩
      split at hsession
      · exact absurd hsession (by simp)
      · simp only at hsession
        split at hsession
        · rename_i hgate
          exact ⟨none, hs, .kept (.inl hgate), (Prod.mk.inj hsession).2.symm⟩
        · rename_i hgate
          exact ⟨none, hs, .kept (.inr hgate), (Prod.mk.inj hsession).2.symm⟩
        · rename_i hgate
          exact ⟨_, hs, .expired hgate, (Prod.mk.inj hsession).2.symm⟩
        · rename_i hgate
          split at hsession
          · rename_i hrunning
            split at hsession
            · exact absurd hsession (by simp)
            · rename_i fields hfields
              exact ⟨_, hs, .skipped hgate hrunning hfields, (Prod.mk.inj hsession).2.symm⟩
          · rename_i hrunning
            have hrunning : hasRunningExecution env.executions s.testSuiteId = false := by
              simpa using hrunning
            split at hsession
            · split at hsession <;> exact absurd hsession (by simp)
            · rename_i executionId hstart
              split at hsession
              · exact absurd hsession (by simp)
              · rename_i fields hfields
                exact ⟨_, hs, .started hgate hrunning hstart hfields,
                  (Prod.mk.inj hsession).2.symm⟩
  · exact absurd h (by simp)

/-- A trigger that raises leaves the tables as they were. -/
theorem triggerSchedule_error {env : Env} {manual : Bool} {now : ℤ} {id : String} {db db' : Db}
    {e : String} (h : triggerSchedule env manual now id db = (.error e, db')) : db' = db := by
  unfold triggerSchedule managedSession at h
  split at h
  · exact absurd h (by simp)
  · exact (Prod.mk.inj h).2.symm

/-- A trigger with something to book returns. -/
theorem triggerSchedule_of_booked {env : Env} {manual : Bool} {now : ℤ} {id : String} {db : Db}
    {s : ScheduleRow} {fields? : Option Fields} (hs : db.getById id = some s)
    (h : Booked env manual now s fields?) :
    ∃ r, triggerSchedule env manual now id db = (.ok r, db.book env.executions id fields?) := by
  obtain ⟨hmem, rfl⟩ := Db.getById_eq_some.1 hs
  have hsuite : ¬s.testSuiteId ∉ db.suites := not_not.2 (db.suite_mem s hmem)
  unfold triggerSchedule managedSession triggerSession
  simp only [hs, if_neg hsuite]
  cases h with
  | kept h =>
    rcases h with h | h <;> simp only [h] <;> exact ⟨_, rfl⟩
  | expired h =>
    simp only [h]
    exact ⟨_, rfl⟩
  | skipped h hrunning hfields =>
    simp only [h, hrunning, hfields, if_true]
    exact ⟨_, rfl⟩
  | started h hrunning hstart hfields =>
    simp only [h, hrunning, hstart, hfields, Bool.false_eq_true, if_false]
    exact ⟨_, rfl⟩

/-! ### A pass -/

/-- The condition of `get_due_schedules`. -/
def isDue (now : ℤ) (s : ScheduleRow) : Bool := s.active && s.nextRunAt.any (· ≤ now)

/-- The order of `get_due_schedules`. -/
def dueBefore (s t : ScheduleRow) : Prop :=
  s.nextRunAt.getD 0 < t.nextRunAt.getD 0 ∨
    s.nextRunAt.getD 0 = t.nextRunAt.getD 0 ∧ s.id ≤ t.id

instance : DecidableRel dueBefore := fun _ _ => inferInstanceAs (Decidable (_ ∨ _))

/-- `get_due_schedules`. -/
def getDueSchedules (now : ℤ) (db : Db) : List ScheduleRow :=
  (db.schedules.filter (isDue now)).insertionSort dueBefore

/-- What a pass leaves behind: what it returns, the schedules it has called
`trigger_schedule` for, and the tables. -/
structure Pass where
  result : Except String (List TriggerResult)
  triggered : List String
  db : Db

/-- The loop of `process_due_schedules`; an exception leaves it. -/
def triggerAll (envs : ℕ → Env) (now : ℤ) : ℕ → List String → Db → Pass
  | _, [], db => ⟨.ok [], [], db⟩
  | i, id :: ids, db =>
    match triggerSchedule (envs i) false now id db with
    | (.error e, db') => ⟨.error e, [id], db'⟩
    | (.ok r, db') =>
      let rest := triggerAll envs now (i + 1) ids db'
      ⟨(r :: ·) <$> rest.result, id :: rest.triggered, rest.db⟩

/-- `process_due_schedules`: the first session is that of the states, and each trigger has
one of its own. -/
def processDueSchedules (envs : ℕ → Env) (now : ℤ) (db : Db) : Pass :=
  let db := (syncScheduleExecutionStates (envs 0) db).2
  triggerAll envs now 1 ((getDueSchedules now db).map ScheduleRow.id) db

end Schedule
end QualityFlow
