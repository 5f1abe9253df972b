/-
# The requests on schedules

`app/elaborations/api/test_suite_schedules_api.py` and
`app/elaborations/models/dtos/test_suite_schedule_dto.py`, with the triggers and the passes
of the scheduler between them.

A request that raises leaves the tables as they were.  A bound of a request may have a UTC
offset; its column has none, and the database stores the local time of its session.
-/

import QualityFlow.Schedule.Pass

namespace QualityFlow
namespace Schedule

open Py

/-! ### Requests -/

/-- `CreateTestSuiteScheduleDto`, and `UpdateTestSuiteScheduleDto` without its id. -/
structure ScheduleDto where
  testSuiteId : String
  active : Bool
  frequencyUnit : FrequencyUnit
  frequencyValue : ℤ
  startAt : Option Datetime
  endAt : Option Datetime

/-- `validate_schedule`. -/
def ScheduleDto.validate (dto : ScheduleDto) : Except String ScheduleDto :=
  let testSuiteId := strip dto.testSuiteId
  if testSuiteId = "" then .error "test_suite_id is required."
  else if dto.frequencyValue ≤ 0 then .error "frequency_value must be greater than zero."
  else do
    checkBounds dto.startAt dto.endAt
    return { dto with testSuiteId }

/-- What a column without an offset holds of a date; `localTime` is the wall clock of the
session at an instant. -/
def Datetime.column (localTime : ℤ → ℤ) (d : Datetime) : ℤ :=
  match d.utcoffset with
  | none => d.wall
  | some offset => localTime (d.wall - offset)

/-- The largest value of an `Integer` column. -/
def integerMax : ℤ := 2147483647

/-- `compute_next_run_at` as a request calls it. -/
def ScheduleDto.nextRunAt (dto : ScheduleDto) (now : ℤ) : Except String (Option Datetime) :=
  computeNextRunAt dto.active dto.frequencyUnit.value dto.frequencyValue dto.startAt dto.endAt
    (naive now) none

/-- The columns that a request sets in a row. -/
def ScheduleDto.set (localTime : ℤ → ℤ) (dto : ScheduleDto) (nextRunAt : Option Datetime)
    (s : ScheduleRow) : ScheduleRow :=
  { s with
    testSuiteId := dto.testSuiteId
    active := dto.active
    frequencyUnit := dto.frequencyUnit.value
    frequencyValue := dto.frequencyValue
    startAt := dto.startAt.map (Datetime.column localTime)
    endAt := dto.endAt.map (Datetime.column localTime)
    nextRunAt := nextRunAt.map (Datetime.column localTime) }

/-- The other columns of a new row. -/
def newRow (id : String) : ScheduleRow where
  id := id
  testSuiteId := ""
  active := true
  frequencyUnit := ""
  frequencyValue := 0
  startAt := none
  endAt := none
  nextRunAt := none
  lastRunAt := none
  lastStatus := "idle"
  lastExecutionId := none
  lastErrorMessage := none

namespace Db

/-- `insert`. -/
def insert (db : Db) (s : ScheduleRow) : Except String Db :=
  if hid : s.id ∈ db.schedules.map ScheduleRow.id then .error "duplicate key value"
  else if hsuite : s.testSuiteId ∉ db.suites then .error "violates foreign key constraint"
  else if integerMax < s.frequencyValue then .error "integer out of range"
  else .ok
    { suites := db.suites
      schedules := s :: db.schedules
      ids_nodup := List.nodup_cons.2 ⟨hid, db.ids_nodup⟩
      suite_mem := List.forall_mem_cons.2 ⟨not_not.1 hsuite, db.suite_mem⟩ }

/-- `update_fields` of a request, which may give the schedule another suite. -/
def setRow (db : Db) (localTime : ℤ → ℤ) (dto : ScheduleDto) (nextRunAt : Option Datetime)
    (id : String) : Except String Db :=
  if hsuite : dto.testSuiteId ∉ db.suites then .error "violates foreign key constraint"
  else if integerMax < dto.frequencyValue then .error "integer out of range"
  else .ok
    { suites := db.suites
      schedules := db.schedules.map fun s => if s.id = id then dto.set localTime nextRunAt s else s
      ids_nodup := by
        rw [List.map_map]
        refine (List.map_congr_left fun s _ => ?_) ▸ db.ids_nodup
        simp only [Function.comp_apply]
        split <;> rfl
      suite_mem := by
        intro s hs
        obtain ⟨r, hr, rfl⟩ := List.mem_map.1 hs
        split
        · exact not_not.1 hsuite
        · exact db.suite_mem r hr }

/-- `update_fields` of the columns that `activate` and `deactivate` set. -/
def setActive (db : Db) (id : String) (active : Bool) (nextRunAt : Option ℤ) : Db :=
  db.mapRows (fun s => if s.id = id then { s with active, nextRunAt } else s)
    (fun s => by split <;> rfl) (fun s => by split <;> rfl)

/-- `delete_by_id`. -/
def deleteById (db : Db) (id : String) : Db where
  suites := db.suites
  schedules := db.schedules.filter (·.id ≠ id)
  ids_nodup := db.ids_nodup.sublist (List.filter_sublist.map _)
  suite_mem s hs := db.suite_mem s (List.mem_of_mem_filter hs)

end Db

/-- `insert_test_suite_schedule_api`; `id` is the id that the row is given. -/
def insertSchedule (localTime : ℤ → ℤ) (now : ℤ) (id : String) (dto : ScheduleDto) (db : Db) :
    Except String Db := do
  let dto ← dto.validate
  if dto.testSuiteId ∉ db.suites then .error s!"No test suite found with id [ {dto.testSuiteId} ]"
  else
    let nextRunAt ← dto.nextRunAt now
    db.insert (dto.set localTime nextRunAt (newRow id))

/-- `update_test_suite_schedule_api`. -/
def updateSchedule (localTime : ℤ → ℤ) (now : ℤ) (id : String) (dto : ScheduleDto) (db : Db) :
    Except String Db := do
  let dto ← dto.validate
  if strip id = "" then .error "id is required."
  else if dto.testSuiteId ∉ db.suites then
    .error s!"No test suite found with id [ {dto.testSuiteId} ]"
  else if (db.getById (strip id)).isNone then
    .error s!"No test suite schedule found with id [ {strip id} ]"
  else
    let nextRunAt ← dto.nextRunAt now
    db.setRow localTime dto nextRunAt (strip id)

/-- `activate_test_suite_schedule_api`. -/
def activateSchedule (now : ℤ) (id : String) (db : Db) : Except String Db :=
  match db.getById id with
  | none => .error s!"No test suite schedule found with id [ {id} ]"
  | some schedule => do
    let nextRunAt ← computeNextRunAt true schedule.frequencyUnit schedule.frequencyValue
      (schedule.startAt.map naive) (schedule.endAt.map naive) (naive now) none
    return db.setActive id true (nextRunAt.map Datetime.wall)

/-- `deactivate_test_suite_schedule_api`. -/
def deactivateSchedule (id : String) (db : Db) : Except String Db :=
  match db.getById id with
  | none => .error s!"No test suite schedule found with id [ {id} ]"
  | some _ => .ok (db.setActive id false none)

/-- `delete_test_suite_schedule_api`. -/
def deleteSchedule (id : String) (db : Db) : Except String Db :=
  match db.getById id with
  | none => .error s!"No test suite schedule found with id [ {id} ]"
  | some _ => .ok (db.deleteById id)

/-! ### Runs -/

/-- What can be asked of the schedules, and when. -/
inductive Call where
  | insert (now : ℤ) (id : String) (dto : ScheduleDto)
  | update (now : ℤ) (id : String) (dto : ScheduleDto)
  | activate (now : ℤ) (id : String)
  | deactivate (id : String)
  | delete (id : String)
  | trigger (env : Env) (manual : Bool) (now : ℤ) (id : String)
  | sync (env : Env)
  | pass (envs : ℕ → Env) (now : ℤ)

/-- The tables after a request; one that raises leaves them as they were. -/
def request (db : Db) (r : Except String Db) : Db := r.toOption.getD db

def Db.call (localTime : ℤ → ℤ) (db : Db) : Call → Db
  | .insert now id dto => request db (insertSchedule localTime now id dto db)
  | .update now id dto => request db (updateSchedule localTime now id dto db)
  | .activate now id => request db (activateSchedule now id db)
  | .deactivate id => request db (deactivateSchedule id db)
  | .delete id => request db (deleteSchedule id db)
  | .trigger env manual now id => (triggerSchedule env manual now id db).2
  | .sync env => (syncScheduleExecutionStates env db).2
  | .pass envs now => (processDueSchedules envs now db).db

/-- The tables before any schedule has been made. -/
def Db.empty (suites : List String) : Db where
  suites := suites
  schedules := []
  ids_nodup := List.nodup_nil
  suite_mem _ hs := absurd hs List.not_mem_nil

/-- A run. -/
def Db.calls (localTime : ℤ → ℤ) (db : Db) (calls : List Call) : Db :=
  calls.foldl (Db.call localTime) db

/-! ### The next run of a row -/

/-- Only an active schedule has a next run, and it lies within its bounds. -/
def NextRunWithin (s : ScheduleRow) : Prop :=
  ∀ t, s.nextRunAt = some t → s.active = true ∧ (∀ start, s.startAt = some start → start ≤ t) ∧
    ∀ last, s.endAt = some last → t ≤ last

def Db.Inv (db : Db) : Prop := ∀ s ∈ db.schedules, NextRunWithin s

theorem NextRunWithin.sameSchedule {s r : ScheduleRow} (h : NextRunWithin s)
    (hsame : SameSchedule s r) : NextRunWithin r := by
  rw [hsame]
  exact h

/-- What a turn books in its row: a next run that is later than now, if any. -/
theorem Booked.nextRun {env : Env} {manual : Bool} {now : ℤ} {s : ScheduleRow}
    {fields : Fields} (hbooked : Booked env manual now s (some fields)) (h : NextRunWithin s)
    (r : ScheduleRow) (hr : SameSchedule s r) :
    NextRunWithin (fields.set r) ∧ ∀ t, (fields.set r).nextRunAt = some t → now < t := by
  have hrecomputed {next : Option ℤ} {otherwise : Except String (Option ℤ)}
      (hnext : (if s.active then recompute now s else otherwise) = .ok next)
      (hotherwise : ∀ t, s.active = false → otherwise ≠ .ok (some t)) (t : ℤ)
      (ht : next = some t) : s.active = true ∧ now < t ∧
        (∀ start, s.startAt = some start → start ≤ t) ∧ ∀ last, s.endAt = some last → t ≤ last := by
    subst ht
    split at hnext
    · exact recompute_some hnext
    · rename_i hactive
      exact absurd hnext (hotherwise t (by simpa using hactive))
  rw [hr]
  cases hbooked with
  | expired _ => exact ⟨fun t ht => absurd ht (by simp [Fields.set]),
      fun t ht => absurd ht (by simp [Fields.set])⟩
  | skipped _ _ hfields =>
    obtain ⟨next, hnext, rfl⟩ := map_eq_ok.1 hfields
    have hthen := hrecomputed hnext fun t hactive ht => by
      have := (h t (Except.ok.inj ht)).1
      rw [hactive] at this
      exact absurd this (by decide)
    exact ⟨fun t ht => ⟨(hthen t ht).1, (hthen t ht).2.2⟩, fun t ht => (hthen t ht).2.1⟩
  | started _ _ _ hfields =>
    obtain ⟨next, hnext, rfl⟩ := map_eq_ok.1 hfields
    have hthen := hrecomputed hnext fun t _ ht => absurd ht (by simp)
    exact ⟨fun t ht => ⟨(hthen t ht).1, (hthen t ht).2.2⟩, fun t ht => (hthen t ht).2.1⟩

/-- What a request books: its next run, if any, is later than now. -/
theorem computeNextRunAt_within {active : Bool} {frequencyUnit : String} {frequencyValue : ℤ}
    {startAt endAt : Option Datetime} {now : ℤ} {next : Option Datetime}
    (h : computeNextRunAt active frequencyUnit frequencyValue startAt endAt (naive now) none
      = .ok next) (localTime : ℤ → ℤ) {t : ℤ} (ht : next.map (Datetime.column localTime) = some t) :
    active = true ∧
      (∀ start, startAt.map (Datetime.column localTime) = some start → start ≤ t) ∧
      ∀ last, endAt.map (Datetime.column localTime) = some last → t ≤ last := by
  obtain ⟨c, rfl, rfl⟩ := Option.map_eq_some_iff.1 ht
  obtain ⟨hactive, t, rfl, -, hstart, hend⟩ := computeNextRunAt_some (.inl rfl) h
  refine ⟨hactive, ?_, ?_⟩
  · intro start hs
    obtain ⟨s, hs', rfl⟩ := Option.map_eq_some_iff.1 hs
    obtain ⟨s', rfl, hle⟩ := hstart s hs'
    exact hle
  · intro last he
    obtain ⟨e, he', rfl⟩ := Option.map_eq_some_iff.1 he
    obtain ⟨e', rfl, hle⟩ := hend e he'
    exact hle

namespace Db

variable {db db' : Db}

theorem Inv.mapRows {f : ScheduleRow → ScheduleRow} {hid : ∀ s, (f s).id = s.id}
    {hsuite : ∀ s, (f s).testSuiteId = s.testSuiteId}
    (h : ∀ s ∈ db.schedules, NextRunWithin (f s)) : (db.mapRows f hid hsuite).Inv := by
  intro s hs
  obtain ⟨r, hr, rfl⟩ := List.mem_map.1 hs
  exact h r hr

theorem Inv.refresh (hinv : db.Inv) (executions : List ExecutionRow) : (db.refresh executions).Inv :=
  .mapRows fun s hs => (hinv s hs).sameSchedule (.refreshRow _ _)

theorem Inv.insert {s : ScheduleRow} (hinv : db.Inv) (hs : NextRunWithin s)
    (h : db.insert s = .ok db') : db'.Inv := by
  unfold Db.insert at h
  split_ifs at h
  obtain rfl := Except.ok.inj h
  exact List.forall_mem_cons.2 ⟨hs, hinv⟩

theorem Inv.setRow {localTime : ℤ → ℤ} {dto : ScheduleDto} {next : Option Datetime} {id : String}
    (hinv : db.Inv) (hs : ∀ s, NextRunWithin (dto.set localTime next s))
    (h : db.setRow localTime dto next id = .ok db') : db'.Inv := by
  unfold Db.setRow at h
  split_ifs at h
  obtain rfl := Except.ok.inj h
  intro s hs'
  obtain ⟨r, hr, rfl⟩ := List.mem_map.1 hs'
  split
  · exact hs r
  · exact hinv r hr

/-- A row that a request has set has its next run within the bounds of the request. -/
theorem nextRunWithin_set {dto : ScheduleDto} {now : ℤ} {next : Option Datetime}
    (h : dto.nextRunAt now = .ok next) (localTime : ℤ → ℤ) (s : ScheduleRow) :
    NextRunWithin (dto.set localTime next s) :=
  fun _ ht => computeNextRunAt_within h localTime ht

theorem Inv.insertSchedule {localTime : ℤ → ℤ} {now : ℤ} {id : String} {dto : ScheduleDto}
    (hinv : db.Inv) (h : insertSchedule localTime now id dto db = .ok db') : db'.Inv := by
  obtain ⟨dto', -, h⟩ := bind_eq_ok.1 h
  split at h
  · exact absurd h (by simp)
  · obtain ⟨next, hnext, h⟩ := bind_eq_ok.1 h
    exact hinv.insert (nextRunWithin_set hnext localTime _) h

theorem Inv.updateSchedule {localTime : ℤ → ℤ} {now : ℤ} {id : String} {dto : ScheduleDto}
    (hinv : db.Inv) (h : updateSchedule localTime now id dto db = .ok db') : db'.Inv := by
  obtain ⟨dto', -, h⟩ := bind_eq_ok.1 h
  split_ifs at h
  obtain ⟨next, hnext, h⟩ := bind_eq_ok.1 h
  exact hinv.setRow (nextRunWithin_set hnext localTime) h

theorem Inv.activateSchedule {now : ℤ} {id : String} (hinv : db.Inv)
    (h : activateSchedule now id db = .ok db') : db'.Inv := by
  unfold Schedule.activateSchedule at h
  split at h
  · exact absurd h (by simp)
  · rename_i s hs
    obtain ⟨next, hnext, h⟩ := bind_eq_ok.1 h
    obtain rfl := Except.ok.inj h
    refine .mapRows fun r hr => ?_
    split
    · rename_i hid
      obtain rfl : s = r := Option.some.inj (hs.symm.trans (getById_eq_some.2 ⟨hr, hid⟩))
      intro t ht
      obtain ⟨c, rfl, rfl⟩ := Option.map_eq_some_iff.1 ht
      obtain ⟨-, t, rfl, -, hstart, hend⟩ := computeNextRunAt_some (.inl rfl) hnext
      exact ⟨rfl, forall_of_map_naive hstart, forall_of_map_naive hend⟩
    · exact hinv r hr

theorem Inv.deactivateSchedule {id : String} (hinv : db.Inv)
    (h : deactivateSchedule id db = .ok db') : db'.Inv := by
  unfold Schedule.deactivateSchedule at h
  split at h
  · exact absurd h (by simp)
  · obtain rfl := Except.ok.inj h
    refine .mapRows fun r hr => ?_
    split
    · exact fun t ht => absurd ht (by simp)
    · exact hinv r hr

theorem Inv.deleteSchedule {id : String} (hinv : db.Inv) (h : deleteSchedule id db = .ok db') :
    db'.Inv := by
  unfold Schedule.deleteSchedule at h
  split at h
  · exact absurd h (by simp)
  · obtain rfl := Except.ok.inj h
    exact fun s hs => hinv s (List.mem_of_mem_filter hs)

theorem Inv.triggerSchedule {env : Env} {manual : Bool} {now : ℤ} {id : String} (hinv : db.Inv) :
    (triggerSchedule env manual now id db).2.Inv := by
  rcases h : Schedule.triggerSchedule env manual now id db with ⟨result, db'⟩
  cases result with
  | error e =>
    rw [triggerSchedule_error h]
    exact hinv
  | ok r =>
    obtain ⟨s, fields?, hs, hbooked, rfl⟩ := triggerSchedule_ok h
    cases fields? with
    | none => exact hinv.refresh _
    | some fields =>
      intro row hrow
      obtain ⟨refreshed, hrefreshed, rfl⟩ := List.mem_map.1 hrow
      obtain ⟨r, hr, rfl⟩ := List.mem_map.1 hrefreshed
      have hsame := SameSchedule.refreshRow env.executions r
      split
      · rename_i hid
        rw [refreshRow_id] at hid
        obtain rfl : s = r := Option.some.inj (hs.symm.trans (getById_eq_some.2 ⟨hr, hid⟩))
        exact (hbooked.nextRun (hinv s hr) _ hsame).1
      · exact (hinv r hr).sameSchedule hsame

theorem Inv.triggerAll (envs : ℕ → Env) (now : ℤ) {i : ℕ} {ids : List String} (hinv : db.Inv) :
    (triggerAll envs now i ids db).db.Inv := by
  induction ids generalizing i db with
  | nil => exact hinv
  | cons id ids ih =>
    have hthen : (Schedule.triggerSchedule (envs i) false now id db).2.Inv := hinv.triggerSchedule
    rw [Schedule.triggerAll]
    split <;> rename_i htrigger <;> rw [htrigger] at hthen
    · exact hthen
    · exact ih hthen

theorem Inv.request {r : Except String Db} (hinv : db.Inv) (h : ∀ db', r = .ok db' → db'.Inv) :
    (request db r).Inv := by
  cases r with
  | ok db' => exact h db' rfl
  | error e => exact hinv

/-- **Every call keeps it.** -/
theorem Inv.call (localTime : ℤ → ℤ) (hinv : db.Inv) (c : Call) : (db.call localTime c).Inv := by
  cases c with
  | insert now id dto => exact hinv.request fun _ h => hinv.insertSchedule h
  | update now id dto => exact hinv.request fun _ h => hinv.updateSchedule h
  | activate now id => exact hinv.request fun _ h => hinv.activateSchedule h
  | deactivate id => exact hinv.request fun _ h => hinv.deactivateSchedule h
  | delete id => exact hinv.request fun _ h => hinv.deleteSchedule h
  | trigger env manual now id => exact hinv.triggerSchedule
  | sync env => exact hinv.refresh _
  | pass envs now => exact (hinv.refresh _).triggerAll envs now

theorem Inv.calls (localTime : ℤ → ℤ) (hinv : db.Inv) (calls : List Call) :
    (db.calls localTime calls).Inv := by
  induction calls generalizing db with
  | nil => exact hinv
  | cons c calls ih => exact ih (hinv.call localTime c)

theorem inv_empty (suites : List String) : (Db.empty suites).Inv :=
  fun _ hs => absurd hs List.not_mem_nil

end Db

/-- A schedule outside its turn has no next run before now. -/
theorem NextRunWithin.later_of_kept {env : Env} {manual : Bool} {now : ℤ} {s : ScheduleRow}
    (h : NextRunWithin s) (hbooked : Booked env manual now s none) {t : ℤ}
    (ht : s.nextRunAt = some t) : now < t := by
  obtain ⟨hactive, hstart, -⟩ := h t ht
  cases hbooked with
  | kept hgate =>
    unfold gate at hgate
    split at hgate
    · rename_i hinactive
      exact absurd (hactive.symm.trans hinactive.2) (by decide)
    · split at hgate
      · rename_i hearly
        obtain ⟨start, hs, hlt⟩ := (Option.any_eq_true _ _).1 hearly.2
        have hle := hstart start hs
        have hlt : now < start := by simpa using hlt
        omega
      · split at hgate <;> rcases hgate with hgate | hgate <;> exact absurd hgate (by decide)

/-- **In every state the next run of a schedule is that of an active schedule, and within
its bounds; and a trigger that returns leaves it with no next run or a later one than
now.** -/
theorem nextRunAt_within (localTime : ℤ → ℤ) (suites : List String) (calls : List Call) :
    let db := (Db.empty suites).calls localTime calls
    (∀ s ∈ db.schedules, ∀ t, s.nextRunAt = some t →
      s.active = true ∧ (∀ start, s.startAt = some start → start ≤ t) ∧
        ∀ last, s.endAt = some last → t ≤ last) ∧
      ∀ env manual now id r db', triggerSchedule env manual now id db = (.ok r, db') →
        ∃ s, db'.getById id = some s ∧ ∀ t, s.nextRunAt = some t → now < t := by
  intro db
  have hinv : db.Inv := (Db.inv_empty suites).calls localTime calls
  refine ⟨hinv, ?_⟩
  intro env manual now id r db' h
  obtain ⟨s, fields?, hs, hbooked, rfl⟩ := triggerSchedule_ok h
  obtain ⟨hmem, rfl⟩ := Db.getById_eq_some.1 hs
  have hrefreshed : (db.refresh env.executions).getById s.id
      = some (refreshRow env.executions s) := by
    rw [Db.getById_refresh, hs, Option.map_some]
  have hsame := SameSchedule.refreshRow env.executions s
  cases fields? with
  | none =>
    refine ⟨_, hrefreshed, fun t ht => (hinv s hmem).later_of_kept hbooked ?_⟩
    rw [hsame] at ht
    exact ht
  | some fields =>
    exact ⟨_, Db.getById_updateFields_self hrefreshed,
      (hbooked.nextRun (hinv s hmem) _ hsame).2⟩

end Schedule
end QualityFlow
