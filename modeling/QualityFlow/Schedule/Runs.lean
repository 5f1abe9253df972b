/-
# Triggers and the executions they start

`trigger_schedule` of
`app/elaborations/services/test_suite_schedules/test_suite_scheduler_service.py`, any number
of them at once, with the threads of
`app/elaborations/services/test_suites/test_suite_executor_thread.py` that they start.

A trigger loads its schedule, looks for a running execution of the suite, starts a thread
and commits, and others may work between any two of these.  A thread inserts the row of its
execution and sets its final status in one transaction, so that the row is visible to
others only when the execution is over.  The id of the thread and the id of its row are two
draws of `uuid4`.
-/

import QualityFlow.Py.Lists
import QualityFlow.Schedule.Api

namespace QualityFlow
namespace Schedule

open Py

/-! ### Threads and triggers -/

/-- Where `_execute` stands. -/
inductive Stage where
  | started
  /-- The row is in the transaction of the thread. -/
  | running (row : Uuid)
  /-- The transaction has been committed. -/
  | finished (row : Uuid) (status : String)
  /-- The transaction has been rolled back. -/
  | aborted
deriving DecidableEq

def Stage.inProgress : Stage → Bool
  | .started | .running _ => true
  | .finished _ _ | .aborted => false

def Stage.row? : Stage → Option Uuid
  | .running row | .finished row _ => some row
  | .started | .aborted => none

/-- A `TestSuiteExecutorThread` that a trigger has started. -/
structure ExecutorThread where
  testSuiteId : String
  scheduleId : String
  /-- `self.execution_id`. -/
  executionId : Uuid
  stage : Stage
  /-- Its trigger has been committed. -/
  booked : Bool
  /-- Another trigger of the schedule has been committed since, or the schedule is gone. -/
  superseded : Bool
deriving DecidableEq

/-- Where a trigger that has passed its gates stands. -/
inductive Phase where
  | gated
  /-- It has found no running execution. -/
  | clear
  /-- It has started the thread of this index. -/
  | booked (fields : Fields) (thread : ℕ)
  | closed
deriving DecidableEq

/-- A transaction of `trigger_schedule`: the row it has loaded, and the rows of executions
that `_refresh_running_schedule_states` has read. -/
structure Trigger where
  now : ℤ
  schedule : ScheduleRow
  executions : List ExecutionRow
  phase : Phase
deriving DecidableEq

/-- The committed tables, the triggers and the threads there have been, and how many ids
`uuid4` has drawn. -/
structure World where
  db : Db
  executions : List ExecutionRow
  triggers : List Trigger
  threads : List ExecutorThread
  drawn : ℕ

/-- The tables before the scheduler has triggered anything. -/
def World.initial (db : Db) (executions : List ExecutionRow) : World where
  db := db
  executions := executions
  triggers := []
  threads := []
  drawn := (executions.map (·.id + 1)).foldr max 0

/-! ### The steps -/

inductive Action where
  /-- Any other request on the schedules, or `sync_schedule_execution_states`. -/
  | request (c : Call)
  /-- `trigger_schedule` up to its gates. -/
  | enter (manual : Bool) (now : ℤ) (id : String)
  /-- `has_running_execution`. -/
  | look (i : ℕ)
  /-- `execute_test_suite_by_id`, and what it raises. -/
  | start (i : ℕ) (raises : Option String)
  /-- The end of the session of a trigger that has started a thread. -/
  | commit (i : ℕ)
  /-- The thread inserts its row. -/
  | insert (j : ℕ)
  /-- The thread sets the final status and commits. -/
  | finish (j : ℕ) (anyError : Bool) (message : Option String)
  /-- The thread raises. -/
  | abort (j : ℕ)
  /-- An execution that no schedule has started commits its row. -/
  | other (testSuiteId status : String) (message : Option String)

namespace World

/-- Marks the threads of a schedule that another trigger of it writes after. -/
def mark (w : World) (own : Option ℕ) (id : String) : World :=
  { w with
    threads := w.threads.mapIdx fun j t =>
      if own = some j then { t with booked := true }
      else if t.scheduleId = id then { t with superseded := true }
      else t }

/-- The end of the session of a trigger. -/
def write (w : World) (own : Option ℕ) (executions : List ExecutionRow) (id : String)
    (fields? : Option Fields) : World :=
  { w with db := w.db.book executions id fields? }.mark own id

def setPhase (w : World) (i : ℕ) (phase : Phase) : World :=
  { w with triggers := w.triggers.modify i fun t => { t with phase } }

def setStage (w : World) (j : ℕ) (stage : Stage) : World :=
  { w with threads := w.threads.modify j fun t => { t with stage } }

def request (localTime : ℤ → ℤ) (w : World) : Call → Option World
  | .trigger .. | .pass .. => none
  | .sync _ => some { w with db := w.db.refresh w.executions }
  | .insert now id dto => some ({ w with db := w.db.call localTime (.insert now id dto) }.mark none id)
  | .delete id => some ({ w with db := w.db.call localTime (.delete id) }.mark none id)
  | c => some { w with db := w.db.call localTime c }

def enter (w : World) (manual : Bool) (now : ℤ) (id : String) : World :=
  match w.db.getById id with
  | none => w
  | some schedule =>
    match gate manual now schedule with
    | .inactive | .notDue => w.write none w.executions id none
    | .expired => w.write none w.executions id (some .expired)
    | .passed => { w with triggers := w.triggers ++ [⟨now, schedule, w.executions, .gated⟩] }

def look (w : World) (i : ℕ) (t : Trigger) : World :=
  if hasRunningExecution w.executions t.schedule.testSuiteId then
    match skippedFields t.now t.schedule with
    | .error _ => w.setPhase i .closed
    | .ok fields => (w.write none t.executions t.schedule.id (some fields)).setPhase i .closed
  else w.setPhase i .clear

/-- A thread that has just been started for a schedule. -/
def newThread (w : World) (schedule : ScheduleRow) : ExecutorThread where
  testSuiteId := schedule.testSuiteId
  scheduleId := schedule.id
  executionId := w.drawn
  stage := .started
  booked := false
  superseded := false

/-- `execute_test_suite_by_id`. -/
def spawn (w : World) (schedule : ScheduleRow) : World :=
  { w with threads := w.threads ++ [w.newThread schedule], drawn := w.drawn + 1 }

def start (w : World) (i : ℕ) (t : Trigger) : World :=
  match startedFields t.now w.drawn t.schedule with
  | .error _ => (w.spawn t.schedule).setPhase i .closed
  | .ok fields => (w.spawn t.schedule).setPhase i (.booked fields w.threads.length)

def commit (w : World) (i : ℕ) (t : Trigger) (fields : Fields) (thread : ℕ) : World :=
  (w.write (some thread) t.executions t.schedule.id (some fields)).setPhase i .closed

def insert (w : World) (j : ℕ) : World :=
  { w.setStage j (.running w.drawn) with drawn := w.drawn + 1 }

def finish (w : World) (j : ℕ) (t : ExecutorThread) (row : Uuid) (anyError : Bool)
    (message : Option String) : World :=
  let status := if anyError then "error" else "success"
  { w.setStage j (.finished row status) with
    executions := w.executions ++ [⟨row, t.testSuiteId, status, message⟩] }

def other (w : World) (testSuiteId status : String) (message : Option String) : World :=
  { w with
    executions := w.executions ++ [⟨w.drawn, testSuiteId, status, message⟩]
    drawn := w.drawn + 1 }

/-- One step; `none` where the trigger or the thread is not at it. -/
def step (localTime : ℤ → ℤ) (w : World) : Action → Option World
  | .request c => w.request localTime c
  | .enter manual now id => some (w.enter manual now id)
  | .look i =>
    match w.triggers[i]? with
    | some t => if t.phase = .gated then some (w.look i t) else none
    | none => none
  | .start i raises =>
    match w.triggers[i]? with
    | some t =>
      if t.phase = .clear then
        match raises with
        | some _ => some (w.setPhase i .closed)
        | none => some (w.start i t)
      else none
    | none => none
  | .commit i =>
    match w.triggers[i]? with
    | some t =>
      match t.phase with
      | .booked fields thread => some (w.commit i t fields thread)
      | _ => none
    | none => none
  | .insert j =>
    match w.threads[j]? with
    | some t => if t.stage = .started then some (w.insert j) else none
    | none => none
  | .finish j anyError message =>
    match w.threads[j]? with
    | some t =>
      match t.stage with
      | .running row => some (w.finish j t row anyError message)
      | _ => none
    | none => none
  | .abort j =>
    match w.threads[j]? with
    | some t => if t.stage.inProgress then some (w.setStage j .aborted) else none
    | none => none
  | .other testSuiteId status message => some (w.other testSuiteId status message)

/-- A run. -/
def run (localTime : ℤ → ℤ) (w : World) (actions : List Action) : Option World :=
  actions.foldlM (step localTime) w

end World

/-- A trigger whose steps are taken one after the other does what `triggerSchedule` does. -/
theorem World.run_alone (localTime : ℤ → ℤ) (w : World) {manual : Bool} {now : ℤ} {s : ScheduleRow}
    {fields : Fields} (hs : w.db.getById s.id = some s) (hgate : gate manual now s = .passed)
    (hrunning : hasRunningExecution w.executions s.testSuiteId = false)
    (hfields : startedFields now w.drawn s = .ok fields) :
    let i := w.triggers.length
    ∃ w', w.run localTime [.enter manual now s.id, .look i, .start i none, .commit i] = some w' ∧
      w'.db = (triggerSchedule ⟨w.executions, .ok w.drawn⟩ manual now s.id w.db).2 := by
  intro i
  have hbooked : Booked ⟨w.executions, .ok w.drawn⟩ manual now s (some fields) :=
    .started hgate hrunning rfl hfields
  obtain ⟨r, htrigger⟩ := triggerSchedule_of_booked hs hbooked
  rw [htrigger]
  have henter : w.step localTime (.enter manual now s.id)
      = some { w with triggers := w.triggers ++ [⟨now, s, w.executions, .gated⟩] } := by
    simp only [World.step, World.enter, hs, hgate]
  have hlook : World.step localTime
      { w with triggers := w.triggers ++ [⟨now, s, w.executions, .gated⟩] } (.look i)
      = some { w with triggers := w.triggers ++ [⟨now, s, w.executions, .clear⟩] } := by
    simp only [World.step, i, getElem?_concat_length, if_true, World.look, hrunning,
      Bool.false_eq_true, if_false, World.setPhase, modify_concat_length]
  have hstart : World.step localTime
      { w with triggers := w.triggers ++ [⟨now, s, w.executions, .clear⟩] } (.start i none)
      = some { w.spawn s with
          triggers := w.triggers ++ [⟨now, s, w.executions, .booked fields w.threads.length⟩] } := by
    simp only [World.step, i, getElem?_concat_length, if_true, World.start, hfields,
      World.setPhase, World.spawn, modify_concat_length, World.newThread]
  let started : World :=
    { w.spawn s with
      triggers := w.triggers ++ [⟨now, s, w.executions, .booked fields w.threads.length⟩] }
  let trigger : Trigger := ⟨now, s, w.executions, .booked fields w.threads.length⟩
  have hcommit : started.step localTime (.commit i)
      = some (started.commit i trigger fields w.threads.length) := by
    simp only [World.step, started, i, getElem?_concat_length, trigger]
  refine ⟨started.commit i trigger fields w.threads.length, ?_, rfl⟩
  simp only [World.run, List.foldlM_cons, List.foldlM_nil, henter, hlook, hstart,
    Option.bind_eq_bind, Option.bind_some]
  rw [hcommit]
  rfl

/-! ### One execution of a suite at a time -/

/-- What may keep a suite busy: a trigger by its index, or a thread. -/
abbrev Holder := ℕ ⊕ ℕ

/-- A trigger keeps its suite busy between its look and its start, and a thread as long as
it is in progress. -/
def World.Holds (w : World) (testSuiteId : String) : Holder → Prop
  | .inl i => ∃ t, w.triggers[i]? = some t ∧ t.phase = .clear ∧
      t.schedule.testSuiteId = testSuiteId
  | .inr j => ∃ t, w.threads[j]? = some t ∧ t.stage.inProgress = true ∧
      t.testSuiteId = testSuiteId

/-- Nothing else keeps the suite busy where a trigger finds no running execution of it. -/
def World.Guarded (w : World) : Action → Prop
  | .look i => ∀ t, w.triggers[i]? = some t →
      hasRunningExecution w.executions t.schedule.testSuiteId = false →
        ∀ holder, ¬w.Holds t.schedule.testSuiteId holder
  | _ => True

/-- A run each of whose steps is guarded. -/
def World.GuardedRun (localTime : ℤ → ℤ) : World → List Action → Prop
  | _, [] => True
  | w, action :: actions =>
    w.Guarded action ∧ ∀ w', w.step localTime action = some w' → w'.GuardedRun localTime actions

/-- A suite has one holder at most. -/
def World.Exclusive (w : World) : Prop :=
  ∀ testSuiteId a b, w.Holds testSuiteId a → w.Holds testSuiteId b → a = b

namespace World

variable {w w' : World} {localTime : ℤ → ℤ}

/-- Steps that make no holder keep suites apart. -/
theorem Exclusive.of_holds (hexclusive : w.Exclusive)
    (h : ∀ testSuiteId a, w'.Holds testSuiteId a → w.Holds testSuiteId a) : w'.Exclusive :=
  fun testSuiteId a b ha hb => hexclusive testSuiteId a b (h _ _ ha) (h _ _ hb)

theorem holds_mark {own : Option ℕ} {id testSuiteId : String} {a : Holder}
    (h : (w.mark own id).Holds testSuiteId a) : w.Holds testSuiteId a := by
  cases a with
  | inl i => exact h
  | inr j =>
    obtain ⟨t', ht', hprogress, hsuite⟩ := h
    rw [mark, List.getElem?_mapIdx] at ht'
    obtain ⟨t, ht, rfl⟩ := Option.map_eq_some_iff.1 ht'
    refine ⟨t, ht, ?_, ?_⟩
    · rw [← hprogress]
      split_ifs <;> rfl
    · rw [← hsuite]
      split_ifs <;> rfl

theorem holds_write {own : Option ℕ} {executions : List ExecutionRow} {id testSuiteId : String}
    {fields? : Option Fields} {a : Holder}
    (h : (w.write own executions id fields?).Holds testSuiteId a) : w.Holds testSuiteId a := by
  have h := holds_mark h
  cases a <;> exact h

/-- A trigger that leaves its phase for one other than `clear` holds no suite. -/
theorem holds_setPhase {i : ℕ} {phase : Phase} (hphase : phase ≠ .clear) {testSuiteId : String}
    {a : Holder} (h : (w.setPhase i phase).Holds testSuiteId a) :
    w.Holds testSuiteId a ∧ a ≠ .inl i := by
  cases a with
  | inl k =>
    obtain ⟨t', ht', hclear, hsuite⟩ := h
    obtain ⟨t, ht, rfl⟩ := getElem?_modify_eq_some ht'
    split at hclear
    · exact absurd hclear hphase
    · rename_i hne
      rw [if_neg hne] at hsuite
      exact ⟨⟨t, ht, hclear, hsuite⟩, fun h => hne (Sum.inl.inj h).symm⟩
  | inr j => exact ⟨h, Sum.inr_ne_inl⟩

theorem holds_setPhase_clear {i : ℕ} {t : Trigger} (ht : w.triggers[i]? = some t)
    {testSuiteId : String} {a : Holder} (h : (w.setPhase i .clear).Holds testSuiteId a) :
    w.Holds testSuiteId a ∨ a = .inl i ∧ testSuiteId = t.schedule.testSuiteId := by
  cases a with
  | inl k =>
    obtain ⟨t', ht', hclear, hsuite⟩ := h
    obtain ⟨t'', ht'', rfl⟩ := getElem?_modify_eq_some ht'
    split at hsuite
    · rename_i heq
      obtain rfl := heq
      obtain rfl : t'' = t := Option.some.inj (ht''.symm.trans ht)
      exact .inr ⟨rfl, hsuite.symm⟩
    · rename_i hne
      rw [if_neg hne] at hclear
      exact .inl ⟨t'', ht'', hclear, hsuite⟩
  | inr j => exact .inl h

/-- A thread whose stage changes holds its suite where it did, or no more. -/
theorem holds_setStage {j : ℕ} {t : ExecutorThread} (ht : w.threads[j]? = some t) (stage : Stage)
    (hstage : stage.inProgress = true → t.stage.inProgress = true) {testSuiteId : String}
    {a : Holder} (h : (w.setStage j stage).Holds testSuiteId a) : w.Holds testSuiteId a := by
  cases a with
  | inl k => exact h
  | inr k =>
    obtain ⟨t', ht', hprogress, hsuite⟩ := h
    obtain ⟨t'', ht'', rfl⟩ := getElem?_modify_eq_some ht'
    split at hprogress
    · rename_i heq
      obtain rfl := heq
      obtain rfl : t'' = t := Option.some.inj (ht''.symm.trans ht)
      rw [if_pos rfl] at hsuite
      exact ⟨t'', ht, hstage hprogress, hsuite⟩
    · rename_i hne
      rw [if_neg hne] at hsuite
      exact ⟨t'', ht'', hprogress, hsuite⟩

theorem Exclusive.request (hexclusive : w.Exclusive) {c : Call}
    (h : w.request localTime c = some w') : w'.Exclusive := by
  refine hexclusive.of_holds fun testSuiteId a ha => ?_
  cases c with
  | trigger => exact absurd h (by simp [World.request])
  | pass => exact absurd h (by simp [World.request])
  | insert =>
    obtain rfl := Option.some.inj h
    have ha := holds_mark ha
    cases a <;> exact ha
  | delete =>
    obtain rfl := Option.some.inj h
    have ha := holds_mark ha
    cases a <;> exact ha
  | sync =>
    obtain rfl := Option.some.inj h
    cases a <;> exact ha
  | update =>
    obtain rfl := Option.some.inj h
    cases a <;> exact ha
  | activate =>
    obtain rfl := Option.some.inj h
    cases a <;> exact ha
  | deactivate =>
    obtain rfl := Option.some.inj h
    cases a <;> exact ha

theorem Exclusive.enter (hexclusive : w.Exclusive) (manual : Bool) (now : ℤ) (id : String) :
    (w.enter manual now id).Exclusive := by
  refine hexclusive.of_holds fun testSuiteId a ha => ?_
  unfold World.enter at ha
  split at ha
  · exact ha
  · split at ha
    · exact holds_write ha
    · exact holds_write ha
    · exact holds_write ha
    · cases a with
      | inl i =>
        obtain ⟨t, ht, hclear, hsuite⟩ := ha
        rcases getElem?_concat_eq_some ht with ht | ⟨-, rfl⟩
        · exact ⟨t, ht, hclear, hsuite⟩
        · exact absurd hclear (by simp)
      | inr j => exact ha

theorem Exclusive.look (hexclusive : w.Exclusive) {i : ℕ} {t : Trigger}
    (ht : w.triggers[i]? = some t)
    (hguarded : hasRunningExecution w.executions t.schedule.testSuiteId = false →
      ∀ holder, ¬w.Holds t.schedule.testSuiteId holder) : (w.look i t).Exclusive := by
  unfold World.look
  split
  · split
    · exact hexclusive.of_holds fun _ _ ha => (holds_setPhase (by simp) ha).1
    · exact hexclusive.of_holds fun _ _ ha => holds_write (holds_setPhase (by simp) ha).1
  · rename_i hrunning
    have hnone := hguarded (by simpa using hrunning)
    intro testSuiteId a b ha hb
    rcases holds_setPhase_clear ht ha with ha | ⟨rfl, rfl⟩ <;>
      rcases holds_setPhase_clear ht hb with hb | ⟨rfl, hsuite⟩
    · exact hexclusive _ _ _ ha hb
    · exact absurd (hsuite ▸ ha) (hnone a)
    · exact absurd hb (hnone b)
    · rfl

/-- The suite passes from the trigger to the thread it starts. -/
theorem holds_start {i : ℕ} {t : Trigger} (ht : w.triggers[i]? = some t)
    (hclear : t.phase = .clear) {testSuiteId : String} {a : Holder}
    (h : (w.start i t).Holds testSuiteId a) :
    a ≠ .inl i ∧ (w.Holds testSuiteId a ∨
      a = .inr w.threads.length ∧ w.Holds testSuiteId (.inl i)) := by
  have hspawned : (w.spawn t.schedule).Holds testSuiteId a ∧ a ≠ .inl i := by
    unfold World.start at h
    split at h <;> exact holds_setPhase (by simp) h
  obtain ⟨hspawned, hne⟩ := hspawned
  refine ⟨hne, ?_⟩
  cases a with
  | inl k => exact .inl hspawned
  | inr j =>
    obtain ⟨u, hu, hprogress, hsuite⟩ := hspawned
    rcases getElem?_concat_eq_some hu with hu | ⟨rfl, rfl⟩
    · exact .inl ⟨u, hu, hprogress, hsuite⟩
    · exact .inr ⟨rfl, t, ht, hclear, hsuite⟩

theorem Exclusive.start (hexclusive : w.Exclusive) {i : ℕ} {t : Trigger}
    (ht : w.triggers[i]? = some t) (hclear : t.phase = .clear) : (w.start i t).Exclusive := by
  intro testSuiteId a b ha hb
  obtain ⟨hnea, hwasa⟩ := holds_start ht hclear ha
  obtain ⟨hneb, hwasb⟩ := holds_start ht hclear hb
  rcases hwasa with hwasa | ⟨rfl, hwasa⟩ <;> rcases hwasb with hwasb | ⟨rfl, hwasb⟩
  · exact hexclusive _ _ _ hwasa hwasb
  · exact absurd (hexclusive _ _ _ hwasa hwasb) hnea
  · exact absurd (hexclusive _ _ _ hwasb hwasa) hneb
  · rfl

/-- **A guarded step keeps suites apart.** -/
theorem Exclusive.step (hexclusive : w.Exclusive) {action : Action} (hguarded : w.Guarded action)
    (h : w.step localTime action = some w') : w'.Exclusive := by
  cases action with
  | request c => exact hexclusive.request h
  | enter manual now id =>
    obtain rfl := Option.some.inj h
    exact hexclusive.enter manual now id
  | look i =>
    simp only [World.step] at h
    split at h
    · rename_i t ht
      split at h
      · obtain rfl := Option.some.inj h
        exact hexclusive.look ht (hguarded t ht)
      · exact absurd h (by simp)
    · exact absurd h (by simp)
  | start i raises =>
    simp only [World.step] at h
    split at h
    · rename_i t ht
      split at h
      · rename_i hclear
        split at h
        · obtain rfl := Option.some.inj h
          exact hexclusive.of_holds fun _ _ ha => (holds_setPhase (by simp) ha).1
        · obtain rfl := Option.some.inj h
          exact hexclusive.start ht hclear
      · exact absurd h (by simp)
    · exact absurd h (by simp)
  | commit i =>
    simp only [World.step] at h
    split at h
    · split at h
      · obtain rfl := Option.some.inj h
        exact hexclusive.of_holds fun _ _ ha => holds_write (holds_setPhase (by simp) ha).1
      · exact absurd h (by simp)
    · exact absurd h (by simp)
  | insert j =>
    simp only [World.step] at h
    split at h
    · rename_i t ht
      split at h
      · rename_i hstage
        obtain rfl := Option.some.inj h
        refine hexclusive.of_holds fun testSuiteId a ha => ?_
        have hset : (w.setStage j (.running w.drawn)).Holds testSuiteId a := by
          cases a <;> exact ha
        exact holds_setStage ht _ (fun _ => hstage ▸ rfl) hset
      · exact absurd h (by simp)
    · exact absurd h (by simp)
  | finish j anyError message =>
    simp only [World.step] at h
    split at h
    · rename_i t ht
      split at h
      · rename_i row hstage
        obtain rfl := Option.some.inj h
        refine hexclusive.of_holds fun testSuiteId a ha => ?_
        have hset : (w.setStage j (.finished row (if anyError then "error" else "success"))).Holds
            testSuiteId a := by
          cases a <;> exact ha
        exact holds_setStage ht (.finished row (if anyError then "error" else "success"))
          (fun hover => absurd hover Bool.false_ne_true) hset
      · exact absurd h (by simp)
    · exact absurd h (by simp)
  | abort j =>
    simp only [World.step] at h
    split at h
    · rename_i t ht
      split at h
      · obtain rfl := Option.some.inj h
        exact hexclusive.of_holds fun _ _ ha =>
          holds_setStage ht .aborted (fun hover => absurd hover (by decide)) ha
      · exact absurd h (by simp)
    · exact absurd h (by simp)
  | other testSuiteId status message =>
    obtain rfl := Option.some.inj h
    refine hexclusive.of_holds fun _ a ha => ?_
    cases a <;> exact ha

theorem Exclusive.run {actions : List Action} (hexclusive : w.Exclusive)
    (hguarded : w.GuardedRun localTime actions) (h : w.run localTime actions = some w') :
    w'.Exclusive := by
  induction actions generalizing w with
  | nil =>
    obtain rfl := Option.some.inj h
    exact hexclusive
  | cons action actions ih =>
    rw [World.run, List.foldlM_cons] at h
    obtain ⟨w₁, hfirst, hrest⟩ := Option.bind_eq_some_iff.1 h
    exact ih (hexclusive.step hguarded.1 hfirst) (hguarded.2 w₁ hfirst) hrest

theorem exclusive_initial (db : Db) (executions : List ExecutionRow) :
    (World.initial db executions).Exclusive := by
  intro testSuiteId a b ha
  cases a <;> simp [Holds, World.initial] at ha

end World

/-- No two threads of one suite are in progress. -/
def World.MutualExclusion (w : World) : Prop :=
  ∀ (i j : ℕ) t u, w.threads[i]? = some t → w.threads[j]? = some u →
    t.stage.inProgress = true → u.stage.inProgress = true → t.testSuiteId = u.testSuiteId → i = j

/-- **One execution of a suite at a time**, in every state of a run in which each trigger
that finds no running execution of its suite looks when nothing keeps it busy. -/
theorem mutualExclusion_of_guarded (localTime : ℤ → ℤ) (db : Db) (executions : List ExecutionRow)
    (actions : List Action) {w : World}
    (hrun : (World.initial db executions).run localTime actions = some w)
    (hguarded : (World.initial db executions).GuardedRun localTime actions) :
    w.MutualExclusion := by
  intro i j t u ht hu hprogress hprogress' hsuite
  have hexclusive := (World.exclusive_initial db executions).run hguarded hrun
  exact Sum.inr.inj (hexclusive _ _ _ ⟨t, ht, hprogress, rfl⟩ ⟨u, hu, hprogress', hsuite.symm⟩)

/-- Nothing is between a look and its start, and no execution is in progress. -/
def World.idle (w : World) : Bool :=
  w.triggers.all (fun t => t.phase ≠ .clear) && w.threads.all (fun t => !t.stage.inProgress)

theorem World.not_holds_of_idle {w : World} (h : w.idle = true) (testSuiteId : String)
    (holder : Holder) : ¬w.Holds testSuiteId holder := by
  obtain ⟨htriggers, hthreads⟩ := (Bool.and_eq_true _ _).mp h
  cases holder with
  | inl i =>
    rintro ⟨t, ht, hclear, -⟩
    have := List.all_eq_true.1 htriggers t (List.mem_of_getElem? ht)
    simp [hclear] at this
  | inr j =>
    rintro ⟨t, ht, hprogress, -⟩
    have := List.all_eq_true.1 hthreads t (List.mem_of_getElem? ht)
    simp [hprogress] at this

/-- Each trigger of the run looks when nothing is going on. -/
def World.idleLooks (localTime : ℤ → ℤ) : World → List Action → Bool
  | _, [] => true
  | w, action :: actions =>
    (match action with
      | .look _ => w.idle
      | _ => true) &&
    match w.step localTime action with
    | some w' => w'.idleLooks localTime actions
    | none => true

/-- Triggers that wait for each other's executions are guarded. -/
theorem World.guardedRun_of_idleLooks {localTime : ℤ → ℤ} {w : World} {actions : List Action}
    (h : w.idleLooks localTime actions = true) : w.GuardedRun localTime actions := by
  induction actions generalizing w with
  | nil => trivial
  | cons action actions ih =>
    obtain ⟨hfirst, hrest⟩ := (Bool.and_eq_true _ _).mp h
    constructor
    · cases action with
      | look i => exact fun t _ _ => World.not_holds_of_idle hfirst _
      | _ => trivial
    · intro w' hw'
      rw [hw'] at hrest
      exact ih hrest

/-- Two schedules of a suite, the second one triggered when the execution of the first is
over. -/
def takingTurns : List Action :=
  [.enter false 600 "a", .look 0, .start 0 none, .commit 0, .insert 0, .finish 0 false none,
   .enter false 600 "b", .look 1, .start 1 none]

theorem mutualExclusion_takingTurns :
    ∃ w, (World.initial twoDue []).run id takingTurns = some w ∧ w.MutualExclusion := by
  have hsome : ((World.initial twoDue []).run id takingTurns).isSome = true := by decide +kernel
  obtain ⟨w, hrun⟩ := Option.isSome_iff_exists.1 hsome
  exact ⟨w, hrun, mutualExclusion_of_guarded id twoDue [] takingTurns hrun
    (World.guardedRun_of_idleLooks (by decide +kernel))⟩

/-- The second schedule is triggered while the execution of the first is in progress. -/
def overlapping : List Action :=
  [.enter false 600 "a", .look 0, .start 0 none, .commit 0, .insert 0,
   .enter false 600 "b", .look 1, .start 1 none]

/-- The second trigger does not see the row of the execution that the first has started. -/
theorem overlapping_not_mutualExclusion :
    ∃ w, (World.initial twoDue []).run id overlapping = some w ∧ ¬w.MutualExclusion := by
  have hthreads : ((World.initial twoDue []).run id overlapping).map World.threads
      = some [⟨"s1", "a", 0, .running 1, true, false⟩, ⟨"s1", "b", 2, .started, false, false⟩] := by
    decide +kernel
  obtain ⟨w, hrun, hw⟩ := Option.map_eq_some_iff.1 hthreads
  have hfirst : w.threads[0]? = some ⟨"s1", "a", 0, .running 1, true, false⟩ := by
    rw [hw]
    rfl
  have hsecond : w.threads[1]? = some ⟨"s1", "b", 2, .started, false, false⟩ := by
    rw [hw]
    rfl
  refine ⟨w, hrun, fun hexclusion => ?_⟩
  exact absurd (hexclusion 0 1 _ _ hfirst hsecond rfl rfl rfl) (by decide)

/-- A trigger that looks while a thread of its suite is in progress, and finds no running
execution, comes to start another. -/
theorem unguarded_look_starts (localTime : ℤ → ℤ) {w : World} {i j : ℕ} {t : Trigger}
    {u : ExecutorThread} (ht : w.triggers[i]? = some t) (hgated : t.phase = .gated)
    (hu : w.threads[j]? = some u) (hprogress : u.stage.inProgress = true)
    (hsuite : u.testSuiteId = t.schedule.testSuiteId)
    (hclear : hasRunningExecution w.executions t.schedule.testSuiteId = false) :
    ∃ w', w.run localTime [.look i, .start i none] = some w' ∧ ¬w'.MutualExclusion := by
  have hlooked : (w.setPhase i .clear).triggers[i]? = some { t with phase := .clear } := by
    rw [World.setPhase, List.getElem?_modify, ht]
    simp
  have hlook : w.step localTime (.look i) = some (w.setPhase i .clear) := by
    simp only [World.step, ht, hgated, if_true, World.look, hclear, Bool.false_eq_true, if_false]
  have hstart : (w.setPhase i .clear).step localTime (.start i none)
      = some ((w.setPhase i .clear).start i { t with phase := .clear }) := by
    simp only [World.step, hlooked, if_true]
  refine ⟨(w.setPhase i .clear).start i { t with phase := .clear }, ?_, ?_⟩
  · rw [World.run, List.foldlM_cons, hlook, Option.bind_eq_bind, Option.bind_some,
      List.foldlM_cons, hstart]
    rfl
  · have hthreads : ((w.setPhase i .clear).start i { t with phase := .clear }).threads
        = w.threads ++ [w.newThread t.schedule] := by
      unfold World.start
      split <;> rfl
    intro hexclusion
    have hlt := (List.getElem?_eq_some_iff.1 hu).1
    have hold : (w.threads ++ [w.newThread t.schedule])[j]? = some u := by
      rw [List.getElem?_append_left hlt, hu]
    have hnew := getElem?_concat_length w.threads (w.newThread t.schedule)
    rw [← hthreads] at hold hnew
    have := hexclusion j w.threads.length u _ hold hnew hprogress rfl hsuite
    omega

end Schedule
end QualityFlow
