/-
# A pass over the due schedules

What `process_due_schedules` of
`app/elaborations/services/test_suite_schedules/test_suite_scheduler_service.py` leaves in
the row of each due schedule.

A trigger whose execution cannot be started sets the error in its row and raises again: the
row is rolled back with its session, and the exception leaves the loop of the pass.
-/

import Mathlib.Logic.Relation
import QualityFlow.Schedule.Scheduler

namespace QualityFlow
namespace Schedule

open Py

/-! ### Rows that are only refreshed -/

/-- A row but for the state of its execution. -/
def SameSchedule (s r : ScheduleRow) : Prop :=
  r = { s with lastStatus := r.lastStatus, lastErrorMessage := r.lastErrorMessage }

theorem refreshRow_of_not_running {executions : List ExecutionRow} {s : ScheduleRow}
    (h : s.lastStatus ≠ "running") : refreshRow executions s = s := by
  unfold refreshRow syncedFields?
  rw [if_neg h]

/-- A refresh sets the state of an execution that has ended, or nothing. -/
theorem refreshRow_cases (executions : List ExecutionRow) (s : ScheduleRow) :
    refreshRow executions s = s ∨ ∃ status message, status ≠ "running" ∧
      refreshRow executions s = { s with lastStatus := status, lastErrorMessage := message } := by
  unfold refreshRow
  split
  · rename_i fields hfields
    right
    unfold syncedFields? at hfields
    split at hfields
    · obtain ⟨executionId, -, hfields⟩ := Option.bind_eq_some_iff.1 hfields
      obtain ⟨execution, -, hfields⟩ := Option.bind_eq_some_iff.1 hfields
      simp only at hfields
      split at hfields
      · exact absurd hfields (by simp)
      · rename_i hrunning
        obtain rfl := Option.some.inj hfields
        refine ⟨_, _, ?_, rfl⟩
        split
        · decide
        · exact hrunning
    · exact absurd hfields (by simp)
  · exact .inl rfl

/-- A second refresh of a row that one has changed changes nothing. -/
theorem refreshRow_refreshRow (e e' : List ExecutionRow) (s : ScheduleRow) :
    refreshRow e' (refreshRow e s) = refreshRow e' s ∨
      refreshRow e' (refreshRow e s) = refreshRow e s := by
  rcases refreshRow_cases e s with h | ⟨status, message, hstatus, h⟩
  · rw [h]
    exact .inl rfl
  · right
    rw [h]
    exact refreshRow_of_not_running hstatus

theorem SameSchedule.refreshRow (executions : List ExecutionRow) (s : ScheduleRow) :
    SameSchedule s (refreshRow executions s) := by
  rcases refreshRow_cases executions s with h | ⟨status, message, -, h⟩ <;> rw [h] <;> rfl

theorem SameSchedule.trans {s r t : ScheduleRow} (h : SameSchedule s r) (h' : SameSchedule r t) :
    SameSchedule s t := by
  unfold SameSchedule at h h' ⊢
  rw [h', h]

/-- A refresh by one of the calls from the `i`-th on. -/
def RefreshedOnce (envs : ℕ → Env) (i : ℕ) (s r : ScheduleRow) : Prop :=
  ∃ j ≥ i, r = refreshRow (envs j).executions s

/-- What the calls from the `i`-th on make of a row that none of them is about. -/
abbrev Refreshed (envs : ℕ → Env) (i : ℕ) : ScheduleRow → ScheduleRow → Prop :=
  Relation.ReflTransGen (RefreshedOnce envs i)

theorem Refreshed.sameSchedule {envs : ℕ → Env} {i : ℕ} {s r : ScheduleRow}
    (h : Refreshed envs i s r) : SameSchedule s r := by
  induction h with
  | refl => rfl
  | tail _ hstep ih =>
    obtain ⟨j, -, rfl⟩ := hstep
    exact ih.trans (.refreshRow _ _)

theorem Refreshed.mono {envs : ℕ → Env} {i j : ℕ} (hij : i ≤ j) {s r : ScheduleRow}
    (h : Refreshed envs j s r) : Refreshed envs i s r := by
  refine Relation.ReflTransGen.mono (fun s r hstep => ?_) _ _ h
  obtain ⟨k, hk, rfl⟩ := hstep
  exact ⟨k, hij.trans hk, rfl⟩

/-! ### What a pass owes a due schedule -/

/-- The row that a pass owes the schedule `s` whose turn is the `i`-th: its own state, with
its next run; a schedule that has been started may have ended since. -/
def Owed (envs : ℕ → Env) (i : ℕ) (now : ℤ) (s row : ScheduleRow) : Prop :=
  match gate false now s with
  | .passed =>
    ∃ next, recompute now s = .ok next ∧
      if hasRunningExecution (envs i).executions s.testSuiteId then
        row = (Fields.skipped next).set s
      else
        match (envs i).start with
        | .error message => row = (Fields.failed next message).set s
        | .ok executionId =>
          let written := (Fields.started next now executionId).set s
          row = written ∨ ∃ j > i, row = refreshRow (envs j).executions written
  | .expired => row.active = false ∧ row.nextRunAt = none ∧ row.lastStatus = "idle"
  | .notDue | .inactive => SameSchedule s row

/-- A pass calls `trigger_schedule` once for each due schedule, in their order, and leaves
each with the row it owes it. -/
def PassHolds (envs : ℕ → Env) (now : ℤ) (db : Db) : Prop :=
  let due := getDueSchedules now (db.refresh (envs 0).executions)
  let pass := processDueSchedules envs now db
  pass.triggered = due.map ScheduleRow.id ∧
    ∀ (k : ℕ) s, due[k]? = some s →
      ∃ row, pass.db.getById s.id = some row ∧ Owed envs (k + 1) now s row

/-- The turn of a due schedule goes well: where it comes to look at the executions of its
suite, its next run can be computed, and its execution can be started unless one is running. -/
def TurnHolds (env : Env) (now : ℤ) (s : ScheduleRow) : Prop :=
  gate false now s = .passed →
    (∃ next, recompute now s = .ok next) ∧
      (hasRunningExecution env.executions s.testSuiteId = false → ∃ id, env.start = .ok id)

/-- A turn that goes well books, and only such a turn does. -/
theorem turnHolds_iff {env : Env} {now : ℤ} {s : ScheduleRow} (hactive : s.active = true) :
    TurnHolds env now s ↔ ∃ fields?, Booked env false now s fields? := by
  constructor
  · intro h
    cases hgate : gate false now s with
    | inactive => exact ⟨none, .kept (.inl hgate)⟩
    | notDue => exact ⟨none, .kept (.inr hgate)⟩
    | expired => exact ⟨_, .expired hgate⟩
    | passed =>
      obtain ⟨⟨next, hnext⟩, hstart⟩ := h hgate
      cases hrunning : hasRunningExecution env.executions s.testSuiteId with
      | true =>
        refine ⟨some (.skipped next), .skipped hgate hrunning ?_⟩
        rw [skippedFields, if_pos hactive, hnext, map_ok]
      | false =>
        obtain ⟨executionId, hid⟩ := hstart hrunning
        refine ⟨some (.started next now executionId), .started hgate hrunning hid ?_⟩
        rw [startedFields, if_pos hactive, hnext, map_ok]
  · rintro ⟨fields?, hbooked⟩ hgate
    cases hbooked with
    | kept h => rcases h with h | h <;> exact absurd (h.symm.trans hgate) (by decide)
    | expired h => exact absurd (h.symm.trans hgate) (by decide)
    | skipped _ hrunning hfields =>
      rw [skippedFields, if_pos hactive] at hfields
      obtain ⟨next, hnext, -⟩ := map_eq_ok.1 hfields
      exact ⟨⟨next, hnext⟩, fun h => absurd (hrunning.symm.trans h) (by decide)⟩
    | started _ _ hstart hfields =>
      rw [startedFields, if_pos hactive] at hfields
      obtain ⟨next, hnext, -⟩ := map_eq_ok.1 hfields
      exact ⟨⟨next, hnext⟩, fun _ => ⟨_, hstart⟩⟩

/-! ### What is owed survives the rest of the pass -/

section

variable {envs : ℕ → Env} {i : ℕ} {now : ℤ} {s r row : ScheduleRow}

/-- Nothing but the state of its execution matters for the turn of a schedule. -/
theorem Booked.congr {env : Env} {manual : Bool} {fields? : Option Fields} (h : SameSchedule s r)
    (hbooked : Booked env manual now s fields?) : Booked env manual now r fields? := by
  rw [h]
  cases hbooked with
  | kept hgate => exact .kept hgate
  | expired hgate => exact .expired hgate
  | skipped hgate hrunning hfields => exact .skipped hgate hrunning hfields
  | started hgate hrunning hstart hfields => exact .started hgate hrunning hstart hfields

theorem SameSchedule.symm (h : SameSchedule s r) : SameSchedule r s := by
  unfold SameSchedule at h ⊢
  rw [h]

/-- What is owed to a schedule is owed to it whatever the state of its execution is. -/
theorem Owed.congr (h : SameSchedule s r) (howed : Owed envs i now r row) :
    Owed envs i now s row := by
  unfold Owed at howed ⊢
  have hgate : gate false now s = gate false now r := by rw [h]; rfl
  rw [hgate]
  split at howed
  · obtain ⟨next, hnext, hrow⟩ := howed
    refine ⟨next, by rw [← hnext, h]; rfl, ?_⟩
    rw [h] at hrow
    exact hrow
  · exact howed
  · exact h.trans howed
  · exact h.trans howed

theorem Owed.refreshRow (howed : Owed envs i now s row) {j : ℕ} (hj : i < j) :
    Owed envs i now s (refreshRow (envs j).executions row) := by
  unfold Owed at howed ⊢
  split at howed
  · obtain ⟨next, hnext, hrow⟩ := howed
    refine ⟨next, hnext, ?_⟩
    split at hrow
    · rename_i hrunning
      rw [if_pos hrunning, hrow]
      exact refreshRow_of_not_running (by decide : "skipped" ≠ "running")
    · rename_i hrunning
      rw [if_neg hrunning]
      split at hrow
      · rw [hrow]
        exact refreshRow_of_not_running (by decide : "error" ≠ "running")
      · right
        rcases hrow with hrow | ⟨k, hk, hrow⟩
        · exact ⟨j, hj, by rw [hrow]⟩
        · rw [hrow]
          rcases refreshRow_refreshRow (envs k).executions (envs j).executions _ with h | h
          · exact ⟨j, hj, h⟩
          · exact ⟨k, hk, h⟩
  · obtain ⟨hactive, hnext, hstatus⟩ := howed
    have hidle : row.lastStatus ≠ "running" := by
      rw [hstatus]
      decide
    rw [refreshRow_of_not_running hidle]
    exact ⟨hactive, hnext, hstatus⟩
  · exact howed.trans (.refreshRow _ _)
  · exact howed.trans (.refreshRow _ _)

theorem Owed.refreshed (howed : Owed envs i now s row) {row' : ScheduleRow}
    (h : Refreshed envs (i + 1) row row') : Owed envs i now s row' := by
  induction h with
  | refl => exact howed
  | tail _ hstep ih =>
    obtain ⟨j, hj, rfl⟩ := hstep
    exact ih.refreshRow hj

/-- A turn that books leaves the row it owes. -/
theorem Booked.owed {fields? : Option Fields} (hbooked : Booked (envs i) false now s fields?)
    (hactive : s.active = true) {db : Db} (hs : db.getById s.id = some s) :
    ∃ row, (db.book (envs i).executions s.id fields?).getById s.id = some row ∧ Owed envs i now s row := by
  have hrefreshed : (db.refresh (envs i).executions).getById s.id
      = some (Schedule.refreshRow (envs i).executions s) := by
    rw [Db.getById_refresh, hs, Option.map_some]
  have hsame := SameSchedule.refreshRow (envs i).executions s
  cases hbooked with
  | kept hgate =>
    refine ⟨_, hrefreshed, ?_⟩
    unfold Owed
    rcases hgate with hgate | hgate <;> rw [hgate] <;> exact hsame
  | expired hgate =>
    refine ⟨_, Db.getById_updateFields_self hrefreshed, ?_⟩
    unfold Owed
    rw [hgate]
    exact ⟨rfl, rfl, rfl⟩
  | skipped hgate hrunning hfields =>
    rw [skippedFields, if_pos hactive] at hfields
    obtain ⟨next, hnext, rfl⟩ := map_eq_ok.1 hfields
    refine ⟨_, Db.getById_updateFields_self hrefreshed, ?_⟩
    unfold Owed
    rw [hgate]
    refine ⟨next, hnext, ?_⟩
    rw [if_pos hrunning, hsame]
    rfl
  | started hgate hrunning hstart hfields =>
    rw [startedFields, if_pos hactive] at hfields
    obtain ⟨next, hnext, rfl⟩ := map_eq_ok.1 hfields
    refine ⟨_, Db.getById_updateFields_self hrefreshed, ?_⟩
    unfold Owed
    rw [hgate]
    refine ⟨next, hnext, ?_⟩
    rw [hrunning, if_neg Bool.false_ne_true, hstart, hsame]
    exact .inl rfl

/-- A row that a trigger of another schedule is not about is refreshed. -/
theorem getById_book_of_ne {executions : List ExecutionRow} {db : Db} {id id' : String}
    (hne : id' ≠ id) (fields? : Option Fields) :
    (db.book executions id fields?).getById id'
      = (db.getById id').map (Schedule.refreshRow executions) := by
  cases fields? with
  | none => exact Db.getById_refresh _ _
  | some fields => rw [Db.book, Db.getById_updateFields_of_ne hne, Db.getById_refresh]

end

/-! ### The loop -/

section

variable {envs : ℕ → Env} {now : ℤ}

/-- A row that the loop is not about. -/
theorem triggerAll_refreshed {i : ℕ} {ids : List String} {db : Db} {id : String} (hid : id ∉ ids)
    {s : ScheduleRow} (hs : db.getById id = some s) :
    ∃ row, (triggerAll envs now i ids db).db.getById id = some row ∧ Refreshed envs i s row := by
  induction ids generalizing i db s with
  | nil => exact ⟨s, hs, .refl⟩
  | cons head ids ih =>
    have hne : id ≠ head := fun h => hid (h ▸ List.mem_cons_self)
    rw [triggerAll]
    split
    · rename_i e db' htrigger
      rw [triggerSchedule_error htrigger]
      exact ⟨s, hs, .refl⟩
    · rename_i r db' htrigger
      obtain ⟨t, fields?, -, -, rfl⟩ := triggerSchedule_ok htrigger
      have hbooked : (db.book (envs i).executions head fields?).getById id
          = some (refreshRow (envs i).executions s) := by
        rw [getById_book_of_ne hne, hs, Option.map_some]
      obtain ⟨row, hrow, hrefreshed⟩ :=
        ih (i := i + 1) (fun h => hid (List.mem_cons_of_mem _ h)) hbooked
      exact ⟨row, hrow, .head ⟨i, le_rfl, rfl⟩ (hrefreshed.mono (Nat.le_succ i))⟩

/-- **Where every turn goes well the loop triggers every schedule and leaves each with the
row it owes it.** -/
theorem triggerAll_owed {i : ℕ} {ids : List String} (hnodup : ids.Nodup) {db : Db}
    (hids : ∀ k id, ids[k]? = some id → ∃ s, db.getById id = some s ∧ s.active = true ∧
      ∃ fields?, Booked (envs (i + k)) false now s fields?) :
    (triggerAll envs now i ids db).triggered = ids ∧
      ∀ k id s, ids[k]? = some id → db.getById id = some s →
        ∃ row, (triggerAll envs now i ids db).db.getById id = some row ∧
          Owed envs (i + k) now s row := by
  induction ids generalizing i db with
  | nil => exact ⟨rfl, fun k id s hid => absurd hid (by simp)⟩
  | cons head ids ih =>
    rw [List.nodup_cons] at hnodup
    obtain ⟨s, hs, hactive, fields?, hbooked⟩ := hids 0 head rfl
    obtain rfl : s.id = head := (Db.getById_eq_some.1 hs).2
    obtain ⟨r, htrigger⟩ := triggerSchedule_of_booked hs hbooked
    rw [triggerAll, Nat.add_zero] at *
    rw [htrigger]
    have hrest : ∀ k id, ids[k]? = some id →
        ∃ t, (db.book (envs i).executions s.id fields?).getById id = some t ∧ t.active = true ∧
          ∃ fields?, Booked (envs (i + 1 + k)) false now t fields? := by
      intro k id hk
      obtain ⟨t, ht, htactive, hbooks⟩ := hids (k + 1) id hk
      have hne : id ≠ s.id := fun h => hnodup.1 (h ▸ List.mem_of_getElem? hk)
      have hsame := SameSchedule.refreshRow (envs i).executions t
      refine ⟨_, by rw [getById_book_of_ne hne, ht, Option.map_some], ?_, ?_⟩
      · rw [hsame]
        exact htactive
      · obtain ⟨fields, hfields⟩ := hbooks
        rw [Nat.add_right_comm]
        exact ⟨fields, hfields.congr hsame⟩
    obtain ⟨htriggered, howed⟩ := ih hnodup.2 hrest
    refine ⟨congrArg (s.id :: ·) htriggered, ?_⟩
    intro k id t hk ht
    cases k with
    | zero =>
      obtain rfl : s.id = id := Option.some.inj hk
      obtain rfl : s = t := Option.some.inj (hs.symm.trans ht)
      obtain ⟨row, hrow, hfirst⟩ := hbooked.owed hactive hs
      obtain ⟨row', hrow', hlater⟩ : ∃ row',
          (triggerAll envs now (i + 1) ids _).db.getById s.id = some row' ∧
            Refreshed envs (i + 1) row row' := triggerAll_refreshed hnodup.1 hrow
      exact ⟨row', hrow', hfirst.refreshed hlater⟩
    | succ k =>
      have hk : ids[k]? = some id := hk
      have hne : id ≠ s.id := fun h => hnodup.1 (h ▸ List.mem_of_getElem? hk)
      have ht' : (db.book (envs i).executions s.id fields?).getById id
          = some (refreshRow (envs i).executions t) := by
        rw [getById_book_of_ne hne, ht, Option.map_some]
      obtain ⟨row, hrow, hthen⟩ := howed k id _ hk ht'
      refine ⟨row, hrow, ?_⟩
      rw [Nat.add_right_comm] at hthen
      exact hthen.congr (.refreshRow _ _)

/-- A schedule whose turn raises keeps its row, but for the state of its execution. -/
theorem triggerAll_sameSchedule {i : ℕ} {ids : List String} {db : Db} {id : String}
    {s : ScheduleRow} (hs : db.getById id = some s)
    (hraises : ∀ k, ids[k]? = some id → ¬∃ fields?, Booked (envs (i + k)) false now s fields?) :
    ∃ row, (triggerAll envs now i ids db).db.getById id = some row ∧ SameSchedule s row := by
  induction ids generalizing i db s with
  | nil => exact ⟨s, hs, rfl⟩
  | cons head ids ih =>
    rw [triggerAll]
    split
    · rename_i e db' htrigger
      rw [triggerSchedule_error htrigger]
      exact ⟨s, hs, rfl⟩
    · rename_i r db' htrigger
      obtain ⟨t, fields?, ht, hbooked, rfl⟩ := triggerSchedule_ok htrigger
      have hne : id ≠ head := by
        rintro rfl
        obtain rfl : s = t := Option.some.inj (hs.symm.trans ht)
        exact hraises 0 rfl ⟨fields?, hbooked⟩
      have hsame := SameSchedule.refreshRow (envs i).executions s
      have hs' : (db.book (envs i).executions head fields?).getById id
          = some (refreshRow (envs i).executions s) := by
        rw [getById_book_of_ne hne, hs, Option.map_some]
      obtain ⟨row, hrow, hrow'⟩ := ih (i := i + 1) hs' fun k hk hbooks => by
        obtain ⟨fields, hfields⟩ := hbooks
        refine hraises (k + 1) hk ⟨fields, ?_⟩
        rw [Nat.add_right_comm] at hfields
        exact hfields.congr hsame.symm
      exact ⟨row, hrow, hsame.trans hrow'⟩

end

/-! ### The pass -/

theorem recompute_some {now t : ℤ} {s : ScheduleRow} (h : recompute now s = .ok (some t)) :
    s.active = true ∧ now < t ∧ (∀ start, s.startAt = some start → start ≤ t) ∧
      ∀ last, s.endAt = some last → t ≤ last := by
  obtain ⟨next, hnext, hwall⟩ := map_eq_ok.1 h
  obtain ⟨c, rfl, rfl⟩ := Option.map_eq_some_iff.1 hwall
  obtain ⟨hactive, t, rfl, hlater, hstart, hend⟩ := computeNextRunAt_some (.inr rfl) hnext
  exact ⟨hactive, hlater, forall_of_map_naive hstart, forall_of_map_naive hend⟩

theorem mem_getDueSchedules {now : ℤ} {db : Db} {s : ScheduleRow} :
    s ∈ getDueSchedules now db ↔ s ∈ db.schedules ∧ isDue now s = true := by
  unfold getDueSchedules
  rw [List.mem_insertionSort, List.mem_filter]

theorem getDueSchedules_nodup (now : ℤ) (db : Db) :
    ((getDueSchedules now db).map ScheduleRow.id).Nodup := by
  have hperm : (getDueSchedules now db).Perm (db.schedules.filter (isDue now)) :=
    List.perm_insertionSort _ _
  rw [(hperm.map _).nodup_iff]
  exact db.ids_nodup.sublist (List.filter_sublist.map _)

/-- **A pass gives every due schedule what it owes it just where every turn goes well:** a
schedule that looks at the executions of its suite can compute its next run, and its
execution can be started unless one is running. -/
theorem passHolds_iff (envs : ℕ → Env) (now : ℤ) (db : Db) :
    PassHolds envs now db ↔
      ∀ (k : ℕ) s, (getDueSchedules now (db.refresh (envs 0).executions))[k]? = some s →
        TurnHolds (envs (k + 1)) now s := by
  have hrow : ∀ (k : ℕ) s, (getDueSchedules now (db.refresh (envs 0).executions))[k]? = some s →
      (db.refresh (envs 0).executions).getById s.id = some s ∧ s.active = true ∧
        ∃ t ≤ now, s.nextRunAt = some t := by
    intro k s hk
    obtain ⟨hmem, hdue⟩ := mem_getDueSchedules.1 (List.mem_of_getElem? hk)
    obtain ⟨hactive, hnext⟩ := (Bool.and_eq_true _ _).mp hdue
    obtain ⟨t, ht, hle⟩ := (Option.any_eq_true _ _).1 hnext
    exact ⟨Db.getById_eq_some.2 ⟨hmem, rfl⟩, hactive, t, by simpa using hle, ht⟩
  constructor
  · rintro ⟨-, howed⟩ k s hk
    obtain ⟨hs, hactive, t, hle, ht⟩ := hrow k s hk
    intro hgate
    obtain ⟨row, hrow', howed⟩ := howed k s hk
    unfold Owed at howed
    rw [hgate] at howed
    obtain ⟨next, hnext, howed⟩ := howed
    refine ⟨⟨next, hnext⟩, fun hrunning => ?_⟩
    rw [hrunning, if_neg Bool.false_ne_true] at howed
    cases hstart : (envs (k + 1)).start with
    | ok executionId => exact ⟨executionId, rfl⟩
    | error message =>
      -- the row still says that the schedule is due
      rw [hstart] at howed
      have howed : row = (Fields.failed next message).set s := howed
      have hraises : ∀ j, ((getDueSchedules now (db.refresh (envs 0).executions)).map
          ScheduleRow.id)[j]? = some s.id →
            ¬∃ fields?, Booked (envs (1 + j)) false now s fields? := by
        intro j hj hbooks
        have hjk : j = k := by
          have hlt := (List.getElem?_eq_some_iff.1 hj).1
          have hsame := hj.trans ((List.getElem?_map ..).trans (congrArg _ hk)).symm
          exact (List.getElem?_inj hlt (getDueSchedules_nodup now _)).1 hsame
        obtain rfl := hjk
        rw [Nat.add_comm, ← turnHolds_iff hactive] at hbooks
        obtain ⟨executionId, hid⟩ := (hbooks hgate).2 hrunning
        exact absurd (hstart.symm.trans hid) (by simp)
      obtain ⟨row', hrow'', hsame⟩ : ∃ row',
          (triggerAll envs now 1 _ (db.refresh (envs 0).executions)).db.getById s.id = some row' ∧
            SameSchedule s row' := triggerAll_sameSchedule hs hraises
      obtain rfl : row = row' := Option.some.inj (hrow'.symm.trans hrow'')
      have hkept : row.nextRunAt = s.nextRunAt := by rw [hsame]
      rw [howed, ht] at hkept
      obtain rfl : next = some t := hkept
      have hlater := (recompute_some hnext).2.1
      omega
  · intro hturns
    have hids : ∀ k id, ((getDueSchedules now (db.refresh (envs 0).executions)).map
        ScheduleRow.id)[k]? = some id →
        ∃ s, (db.refresh (envs 0).executions).getById id = some s ∧ s.active = true ∧
          ∃ fields?, Booked (envs (1 + k)) false now s fields? := by
      intro k id hk
      rw [List.getElem?_map] at hk
      obtain ⟨s, hk', rfl⟩ := Option.map_eq_some_iff.1 hk
      obtain ⟨hs, hactive, -⟩ := hrow k s hk'
      refine ⟨s, hs, hactive, ?_⟩
      rw [Nat.add_comm]
      exact (turnHolds_iff hactive).1 (hturns k s hk')
    obtain ⟨htriggered, howed⟩ := triggerAll_owed (getDueSchedules_nodup now _) hids
    refine ⟨htriggered, ?_⟩
    intro k s hk
    have hid : ((getDueSchedules now (db.refresh (envs 0).executions)).map ScheduleRow.id)[k]?
        = some s.id := by
      rw [List.getElem?_map, hk, Option.map_some]
    obtain ⟨row, hrow', howed⟩ := howed k s.id s hid (hrow k s hk).1
    rw [Nat.add_comm] at howed
    exact ⟨row, hrow', howed⟩

/-- A schedule that is due at 600 and runs every five minutes. -/
def dueRow (id : String) : ScheduleRow where
  id := id
  testSuiteId := "s1"
  active := true
  frequencyUnit := "minutes"
  frequencyValue := 5
  startAt := none
  endAt := none
  nextRunAt := some 600
  lastRunAt := none
  lastStatus := "idle"
  lastExecutionId := none
  lastErrorMessage := none

def twoDue : Db where
  suites := ["s1"]
  schedules := [dueRow "a", dueRow "b"]
  ids_nodup := by decide
  suite_mem := by simp [dueRow]

/-- No thread can be started for the first of two due schedules: the second is not
triggered. -/
theorem twoDue_not_passHolds :
    ¬PassHolds (fun i => ⟨[], if i = 1 then .error "can't start new thread" else .ok i⟩) 600
      twoDue := by
  rintro ⟨htriggered, -⟩
  revert htriggered
  decide +kernel

end Schedule
end QualityFlow
