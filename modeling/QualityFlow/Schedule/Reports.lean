/-
# What a schedule reports of what it has started

`last_execution_id` and `_refresh_running_schedule_states` of
`app/elaborations/services/test_suite_schedules/test_suite_scheduler_service.py`, in the runs
of `Schedule/Runs.lean`.

A schedule that has started an execution is given the id of the thread.  The row of the
execution has an id of its own, and it is by that id that the pass over the running
schedules looks for it.
-/

import QualityFlow.Schedule.Runs

namespace QualityFlow
namespace Schedule

open Py

/-! ### What a schedule reports -/

/-- The row of a schedule names the row of the execution, and the next pass of
`sync_schedule_execution_states` gives the schedule its status. -/
def World.Reports (w : World) (t : ExecutorThread) (row : Uuid) (status : String) : Prop :=
  ∃ s, w.db.getById t.scheduleId = some s ∧ s.lastExecutionId = some row ∧
    (refreshRow w.executions s).lastStatus = status

/-- An id that has been drawn for a row, and so is not the id of a thread. -/
def World.RowId (w : World) (id : Uuid) : Prop :=
  id < w.drawn ∧ ∀ t ∈ w.threads, t.executionId ≠ id

/-- What holds of the ids in every state. -/
structure World.Inv (w : World) : Prop where
  executions : ∀ e ∈ w.executions, w.RowId e.id
  read : ∀ t ∈ w.triggers, ∀ e ∈ t.executions, w.RowId e.id
  row : ∀ t ∈ w.threads, ∀ row, t.stage.row? = some row → w.RowId row
  drawn : ∀ t ∈ w.threads, t.executionId < w.drawn
  pending : ∀ t ∈ w.triggers, ∀ fields j, t.phase = .booked fields j →
    ∃ u next, w.threads[j]? = some u ∧ u.scheduleId = t.schedule.id ∧
      fields = .started next t.now u.executionId
  booked : ∀ t ∈ w.threads, t.booked = true → t.superseded = false →
    ∀ s ∈ w.db.schedules, s.id = t.scheduleId →
      s.lastStatus = "running" ∧ s.lastExecutionId = some t.executionId

namespace World

variable {w w' : World} {localTime : ℤ → ℤ}

/-- Two worlds with the same threads, but for their stages and marks. -/
def SameThreads (w w' : World) : Prop :=
  w'.drawn = w.drawn ∧ ∃ f : ℕ → ExecutorThread → ExecutorThread,
    w'.threads = w.threads.mapIdx f ∧
      ∀ j t, (f j t).scheduleId = t.scheduleId ∧ (f j t).executionId = t.executionId

theorem SameThreads.rowId {id : Uuid} (hsame : SameThreads w w') (h : w.RowId id) :
    w'.RowId id := by
  obtain ⟨hdrawn, f, hthreads, hf⟩ := hsame
  refine ⟨hdrawn.symm ▸ h.1, fun t' ht' => ?_⟩
  rw [hthreads] at ht'
  obtain ⟨j, hj, rfl⟩ := List.mem_mapIdx.1 ht'
  rw [(hf _ _).2]
  exact h.2 _ (List.getElem_mem hj)

/-- What such a world keeps of the invariant. -/
theorem SameThreads.inv (hsame : SameThreads w w') (hinv : w.Inv)
    (hexecutions : w'.executions = w.executions) (htriggers : w'.triggers = w.triggers)
    (hrow : ∀ t ∈ w'.threads, ∀ row, t.stage.row? = some row → w'.RowId row)
    (hbooked : ∀ t ∈ w'.threads, t.booked = true → t.superseded = false →
      ∀ s ∈ w'.db.schedules, s.id = t.scheduleId →
        s.lastStatus = "running" ∧ s.lastExecutionId = some t.executionId) : w'.Inv where
  executions e he := hsame.rowId (hinv.executions e (hexecutions ▸ he))
  read t ht e he := hsame.rowId (hinv.read t (htriggers ▸ ht) e he)
  row := hrow
  drawn t' ht' := by
    obtain ⟨hdrawn, f, hthreads, hf⟩ := hsame
    rw [hthreads] at ht'
    obtain ⟨j, hj, rfl⟩ := List.mem_mapIdx.1 ht'
    rw [(hf _ _).2, hdrawn]
    exact hinv.drawn _ (List.getElem_mem hj)
  pending t ht fields j hphase := by
    obtain ⟨hdrawn, f, hthreads, hf⟩ := hsame
    obtain ⟨u, next, hu, hid, hfields⟩ := hinv.pending t (htriggers ▸ ht) fields j hphase
    refine ⟨f j u, next, ?_, ?_, ?_⟩
    · rw [hthreads, List.getElem?_mapIdx, hu, Option.map_some]
    · rw [(hf j u).1, hid]
    · rw [(hf j u).2, hfields]
  booked := hbooked

/-- No row has the id of a thread, and so no schedule that names one is refreshed. -/
theorem refreshRow_eq {t : ExecutorThread} (ht : t ∈ w.threads) {executions : List ExecutionRow}
    (hrows : ∀ e ∈ executions, w.RowId e.id) {s : ScheduleRow}
    (hs : s.lastExecutionId = some t.executionId) : refreshRow executions s = s := by
  have hnone : executions.find? (·.id = t.executionId) = none := by
    refine List.find?_eq_none.2 fun e he => ?_
    simpa using ((hrows e he).2 t ht).symm
  unfold refreshRow syncedFields?
  rw [hs]
  simp [hnone]

theorem sameThreads_mark (own : Option ℕ) (id : String) (db : Db) :
    SameThreads w ({ w with db }.mark own id) := by
  refine ⟨rfl, _, rfl, fun j t => ?_⟩
  split_ifs <;> exact ⟨rfl, rfl⟩

theorem row_mark (hinv : w.Inv) {own : Option ℕ} {id : String} {db : Db} :
    ∀ t ∈ ({ w with db }.mark own id).threads, ∀ row, t.stage.row? = some row →
      ({ w with db }.mark own id).RowId row := by
  intro t' ht' row hrow
  obtain ⟨j, hj, rfl⟩ := List.mem_mapIdx.1 ht'
  refine (sameThreads_mark own id db).rowId (hinv.row _ (List.getElem_mem hj) row ?_)
  rw [← hrow]
  split_ifs <;> rfl

/-- The tables after a request that leaves the state of every schedule, or refreshes it. -/
theorem Inv.setDb (hinv : w.Inv) {db : Db}
    (h : ∀ s' ∈ db.schedules, ∃ s ∈ w.db.schedules, s.id = s'.id ∧
      (s'.lastStatus = s.lastStatus ∧ s'.lastExecutionId = s.lastExecutionId ∨
        s' = refreshRow w.executions s)) : ({ w with db } : World).Inv where
  executions := hinv.executions
  read := hinv.read
  row := hinv.row
  drawn := hinv.drawn
  pending := hinv.pending
  booked t ht hbooked hsuperseded s' hs' hid := by
    obtain ⟨s, hs, hid', hkept⟩ := h s' hs'
    obtain ⟨hstatus, hexecution⟩ := hinv.booked t ht hbooked hsuperseded s hs (hid'.trans hid)
    rcases hkept with ⟨hstatus', hexecution'⟩ | rfl
    · exact ⟨hstatus'.trans hstatus, hexecution'.trans hexecution⟩
    · rw [refreshRow_eq ht hinv.executions hexecution]
      exact ⟨hstatus, hexecution⟩

/-- The tables after a schedule of this id has been made or deleted. -/
theorem Inv.setDb_mark (hinv : w.Inv) {db : Db} {id : String}
    (h : ∀ s ∈ db.schedules, s.id = id ∨ s ∈ w.db.schedules) :
    ({ w with db }.mark none id).Inv := by
  refine (sameThreads_mark none id db).inv hinv rfl rfl (row_mark hinv) ?_
  intro t' ht' hbooked hsuperseded s hs hid
  obtain ⟨j, hj, rfl⟩ := List.mem_mapIdx.1 ht'
  rw [if_neg (by simp)] at *
  split at hsuperseded
  · exact absurd hsuperseded (by simp)
  · rename_i hne
    rw [if_neg hne] at hbooked hid ⊢
    rcases h s hs with rfl | hs
    · exact absurd hid.symm hne
    · exact hinv.booked _ (List.getElem_mem hj) hbooked hsuperseded s hs hid

/-- The end of the session of a trigger. -/
theorem Inv.write (hinv : w.Inv) {own : Option ℕ} {executions : List ExecutionRow} {id : String}
    {fields? : Option Fields} (hread : ∀ e ∈ executions, w.RowId e.id)
    (hown : ∀ j, own = some j → ∃ u next now, w.threads[j]? = some u ∧ u.scheduleId = id ∧
      fields? = some (.started next now u.executionId)) :
    (w.write own executions id fields?).Inv := by
  refine (sameThreads_mark own id _).inv hinv rfl rfl (row_mark hinv) ?_
  intro t' ht' hbooked hsuperseded s' hs' hid
  obtain ⟨j, hj, rfl⟩ := List.mem_mapIdx.1 ht'
  split_ifs at hbooked hsuperseded hid ⊢ with hmine hother
  · obtain ⟨u, next, now, hu, rfl, rfl⟩ := hown j hmine
    have hthread : w.threads[j] = u := (List.getElem?_eq_some_iff.1 hu).2
    rw [hthread] at hid ⊢
    obtain ⟨s, hs, rfl⟩ := List.mem_map.1 hs'
    split at hid
    · rename_i heq
      rw [if_pos heq]
      exact ⟨rfl, rfl⟩
    · rename_i hne
      exact absurd hid hne
  · have hkept : s' ∈ (w.db.refresh executions).schedules := by
      cases fields? with
      | none => exact hs'
      | some fields =>
        obtain ⟨s, hs, rfl⟩ := List.mem_map.1 hs'
        split at hid
        · rename_i heq
          rw [Fields.set_id] at hid
          exact absurd (hid.symm.trans heq) hother
        · rename_i hne
          rw [if_neg hne]
          exact hs
    obtain ⟨s, hs, rfl⟩ := List.mem_map.1 hkept
    rw [refreshRow_id] at hid
    obtain ⟨hstatus, hexecution⟩ :=
      hinv.booked _ (List.getElem_mem hj) hbooked hsuperseded s hs hid
    rw [refreshRow_eq (List.getElem_mem hj) hread hexecution]
    exact ⟨hstatus, hexecution⟩

theorem Inv.setPhase (hinv : w.Inv) (i : ℕ) {phase : Phase}
    (hpending : ∀ fields j, phase ≠ .booked fields j) : (w.setPhase i phase).Inv where
  executions := hinv.executions
  read t' ht' := by
    obtain ⟨k, hk⟩ := List.mem_iff_getElem?.1 ht'
    obtain ⟨t, ht, rfl⟩ := getElem?_modify_eq_some hk
    split <;> exact hinv.read t (List.mem_of_getElem? ht)
  row := hinv.row
  drawn := hinv.drawn
  pending t' ht' fields j hphase := by
    obtain ⟨k, hk⟩ := List.mem_iff_getElem?.1 ht'
    obtain ⟨t, ht, rfl⟩ := getElem?_modify_eq_some hk
    split at hphase
    · exact absurd hphase (hpending fields j)
    · rename_i hne
      rw [if_neg hne]
      exact hinv.pending t (List.mem_of_getElem? ht) fields j hphase
  booked := hinv.booked

theorem sameThreads_setStage (j : ℕ) (stage : Stage) : SameThreads w (w.setStage j stage) := by
  refine ⟨rfl, fun k t => if j = k then { t with stage } else t, ?_, ?_⟩
  · refine List.ext_getElem? fun k => ?_
    rw [setStage, List.getElem?_modify, List.getElem?_mapIdx]
    rfl
  · intro k t
    dsimp only
    split <;> exact ⟨rfl, rfl⟩

theorem Inv.setStage (hinv : w.Inv) (j : ℕ) {stage : Stage}
    (hrow : ∀ row, stage.row? = some row → w.RowId row) : (w.setStage j stage).Inv := by
  have hsame : SameThreads w (w.setStage j stage) := sameThreads_setStage j stage
  refine hsame.inv hinv rfl rfl ?_ ?_
  · intro t' ht' row ht'row
    obtain ⟨k, hk⟩ := List.mem_iff_getElem?.1 ht'
    obtain ⟨t, ht, rfl⟩ := getElem?_modify_eq_some hk
    split at ht'row
    · exact hsame.rowId (hrow row ht'row)
    · exact hsame.rowId (hinv.row t (List.mem_of_getElem? ht) row ht'row)
  · intro t' ht' hbooked hsuperseded s hs hid
    obtain ⟨k, hk⟩ := List.mem_iff_getElem?.1 ht'
    obtain ⟨t, ht, rfl⟩ := getElem?_modify_eq_some hk
    have hthen := hinv.booked t (List.mem_of_getElem? ht)
    split at hbooked <;> rename_i heq
    · rw [if_pos heq] at hsuperseded hid ⊢
      exact hthen hbooked hsuperseded s hs hid
    · rw [if_neg heq] at hsuperseded hid ⊢
      exact hthen hbooked hsuperseded s hs hid

/-- An id that has just been drawn may be given to a row. -/
theorem Inv.draw (hinv : w.Inv) :
    ({ w with drawn := w.drawn + 1 } : World).Inv ∧
      ({ w with drawn := w.drawn + 1 } : World).RowId w.drawn := by
  have hrow {id : Uuid} (h : w.RowId id) : ({ w with drawn := w.drawn + 1 } : World).RowId id :=
    ⟨h.1.trans (Nat.lt_succ_self _), h.2⟩
  refine ⟨⟨fun e he => hrow (hinv.executions e he), fun t ht e he => hrow (hinv.read t ht e he),
    fun t ht row h => hrow (hinv.row t ht row h), fun t ht => ?_, hinv.pending, hinv.booked⟩,
    Nat.lt_succ_self _, fun t ht => (hinv.drawn t ht).ne⟩
  exact (hinv.drawn t ht).trans (Nat.lt_succ_self _)

theorem Inv.push (hinv : w.Inv) {e : ExecutionRow} (he : w.RowId e.id) :
    ({ w with executions := w.executions ++ [e] } : World).Inv where
  executions e' he' := by
    rcases List.mem_append.1 he' with he' | he'
    · exact hinv.executions e' he'
    · rw [List.mem_singleton.1 he']
      exact he
  read := hinv.read
  row := hinv.row
  drawn := hinv.drawn
  pending := hinv.pending
  booked := hinv.booked

theorem Inv.spawn (hinv : w.Inv) (schedule : ScheduleRow) : (w.spawn schedule).Inv := by
  have hrow {id : Uuid} (h : w.RowId id) : (w.spawn schedule).RowId id := by
    refine ⟨h.1.trans (Nat.lt_succ_self _), fun t ht => ?_⟩
    rcases List.mem_append.1 ht with ht | ht
    · exact h.2 t ht
    · rw [List.mem_singleton.1 ht]
      exact h.1.ne'
  refine ⟨fun e he => hrow (hinv.executions e he), fun t ht e he => hrow (hinv.read t ht e he),
    ?_, ?_, ?_, ?_⟩
  · intro t ht row h
    rcases List.mem_append.1 ht with ht | ht
    · exact hrow (hinv.row t ht row h)
    · rw [List.mem_singleton.1 ht] at h
      exact absurd h (by simp [newThread, Stage.row?])
  · intro t ht
    rcases List.mem_append.1 ht with ht | ht
    · exact (hinv.drawn t ht).trans (Nat.lt_succ_self _)
    · rw [List.mem_singleton.1 ht]
      exact Nat.lt_succ_self _
  · intro t ht fields j hphase
    obtain ⟨u, next, hu, hid, hfields⟩ := hinv.pending t ht fields j hphase
    refine ⟨u, next, ?_, hid, hfields⟩
    rw [World.spawn, List.getElem?_append_left (List.getElem?_eq_some_iff.1 hu).1, hu]
  · intro t ht hbooked hsuperseded
    rcases List.mem_append.1 ht with ht | ht
    · exact hinv.booked t ht hbooked hsuperseded
    · rw [List.mem_singleton.1 ht] at hbooked
      exact absurd hbooked (by simp [newThread])

/-- A trigger has started a thread, and is to name it. -/
theorem Inv.start (hinv : w.Inv) (i : ℕ) {t : Trigger} (ht : w.triggers[i]? = some t) :
    (w.start i t).Inv := by
  have hspawned := hinv.spawn t.schedule
  unfold World.start
  split
  · exact hspawned.setPhase i (by simp)
  · rename_i fields hfields
    obtain ⟨next, -, rfl⟩ := map_eq_ok.1 hfields
    refine ⟨hspawned.executions, ?_, hspawned.row, hspawned.drawn, ?_, hspawned.booked⟩
    · intro t' ht'
      obtain ⟨k, hk⟩ := List.mem_iff_getElem?.1 ht'
      obtain ⟨t'', ht'', rfl⟩ := getElem?_modify_eq_some hk
      split <;> exact hspawned.read t'' (List.mem_of_getElem? ht'')
    · intro t' ht' fields j hphase
      obtain ⟨k, hk⟩ := List.mem_iff_getElem?.1 ht'
      obtain ⟨t'', ht'', rfl⟩ := getElem?_modify_eq_some hk
      split at hphase
      · rename_i heq
        obtain rfl := heq
        obtain rfl : t'' = t := Option.some.inj (ht''.symm.trans ht)
        rw [if_pos rfl]
        obtain ⟨rfl, rfl⟩ := Phase.booked.inj hphase
        refine ⟨w.newThread t''.schedule, next, ?_, rfl, rfl⟩
        exact getElem?_concat_length w.threads _
      · rename_i hne
        rw [if_neg hne]
        exact hspawned.pending t'' (List.mem_of_getElem? ht'') fields j hphase

/-- The rows after a request on a schedule: each is as it was but for its settings. -/
theorem mem_request {db : Db} {r : Except String Db} {P : ScheduleRow → Prop}
    (hkept : ∀ s ∈ db.schedules, P s) (h : ∀ db', r = .ok db' → ∀ s ∈ db'.schedules, P s) :
    ∀ s ∈ (Schedule.request db r).schedules, P s := by
  cases r with
  | ok db' => exact h db' rfl
  | error e => exact hkept

theorem mem_insertSchedule {db : Db} {now : ℤ} {id : String} {dto : ScheduleDto} :
    ∀ s ∈ (db.call localTime (.insert now id dto)).schedules, s.id = id ∨ s ∈ db.schedules := by
  refine mem_request (fun s hs => .inr hs) fun db' h s hs => ?_
  obtain ⟨dto', -, h⟩ := bind_eq_ok.1 h
  split at h
  · exact absurd h (by simp)
  · obtain ⟨next, -, h⟩ := bind_eq_ok.1 h
    unfold Db.insert at h
    split_ifs at h
    obtain rfl := Except.ok.inj h
    rcases List.mem_cons.1 hs with rfl | hs
    · exact .inl rfl
    · exact .inr hs

theorem mem_deleteSchedule {db : Db} {id : String} :
    ∀ s ∈ (db.call localTime (.delete id)).schedules, s.id = id ∨ s ∈ db.schedules := by
  refine mem_request (fun s hs => .inr hs) fun db' h s hs => ?_
  unfold deleteSchedule at h
  split at h
  · exact absurd h (by simp)
  · obtain rfl := Except.ok.inj h
    exact .inr (List.mem_of_mem_filter hs)

/-- A row whose state is that of a row of before. -/
def SameState (db : Db) (s' : ScheduleRow) : Prop :=
  ∃ s ∈ db.schedules, s.id = s'.id ∧ s'.lastStatus = s.lastStatus ∧
    s'.lastExecutionId = s.lastExecutionId

theorem SameState.refl {db : Db} {s : ScheduleRow} (hs : s ∈ db.schedules) : SameState db s :=
  ⟨s, hs, rfl, rfl, rfl⟩

theorem sameState_updateSchedule {db : Db} {now : ℤ} {id : String} {dto : ScheduleDto} :
    ∀ s ∈ (db.call localTime (.update now id dto)).schedules, SameState db s := by
  refine mem_request (fun s hs => .refl hs) fun db' h s hs => ?_
  obtain ⟨dto', -, h⟩ := bind_eq_ok.1 h
  split_ifs at h
  obtain ⟨next, -, h⟩ := bind_eq_ok.1 h
  unfold Db.setRow at h
  split_ifs at h
  obtain rfl := Except.ok.inj h
  obtain ⟨r, hr, rfl⟩ := List.mem_map.1 hs
  refine ⟨r, hr, ?_⟩
  split <;> exact ⟨rfl, rfl, rfl⟩

theorem sameState_setActive {db : Db} {id : String} {active : Bool} {nextRunAt : Option ℤ} :
    ∀ s ∈ (db.setActive id active nextRunAt).schedules, SameState db s := by
  intro s hs
  obtain ⟨r, hr, rfl⟩ := List.mem_map.1 hs
  refine ⟨r, hr, ?_⟩
  split <;> exact ⟨rfl, rfl, rfl⟩

theorem sameState_activateSchedule {db : Db} {now : ℤ} {id : String} :
    ∀ s ∈ (db.call localTime (.activate now id)).schedules, SameState db s := by
  refine mem_request (fun s hs => .refl hs) fun db' h => ?_
  unfold activateSchedule at h
  split at h
  · exact absurd h (by simp)
  · obtain ⟨next, -, h⟩ := bind_eq_ok.1 h
    obtain rfl := Except.ok.inj h
    exact sameState_setActive

theorem sameState_deactivateSchedule {db : Db} {id : String} :
    ∀ s ∈ (db.call localTime (.deactivate id)).schedules, SameState db s := by
  refine mem_request (fun s hs => .refl hs) fun db' h => ?_
  unfold deactivateSchedule at h
  split at h
  · exact absurd h (by simp)
  · obtain rfl := Except.ok.inj h
    exact sameState_setActive

theorem Inv.setDb_sameState (hinv : w.Inv) {db : Db}
    (h : ∀ s ∈ db.schedules, SameState w.db s) : ({ w with db } : World).Inv := by
  refine hinv.setDb fun s' hs' => ?_
  obtain ⟨s, hs, hid, hstate⟩ := h s' hs'
  exact ⟨s, hs, hid, .inl hstate⟩

theorem Inv.request (hinv : w.Inv) {c : Call} (h : w.request localTime c = some w') :
    w'.Inv := by
  cases c with
  | trigger => exact absurd h (by simp [World.request])
  | pass => exact absurd h (by simp [World.request])
  | insert now id dto =>
    obtain rfl := Option.some.inj h
    exact hinv.setDb_mark mem_insertSchedule
  | delete id =>
    obtain rfl := Option.some.inj h
    exact hinv.setDb_mark mem_deleteSchedule
  | sync =>
    obtain rfl := Option.some.inj h
    refine hinv.setDb fun s' hs' => ?_
    obtain ⟨s, hs, rfl⟩ := List.mem_map.1 hs'
    exact ⟨s, hs, (refreshRow_id _ _).symm, .inr rfl⟩
  | update =>
    obtain rfl := Option.some.inj h
    exact hinv.setDb_sameState sameState_updateSchedule
  | activate =>
    obtain rfl := Option.some.inj h
    exact hinv.setDb_sameState sameState_activateSchedule
  | deactivate =>
    obtain rfl := Option.some.inj h
    exact hinv.setDb_sameState sameState_deactivateSchedule

theorem Inv.enter (hinv : w.Inv) (manual : Bool) (now : ℤ) (id : String) :
    (w.enter manual now id).Inv := by
  unfold World.enter
  split
  · exact hinv
  · split
    · exact hinv.write hinv.executions (by simp)
    · exact hinv.write hinv.executions (by simp)
    · exact hinv.write hinv.executions (by simp)
    · refine ⟨hinv.executions, ?_, hinv.row, hinv.drawn, ?_, hinv.booked⟩
      · intro t ht
        rcases List.mem_append.1 ht with ht | ht
        · exact hinv.read t ht
        · rw [List.mem_singleton.1 ht]
          exact hinv.executions
      · intro t ht fields j hphase
        rcases List.mem_append.1 ht with ht | ht
        · exact hinv.pending t ht fields j hphase
        · rw [List.mem_singleton.1 ht] at hphase
          exact absurd hphase (by simp)

/-- **Every step keeps the invariant.** -/
theorem Inv.step (hinv : w.Inv) {action : Action} (h : w.step localTime action = some w') :
    w'.Inv := by
  cases action with
  | request c => exact hinv.request h
  | enter manual now id =>
    obtain rfl := Option.some.inj h
    exact hinv.enter manual now id
  | look i =>
    simp only [World.step] at h
    split at h
    · rename_i t ht
      split at h
      · obtain rfl := Option.some.inj h
        unfold World.look
        split
        · split
          · exact hinv.setPhase i (by simp)
          · refine Inv.setPhase (hinv.write ?_ (by simp)) i (by simp)
            exact hinv.read t (List.mem_of_getElem? ht)
        · exact hinv.setPhase i (by simp)
      · exact absurd h (by simp)
    · exact absurd h (by simp)
  | start i raises =>
    simp only [World.step] at h
    split at h
    · rename_i t ht
      split at h
      · split at h
        · obtain rfl := Option.some.inj h
          exact hinv.setPhase i (by simp)
        · obtain rfl := Option.some.inj h
          exact hinv.start i ht
      · exact absurd h (by simp)
    · exact absurd h (by simp)
  | commit i =>
    simp only [World.step] at h
    split at h
    · rename_i t ht
      split at h
      · rename_i fields thread hphase
        obtain rfl := Option.some.inj h
        have hmem := List.mem_of_getElem? ht
        obtain ⟨u, next, hu, hid, hfields⟩ := hinv.pending t hmem fields thread hphase
        refine Inv.setPhase (hinv.write (hinv.read t hmem) ?_) i (by simp)
        rintro j hj
        obtain rfl := Option.some.inj hj
        exact ⟨u, next, t.now, hu, hid, congrArg some hfields⟩
      · exact absurd h (by simp)
    · exact absurd h (by simp)
  | insert j =>
    simp only [World.step] at h
    split at h
    · split at h
      · obtain rfl := Option.some.inj h
        obtain ⟨hdrawn, hrow⟩ := hinv.draw
        refine hdrawn.setStage j fun row hstage => ?_
        obtain rfl := Option.some.inj hstage
        exact hrow
      · exact absurd h (by simp)
    · exact absurd h (by simp)
  | finish j anyError message =>
    simp only [World.step] at h
    split at h
    · rename_i t ht
      split at h
      · rename_i row hstage
        obtain rfl := Option.some.inj h
        have hrow : w.RowId row :=
          hinv.row t (List.mem_of_getElem? ht) row (by rw [hstage]; rfl)
        have hset : (w.setStage j (.finished row (if anyError then "error" else "success"))).Inv :=
          hinv.setStage j fun row' hstage' => Option.some.inj hstage' ▸ hrow
        exact hset.push ((sameThreads_setStage j _).rowId hrow)
      · exact absurd h (by simp)
    · exact absurd h (by simp)
  | abort j =>
    simp only [World.step] at h
    split at h
    · split at h
      · obtain rfl := Option.some.inj h
        exact hinv.setStage j fun row hstage => absurd hstage (by simp [Stage.row?])
      · exact absurd h (by simp)
    · exact absurd h (by simp)
  | other testSuiteId status message =>
    obtain rfl := Option.some.inj h
    obtain ⟨hdrawn, hrow⟩ := hinv.draw
    exact hdrawn.push hrow

theorem Inv.run (hinv : w.Inv) {actions : List Action} (h : w.run localTime actions = some w') :
    w'.Inv := by
  induction actions generalizing w with
  | nil =>
    obtain rfl := Option.some.inj h
    exact hinv
  | cons action actions ih =>
    rw [World.run, List.foldlM_cons] at h
    obtain ⟨w₁, hfirst, hrest⟩ := Option.bind_eq_some_iff.1 h
    exact ih (hinv.step hfirst) hrest

/-- The ids of the rows there are have been drawn. -/
theorem id_lt_drawn {executions : List ExecutionRow} {e : ExecutionRow} (he : e ∈ executions) :
    e.id < (executions.map (·.id + 1)).foldr max 0 := by
  induction executions with
  | nil => exact absurd he List.not_mem_nil
  | cons first executions ih =>
    rw [List.map_cons, List.foldr_cons]
    rcases List.mem_cons.1 he with rfl | he
    · exact (Nat.lt_succ_self _).trans_le (le_max_left _ _)
    · exact (ih he).trans_le (le_max_right _ _)

theorem inv_initial (db : Db) (executions : List ExecutionRow) :
    (World.initial db executions).Inv where
  executions _ he := ⟨id_lt_drawn he, fun _ ht => absurd ht List.not_mem_nil⟩
  read _ ht := absurd ht List.not_mem_nil
  row _ ht := absurd ht List.not_mem_nil
  drawn _ ht := absurd ht List.not_mem_nil
  pending _ ht := absurd ht List.not_mem_nil
  booked _ ht := absurd ht List.not_mem_nil

end World

/-- **No schedule reports what it has started.**  In every run, once the execution that a
trigger has started is over, and no other trigger of the schedule has written since, the
schedule names another id than that of the execution, and the next pass leaves it
`running`, which no execution ends with. -/
theorem not_reports (localTime : ℤ → ℤ) (db : Db) (executions : List ExecutionRow)
    (actions : List Action) {w : World}
    (hrun : (World.initial db executions).run localTime actions = some w) (j : ℕ)
    {t : ExecutorThread} (ht : w.threads[j]? = some t) (hbooked : t.booked = true)
    (hlatest : t.superseded = false) {row : Uuid} {status : String}
    (hfinished : t.stage = .finished row status) :
    ¬w.Reports t row status ∧
      ∀ s, w.db.getById t.scheduleId = some s →
        s.lastExecutionId ≠ some row ∧ (refreshRow w.executions s).lastStatus = "running" := by
  have hinv := (World.inv_initial db executions).run hrun
  have hmem := List.mem_of_getElem? ht
  have hstate : ∀ s, w.db.getById t.scheduleId = some s →
      s.lastExecutionId ≠ some row ∧ (refreshRow w.executions s).lastStatus = "running" := by
    intro s hs
    obtain ⟨hs, hid⟩ := Db.getById_eq_some.1 hs
    obtain ⟨hstatus, hexecution⟩ := hinv.booked t hmem hbooked hlatest s hs hid
    have hrow := (hinv.row t hmem row (by rw [hfinished]; rfl)).2 t hmem
    refine ⟨fun h => hrow (Option.some.inj (hexecution.symm.trans h)), ?_⟩
    rw [World.refreshRow_eq hmem hinv.executions hexecution]
    exact hstatus
  refine ⟨?_, hstate⟩
  rintro ⟨s, hs, hexecution, -⟩
  exact (hstate s hs).1 hexecution

/-- A schedule is triggered, and its execution succeeds. -/
def succeeding : List Action :=
  [.enter false 600 "a", .look 0, .start 0 none, .commit 0, .insert 0, .finish 0 false none]

/-- Its row names the thread, and not the execution. -/
theorem succeeding_not_reported :
    ∃ w t, (World.initial twoDue []).run id succeeding = some w ∧ w.threads[0]? = some t ∧
      t.booked = true ∧ t.superseded = false ∧ t.stage = .finished 1 "success" ∧
      ¬w.Reports t 1 "success" := by
  have hworld : ((World.initial twoDue []).run id succeeding).map
      (fun w => (w.threads, w.db.getById "a" |>.bind (·.lastExecutionId)))
      = some ([⟨"s1", "a", 0, .finished 1 "success", true, false⟩], some 0) := by
    decide +kernel
  obtain ⟨w, hrun, hw⟩ := Option.map_eq_some_iff.1 hworld
  obtain ⟨hthreads, hrow⟩ := Prod.mk.inj hw
  refine ⟨w, _, hrun, by rw [hthreads]; rfl, rfl, rfl, rfl, ?_⟩
  rintro ⟨s, hs, hexecution, -⟩
  rw [hs, Option.bind_some, hexecution] at hrow
  exact absurd hrow (by decide)

theorem not_reports_succeeding :
    ∃ w t, (World.initial twoDue []).run id succeeding = some w ∧ w.threads[0]? = some t ∧
      ¬w.Reports t 1 "success" := by
  have hworld : ((World.initial twoDue []).run id succeeding).map World.threads
      = some [⟨"s1", "a", 0, .finished 1 "success", true, false⟩] := by
    decide +kernel
  obtain ⟨w, hrun, hthreads⟩ := Option.map_eq_some_iff.1 hworld
  have ht : w.threads[0]? = some ⟨"s1", "a", 0, .finished 1 "success", true, false⟩ := by
    rw [hthreads]
    rfl
  exact ⟨w, _, hrun, ht, (not_reports id twoDue [] succeeding hrun 0 ht rfl rfl rfl).1⟩

end Schedule
end QualityFlow
