/-
# Four hooks become two

`_collapse_phase` and `_collapse_hooks_four_to_two` of
`src/alembic/versions/b1c2d3e4f5a6_2026052811_qsm_047_test_suites_foundation.py`.

The hooks of a suite are collapsed on each side, setup and teardown: the first one takes the
commands of all, numbered anew, and the others are deleted with what refers to them.  The
sources that a deleted hook declares go with it.

Rows of one key come back in any order.  What a side becomes depends on its own rows alone, so
that the sides of all suites are collapsed independently.
-/

import Mathlib
import QualityFlow.Sql.OrderBy
import QualityFlow.Suite.Visible

namespace QualityFlow
namespace Migration

open Py Command Suite Sql

/-! ### The migration -/

/-- `HOOK_PRIORITY_SQL`. -/
def hookPriority : Option HookPhase → ℕ
  | some .beforeAll => 0
  | some .beforeEach => 1
  | some .afterEach => 2
  | some .afterAll => 3
  | none => 99

/-- The hooks that become one. -/
inductive Side where
  | setup
  | teardown
deriving DecidableEq

/-- `SETUP_PHASES` and `TEARDOWN_PHASES`. -/
def Side.phases : Side → List HookPhase
  | .setup => [.beforeAll, .beforeEach]
  | .teardown => [.afterEach, .afterAll]

/-- The order of items. -/
def itemKey (item : SuiteItemEntity) : ℕ ×ₗ ℤ := toLex (hookPriority item.hookPhase, item.position)

/-- The order of commands, each with its item. -/
def commandKey (row : SuiteItemOperationEntity × SuiteItemEntity) : ℕ ×ₗ ℤ ×ₗ ℤ :=
  toLex (hookPriority row.2.hookPhase, toLex (row.2.position, row.1.order))

/-- The orders that rows come back in. -/
structure Orders where
  items : OrderBy itemKey
  commands : OrderBy commandKey
  suites : OrderBy fun _ : String => ()

/-- The items of a side. -/
def sideItems (store : Store) (suiteId : String) (side : Side) : List SuiteItemEntity :=
  store.items.filter fun item =>
    item.testSuiteId = suiteId ∧ item.hookPhase ∈ side.phases.map some

/-- The commands of a side, each with its item. -/
def sideCommands (store : Store) (suiteId : String) (side : Side) :
    List (SuiteItemOperationEntity × SuiteItemEntity) :=
  store.operations.flatMap fun op =>
    ((sideItems store suiteId side).filter fun item => item.id = op.suiteItemId).map fun item =>
      (op, item)

/-- The `UPDATE` of a command that has a new number. -/
def renumber (targetId : String) (ordered : List (SuiteItemOperationEntity × SuiteItemEntity))
    (op : SuiteItemOperationEntity) : SuiteItemOperationEntity :=
  match rowNumber? (fun row => row.1.id) ordered op.id with
  | some newOrder => { op with suiteItemId := targetId, order := newOrder }
  | none => op

/-- `_collapse_phase`. -/
def collapsePhase (orders : Orders) (store : Store) (suiteId : String) (side : Side) : Store :=
  match orders.items.rows (sideItems store suiteId side) with
  | target :: donor :: donors =>
    let donorIds := (donor :: donors).map SuiteItemEntity.id
    let ordered := orders.commands.rows (sideCommands store suiteId side)
    let operations := store.operations.map (renumber target.id ordered)
    { store with
      items := store.items.filter fun item => item.id ∉ donorIds
      operations := operations.filter fun op => op.suiteItemId ∉ donorIds }
  | _ => store

/-- The suites that have hooks. -/
def hookSuites (store : Store) : List String :=
  ((store.items.filter fun item =>
    item.hookPhase ∈ (Side.setup.phases ++ Side.teardown.phases).map some).map
      SuiteItemEntity.testSuiteId).dedup

/-- `_collapse_hooks_four_to_two`. -/
def collapseHooksFourToTwo (orders : Orders) (store : Store) : Store :=
  (orders.suites.rows (hookSuites store)).foldl (fun store suiteId =>
    collapsePhase orders (collapsePhase orders store suiteId .setup) suiteId .teardown) store

/-! ### One side -/

/-- Items and commands have ids of their own. -/
structure Keyed (store : Store) : Prop where
  items : (store.items.map SuiteItemEntity.id).Nodup
  operations : (store.operations.map SuiteItemOperationEntity.id).Nodup

/-- What a command says, apart from where it stands. -/
def body (op : SuiteItemOperationEntity) :
    String × String × String × String × List (String × Json) :=
  (op.id, op.description, op.commandCode, op.commandType, op.configurationJson)

section

variable {orders : Orders} {store : Store} {suiteId suiteId' : String} {side side' : Side}
  {item target donor : SuiteItemEntity} {donors : List SuiteItemEntity}
  {op : SuiteItemOperationEntity}

theorem mem_sideItems : item ∈ sideItems store suiteId side ↔
    item ∈ store.items ∧ item.testSuiteId = suiteId ∧ item.hookPhase ∈ side.phases.map some := by
  simp [sideItems]

/-- No item is on two sides. -/
theorem side_eq (h : item ∈ sideItems store suiteId side)
    (h' : item ∈ sideItems store suiteId' side') : suiteId = suiteId' ∧ side = side' := by
  obtain ⟨-, hsuite, hphase⟩ := mem_sideItems.1 h
  obtain ⟨-, hsuite', hphase'⟩ := mem_sideItems.1 h'
  refine ⟨hsuite.symm.trans hsuite', ?_⟩
  cases hitem : item.hookPhase with
  | none => simp [hitem] at hphase
  | some phase =>
    rw [hitem] at hphase hphase'
    cases phase <;> cases side <;> cases side' <;> simp [Side.phases] at hphase hphase' ⊢

theorem mem_sideCommands : (op, item) ∈ sideCommands store suiteId side ↔
    op ∈ store.operations ∧ item ∈ sideItems store suiteId side ∧ item.id = op.suiteItemId := by
  unfold sideCommands
  rw [List.mem_flatMap]
  constructor
  · rintro ⟨op', hop', hrow⟩
    obtain ⟨item', hitem', heq⟩ := List.mem_map.1 hrow
    obtain ⟨rfl, rfl⟩ := Prod.mk.inj heq
    obtain ⟨hside, hid⟩ := List.mem_filter.1 hitem'
    exact ⟨hop', hside, by simpa using hid⟩
  · rintro ⟨hop, hside, hid⟩
    exact ⟨op, hop, List.mem_map_of_mem (List.mem_filter.2 ⟨hside, by simpa using hid⟩)⟩

/-- Rows of one id are one row. -/
theorem Keyed.item_ext (h : Keyed store) {item' : SuiteItemEntity} (hitem : item ∈ store.items)
    (hitem' : item' ∈ store.items) (hid : item.id = item'.id) : item = item' :=
  List.inj_on_of_nodup_map h.items hitem hitem' hid

theorem Keyed.operation_ext (h : Keyed store) {op' : SuiteItemOperationEntity}
    (hop : op ∈ store.operations) (hop' : op' ∈ store.operations) (hid : op.id = op'.id) :
    op = op' :=
  List.inj_on_of_nodup_map h.operations hop hop' hid

/-- Each command is listed once, where its item is on the side. -/
theorem map_fst_sideCommands (h : Keyed store) (suiteId : String) (side : Side) :
    (sideCommands store suiteId side).map Prod.fst =
      store.operations.filter fun op =>
        decide (∃ item ∈ sideItems store suiteId side, item.id = op.suiteItemId) := by
  have hnodup : ((sideItems store suiteId side).map SuiteItemEntity.id).Nodup :=
    h.items.sublist (List.filter_sublist.map _)
  have hone (op : SuiteItemOperationEntity) :
      (((sideItems store suiteId side).filter fun item => item.id = op.suiteItemId).map fun item =>
        (op, item)).map Prod.fst =
      if ∃ item ∈ sideItems store suiteId side, item.id = op.suiteItemId then [op] else [] := by
    generalize sideItems store suiteId side = items at hnodup
    induction items with
    | nil => simp
    | cons item items ih =>
      obtain ⟨hnew, hrest⟩ := List.nodup_cons.1 hnodup
      by_cases hid : item.id = op.suiteItemId
      · have hnone : (items.filter fun item => item.id = op.suiteItemId) = [] := by
          apply List.filter_eq_nil_iff.2
          intro item' hitem' heq
          apply hnew
          rw [hid, ← (by simpa using heq : item'.id = op.suiteItemId)]
          exact List.mem_map_of_mem hitem'
        rw [List.filter_cons_of_pos (by simpa using hid), hnone]
        simp [hid]
      · rw [List.filter_cons_of_neg (by simpa using hid), ih hrest]
        simp [hid]
  unfold sideCommands
  rw [List.map_flatMap]
  simp only [hone]
  induction store.operations with
  | nil => rfl
  | cons op ops ih =>
    rw [List.flatMap_cons, ih]
    split
    · rename_i hin
      rw [List.filter_cons_of_pos (by simpa using hin)]
      rfl
    · rename_i hout
      rw [List.filter_cons_of_neg (by simpa using hout)]
      rfl

theorem collapsePhase_of_length_le_one (h : (sideItems store suiteId side).length ≤ 1) :
    collapsePhase orders store suiteId side = store := by
  unfold collapsePhase
  rw [orders.items.rows_of_length_le_one h]
  rcases hitems : sideItems store suiteId side with _ | ⟨target, _ | ⟨donor, donors⟩⟩
  · rfl
  · rfl
  · rw [hitems] at h
    simp at h

variable (orders) in
/-- The numbered commands of a side have ids of their own. -/
theorem nodup_ordered (h : Keyed store) :
    ((orders.commands.rows (sideCommands store suiteId side)).map fun row => row.1.id).Nodup := by
  have hperm := (orders.commands.perm (sideCommands store suiteId side)).map fun row => row.1.id
  have hmap : ((sideCommands store suiteId side).map fun row => row.1.id) =
      ((sideCommands store suiteId side).map Prod.fst).map SuiteItemOperationEntity.id := by
    rw [List.map_map]
    rfl
  rw [hperm.nodup_iff, hmap, map_fst_sideCommands h]
  exact h.operations.sublist (List.filter_sublist.map _)

variable (orders) in
/-- A command of the side is moved and numbered. -/
theorem renumber_of_mem (h : Keyed store) (hrow : (op, item) ∈ sideCommands store suiteId side)
    (targetId : String) :
    ∃ n : ℕ, renumber targetId (orders.commands.rows (sideCommands store suiteId side)) op =
      { op with suiteItemId := targetId, order := n } := by
  have hmem := orders.commands.mem_rows.2 hrow
  obtain ⟨n, hn, hget⟩ := List.getElem_of_mem hmem
  have hnumber := rowNumber?_getElem (nodup_ordered orders h) hn
  rw [hget] at hnumber
  refine ⟨n, ?_⟩
  unfold renumber
  rw [hnumber]

/-- A command that is on another side is left alone. -/
theorem renumber_of_not_mem (h : Keyed store) (hop : op ∈ store.operations)
    (hside : ∀ item ∈ sideItems store suiteId side, item.id ≠ op.suiteItemId) (targetId : String) :
    renumber targetId (orders.commands.rows (sideCommands store suiteId side)) op = op := by
  have hnone : rowNumber? (fun row : SuiteItemOperationEntity × SuiteItemEntity => row.1.id)
      (orders.commands.rows (sideCommands store suiteId side)) op.id = none := by
    rw [rowNumber?_eq_none]
    rintro ⟨op', item⟩ hrow hid
    obtain ⟨hop', hitem, hitemId⟩ := mem_sideCommands.1 (orders.commands.mem_rows.1 hrow)
    obtain rfl := h.operation_ext hop' hop hid
    exact hside item hitem hitemId
  unfold renumber
  rw [hnone]

theorem body_renumber (targetId : String)
    (ordered : List (SuiteItemOperationEntity × SuiteItemEntity)) (op : SuiteItemOperationEntity) :
    body (renumber targetId ordered op) = body op := by
  unfold renumber
  split <;> rfl

section

variable (h : Keyed store)
  (hrows : orders.items.rows (sideItems store suiteId side) = target :: donor :: donors)

include hrows in
theorem mem_of_rows : item ∈ sideItems store suiteId side ↔ item ∈ target :: donor :: donors := by
  rw [← hrows, orders.items.mem_rows]

include h hrows in
theorem nodup_rows_ids : ((target :: donor :: donors).map SuiteItemEntity.id).Nodup := by
  rw [← hrows, ((orders.items.perm _).map _).nodup_iff]
  exact h.items.sublist (List.filter_sublist.map _)

include h hrows in
/-- Where a command stands after a side is collapsed, it is not at a donor. -/
theorem suiteItemId_renumber (hop : op ∈ store.operations) :
    (renumber target.id (orders.commands.rows (sideCommands store suiteId side)) op).suiteItemId ∉
      (donor :: donors).map SuiteItemEntity.id := by
  by_cases hside : ∃ item ∈ sideItems store suiteId side, item.id = op.suiteItemId
  · obtain ⟨item, hitem, hid⟩ := hside
    obtain ⟨n, hn⟩ := renumber_of_mem orders h
      (mem_sideCommands.2 ⟨hop, hitem, hid⟩) target.id
    rw [hn]
    exact (List.nodup_cons.1 (nodup_rows_ids h hrows)).1
  · push Not at hside
    rw [renumber_of_not_mem h hop hside]
    intro hdonor
    obtain ⟨donor', hdonor', hid⟩ := List.mem_map.1 hdonor
    exact hside donor' ((mem_of_rows hrows).2 (List.mem_cons_of_mem _ hdonor')) hid

include h hrows in
/-- No command is deleted with the donors. -/
theorem operations_collapsePhase : (collapsePhase orders store suiteId side).operations =
    store.operations.map
      (renumber target.id (orders.commands.rows (sideCommands store suiteId side))) := by
  unfold collapsePhase
  rw [hrows]
  apply List.filter_eq_self.2
  intro op hop
  obtain ⟨op', hop', rfl⟩ := List.mem_map.1 hop
  simpa using suiteItemId_renumber h hrows hop'

include hrows in
theorem items_collapsePhase : (collapsePhase orders store suiteId side).items =
    store.items.filter fun item => item.id ∉ (donor :: donors).map SuiteItemEntity.id := by
  unfold collapsePhase
  rw [hrows]

include h hrows in
/-- One item of the side is left. -/
theorem sideItems_collapsePhase :
    sideItems (collapsePhase orders store suiteId side) suiteId side = [target] := by
  have hids := nodup_rows_ids h hrows
  obtain ⟨htarget, -⟩ := List.nodup_cons.1 hids
  have hleft : ((sideItems store suiteId side).filter fun item =>
      item.id ∉ (donor :: donors).map SuiteItemEntity.id).Perm [target] := by
    have hperm := ((orders.items.perm (sideItems store suiteId side)).symm).filter fun item =>
      decide (item.id ∉ (donor :: donors).map SuiteItemEntity.id)
    rw [hrows, List.filter_cons_of_pos (by simpa using htarget)] at hperm
    have hnone : (donor :: donors).filter
        (fun item => item.id ∉ (donor :: donors).map SuiteItemEntity.id) = [] := by
      apply List.filter_eq_nil_iff.2
      intro item hitem
      rw [decide_eq_true_iff, not_not]
      exact List.mem_map_of_mem hitem
    rwa [hnone] at hperm
  apply List.perm_singleton.1
  rw [sideItems, items_collapsePhase hrows, List.filter_filter]
  rw [sideItems, List.filter_filter] at hleft
  simpa only [Bool.and_comm] using hleft

include h hrows in
/-- **The item that is left holds the commands of the side, numbered in their order.** -/
theorem commands_collapsePhase :
    ((collapsePhase orders store suiteId side).operations.filter fun op =>
        op.suiteItemId = target.id).Perm
      ((orders.commands.rows (sideCommands store suiteId side)).mapIdx fun n row =>
        { row.1 with suiteItemId := target.id, order := (n : ℤ) }) := by
  set ordered := orders.commands.rows (sideCommands store suiteId side) with hordered
  have htarget : target ∈ sideItems store suiteId side :=
    (mem_of_rows hrows).2 List.mem_cons_self
  -- the commands that end up at the target are those of the side
  have hfilter : (store.operations.map (renumber target.id ordered)).filter
      (fun op => op.suiteItemId = target.id) =
        ((sideCommands store suiteId side).map Prod.fst).map (renumber target.id ordered) := by
    rw [map_fst_sideCommands h, List.filter_map]
    congr 1
    apply List.filter_congr
    intro op hop
    by_cases hside : ∃ item ∈ sideItems store suiteId side, item.id = op.suiteItemId
    · obtain ⟨item, hitem, hid⟩ := hside
      obtain ⟨n, hn⟩ := renumber_of_mem orders h
        (mem_sideCommands.2 ⟨hop, hitem, hid⟩) target.id
      have hin : ∃ item ∈ sideItems store suiteId side, item.id = op.suiteItemId :=
        ⟨item, hitem, hid⟩
      rw [Function.comp_apply, hn]
      simp [hin]
    · have hout := hside
      push Not at hside
      rw [Function.comp_apply, renumber_of_not_mem h hop hside]
      have hne : op.suiteItemId ≠ target.id := fun heq => hside target htarget heq.symm
      simp [hout, hne]
  have hnumbered : ordered.map (fun row => renumber target.id ordered row.1) =
      ordered.mapIdx fun n row =>
        { row.1 with suiteItemId := target.id, order := (n : ℤ) } := by
    have hnodup : (ordered.map fun row => row.1.id).Nodup := nodup_ordered orders h
    apply List.ext_getElem
    · simp
    · intro n hn hn'
      rw [List.length_map] at hn
      rw [List.getElem_map, List.getElem_mapIdx]
      have hnumber := rowNumber?_getElem hnodup hn
      unfold renumber
      rw [hnumber]
  rw [operations_collapsePhase h hrows, ← hordered, hfilter, ← hnumbered, List.map_map]
  exact ((orders.commands.perm (sideCommands store suiteId side)).symm).map _

/-- A side that is left alone keeps its commands. -/
theorem sideCommands_congr {store' : Store}
    (hitems : sideItems store' suiteId side = sideItems store suiteId side)
    {f : SuiteItemOperationEntity → SuiteItemOperationEntity}
    (hoperations : store'.operations = store.operations.map f)
    (hkept : ∀ op ∈ store.operations,
      (∃ item ∈ sideItems store suiteId side, item.id = op.suiteItemId) → f op = op)
    (hout : ∀ op ∈ store.operations,
      (∀ item ∈ sideItems store suiteId side, item.id ≠ op.suiteItemId) →
        ∀ item ∈ sideItems store suiteId side, item.id ≠ (f op).suiteItemId) :
    sideCommands store' suiteId side = sideCommands store suiteId side := by
  unfold sideCommands
  rw [hitems, hoperations, List.flatMap_map]
  apply List.flatMap_congr
  intro op hop
  by_cases hside : ∃ item ∈ sideItems store suiteId side, item.id = op.suiteItemId
  · rw [hkept op hop hside]
  · push Not at hside
    have hnone (itemId : String)
        (hne : ∀ item ∈ sideItems store suiteId side, item.id ≠ itemId) :
        ((sideItems store suiteId side).filter fun item => item.id = itemId) = [] := by
      apply List.filter_eq_nil_iff.2
      intro item hitem
      simpa using hne item hitem
    rw [hnone _ hside, hnone _ (hout op hop hside)]
    rfl

include h hrows in
/-- **The other sides are left alone.** -/
theorem collapsePhase_frame (hne : suiteId' ≠ suiteId ∨ side' ≠ side) :
    sideItems (collapsePhase orders store suiteId side) suiteId' side' =
        sideItems store suiteId' side' ∧
      sideCommands (collapsePhase orders store suiteId side) suiteId' side' =
        sideCommands store suiteId' side' := by
  have hapart {item : SuiteItemEntity} (hitem : item ∈ sideItems store suiteId' side') :
      item ∉ sideItems store suiteId side := by
    intro hin
    obtain ⟨hsuite, hside⟩ := side_eq hitem hin
    rcases hne with hne | hne
    · exact hne hsuite
    · exact hne hside
  -- an item of another side has no id of an item of this one
  have hids {item item' : SuiteItemEntity} (hitem : item ∈ sideItems store suiteId' side')
      (hitem' : item' ∈ sideItems store suiteId side) : item.id ≠ item'.id := by
    intro heq
    obtain rfl := h.item_ext (mem_sideItems.1 hitem).1 (mem_sideItems.1 hitem').1 heq
    exact hapart hitem hitem'
  have hitems : sideItems (collapsePhase orders store suiteId side) suiteId' side' =
      sideItems store suiteId' side' := by
    unfold sideItems
    rw [items_collapsePhase hrows, List.filter_filter]
    apply List.filter_congr
    intro item hitem
    by_cases hin : item ∈ sideItems store suiteId' side'
    · have hkept : item.id ∉ (donor :: donors).map SuiteItemEntity.id := by
        intro hdonor
        obtain ⟨item', hitem', heq⟩ := List.mem_map.1 hdonor
        exact hids hin ((mem_of_rows hrows).2 (List.mem_cons_of_mem _ hitem')) heq.symm
      rw [decide_eq_true hkept, Bool.and_true]
    · have hfalse : decide (item.testSuiteId = suiteId' ∧
          item.hookPhase ∈ side'.phases.map some) = false := by
        apply decide_eq_false
        intro hand
        exact hin (mem_sideItems.2 ⟨hitem, hand⟩)
      rw [hfalse, Bool.false_and]
  refine ⟨hitems, sideCommands_congr hitems (operations_collapsePhase h hrows) ?_ ?_⟩
  · rintro op hop ⟨item, hitem, hid⟩
    apply renumber_of_not_mem h hop
    intro item' hitem' hid'
    exact hids hitem hitem' (hid.trans hid'.symm)
  · intro op hop hout item hitem
    by_cases hin : ∃ item' ∈ sideItems store suiteId side, item'.id = op.suiteItemId
    · obtain ⟨item', hitem', hid'⟩ := hin
      obtain ⟨n, hn⟩ := renumber_of_mem orders h
        (mem_sideCommands.2 ⟨hop, hitem', hid'⟩) target.id
      rw [hn]
      exact hids hitem ((mem_of_rows hrows).2 List.mem_cons_self)
    · push Not at hin
      rw [renumber_of_not_mem h hop hin]
      exact hout item hitem

end

theorem map_body_collapsePhase (h : Keyed store) (orders : Orders) (suiteId : String)
    (side : Side) :
    (collapsePhase orders store suiteId side).operations.map body =
      store.operations.map body := by
  rcases hrows : orders.items.rows (sideItems store suiteId side) with
    _ | ⟨target, _ | ⟨donor, donors⟩⟩
  · unfold collapsePhase
    rw [hrows]
  · unfold collapsePhase
    rw [hrows]
  · rw [operations_collapsePhase h hrows, List.map_map]
    apply List.map_congr_left
    intro op _
    exact body_renumber _ _ op

/-- Ids stay distinct. -/
theorem Keyed.collapsePhase (h : Keyed store) (orders : Orders) (suiteId : String) (side : Side) :
    Keyed (collapsePhase orders store suiteId side) := by
  constructor
  · unfold Migration.collapsePhase
    split
    · exact h.items.sublist (List.filter_sublist.map _)
    · exact h.items
  · have hbody := congrArg (List.map Prod.fst) (map_body_collapsePhase h orders suiteId side)
    rw [List.map_map, List.map_map] at hbody
    have hids : (Migration.collapsePhase orders store suiteId side).operations.map
        SuiteItemOperationEntity.id = store.operations.map SuiteItemOperationEntity.id := hbody
    rw [hids]
    exact h.operations

end

end Migration
end QualityFlow
