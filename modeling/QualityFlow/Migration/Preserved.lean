/-
# What the collapse of hooks keeps

`_collapse_hooks_four_to_two` over all suites, and the sources that the moved commands see,
by `build_visible_sources_for_suite_item` of
`app/elaborations/services/suite_source_registry.py`.

Each side with several hooks is left with one that holds all their commands, and no command is
lost.  The sources of the deleted hooks are lost: a moved command finds the sources it refers to
only where the hooks that are left declare them too.
-/

import QualityFlow.Migration.Collapse

namespace QualityFlow
namespace Migration

open Py Command Suite Sql

/-! ### All sides -/

/-- The sides of some suites, in the order they are collapsed. -/
def sidesOf (suiteIds : List String) : List (String × Side) :=
  suiteIds.flatMap fun suiteId => [(suiteId, .setup), (suiteId, .teardown)]

/-- Some sides collapsed one after the other. -/
def collapseSides (orders : Orders) (store : Store) (sides : List (String × Side)) : Store :=
  sides.foldl (fun store side => collapsePhase orders store side.1 side.2) store

theorem collapseHooks_eq (orders : Orders) (store : Store) :
    collapseHooksFourToTwo orders store =
      collapseSides orders store (sidesOf (orders.suites.rows (hookSuites store))) := by
  unfold collapseHooksFourToTwo collapseSides sidesOf
  rw [List.foldl_flatMap]
  rfl

theorem nodup_sidesOf {suiteIds : List String} (h : suiteIds.Nodup) : (sidesOf suiteIds).Nodup := by
  unfold sidesOf
  rw [List.nodup_flatMap]
  refine ⟨fun suiteId _ => by simp, ?_⟩
  refine h.imp fun hne => ?_
  intro side hside hside'
  simp only [List.mem_cons, List.not_mem_nil, or_false] at hside hside'
  rcases hside with rfl | rfl <;> rcases hside' with heq | heq <;>
    exact hne (Prod.mk.inj heq).1

theorem mem_sidesOf {suiteIds : List String} {side : String × Side} :
    side ∈ sidesOf suiteIds ↔ side.1 ∈ suiteIds := by
  obtain ⟨suiteId, side⟩ := side
  unfold sidesOf
  rw [List.mem_flatMap]
  constructor
  · rintro ⟨suiteId', hmem, heq⟩
    simp only [List.mem_cons, List.not_mem_nil, or_false, Prod.mk.injEq] at heq
    rcases heq with ⟨rfl, -⟩ | ⟨rfl, -⟩ <;> exact hmem
  · intro hmem
    refine ⟨suiteId, hmem, ?_⟩
    cases side <;> simp

/-- The commands of a side, moved to one item and numbered in an order. -/
def numbered (targetId : String) (ordered : List (SuiteItemOperationEntity × SuiteItemEntity)) :
    List SuiteItemOperationEntity :=
  ordered.mapIdx fun n row => { row.1 with suiteItemId := targetId, order := (n : ℤ) }

/-- What becomes of a side: its first item is left, with the commands of all. -/
structure CollapsedTo (orders : Orders) (store after : Store) (suiteId : String) (side : Side) :
    Prop where
  items : sideItems after suiteId side = (orders.items.rows (sideItems store suiteId side)).take 1
  commands : ∀ target donor donors,
    orders.items.rows (sideItems store suiteId side) = target :: donor :: donors →
      ((sideCommands after suiteId side).map Prod.fst).Perm
        (numbered target.id (orders.commands.rows (sideCommands store suiteId side)))

/-- Some sides become alike where they were alike. -/
theorem CollapsedTo.congr {orders : Orders} {store store' after after' : Store} {suiteId : String}
    {side : Side} (h : CollapsedTo orders store after suiteId side)
    (hitems : sideItems store' suiteId side = sideItems store suiteId side)
    (hcommands : sideCommands store' suiteId side = sideCommands store suiteId side)
    (hitems' : sideItems after' suiteId side = sideItems after suiteId side)
    (hcommands' : sideCommands after' suiteId side = sideCommands after suiteId side) :
    CollapsedTo orders store' after' suiteId side := by
  constructor
  · rw [hitems', hitems, h.items]
  · intro target donor donors hrows
    rw [hitems] at hrows
    rw [hcommands', hcommands]
    exact h.commands target donor donors hrows

/-- A side of at most one item is its own collapse. -/
theorem collapsedTo_of_length_le_one (orders : Orders) {store : Store} {suiteId : String}
    {side : Side} (h : (sideItems store suiteId side).length ≤ 1) :
    CollapsedTo orders store store suiteId side := by
  constructor
  · rw [orders.items.rows_of_length_le_one h, List.take_of_length_le h]
  · intro target donor donors hrows
    have hlength := orders.items.length_rows (sideItems store suiteId side)
    rw [hrows] at hlength
    simp only [List.length_cons] at hlength
    omega

/-- The commands of a side of one item are those at the item. -/
theorem map_fst_sideCommands_of_singleton {store : Store} (h : Keyed store) {suiteId : String}
    {side : Side} {target : SuiteItemEntity} (hitems : sideItems store suiteId side = [target]) :
    (sideCommands store suiteId side).map Prod.fst =
      store.operations.filter fun op => op.suiteItemId = target.id := by
  rw [map_fst_sideCommands h, hitems]
  apply List.filter_congr
  intro op _
  simp [eq_comm]

/-- One side, collapsed by its own step. -/
theorem collapsePhase_collapsedTo (orders : Orders) {store : Store} (h : Keyed store)
    (suiteId : String) (side : Side) :
    CollapsedTo orders store (collapsePhase orders store suiteId side) suiteId side := by
  rcases hrows : orders.items.rows (sideItems store suiteId side) with
    _ | ⟨target, _ | ⟨donor, donors⟩⟩
  all_goals have hlength := orders.items.length_rows (sideItems store suiteId side)
  all_goals rw [hrows] at hlength
  · have hle : (sideItems store suiteId side).length ≤ 1 := by
      simp only [List.length_nil] at hlength
      omega
    rw [collapsePhase_of_length_le_one hle]
    exact collapsedTo_of_length_le_one orders hle
  · have hle : (sideItems store suiteId side).length ≤ 1 := by
      simp only [List.length_cons, List.length_nil] at hlength
      omega
    rw [collapsePhase_of_length_le_one hle]
    exact collapsedTo_of_length_le_one orders hle
  · have hleft := sideItems_collapsePhase h hrows
    constructor
    · rw [hleft, hrows]
      rfl
    · intro target' donor' donors' hrows'
      obtain ⟨rfl, -⟩ := List.cons.inj (hrows.symm.trans hrows')
      rw [map_fst_sideCommands_of_singleton (h.collapsePhase orders suiteId side) hleft]
      exact commands_collapsePhase h hrows

/-- A step leaves the other sides alone, whether it changes its own or not. -/
theorem collapsePhase_other (orders : Orders) {store : Store} (h : Keyed store)
    {side side' : String × Side} (hne : side' ≠ side) :
    sideItems (collapsePhase orders store side.1 side.2) side'.1 side'.2 =
        sideItems store side'.1 side'.2 ∧
      sideCommands (collapsePhase orders store side.1 side.2) side'.1 side'.2 =
        sideCommands store side'.1 side'.2 := by
  have hne' : side'.1 ≠ side.1 ∨ side'.2 ≠ side.2 := by
    by_contra hboth
    push Not at hboth
    exact hne (Prod.ext hboth.1 hboth.2)
  rcases hrows : orders.items.rows (sideItems store side.1 side.2) with
    _ | ⟨target, _ | ⟨donor, donors⟩⟩
  · unfold collapsePhase
    rw [hrows]
    exact ⟨rfl, rfl⟩
  · unfold collapsePhase
    rw [hrows]
    exact ⟨rfl, rfl⟩
  · exact collapsePhase_frame h hrows hne'

/-- **Sides are collapsed independently of each other.** -/
theorem collapseSides_spec (orders : Orders) {sides : List (String × Side)} (hsides : sides.Nodup)
    {store : Store} (h : Keyed store) :
    Keyed (collapseSides orders store sides) ∧
      (collapseSides orders store sides).operations.map body = store.operations.map body ∧
      (∀ side ∈ sides,
        CollapsedTo orders store (collapseSides orders store sides) side.1 side.2) ∧
      ∀ side ∉ sides,
        sideItems (collapseSides orders store sides) side.1 side.2 =
            sideItems store side.1 side.2 ∧
          sideCommands (collapseSides orders store sides) side.1 side.2 =
            sideCommands store side.1 side.2 := by
  induction sides generalizing store with
  | nil => exact ⟨h, rfl, fun _ hside => absurd hside List.not_mem_nil, fun _ _ => ⟨rfl, rfl⟩⟩
  | cons side sides ih =>
    obtain ⟨hnew, hrest⟩ := List.nodup_cons.1 hsides
    obtain ⟨hkeyed, hbody, hin, hout⟩ := ih hrest (h.collapsePhase orders side.1 side.2)
    have hsame : collapseSides orders store (side :: sides) =
        collapseSides orders (collapsePhase orders store side.1 side.2) sides := rfl
    rw [hsame]
    refine ⟨hkeyed, ?_, ?_, ?_⟩
    · rw [hbody, map_body_collapsePhase h]
    · intro side' hside'
      rcases List.mem_cons.1 hside' with rfl | hlater
      · obtain ⟨hitems, hcommands⟩ := hout side' hnew
        exact (collapsePhase_collapsedTo orders h side'.1 side'.2).congr rfl rfl hitems hcommands
      · have hne : side' ≠ side := by
          rintro rfl
          exact hnew hlater
        obtain ⟨hitems, hcommands⟩ := collapsePhase_other orders h hne
        exact (hin side' hlater).congr hitems.symm hcommands.symm rfl rfl
    · intro side' hside'
      rw [List.mem_cons, not_or] at hside'
      obtain ⟨hitems, hcommands⟩ := hout side' hside'.2
      obtain ⟨hitems', hcommands'⟩ := collapsePhase_other orders h hside'.1
      exact ⟨hitems.trans hitems', hcommands.trans hcommands'⟩

/-- **Every side of every suite is collapsed.** -/
theorem collapseHooks_spec (orders : Orders) {store : Store} (h : Keyed store) :
    Keyed (collapseHooksFourToTwo orders store) ∧
      (collapseHooksFourToTwo orders store).operations.map body = store.operations.map body ∧
      ∀ suiteId side,
        CollapsedTo orders store (collapseHooksFourToTwo orders store) suiteId side := by
  have hnodup : (orders.suites.rows (hookSuites store)).Nodup := by
    rw [(orders.suites.perm _).nodup_iff]
    exact List.nodup_dedup _
  obtain ⟨hkeyed, hbody, hin, hout⟩ := collapseSides_spec orders (nodup_sidesOf hnodup) h
  rw [← collapseHooks_eq] at hkeyed hbody hin hout
  refine ⟨hkeyed, hbody, fun suiteId side => ?_⟩
  by_cases hside : (suiteId, side) ∈ sidesOf (orders.suites.rows (hookSuites store))
  · exact hin _ hside
  · -- a suite that is not listed has no hooks
    have hempty : sideItems store suiteId side = [] := by
      apply List.filter_eq_nil_iff.2
      intro item hitem hitemSide
      rw [decide_eq_true_iff] at hitemSide
      apply hside
      rw [mem_sidesOf, orders.suites.mem_rows]
      apply List.mem_dedup.2
      apply List.mem_map.2
      refine ⟨item, List.mem_filter.2 ⟨hitem, ?_⟩, hitemSide.1⟩
      rw [decide_eq_true_iff, List.map_append, List.mem_append]
      cases side
      · exact .inl hitemSide.2
      · exact .inr hitemSide.2
    obtain ⟨hitems, hcommands⟩ := hout _ hside
    have hle : (sideItems store suiteId side).length ≤ 1 := by
      rw [hempty]
      exact Nat.zero_le 1
    exact (collapsedTo_of_length_le_one orders hle).congr rfl rfl hitems hcommands

/-! ### Sources -/

/-- The hooks of a phase. -/
def hooksOf (store : Store) (suiteId : String) (phase : HookPhase) : List SuiteItemEntity :=
  store.items.filter fun item =>
    item.testSuiteId = suiteId ∧ item.kind = .hook ∧ item.hookPhase = some phase

/-- What can stand for the hook of a phase. -/
def IsHookOf (store : Store) (suiteId : String) (phase : HookPhase) :
    Option SuiteItemEntity → Prop
  | some item => item ∈ hooksOf store suiteId phase
  | none => hooksOf store suiteId phase = []

/-- A source that is visible in an item under a code. -/
def Visible (store : Store) (item : SuiteItemEntity) (sourceCode : String)
    (source : List (String × Json)) : Prop :=
  ∃ beforeAll beforeEach visible,
    IsHookOf store item.testSuiteId .beforeAll beforeAll ∧
      IsHookOf store item.testSuiteId .beforeEach beforeEach ∧
        buildVisibleSources beforeAll beforeEach item = .ok visible ∧
          visible.get? sourceCode = some source

/-- A command refers to a source. -/
def Refers (op : SuiteItemOperationEntity) (sourceCode : Token) : Prop :=
  ∃ cfg, convertToConfigCommandType op.configurationJson = .ok cfg ∧ SourceOf cfg sourceCode

/-- The program of each suite is kept: one hook on each side that had several, with the commands
of all in their order, each command as it was, and with the sources that it refers to. -/
structure ProgramsKept (store after : Store) : Prop where
  collapsed : ∀ suiteId side, 2 ≤ (sideItems store suiteId side).length →
    ∃ target ∈ sideItems store suiteId side, sideItems after suiteId side = [target] ∧
      ∃ ordered, ordered.Perm (sideCommands store suiteId side) ∧
        (ordered.Pairwise fun row row' => commandKey row ≤ commandKey row') ∧
        (after.operations.filter fun op => op.suiteItemId = target.id).Perm
          (numbered target.id ordered)
  commands : after.operations.map body = store.operations.map body
  sources : ∀ suiteId side target, 2 ≤ (sideItems store suiteId side).length →
    sideItems after suiteId side = [target] →
      ∀ donor ∈ sideItems store suiteId side, donor ≠ target →
        ∀ op ∈ store.operations, op.suiteItemId = donor.id →
          ∀ sourceCode, Refers op sourceCode → ∀ source,
            Visible store donor sourceCode.val source → Visible after target sourceCode.val source

/-- The first hook of a suite's setup, where it is one of a phase. -/
def firstHook (orders : Orders) (store : Store) (suiteId : String) (phase : HookPhase) :
    Option SuiteItemEntity :=
  ((orders.items.rows (sideItems store suiteId .setup)).head?).filter fun item =>
    item.kind = .hook ∧ item.hookPhase = some phase

/-- The first hooks declare a source, to be seen in an item, and no code twice. -/
def Declares (orders : Orders) (store : Store) (item : SuiteItemEntity) (sourceCode : String)
    (source : List (String × Json)) : Prop :=
  let beforeAll := firstHook orders store item.testSuiteId .beforeAll
  let beforeEach := firstHook orders store item.testSuiteId .beforeEach
  (visibleCodes beforeAll beforeEach item).Nodup ∧
    sourceIn (seenIn item.section (sourceDicts beforeAll) (sourceDicts beforeEach)
      item.sourcesJson) sourceCode = some source

/-- What the commands of a later hook refer to and see, the first hooks declare alike. -/
def SourcesDeclared (orders : Orders) (store : Store) : Prop :=
  ∀ suiteId side target donors,
    orders.items.rows (sideItems store suiteId side) = target :: donors →
      ∀ donor ∈ donors, ∀ op ∈ store.operations, op.suiteItemId = donor.id →
        ∀ sourceCode, Refers op sourceCode → ∀ source,
          Visible store donor sourceCode.val source →
            Declares orders store target sourceCode.val source

/-- The hooks of a phase before the tests are on the setup side. -/
theorem hooksOf_eq (store : Store) (suiteId : String) {phase : HookPhase}
    (hphase : phase ∈ Side.setup.phases) :
    hooksOf store suiteId phase = (sideItems store suiteId .setup).filter fun item =>
      item.kind = .hook ∧ item.hookPhase = some phase := by
  unfold hooksOf sideItems
  rw [List.filter_filter]
  apply List.filter_congr
  intro item _
  have hmem : some phase ∈ Side.setup.phases.map some := List.mem_map_of_mem hphase
  rw [← Bool.decide_and, decide_eq_decide]
  constructor
  · rintro ⟨hsuite, hkind, hitem⟩
    exact ⟨⟨hkind, hitem⟩, hsuite, by rwa [hitem]⟩
  · rintro ⟨⟨hkind, hitem⟩, hsuite, -⟩
    exact ⟨hsuite, hkind, hitem⟩

/-- After the collapse a phase before the tests has the first hook or none. -/
theorem isHookOf_collapsed_iff {orders : Orders} {store after : Store} {suiteId : String}
    (h : CollapsedTo orders store after suiteId .setup) (phase : HookPhase)
    (hphase : phase ∈ Side.setup.phases) (hook : Option SuiteItemEntity) :
    IsHookOf after suiteId phase hook ↔ hook = firstHook orders store suiteId phase := by
  have hhooks : hooksOf after suiteId phase = (firstHook orders store suiteId phase).toList := by
    rw [hooksOf_eq after suiteId hphase, h.items, firstHook]
    rcases orders.items.rows (sideItems store suiteId .setup) with _ | ⟨item, items⟩
    · rfl
    · rw [List.take_succ_cons, List.take_zero, List.head?_cons, List.filter_cons,
        Option.filter_some]
      split <;> rfl
  cases hook with
  | none =>
    rw [IsHookOf, hhooks, Option.toList_eq_nil_iff]
    exact eq_comm
  | some item =>
    rw [IsHookOf, hhooks, Option.mem_toList]
    exact eq_comm

/-- After the collapse an item sees what the first hooks declare. -/
theorem visible_collapsed_iff {orders : Orders} {store after : Store} {item : SuiteItemEntity}
    (h : CollapsedTo orders store after item.testSuiteId .setup) (sourceCode : Token)
    (source : List (String × Json)) :
    Visible after item sourceCode.val source ↔
      Declares orders store item sourceCode.val source := by
  have hall := isHookOf_collapsed_iff h .beforeAll (by simp [Side.phases])
  have heach := isHookOf_collapsed_iff h .beforeEach (by simp [Side.phases])
  have hget {beforeAll beforeEach : Option SuiteItemEntity}
      {visible : Dict String (List (String × Json))}
      (hbuild : buildVisibleSources beforeAll beforeEach item = .ok visible) :
      visible.get? sourceCode.val = sourceIn (seenIn item.section (sourceDicts beforeAll)
        (sourceDicts beforeEach) item.sourcesJson) sourceCode.val := by
    have hlookup := get?_of_buildVisible hbuild sourceCode.val
    rw [if_neg sourceCode.ne_empty] at hlookup
    exact hlookup
  unfold Visible Declares
  dsimp only
  constructor
  · rintro ⟨beforeAll, beforeEach, visible, hbeforeAll, hbeforeEach, hbuild, hsource⟩
    obtain rfl := (hall _).1 hbeforeAll
    obtain rfl := (heach _).1 hbeforeEach
    exact ⟨(buildVisibleSources_isOk _ _ item).1 ⟨visible, hbuild⟩,
      (hget hbuild).symm.trans hsource⟩
  · rintro ⟨hcodes, hsource⟩
    obtain ⟨visible, hbuild⟩ := (buildVisibleSources_isOk _ _ item).2 hcodes
    exact ⟨_, _, visible, (hall _).2 rfl, (heach _).2 rfl, hbuild, (hget hbuild).trans hsource⟩

/-- The items of a side in their order, where there are several. -/
theorem exists_rows (orders : Orders) {store : Store} {suiteId : String} {side : Side}
    (h : 2 ≤ (sideItems store suiteId side).length) :
    ∃ target donor donors,
      orders.items.rows (sideItems store suiteId side) = target :: donor :: donors := by
  have hlength := orders.items.length_rows (sideItems store suiteId side)
  rcases hrows : orders.items.rows (sideItems store suiteId side) with
    _ | ⟨target, _ | ⟨donor, donors⟩⟩
  · rw [hrows, List.length_nil] at hlength
    omega
  · rw [hrows, List.length_singleton] at hlength
    omega
  · exact ⟨target, donor, donors, rfl⟩

theorem nodup_rows (orders : Orders) {store : Store} (h : Keyed store) (suiteId : String)
    (side : Side) : (orders.items.rows (sideItems store suiteId side)).Nodup := by
  rw [(orders.items.perm _).nodup_iff]
  exact h.items.of_map.sublist List.filter_sublist

/-- **The collapse keeps the programs just where the first hooks declare what the commands of
the others refer to**, in whichever order rows of one key come back. -/
theorem programsKept_iff (orders : Orders) (store : Store) (h : Keyed store) :
    ProgramsKept store (collapseHooksFourToTwo orders store) ↔ SourcesDeclared orders store := by
  obtain ⟨hkeyed, hbody, hsides⟩ := collapseHooks_spec orders h
  have hvisible {suiteId : String} {side : Side} {target : SuiteItemEntity}
      (htarget : target ∈ orders.items.rows (sideItems store suiteId side)) (sourceCode : Token)
      (source : List (String × Json)) :
      Visible (collapseHooksFourToTwo orders store) target sourceCode.val source ↔
        Declares orders store target sourceCode.val source :=
    visible_collapsed_iff (hsides target.testSuiteId .setup) sourceCode source
  constructor
  · intro hkept suiteId side target donors hrows donor hdonor op hop hitem code hrefers source hseen
    have hlength := orders.items.length_rows (sideItems store suiteId side)
    have hpos := List.length_pos_of_mem hdonor
    rw [hrows, List.length_cons] at hlength
    have hleft := (hsides suiteId side).items
    rw [hrows, List.take_succ_cons, List.take_zero] at hleft
    have hne : donor ≠ target := by
      rintro rfl
      have hnodup := nodup_rows orders h suiteId side
      rw [hrows] at hnodup
      exact (List.nodup_cons.1 hnodup).1 hdonor
    have hdonorSide : donor ∈ sideItems store suiteId side := by
      rw [← orders.items.mem_rows, hrows]
      exact List.mem_cons_of_mem _ hdonor
    have htarget : target ∈ orders.items.rows (sideItems store suiteId side) := by
      rw [hrows]
      exact List.mem_cons_self
    exact (hvisible htarget code source).1 (hkept.sources suiteId side target (by omega) hleft donor
      hdonorSide hne op hop hitem code hrefers source hseen)
  · intro hdeclared
    constructor
    · intro suiteId side htwo
      obtain ⟨target, donor, donors, hrows⟩ := exists_rows orders htwo
      have hleft := (hsides suiteId side).items
      rw [hrows, List.take_succ_cons, List.take_zero] at hleft
      have hcommands := (hsides suiteId side).commands target donor donors hrows
      rw [map_fst_sideCommands_of_singleton hkeyed hleft] at hcommands
      have htarget : target ∈ sideItems store suiteId side := by
        rw [← orders.items.mem_rows, hrows]
        exact List.mem_cons_self
      exact ⟨target, htarget, hleft, _, orders.commands.perm _, orders.commands.sorted _, hcommands⟩
    · exact hbody
    · intro suiteId side target htwo hleft donor hdonor hne op hop hitem code hrefers source hseen
      obtain ⟨target', donor', donors, hrows⟩ := exists_rows orders htwo
      have hleft' := (hsides suiteId side).items
      rw [hrows, List.take_succ_cons, List.take_zero, hleft] at hleft'
      obtain rfl := (List.cons.inj hleft').1
      have htarget : target ∈ orders.items.rows (sideItems store suiteId side) := by
        rw [hrows]
        exact List.mem_cons_self
      rw [← orders.items.mem_rows, hrows, List.mem_cons] at hdonor
      exact (hvisible htarget code source).2 (hdeclared suiteId side target (donor' :: donors) hrows
        donor (hdonor.resolve_left hne) op hop hitem code hrefers source hseen)

/-! ### A source of a before-each hook -/

/-- Rows that come back sorted by insertion. -/
def listOrders : Orders where
  items :=
    { rows items := items.insertionSort fun a b => itemKey a ≤ itemKey b
      perm _ := List.perm_insertionSort _ _
      sorted items := List.pairwise_insertionSort (fun a b => itemKey a ≤ itemKey b) items }
  commands :=
    { rows rows := rows.insertionSort fun a b => commandKey a ≤ commandKey b
      perm _ := List.perm_insertionSort _ _
      sorted rows := List.pairwise_insertionSort (fun a b => commandKey a ≤ commandKey b) rows }
  suites :=
    { rows suiteIds := suiteIds
      perm _ := .refl _
      sorted _ := List.pairwise_of_forall fun _ _ => le_rfl }

/-- A hook of a suite, with some sources. -/
def hook (id : String) (phase : HookPhase) (sources : List (List (String × Json))) :
    SuiteItemEntity where
  id := id
  testSuiteId := "shop"
  kind := .hook
  hookPhase := some phase
  description := ""
  sourcesJson := sources
  position := 0
  onFailure := "ABORT"
  templateKind := .custom
  templateConfig := none

/-- A source of a before-each hook, which a command of the hook reads. -/
def ordersSource : List (String × Json) := (SuiteSource.jsonArray orders orders).modelDump

/-- A suite with a before-all hook and a before-each hook whose command reads a source. -/
def shopStore (sources : List (List (String × Json))) : Store where
  suites := [⟨"shop", "shop"⟩]
  items := [hook "all" .beforeAll sources, hook "each" .beforeEach [ordersSource]]
  operations := [⟨"read", "each", 0, "", "readApi", "action",
    (ConfigurationCommandDto.readApi ordersRequest).modelDump⟩]
  definitions := []
  drawn := 0

theorem keyed_shopStore (sources : List (List (String × Json))) : Keyed (shopStore sources) where
  items := by
    show ["all", "each"].Nodup
    decide
  operations := List.nodup_singleton _

/-- The command refers to the source. -/
theorem refers_orders (sources : List (List (String × Json))) :
    ∀ op ∈ (shopStore sources).operations, Refers op orders := by
  intro op hop
  obtain rfl := List.mem_singleton.1 hop
  exact ⟨.readApi ordersRequest, convert_readApi ordersRequest rfl,
    .inl (by simp [commandNodes, requestNodes, kvNodes, ordersRequest])⟩

/-- The same suite, with the source declared by its first hook. -/
def declaredStore : Store :=
  { shopStore [] with
    items := [hook "all" .beforeAll [ordersSource], hook "each" .beforeEach []] }

theorem keyed_declaredStore : Keyed declaredStore where
  items := by
    show ["all", "each"].Nodup
    decide
  operations := List.nodup_singleton _

/-- The hook that stays has the source. -/
theorem sourcesDeclared_declaredStore : SourcesDeclared listOrders declaredStore := by
  intro suiteId side target donors hrows donor hdonor op hop hitem code _ source hvisible
  obtain rfl := List.mem_singleton.1 hop
  have hside : donor ∈ sideItems declaredStore suiteId side := by
    rw [← listOrders.items.mem_rows, hrows]
    exact List.mem_cons_of_mem _ hdonor
  obtain ⟨hmem, hspec⟩ := List.mem_filter.1 hside
  obtain rfl : donor = hook "each" .beforeEach [] := by
    rcases List.mem_pair.1 hmem with rfl | rfl
    · exact absurd hitem (by simp [hook])
    · rfl
  simp only [hook, List.mem_map, decide_eq_true_eq] at hspec
  obtain ⟨rfl, phase, hphase, hsame⟩ := hspec
  obtain rfl := Option.some.inj hsame
  obtain rfl : side = .setup := by
    cases side with
    | setup => rfl
    | teardown => simp [Side.phases] at hphase
  obtain ⟨rfl, -⟩ := List.cons.inj (show [hook "all" .beforeAll [ordersSource],
    hook "each" .beforeEach []] = target :: donors from hrows)
  obtain ⟨beforeAll, beforeEach, visible, hall, -, hbuild, hget⟩ := hvisible
  obtain rfl : beforeAll = some (hook "all" .beforeAll [ordersSource]) := by
    cases beforeAll with
    | none => exact absurd hall (by simp [IsHookOf, hooksOf, declaredStore, hook])
    | some item => rw [List.mem_singleton.1 (show item ∈ [hook "all" .beforeAll [ordersSource]] from hall)]
  have hlookup := get?_of_buildVisible hbuild code.val
  rw [if_neg code.ne_empty, hget] at hlookup
  refine ⟨?_, ?_⟩
  · decide +kernel
  · exact hlookup.symm

/-- A suite whose two hooks become one; the program is kept where the first one has the source. -/
theorem shopStore_kept_iff :
    (ProgramsKept (shopStore []) (collapseHooksFourToTwo listOrders (shopStore [])) ↔
        SourcesDeclared listOrders (shopStore [])) ∧
      ProgramsKept declaredStore (collapseHooksFourToTwo listOrders declaredStore) :=
  ⟨programsKept_iff listOrders (shopStore []) (keyed_shopStore []),
    (programsKept_iff listOrders declaredStore keyed_declaredStore).2 sourcesDeclared_declaredStore⟩

/-- The source that the command reads goes with its hook. -/
theorem shopStore_not_kept :
    ¬ProgramsKept (shopStore []) (collapseHooksFourToTwo listOrders (shopStore [])) := by
  intro hkept
  obtain ⟨-, -, hsides⟩ := collapseHooks_spec listOrders (keyed_shopStore [])
  have hrows : listOrders.items.rows (sideItems (shopStore []) "shop" .setup) =
      [hook "all" .beforeAll [], hook "each" .beforeEach [ordersSource]] := rfl
  have hleft := (hsides "shop" .setup).items
  rw [hrows] at hleft
  have hbefore : Visible (shopStore []) (hook "each" .beforeEach [ordersSource]) orders.val
      ordersSource :=
    ⟨some (hook "all" .beforeAll []), some (hook "each" .beforeEach [ordersSource]),
      [("orders", ordersSource)], List.mem_singleton_self _, List.mem_singleton_self _, rfl, rfl⟩
  have hafter := hkept.sources "shop" .setup _ le_rfl hleft
    (hook "each" .beforeEach [ordersSource]) (List.mem_cons_of_mem _ (List.mem_singleton_self _))
    (fun heq => absurd (congrArg SuiteItemEntity.id heq) (by decide)) _ (List.mem_singleton_self _)
    rfl orders (refers_orders [] _ (List.mem_singleton_self _)) ordersSource hbefore
  have hdeclared := (visible_collapsed_iff (hsides "shop" .setup) orders ordersSource).1 hafter
  exact absurd hdeclared.2 (by simp [hook, seenIn, sourceIn, SuiteItemEntity.section,
    sectionTypeForItem, HookPhase.section])

end Migration
end QualityFlow
