/-
# The primary keys of the constants

`rebuild_suite_constant_definitions` of
`app/elaborations/services/constants/command_constant_definition_registry.py` under
the requests of `app/elaborations/api/test_suites_api.py`.

The primary key of a row is the `definitionId` that stands in the configuration of the
command, so it is the client's or the generator's.  No validation compares the ids of
two commands, and the generators number theirs from zero in every test.
-/

import QualityFlow.Suite.Store
import Mathlib.Data.List.Perm.Basic

namespace QualityFlow
namespace Suite

open Py Command Constants Template

/-! ### The ids that commands declare -/

/-- The id of the constant that a configuration declares. -/
def declaredId? : ConfigurationCommandDto → Option String
  | .setVariable c => some c.definitionId.val
  | cfg => (resultConstant? cfg).map fun r => r.definitionId.val

/-- The ids that the commands of an item declare. -/
def declaredIds (raws : List RawCommand) : List String :=
  raws.filterMap fun raw => (convertToConfigCommandType raw.cfg).toOption.bind declaredId?

theorem plannedDeclarations_ids (cfg : ConfigurationCommandDto) (commandId : String)
    (commandOrder : ℤ) (sectionType : SectionType) :
    (plannedDeclarations cfg commandId commandOrder sectionType).map (·.definitionId)
      = (declaredId? cfg).toList := by
  have hresult (r : Option ResultConstantDto) :
      (r.toList.map fun r => r.definitionId.val) = (r.map fun r => r.definitionId.val).toList := by
    cases r <;> rfl
  cases cfg <;>
    simp [plannedDeclarations, declaredId?, resultConstant?, Function.comp_def, hresult]

/-- What a command adds to the planned constants. -/
theorem planned_of_planCommand {sectionType : SectionType} {s s' : PlanState}
    {command : CommandInput} (h : planCommand sectionType s command = .ok s') :
    s'.planned.map (·.definitionId) = s.planned.map (·.definitionId) ++
      ((convertToConfigCommandType command.cfg).toOption.bind declaredId?).toList := by
  obtain ⟨cfg, hcfg, -, rfl⟩ := planCommand_eq_ok.1 h
  have hread : (convertToConfigCommandType command.cfg).toOption.bind declaredId?
      = declaredId? cfg := by
    rw [hcfg]
    rfl
  rw [hread, PlanState.step]
  cases hdeleted : deletedTarget? cfg with
  | none =>
    rw [← plannedDeclarations_ids cfg command.commandId command.commandOrder sectionType]
    exact List.map_append
  | some target =>
    have hnone : declaredId? cfg = none := by
      cases cfg <;> first | rfl | simp [deletedTarget?] at hdeleted
    rw [hnone]
    simp [PlanState.delete]

theorem planned_of_foldlM {sectionType : SectionType} {commands : List CommandInput}
    {s s' : PlanState} (h : commands.foldlM (planCommand sectionType) s = .ok s') :
    s'.planned.map (·.definitionId) = s.planned.map (·.definitionId) ++
      commands.filterMap fun c => (convertToConfigCommandType c.cfg).toOption.bind declaredId? := by
  induction commands generalizing s with
  | nil =>
    obtain rfl := Except.ok.inj h
    simp
  | cons command commands ih =>
    obtain ⟨s₁, hfirst, hrest⟩ := foldlM_cons_eq_ok.1 h
    rw [ih hrest, planned_of_planCommand hfirst, List.append_assoc, List.filterMap_cons]
    cases (convertToConfigCommandType command.cfg).toOption.bind declaredId? <;> rfl

/-- **The constants of a plan are those its commands declare.** -/
theorem planned_perm {raws : List RawCommand} {sectionType : SectionType}
    {initialVisible : Dict String PlannedDefinition} {state : PlanState}
    (h : planDefinitionsForCommands raws sectionType initialVisible = .ok state) :
    (state.planned.map (·.definitionId)).Perm (declaredIds raws) := by
  have hcfg : declaredIds raws = (raws.mapIdx fun i raw => commandInput (i + 1) raw).filterMap
      fun c => (convertToConfigCommandType c.cfg).toOption.bind declaredId? := by
    rw [declaredIds, List.mapIdx_eq_zipIdx_map, List.filterMap_map]
    conv_lhs => rw [← List.zipIdx_map_fst 0 raws, List.filterMap_map]
    rfl
  rw [planned_of_foldlM h, List.map_nil, List.nil_append, hcfg]
  exact (List.perm_insertionSort _ _).filterMap _

/-! ### The plan of a suite -/

section

variable {α : Type} {commandsOf : α → List RawCommand}

/-- The items of a suite that are planned. -/
def plannedItems (hook : HookPhase → Option α) (tests : List α) : List α :=
  (hook .beforeAll).toList ++ (hook .beforeEach).toList ++ tests ++ (hook .afterEach).toList ++
    (hook .afterAll).toList

/-- A section is a plan of the commands of its item. -/
def PlannedSection.Of (commandsOf : α → List RawCommand) (s : PlannedSection α) : Prop :=
  ∃ initialVisible,
    planDefinitionsForCommands (commandsOf s.item) s.sectionType initialVisible = .ok s.state

theorem planHook_sections {sectionType : SectionType} {hook : Option α}
    {initialVisible visible : Dict String PlannedDefinition} {sections : List (PlannedSection α)}
    (h : planHook commandsOf sectionType hook initialVisible = .ok (sections, visible)) :
    sections.map (·.item) = hook.toList ∧ ∀ s ∈ sections, s.Of commandsOf := by
  cases hook with
  | none =>
    obtain ⟨rfl, -⟩ := Prod.mk.inj (Except.ok.inj h)
    exact ⟨rfl, by simp⟩
  | some item =>
    obtain ⟨state, hplan, hret⟩ := bind_eq_ok.1 h
    obtain ⟨rfl, -⟩ := Prod.mk.inj (Except.ok.inj hret)
    refine ⟨rfl, ?_⟩
    rw [List.forall_mem_singleton]
    exact ⟨initialVisible, hplan⟩

theorem planTests_sections {initialVisible : Dict String PlannedDefinition} {tests : List α}
    {sections : List (PlannedSection α)}
    (h : tests.mapM (planTest commandsOf initialVisible) = .ok sections) :
    sections.map (·.item) = tests ∧ ∀ s ∈ sections, s.Of commandsOf := by
  induction tests generalizing sections with
  | nil =>
    obtain rfl := Except.ok.inj h
    exact ⟨rfl, by simp⟩
  | cons test tests ih =>
    rw [List.mapM_cons] at h
    obtain ⟨first, hfirst, h⟩ := bind_eq_ok.1 h
    obtain ⟨rest, hrest, hret⟩ := bind_eq_ok.1 h
    obtain rfl := Except.ok.inj hret
    obtain ⟨state, hplan, hret⟩ := bind_eq_ok.1 hfirst
    obtain rfl := Except.ok.inj hret
    obtain ⟨hitems, hall⟩ := ih hrest
    refine ⟨by rw [List.map_cons, hitems], ?_⟩
    rw [List.forall_mem_cons]
    exact ⟨⟨initialVisible, hplan⟩, hall⟩

/-- A plan of a suite plans its items, one after another. -/
theorem planSuite_sections {hook : HookPhase → Option α} {tests : List α}
    {plan : List (PlannedSection α)} (h : planSuite commandsOf hook tests = .ok plan) :
    plan.map (·.item) = plannedItems hook tests ∧ ∀ s ∈ plan, s.Of commandsOf := by
  obtain ⟨⟨beforeAll, v₁⟩, hbeforeAll, h⟩ := bind_eq_ok.1 h
  obtain ⟨⟨beforeEach, v₂⟩, hbeforeEach, h⟩ := bind_eq_ok.1 h
  obtain ⟨sections, htests, h⟩ := bind_eq_ok.1 h
  obtain ⟨⟨afterEach, v₃⟩, hafterEach, h⟩ := bind_eq_ok.1 h
  obtain ⟨⟨afterAll, v₄⟩, hafterAll, hret⟩ := bind_eq_ok.1 h
  obtain rfl := Except.ok.inj hret
  obtain ⟨hitems₁, hall₁⟩ := planHook_sections hbeforeAll
  obtain ⟨hitems₂, hall₂⟩ := planHook_sections hbeforeEach
  obtain ⟨hitems₃, hall₃⟩ := planTests_sections htests
  obtain ⟨hitems₄, hall₄⟩ := planHook_sections hafterEach
  obtain ⟨hitems₅, hall₅⟩ := planHook_sections hafterAll
  constructor
  · simp only [List.map_append, hitems₁, hitems₂, hitems₃, hitems₄, hitems₅, plannedItems]
  · simp only [List.forall_mem_append]
    exact ⟨⟨⟨⟨hall₁, hall₂⟩, hall₃⟩, hall₄⟩, hall₅⟩

/-- The constants of a plan of a suite are those the commands of its items declare. -/
theorem planSuite_perm {hook : HookPhase → Option α} {tests : List α}
    {plan : List (PlannedSection α)} (h : planSuite commandsOf hook tests = .ok plan) :
    (plan.flatMap fun s => s.state.planned.map (·.definitionId)).Perm
      ((plannedItems hook tests).flatMap fun item => declaredIds (commandsOf item)) := by
  obtain ⟨hitems, hall⟩ := planSuite_sections h
  rw [← hitems, List.flatMap_map]
  refine List.Perm.flatMap_left _ fun s hs => ?_
  obtain ⟨initialVisible, hplan⟩ := hall s hs
  exact planned_perm hplan

end

/-! ### Requests -/

/-- The requests that edit a suite and rebuild its constants. -/
inductive Request where
  | insertSuite (dto : CreateTestSuiteDto)
  | updateSuite (suiteId : String) (dto : CreateTestSuiteDto)
  | addTest (suiteId : String) (dto : CreateSuiteItemDto)
  | updateTest (suiteId itemId : String) (dto : CreateSuiteItemDto)
  | convertTest (suiteId itemId : String)

namespace Request

/-- What a request does. -/
def apply (db : Database) (store : Store) : Request → Except String Store
  | insertSuite dto => insertTestSuite db dto store
  | updateSuite suiteId dto => updateTestSuite db suiteId dto store
  | addTest suiteId dto => addTestToSuite db suiteId dto store
  | updateTest suiteId itemId dto => updateTestInSuite db suiteId itemId dto store
  | convertTest suiteId itemId => convertTestToCustom db suiteId itemId store

/-- What a request has stored when it comes to the rebuild, and the suite to rebuild. -/
def edit (db : Database) (store : Store) : Request → Except String (Store × Option String)
  | insertSuite dto => do
    validateSuiteConstantGraph db.commandId dto
    let id := db.newId store.drawn
    let store ← insertSuiteItems db id dto { store with
      suites := store.suites ++ [{ id, description := dto.description }]
      drawn := store.drawn + 1 }
    return (store, some id)
  | updateSuite id dto => do
    validateSuiteConstantGraph db.commandId dto
    let _ ← getSuite store id
    let suites := store.suites.map fun suite =>
      if suite.id = id then { suite with description := dto.description } else suite
    let store ← insertSuiteItems db id dto (deleteBySuiteId id { store with suites })
    return (store, some id)
  | addTest suiteId dto => do
    let commands ← resolveTemplateCommands dto
    let _ ← getSuite store suiteId
    let position := nextPosition (getAllTestsBySuiteId db store suiteId)
    let store ← insertSuiteItem db suiteId dto position commands store
    return (store, some suiteId)
  | updateTest suiteId itemId dto => do
    let commands ← resolveTemplateCommands dto
    let _ ← getItem store suiteId itemId
    let items := store.items.map fun item =>
      if item.id = itemId then updateSuiteItemEntity dto item else item
    let store ← insertSuiteItemOperations db itemId commands
      (deleteBySuiteItemId itemId { store with items })
    return (store, some suiteId)
  | convertTest suiteId itemId => do
    let existing ← getItem store suiteId itemId
    if existing.templateKind = .custom then return (store, none)
    else
      let commands ← generateCommands existing.templateKind existing.templateConfig
      let store ← insertSuiteItemOperations db itemId commands (deleteBySuiteItemId itemId store)
      let items := store.items.map fun item =>
        if item.id = itemId then { item with templateKind := .custom } else item
      return ({ store with items }, some suiteId)

/-- A request edits the store and then rebuilds. -/
theorem apply_eq (db : Database) (store : Store) (request : Request) :
    request.apply db store = (request.edit db store >>= fun edited =>
      match edited.2 with
      | none => .ok edited.1
      | some suiteId => rebuildSuiteConstantDefinitions db suiteId edited.1) := by
  cases request with
  | convertTest suiteId itemId =>
    simp only [apply, edit, convertTestToCustom, bind_assoc]
    refine bind_congr fun existing => ?_
    split
    · rfl
    · simp only [bind_assoc, pure_eq_ok, ok_bind]
  | _ =>
    simp only [apply, edit, insertTestSuite, updateTestSuite, addTestToSuite, updateTestInSuite,
      bind_assoc, pure_eq_ok, ok_bind]

end Request

/-! ### What a request leaves alone -/

theorem insertSuiteItemOperations_definitions {db : Database} {itemId : String}
    {commands : List CreateSuiteItemCommandDto} {store store' : Store}
    (h : insertSuiteItemOperations db itemId commands store = .ok store') :
    store'.definitions = store.definitions := by
  rw [insertSuiteItemOperations_eq] at h
  split at h
  · rw [← Except.ok.inj h]
    rfl
  · simp at h

theorem insertSuiteItem_definitions {db : Database} {suiteId : String} {dto : CreateSuiteItemDto}
    {position : ℤ} {commands : List CreateSuiteItemCommandDto} {store store' : Store}
    (h : insertSuiteItem db suiteId dto position commands store = .ok store') :
    store'.definitions = store.definitions := by
  have hsame := insertSuiteItemOperations_definitions h
  exact hsame

theorem insertSuiteItems_definitions {db : Database} {suiteId : String} {dto : CreateTestSuiteDto}
    {store store' : Store} (h : insertSuiteItems db suiteId dto store = .ok store') :
    store'.definitions = store.definitions := by
  unfold insertSuiteItems at h
  generalize storedItems dto = items at h
  induction items generalizing store with
  | nil => rw [← Except.ok.inj h]
  | cons item items ih =>
    obtain ⟨store₁, hfirst, hrest⟩ := foldlM_cons_eq_ok.1 h
    rw [ih hrest, insertSuiteItem_definitions hfirst]

/-- Until the rebuild the rows of the constants are as they were. -/
theorem Request.edit_definitions {db : Database} {store : Store} {request : Request}
    {edited : Store × Option String} (h : request.edit db store = .ok edited) :
    edited.1.definitions = store.definitions := by
  cases request with
  | insertSuite dto =>
    obtain ⟨⟨⟩, -, h⟩ := bind_eq_ok.1 h
    obtain ⟨store', hinsert, hret⟩ := bind_eq_ok.1 h
    rw [← Except.ok.inj hret]
    have hsame := insertSuiteItems_definitions hinsert
    exact hsame
  | updateSuite suiteId dto =>
    obtain ⟨⟨⟩, -, h⟩ := bind_eq_ok.1 h
    obtain ⟨suite, -, h⟩ := bind_eq_ok.1 h
    obtain ⟨store', hinsert, hret⟩ := bind_eq_ok.1 h
    rw [← Except.ok.inj hret]
    have hsame := insertSuiteItems_definitions hinsert
    exact hsame
  | addTest suiteId dto =>
    obtain ⟨commands, -, h⟩ := bind_eq_ok.1 h
    obtain ⟨suite, -, h⟩ := bind_eq_ok.1 h
    obtain ⟨store', hinsert, hret⟩ := bind_eq_ok.1 h
    rw [← Except.ok.inj hret]
    exact insertSuiteItem_definitions hinsert
  | updateTest suiteId itemId dto =>
    obtain ⟨commands, -, h⟩ := bind_eq_ok.1 h
    obtain ⟨item, -, h⟩ := bind_eq_ok.1 h
    obtain ⟨store', hinsert, hret⟩ := bind_eq_ok.1 h
    rw [← Except.ok.inj hret]
    have hsame := insertSuiteItemOperations_definitions hinsert
    exact hsame
  | convertTest suiteId itemId =>
    obtain ⟨existing, -, h⟩ := bind_eq_ok.1 h
    split at h
    · rw [← Except.ok.inj h]
    · obtain ⟨commands, -, h⟩ := bind_eq_ok.1 h
      obtain ⟨store', hinsert, hret⟩ := bind_eq_ok.1 h
      rw [← Except.ok.inj hret]
      have hsame := insertSuiteItemOperations_definitions hinsert
      exact hsame

/-! ### Distinct keys -/

/-- The ids of the rows are distinct. -/
def Store.IdsDistinct (store : Store) : Prop := (store.definitions.map (·.id)).Nodup

/-- The ids that the commands of a suite declare. -/
def suiteDeclaredIds (db : Database) (store : Store) (suiteId : String) : List String :=
  (plannedItems (storedHookByPhase db store suiteId) (storedTests db store suiteId)).flatMap
    fun item => declaredIds (commandsForItem db store item)

/-- An id is of a row of another owner. -/
def Store.UsedByOther (store : Store) (suiteId id : String) : Prop :=
  ∃ d ∈ store.definitions, d.suiteId ≠ some suiteId ∧ d.id = id

/-- A suite that can be planned is rebuilt, with keys that are distinct and in use by no
other owner. -/
def Request.KeysHold (db : Database) (store : Store) (request : Request) : Prop :=
  ∀ edited suiteId plan, request.edit db store = .ok (edited, some suiteId) →
    planStored db edited suiteId = .ok plan →
      ((definitionEntities suiteId plan).map (·.id)).Nodup ∧
      (∀ d ∈ definitionEntities suiteId plan, ¬ edited.UsedByOther suiteId d.id) ∧
      ∃ store', request.apply db store = .ok store'

/-- Where the edited suite can be planned, no id is declared by two of its commands, and
none that is declared is in use by another owner. -/
def Request.DeclaresFresh (db : Database) (store : Store) (request : Request) : Prop :=
  ∀ edited suiteId, request.edit db store = .ok (edited, some suiteId) →
    (∃ plan, planStored db edited suiteId = .ok plan) →
      (suiteDeclaredIds db edited suiteId).Nodup ∧
      ∀ id ∈ suiteDeclaredIds db edited suiteId, ¬ edited.UsedByOther suiteId id

/-- The keys of a rebuild are the ids that the commands of the suite declare. -/
theorem definitionEntities_perm {db : Database} {store : Store} {suiteId : String}
    {plan : List (PlannedSection SuiteItemEntity)} (h : planStored db store suiteId = .ok plan) :
    ((definitionEntities suiteId plan).map (·.id)).Perm (suiteDeclaredIds db store suiteId) := by
  have hids : (definitionEntities suiteId plan).map (·.id)
      = plan.flatMap fun s => s.state.planned.map (·.definitionId) := by
    simp only [definitionEntities, List.map_flatMap, List.map_map]
    rfl
  rw [hids]
  exact planSuite_perm h

/-- A rebuild fails on a key just where one is declared twice or in use. -/
theorem rebuild_isOk_iff {db : Database} {store : Store} {suiteId : String}
    {plan : List (PlannedSection SuiteItemEntity)} (hstore : store.IdsDistinct)
    (hplan : planStored db store suiteId = .ok plan) :
    (∃ store', rebuildSuiteConstantDefinitions db suiteId store = .ok store')
      ↔ ((definitionEntities suiteId plan).map (·.id)).Nodup ∧
          ∀ d ∈ definitionEntities suiteId plan, ¬ store.UsedByOther suiteId d.id := by
  have hrebuild : rebuildSuiteConstantDefinitions db suiteId store
      = persistDefinitionEntities (definitionEntities suiteId plan)
          (deleteDefinitions suiteId store) := by
    have hsame : planStored db (deleteDefinitions suiteId store) suiteId = .ok plan := hplan
    rw [rebuildSuiteConstantDefinitions, hsame, ok_bind]
  have hrest : ((deleteDefinitions suiteId store).definitions.map (·.id)).Nodup :=
    hstore.sublist (List.filter_sublist.map _)
  have hused (id : String) : id ∈ (deleteDefinitions suiteId store).definitions.map (·.id)
      ↔ store.UsedByOther suiteId id := by
    simp [deleteDefinitions, Store.UsedByOther, and_assoc]
  have hdisjoint : List.Disjoint ((deleteDefinitions suiteId store).definitions.map (·.id))
      ((definitionEntities suiteId plan).map (·.id))
        ↔ ∀ d ∈ definitionEntities suiteId plan, ¬ store.UsedByOther suiteId d.id := by
    rw [List.disjoint_comm, List.disjoint_left]
    simp only [List.forall_mem_map, hused]
  have hkeys : ((((deleteDefinitions suiteId store).definitions ++
      definitionEntities suiteId plan).map (·.id)).Nodup)
        ↔ ((definitionEntities suiteId plan).map (·.id)).Nodup ∧
          ∀ d ∈ definitionEntities suiteId plan, ¬ store.UsedByOther suiteId d.id := by
    rw [List.map_append, List.nodup_append', and_iff_right hrest, hdisjoint]
  rw [hrebuild, persistDefinitionEntities, ← hkeys]
  split
  · rename_i hnodup
    exact iff_of_true ⟨_, rfl⟩ hnodup
  · rename_i hnodup
    exact iff_of_false (by simp) hnodup

/-- One request: its keys hold where what it declares is fresh. -/
theorem Request.keysHold_iff {db : Database} {store : Store} (hstore : store.IdsDistinct)
    (request : Request) : request.KeysHold db store ↔ request.DeclaresFresh db store := by
  have hplanned {edited : Store} {suiteId : String} {plan : List (PlannedSection SuiteItemEntity)}
      (hplan : planStored db edited suiteId = .ok plan) :
      (((definitionEntities suiteId plan).map (·.id)).Nodup ∧
          ∀ d ∈ definitionEntities suiteId plan, ¬ edited.UsedByOther suiteId d.id)
        ↔ (suiteDeclaredIds db edited suiteId).Nodup ∧
            ∀ id ∈ suiteDeclaredIds db edited suiteId, ¬ edited.UsedByOther suiteId id := by
    have hperm := definitionEntities_perm hplan
    rw [hperm.nodup_iff]
    simp only [← hperm.mem_iff, List.forall_mem_map]
  constructor
  · rintro hkeys edited suiteId hedit ⟨plan, hplan⟩
    obtain ⟨hnodup, hother, -⟩ := hkeys edited suiteId plan hedit hplan
    exact (hplanned hplan).1 ⟨hnodup, hother⟩
  · intro hfresh edited suiteId plan hedit hplan
    have hkeys := (hplanned hplan).2 (hfresh edited suiteId hedit ⟨plan, hplan⟩)
    have hedited : edited.IdsDistinct := by
      have hsame := Request.edit_definitions hedit
      rw [Store.IdsDistinct, hsame]
      exact hstore
    refine ⟨hkeys.1, hkeys.2, ?_⟩
    rw [Request.apply_eq, hedit, ok_bind]
    exact (rebuild_isOk_iff hedited hplan).2 hkeys

/-! ### Runs -/

/-- The store after a request: one that fails is rolled back. -/
def Store.after (db : Database) (store : Store) (request : Request) : Store :=
  match request.apply db store with
  | .ok store' => store'
  | .error _ => store

/-- The store after some requests. -/
def Store.run (db : Database) (store : Store) (requests : List Request) : Store :=
  requests.foldl (Store.after db) store

theorem rebuild_idsDistinct {db : Database} {suiteId : String} {store store' : Store}
    (h : rebuildSuiteConstantDefinitions db suiteId store = .ok store') : store'.IdsDistinct := by
  obtain ⟨plan, -, h⟩ := bind_eq_ok.1 h
  unfold persistDefinitionEntities at h
  split at h
  · rename_i hnodup
    rw [← Except.ok.inj h]
    exact hnodup
  · simp at h

/-- A request keeps the ids of the rows distinct, whatever it declares. -/
theorem Store.IdsDistinct.after {db : Database} {store : Store} (h : store.IdsDistinct)
    (request : Request) : (store.after db request).IdsDistinct := by
  unfold Store.after
  split
  · rename_i store' happly
    rw [Request.apply_eq] at happly
    obtain ⟨⟨edited, suiteId?⟩, hedit, hrest⟩ := bind_eq_ok.1 happly
    cases suiteId? with
    | none =>
      have hsame := Request.edit_definitions hedit
      obtain rfl := Except.ok.inj hrest
      rw [Store.IdsDistinct, hsame]
      exact h
    | some suiteId => exact rebuild_idsDistinct hrest
  · exact h

theorem Store.IdsDistinct.run {db : Database} {store : Store} (h : store.IdsDistinct)
    (requests : List Request) : (store.run db requests).IdsDistinct := by
  induction requests generalizing store with
  | nil => exact h
  | cons request requests ih => exact ih (h.after request)

/-- **A run of requests never fails on a key just where every request of it declares
fresh ids.**  The ids of the rows are distinct in every state of it. -/
theorem run_keysHold_iff (db : Database) {store : Store} (h : store.IdsDistinct)
    (requests : List Request) :
    (∀ before request later, requests = before ++ request :: later →
        (store.run db before).IdsDistinct ∧ request.KeysHold db (store.run db before))
      ↔ ∀ before request later, requests = before ++ request :: later →
          request.DeclaresFresh db (store.run db before) := by
  refine forall_congr' fun before => forall_congr' fun request => forall_congr' fun later =>
    imp_congr_right fun _ => ?_
  have hbefore : (store.run db before).IdsDistinct := h.run before
  rw [and_iff_right hbefore, Request.keysHold_iff hbefore]

/-! ### Two tests with one id -/

/-- A command that declares the constant of an id. -/
def declareTotal : ConfigurationCommandDto := .setVariable
  { keys := ⟨"setVariable", .context, by decide, by decide⟩
    definitionId := ⟨"total", by decide, by decide⟩
    name := ⟨"total", by decide, by decide⟩
    context := .localScope
    value := .value (.int 10)
    sourceType := none
    data := .null
    resolver := none
    function := none
    datasetId := none
    jsonArrayId := none
    parameters := none
    target := none
    key := none
    scope := none }

/-- A test with some commands, or with those of a template. -/
def plainTest (commands : List CreateSuiteItemCommandDto) (templateKind : TemplateKind)
    (templateConfig : Option (List (String × Json))) : CreateSuiteItemDto where
  kind := .test
  hookPhase := none
  description := "orders"
  onFailure := .abort
  sources := []
  commands := commands
  templateKind := templateKind
  templateConfig := templateConfig
  hookPhase_isSome := hookPhase_isSome_test
  sources_nodup := List.nodup_nil

/-- A test that declares one constant. -/
def totalTest : CreateSuiteItemDto :=
  plainTest [{ order := 1, description := "total", cfg := some declareTotal }] .custom none

/-- A test from a `mock_assert` that waits and makes one assertion. -/
def mockTest : CreateSuiteItemDto :=
  plainTest [] .mockAssert (some [("asserts", .arr [.obj [("target", .str "database"),
    ("operator", .str "exists"), ("connection_id", .str "orders"),
    ("database_query", .str "select 1")]])])

/-- A suite without items, to which a test of the template is added. -/
def mockSuite : List Request :=
  [.insertSuite { description := "orders", tests := [], hooks := [] }, .addTest "0" mockTest]

/-- **Two tests with one id are accepted and cannot be stored:** two hand-written tests
of one suite, and two tests of one template. -/
theorem duplicateKey_of_tests :
    (validateSuiteConstantGraph listDatabase.commandId
        { description := "orders", tests := [totalTest, totalTest], hooks := [] } = .ok () ∧
      insertTestSuite listDatabase
        { description := "orders", tests := [totalTest, totalTest], hooks := [] } Store.empty
          = .error duplicateKey) ∧
      (Store.empty.run listDatabase mockSuite).definitions.length = 1 ∧
      (Request.addTest "0" mockTest).apply listDatabase (Store.empty.run listDatabase mockSuite)
        = .error duplicateKey := by
  refine ⟨⟨rfl, rfl⟩, by decide +kernel, ?_⟩
  rw [← raised?_eq_some]
  decide +kernel

/-- One request that declares a fresh id. -/
def totalSuite : Request :=
  .insertSuite { description := "orders", tests := [totalTest], hooks := [] }

theorem idsDistinct_empty : Store.empty.IdsDistinct := List.nodup_nil

theorem run_keysHold_total :
    (∀ before request later, [totalSuite] = before ++ request :: later →
        (Store.empty.run listDatabase before).IdsDistinct ∧
          request.KeysHold listDatabase (Store.empty.run listDatabase before))
      ↔ ∀ before request later, [totalSuite] = before ++ request :: later →
          request.DeclaresFresh listDatabase (Store.empty.run listDatabase before) :=
  run_keysHold_iff listDatabase idsDistinct_empty [totalSuite]

end Suite
end QualityFlow
