/-
# Storing a suite

`app/elaborations/api/test_suites_api.py` over the services of
`app/elaborations/services/alembic/`, and `rebuild_suite_constant_definitions` of
`app/elaborations/services/constants/command_constant_definition_registry.py`.

A request edits the items and the commands of a suite and then rebuilds the rows of
its constants, in one transaction: where a step raises, the store is as it was.

The database is a parameter.  It draws ids that do not repeat, gives the rows of a
query in an order that respects the columns they are sorted by, and rejects a row
whose primary key is in use.
-/

import QualityFlow.Suite.Run
import QualityFlow.Suite.Validate
import QualityFlow.Template.Generator

namespace QualityFlow
namespace Suite

open Py Command Constants Template

/-! ### The database -/

/-- What the services rely on of the database and of `uuid4`. -/
structure Database where
  newId : ℕ → String
  commandId : ℕ → String
  orderItems : List SuiteItemEntity → List SuiteItemEntity
  orderOperations : List SuiteItemOperationEntity → List SuiteItemOperationEntity
  newId_injective : Function.Injective newId
  strip_newId : ∀ n, strip (newId n) = newId n
  orderItems_perm : ∀ items, (orderItems items).Perm items
  orderItems_sorted : ∀ items, (orderItems items).Pairwise fun a b => a.position ≤ b.position
  orderOperations_perm : ∀ ops, (orderOperations ops).Perm ops
  orderOperations_sorted : ∀ ops, (orderOperations ops).Pairwise fun a b => a.order ≤ b.order

/-- A database that keeps rows it may order either way as they were inserted. -/
def listDatabase : Database where
  newId := toString
  commandId := toString
  orderItems items := items.insertionSort fun a b => a.position ≤ b.position
  orderOperations ops := ops.insertionSort fun a b => a.order ≤ b.order
  newId_injective := toString_nat_injective
  strip_newId _ := strip_of_forall fun _ hc => isSpace_of_isDigit (isDigit_of_mem_toString hc)
  orderItems_perm _ := List.perm_insertionSort _ _
  orderItems_sorted items := List.pairwise_insertionSort (fun a b => a.position ≤ b.position) items
  orderOperations_perm _ := List.perm_insertionSort _ _
  orderOperations_sorted ops := List.pairwise_insertionSort (fun a b => a.order ≤ b.order) ops

/-- `TestSuiteEntity`. -/
structure TestSuiteEntity where
  id : String
  description : String

/-- The owners of `CommandConstantDefinitionEntity`. -/
inductive OwnerType where
  | suite
  | mockApiPre
  | mockApiPost
  | mockQueue
deriving DecidableEq

/-- `CommandConstantDefinitionEntity`. -/
structure CommandConstantDefinitionEntity where
  id : String
  ownerType : OwnerType
  suiteId : Option String
  suiteItemId : Option String
  mockServerApiId : Option String
  mockServerQueueId : Option String
  commandId : String
  commandOrder : ℤ
  sectionType : SectionType
  name : String
  contextScope : ConstantContext
  valueType : ConstantSourceType
  declaredAtOrder : ℤ
  deletedAtOrder : Option ℤ
deriving DecidableEq

/-- The tables, and how many ids have been drawn. -/
structure Store where
  suites : List TestSuiteEntity
  items : List SuiteItemEntity
  operations : List SuiteItemOperationEntity
  definitions : List CommandConstantDefinitionEntity
  drawn : ℕ

namespace Store

def empty : Store := { suites := [], items := [], operations := [], definitions := [], drawn := 0 }

end Store

/-! ### Queries -/

section

variable (db : Database) (store : Store)

/-- `SuiteItemService.get_all_by_suite_id`. -/
def getAllBySuiteId (suiteId : String) : List SuiteItemEntity :=
  db.orderItems (store.items.filter fun item => item.testSuiteId = suiteId)

/-- `SuiteItemService.get_all_tests_by_suite_id`. -/
def getAllTestsBySuiteId (suiteId : String) : List SuiteItemEntity :=
  (getAllBySuiteId db store suiteId).filter fun item => item.kind = .test

/-- `SuiteItemService.get_hook_by_phase`. -/
def getHookByPhase (suiteId : String) (phase : HookPhase) :
    Except String (Option SuiteItemEntity) :=
  match store.items.filter fun item =>
    item.testSuiteId = suiteId ∧ item.kind = .hook ∧ item.hookPhase = some phase with
  | [] => .ok none
  | [item] => .ok (some item)
  | _ => .error "Multiple rows were found when one or none was required"

/-- `SuiteItemOperationService.get_all_by_suite_item_id`. -/
def getAllBySuiteItemId (itemId : String) : List SuiteItemOperationEntity :=
  db.orderOperations (store.operations.filter fun op => op.suiteItemId = itemId)

/-- The suite of an id. -/
def getSuite (suiteId : String) : Except String TestSuiteEntity :=
  match store.suites.find? fun suite => suite.id = suiteId with
  | some suite => .ok suite
  | none => .error s!"No test suite found with id [ {suiteId} ]"

/-- The item of an id, in its suite. -/
def getItem (suiteId itemId : String) : Except String SuiteItemEntity :=
  match store.items.find? fun item => item.id = itemId ∧ item.testSuiteId = suiteId with
  | some item => .ok item
  | none => .error s!"No suite_item [ {itemId} ] found in test suite [ {suiteId} ]."

end

/-! ### Rows -/

/-- `_build_suite_item_command_entity`. -/
def buildSuiteItemCommandEntity (id itemId : String) (dto : CreateSuiteItemCommandDto) :
    Except String SuiteItemOperationEntity :=
  match dto.cfg with
  | none => .error "Command code is required."
  | some cfg =>
    if strip cfg.commandCode = "" then .error "Command code is required."
    else .ok
      { id, suiteItemId := itemId, order := dto.order, description := dto.description,
        commandCode := strip cfg.commandCode, commandType := cfg.commandType.value,
        configurationJson := cfg.modelDump }

/-- `_build_suite_item_entity`. -/
def buildSuiteItemEntity (id suiteId : String) (dto : CreateSuiteItemDto) (position : ℤ) :
    SuiteItemEntity where
  id := id
  testSuiteId := suiteId
  kind := dto.kind
  hookPhase := dto.hookPhase
  description := dto.description
  sourcesJson := dto.sourceDicts
  position := position
  onFailure := dto.onFailure.value
  templateKind := dto.templateKind
  templateConfig := dto.templateConfig

/-- `_build_suite_item_update_payload` under `update_entity`, which leaves a column
alone where the payload has nothing for it. -/
def updateSuiteItemEntity (dto : CreateSuiteItemDto) (item : SuiteItemEntity) : SuiteItemEntity :=
  { item with
    kind := dto.kind
    hookPhase := dto.hookPhase <|> item.hookPhase
    description := dto.description
    sourcesJson := dto.sourceDicts
    onFailure := dto.onFailure.value
    templateKind := dto.templateKind
    templateConfig := dto.templateConfig <|> item.templateConfig }

/-- One round of `_insert_suite_item_operations`. -/
def insertOperation (db : Database) (itemId : String) (store : Store)
    (dto : CreateSuiteItemCommandDto) : Except String Store := do
  let entity ← buildSuiteItemCommandEntity (db.newId store.drawn) itemId dto
  return { store with operations := store.operations ++ [entity], drawn := store.drawn + 1 }

/-- `_insert_suite_item_operations`. -/
def insertSuiteItemOperations (db : Database) (itemId : String)
    (commands : List CreateSuiteItemCommandDto) (store : Store) : Except String Store :=
  commands.foldlM (insertOperation db itemId) store

/-- An item and its commands. -/
def insertSuiteItem (db : Database) (suiteId : String) (dto : CreateSuiteItemDto) (position : ℤ)
    (commands : List CreateSuiteItemCommandDto) (store : Store) : Except String Store :=
  let id := db.newId store.drawn
  insertSuiteItemOperations db id commands
    { store with
      items := store.items ++ [buildSuiteItemEntity id suiteId dto position]
      drawn := store.drawn + 1 }

/-- The items that `_insert_suite_items` stores, each with its position: of the hooks
of a phase the first. -/
def storedItems (dto : CreateTestSuiteDto) : List (CreateSuiteItemDto × ℤ) :=
  (HookPhase.all.filterMap fun phase =>
    (dto.hooks.find? fun item => item.hookPhase = some phase).map fun hook => (hook, 0)) ++
  dto.tests.mapIdx fun i test => (test, ((i + 1 : ℕ) : ℤ))

/-- `_insert_suite_items`. -/
def insertSuiteItems (db : Database) (suiteId : String) (dto : CreateTestSuiteDto)
    (store : Store) : Except String Store :=
  (storedItems dto).foldlM
    (fun store item => insertSuiteItem db suiteId item.1 item.2 item.1.commands store) store

/-- `SuiteItemService.delete_by_suite_id`. -/
def deleteBySuiteId (suiteId : String) (store : Store) : Store :=
  let gone := (store.items.filter fun item => item.testSuiteId = suiteId).map (·.id)
  { store with
    items := store.items.filter fun item => item.testSuiteId ≠ suiteId
    operations := store.operations.filter fun op => op.suiteItemId ∉ gone }

/-- `SuiteItemOperationService.delete_by_suite_item_id`. -/
def deleteBySuiteItemId (itemId : String) (store : Store) : Store :=
  { store with operations := store.operations.filter fun op => op.suiteItemId ≠ itemId }

/-! ### Rebuilding the rows of the constants -/

/-- `_commands_for_item`. -/
def commandsForItem (db : Database) (store : Store) (item : SuiteItemEntity) : List RawCommand :=
  (getAllBySuiteItemId db store item.id).mapIdx fun i op =>
    { id := op.id
      order := effectiveOrder op.order (i + 1)
      cfg := op.configurationJson }

/-- The item of a phase: of several the last, whatever its kind. -/
def storedHookByPhase (db : Database) (store : Store) (suiteId : String) (phase : HookPhase) :
    Option SuiteItemEntity :=
  ((getAllBySuiteId db store suiteId).filter fun item => item.hookPhase = some phase).getLast?

/-- The items without a phase. -/
def storedTests (db : Database) (store : Store) (suiteId : String) : List SuiteItemEntity :=
  (getAllBySuiteId db store suiteId).filter fun item => item.hookPhase = none

/-- The plan of a stored suite. -/
def planStored (db : Database) (store : Store) (suiteId : String) :
    Except String (List (PlannedSection SuiteItemEntity)) :=
  planSuite (commandsForItem db store) (storedHookByPhase db store suiteId)
    (storedTests db store suiteId)

/-- `_definition_entity`. -/
def definitionEntity (suiteId suiteItemId : String) (d : PlannedDefinition) :
    CommandConstantDefinitionEntity where
  id := d.definitionId
  ownerType := .suite
  suiteId := some suiteId
  suiteItemId := some suiteItemId
  mockServerApiId := none
  mockServerQueueId := none
  commandId := d.commandId
  commandOrder := d.commandOrder
  sectionType := d.sectionType
  name := d.name
  contextScope := d.contextScope
  valueType := d.valueType
  declaredAtOrder := d.commandOrder
  deletedAtOrder := d.deletedAtOrder

/-- The rows of a plan. -/
def definitionEntities (suiteId : String) (plan : List (PlannedSection SuiteItemEntity)) :
    List CommandConstantDefinitionEntity :=
  plan.flatMap fun s => s.state.planned.map (definitionEntity suiteId s.item.id)

/-- The error of an insert with a primary key that is in use. -/
def duplicateKey : String :=
  "duplicate key value violates unique constraint \"command_constant_definitions_pkey\""

/-- `_persist_definition_entities`. -/
def persistDefinitionEntities (entities : List CommandConstantDefinitionEntity) (store : Store) :
    Except String Store :=
  if ((store.definitions ++ entities).map (·.id)).Nodup then
    .ok { store with definitions := store.definitions ++ entities }
  else .error duplicateKey

/-- `CommandConstantDefinitionService.delete_by_suite_id`. -/
def deleteDefinitions (suiteId : String) (store : Store) : Store :=
  { store with definitions := store.definitions.filter fun d => d.suiteId ≠ some suiteId }

/-- `rebuild_suite_constant_definitions`. -/
def rebuildSuiteConstantDefinitions (db : Database) (suiteId : String) (store : Store) :
    Except String Store := do
  let store := deleteDefinitions suiteId store
  let plan ← planStored db store suiteId
  persistDefinitionEntities (definitionEntities suiteId plan) store

/-! ### Requests -/

/-- `insert_test_suite_api`. -/
def insertTestSuite (db : Database) (dto : CreateTestSuiteDto) (store : Store) :
    Except String Store := do
  validateSuiteConstantGraph db.commandId dto
  let id := db.newId store.drawn
  let store := { store with
    suites := store.suites ++ [{ id, description := dto.description }]
    drawn := store.drawn + 1 }
  let store ← insertSuiteItems db id dto store
  rebuildSuiteConstantDefinitions db id store

/-- `update_test_suite_api`. -/
def updateTestSuite (db : Database) (id : String) (dto : CreateTestSuiteDto) (store : Store) :
    Except String Store := do
  validateSuiteConstantGraph db.commandId dto
  let _ ← getSuite store id
  let suites := store.suites.map fun suite =>
    if suite.id = id then { suite with description := dto.description } else suite
  let store ← insertSuiteItems db id dto (deleteBySuiteId id { store with suites })
  rebuildSuiteConstantDefinitions db id store

/-- `_resolve_template_commands`. -/
def resolveTemplateCommands (dto : CreateSuiteItemDto) :
    Except String (List CreateSuiteItemCommandDto) :=
  if dto.templateKind = .custom then .ok dto.commands
  else generateCommands dto.templateKind dto.templateConfig

/-- The position after the last test. -/
def nextPosition (tests : List SuiteItemEntity) : ℤ :=
  match (tests.map (·.position)).max? with
  | none => 1
  | some position => position + 1

/-- `add_test_to_suite_api`. -/
def addTestToSuite (db : Database) (suiteId : String) (dto : CreateSuiteItemDto) (store : Store) :
    Except String Store := do
  let commands ← resolveTemplateCommands dto
  let _ ← getSuite store suiteId
  let position := nextPosition (getAllTestsBySuiteId db store suiteId)
  let store ← insertSuiteItem db suiteId dto position commands store
  rebuildSuiteConstantDefinitions db suiteId store

/-- `update_test_in_suite_api`. -/
def updateTestInSuite (db : Database) (suiteId itemId : String) (dto : CreateSuiteItemDto)
    (store : Store) : Except String Store := do
  let commands ← resolveTemplateCommands dto
  let _ ← getItem store suiteId itemId
  let items := store.items.map fun item =>
    if item.id = itemId then updateSuiteItemEntity dto item else item
  let store ← insertSuiteItemOperations db itemId commands
    (deleteBySuiteItemId itemId { store with items })
  rebuildSuiteConstantDefinitions db suiteId store

/-- `convert_test_to_custom_api`. -/
def convertTestToCustom (db : Database) (suiteId itemId : String) (store : Store) :
    Except String Store := do
  let existing ← getItem store suiteId itemId
  if existing.templateKind = .custom then return store
  else
    let commands ← generateCommands existing.templateKind existing.templateConfig
    let store ← insertSuiteItemOperations db itemId commands (deleteBySuiteItemId itemId store)
    let items := store.items.map fun item =>
      if item.id = itemId then { item with templateKind := .custom } else item
    rebuildSuiteConstantDefinitions db suiteId { store with items }

/-! ### What an insert leaves -/

theorem strip_commandCode_ne (cfg : ConfigurationCommandDto) : strip cfg.commandCode ≠ "" := by
  cases cfg with
  | assert c => cases hcode : c.code <;> simp [ConfigurationCommandDto.commandCode, hcode] <;> decide
  | _ c => exact c.keys.strip_commandCode_ne

/-- The row of a command that has a configuration. -/
def operationRow (id itemId : String) (dto : CreateSuiteItemCommandDto) :
    SuiteItemOperationEntity where
  id := id
  suiteItemId := itemId
  order := dto.order
  description := dto.description
  commandCode := (dto.cfg.map fun cfg => strip cfg.commandCode).getD ""
  commandType := (dto.cfg.map fun cfg => cfg.commandType.value).getD ""
  configurationJson := dto.rawCfg

/-- The rows of some commands, with the ids that are drawn for them. -/
def operationRows (db : Database) (itemId : String) (drawn : ℕ)
    (commands : List CreateSuiteItemCommandDto) : List SuiteItemOperationEntity :=
  commands.mapIdx fun i dto => operationRow (db.newId (drawn + i)) itemId dto

/-- The store after some commands have been inserted. -/
def Store.withOperations (db : Database) (itemId : String)
    (commands : List CreateSuiteItemCommandDto) (store : Store) : Store :=
  { store with
    operations := store.operations ++ operationRows db itemId store.drawn commands
    drawn := store.drawn + commands.length }

theorem buildSuiteItemCommandEntity_eq (id itemId : String) (dto : CreateSuiteItemCommandDto) :
    buildSuiteItemCommandEntity id itemId dto
      = if dto.cfg.isSome then .ok (operationRow id itemId dto)
        else .error "Command code is required." := by
  unfold buildSuiteItemCommandEntity
  cases hcfg : dto.cfg with
  | none => simp
  | some cfg =>
    simp [strip_commandCode_ne cfg, operationRow, CreateSuiteItemCommandDto.rawCfg, hcfg]

/-- **Commands are inserted as their rows, where each has a configuration.** -/
theorem insertSuiteItemOperations_eq (db : Database) (itemId : String)
    (commands : List CreateSuiteItemCommandDto) (store : Store) :
    insertSuiteItemOperations db itemId commands store
      = if ∀ dto ∈ commands, dto.cfg.isSome then .ok (store.withOperations db itemId commands)
        else .error "Command code is required." := by
  induction commands generalizing store with
  | nil => simp [insertSuiteItemOperations, Store.withOperations, operationRows]
  | cons dto commands ih =>
    have hstep : insertSuiteItemOperations db itemId (dto :: commands) store
        = (insertOperation db itemId store dto >>=
            insertSuiteItemOperations db itemId commands) := rfl
    have hcons : (∀ d ∈ dto :: commands, d.cfg.isSome = true)
        ↔ dto.cfg.isSome = true ∧ ∀ d ∈ commands, d.cfg.isSome = true := List.forall_mem_cons
    rw [hstep, insertOperation, buildSuiteItemCommandEntity_eq]
    by_cases hdto : dto.cfg.isSome = true
    · rw [if_pos hdto, ok_bind, pure_eq_ok, ok_bind, ih]
      by_cases hall : ∀ dto ∈ commands, dto.cfg.isSome = true
      · rw [if_pos hall, if_pos (hcons.2 ⟨hdto, hall⟩)]
        simp [Store.withOperations, operationRows, List.mapIdx_cons, Nat.add_assoc,
          Nat.add_comm 1]
      · rw [if_neg hall, if_neg fun h => hall (hcons.1 h).2]
    · rw [if_neg hdto, error_bind, error_bind, if_neg fun h => hdto (hcons.1 h).1]

/-- The commands of an item that has been given new ones. -/
theorem getAllBySuiteItemId_withOperations (db : Database) (itemId : String)
    (commands : List CreateSuiteItemCommandDto) {store : Store}
    (hfresh : ∀ op ∈ store.operations, op.suiteItemId ≠ itemId) :
    getAllBySuiteItemId db (store.withOperations db itemId commands) itemId
      = db.orderOperations (operationRows db itemId store.drawn commands) := by
  have hold : store.operations.filter (fun op => op.suiteItemId = itemId) = [] := by
    simpa [List.filter_eq_nil_iff] using hfresh
  have hnew : (operationRows db itemId store.drawn commands).filter
      (fun op => op.suiteItemId = itemId) = operationRows db itemId store.drawn commands := by
    rw [List.filter_eq_self]
    intro op hop
    obtain ⟨i, hi, rfl⟩ := List.mem_mapIdx.1 hop
    simp [operationRow]
  rw [getAllBySuiteItemId, Store.withOperations, List.filter_append, hold, hnew, List.nil_append]

/-! ### Loading a suite for a run -/

/-- `_resolve_tests_to_execute`. -/
def resolveTestsToExecute (tests : List SuiteItemEntity) (target : String) :
    Except String (List SuiteItemEntity) :=
  if target = "" then .ok tests
  else
    match tests.find? fun test => test.id = target with
    | some test => .ok [test]
    | none => .error s!"Test with id '{target}' not found in test suite"

/-- What `_execute` loads before it announces the run. -/
def loadSuite (db : Database) (store : Store) (suiteId target : String) :
    Except String LoadedSuite := do
  let _ ← getSuite store suiteId
  let beforeAll ← getHookByPhase store suiteId .beforeAll
  let beforeEach ← getHookByPhase store suiteId .beforeEach
  let afterEach ← getHookByPhase store suiteId .afterEach
  let afterAll ← getHookByPhase store suiteId .afterAll
  let tests ← resolveTestsToExecute (getAllTestsBySuiteId db store suiteId) target
  return { beforeAll, beforeEach, afterEach, afterAll, tests }

end Suite
end QualityFlow
