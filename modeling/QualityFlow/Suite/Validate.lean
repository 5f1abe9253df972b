/-
# Validating a suite

`validate_suite_sources_graph` of
`app/elaborations/services/suite_source_registry.py` and
`validate_suite_constant_graph` of
`app/elaborations/services/constants/command_constant_definition_registry.py`.

The sections of a suite are planned one after another: the hook before all tests,
the hook before each test, every test on its own, and the two closing hooks.  The
planning of a stored suite goes the same way, so both are one definition, over the
items and a way to read their commands.
-/

import QualityFlow.Constants.Planner

namespace QualityFlow
namespace Suite

open Py Command Constants

/-! ### Sources -/

/-- `_SOURCE_TYPE_COMPATIBILITY`. -/
def sourceTypeCompatibility : Dict String (List String) :=
  [("sendMessageQueue", ["dataset", "jsonArray"]), ("saveTable", ["dataset", "jsonArray"]),
   ("exportDataset", ["dataset", "jsonArray"]), ("jsonArrayEquals", ["jsonArray"]),
   ("jsonArrayEmpty", ["jsonArray"]), ("jsonArrayNotEmpty", ["jsonArray"]),
   ("jsonArrayContains", ["jsonArray"])]

/-- The check that a source is visible. -/
def checkSourceVisible (visible : Dict String (List (String × Json))) (commandCode : String) :
    Option InputRefDto → Except String Unit
  | some (.source sourceCode) =>
    if visible.has sourceCode.val then .ok ()
    else .error s!"Source '{sourceCode.val}' is not visible for command '{commandCode}'."
  | _ => .ok ()

/-- The check that a source is visible and has a type the command takes. -/
def checkSourceType (visible : Dict String (List (String × Json))) (commandCode : String) :
    Option InputRefDto → Except String Unit
  | some (.source sourceCode) =>
    match visible.get? sourceCode.val with
    | none => .error s!"Source '{sourceCode.val}' is not visible for command '{commandCode}'."
    | some source =>
      let sourceType := (Json.field source "sourceType").token
      if ((sourceTypeCompatibility.get? (strip commandCode)).map fun types =>
          decide (sourceType ∈ types)) = some false then
        .error (s!"Source '{sourceCode.val}' has incompatible type '{sourceType}' for command "
          ++ s!"'{commandCode}'.")
      else .ok ()
  | _ => .ok ()

/-- The configuration that a command is read back from. -/
def CreateSuiteItemCommandDto.rawCfg (command : CreateSuiteItemCommandDto) :
    List (String × Json) :=
  (command.cfg.map ConfigurationCommandDto.modelDump).getD []

/-- One command of `validate_suite_sources_graph`. -/
def validateCommandSources (visible : Dict String (List (String × Json)))
    (command : CreateSuiteItemCommandDto) : Except String Unit := do
  let cfg ← convertToConfigCommandType command.rawCfg
  checkSourceType visible cfg.commandCode cfg.inputRef?
  checkSourceVisible visible cfg.commandCode cfg.actualRef?
  checkSourceType visible cfg.commandCode cfg.expectedRef?

/-- The hook of a phase: of several the last. -/
def CreateTestSuiteDto.hookByPhase (dto : CreateTestSuiteDto) (phase : HookPhase) :
    Option CreateSuiteItemDto :=
  (dto.hooks.filter fun item => item.hookPhase = some phase).getLast?

/-- The sources of an item as they are dumped. -/
def CreateSuiteItemDto.sourceDicts (item : CreateSuiteItemDto) : List (List (String × Json)) :=
  item.sources.map SuiteSource.modelDump

/-- One item of `validate_suite_sources_graph`. -/
def validateItemSources (dto : CreateTestSuiteDto) (item : CreateSuiteItemDto) :
    Except String Unit := do
  let dicts (item : Option CreateSuiteItemDto) := (item.map CreateSuiteItemDto.sourceDicts).getD []
  let visible ← buildVisible (sectionTypeForItem item.kind item.hookPhase)
    (dicts (dto.hookByPhase .beforeAll)) (dicts (dto.hookByPhase .beforeEach)) item.sourceDicts
  item.commands.forM (validateCommandSources visible)

/-- `validate_suite_sources_graph`. -/
def validateSuiteSourcesGraph (dto : CreateTestSuiteDto) : Except String Unit :=
  (dto.hooks ++ dto.tests).forM (validateItemSources dto)

/-! ### The plan of a suite -/

section

variable {α : Type}

/-- A section of a suite, planned. -/
structure PlannedSection (α : Type) where
  sectionType : SectionType
  item : α
  state : PlanState

/-- The plan of a hook, where there is one, and what is visible after it. -/
def planHook (commandsOf : α → List RawCommand) (sectionType : SectionType) (hook : Option α)
    (initialVisible : Dict String PlannedDefinition) :
    Except String (List (PlannedSection α) × Dict String PlannedDefinition) :=
  match hook with
  | none => .ok ([], initialVisible)
  | some item => do
    let state ← planDefinitionsForCommands (commandsOf item) sectionType initialVisible
    return ([{ sectionType, item, state }], state.definitions)

/-- The plan of a test. -/
def planTest (commandsOf : α → List RawCommand) (initialVisible : Dict String PlannedDefinition)
    (item : α) : Except String (PlannedSection α) := do
  let state ← planDefinitionsForCommands (commandsOf item) .test initialVisible
  return { sectionType := .test, item, state }

/-- The plan of a suite, section by section. -/
def planSuite (commandsOf : α → List RawCommand) (hook : HookPhase → Option α) (tests : List α) :
    Except String (List (PlannedSection α)) := do
  let (beforeAll, visibleBeforeAll) ← planHook commandsOf .beforeAll (hook .beforeAll) []
  let (beforeEach, visibleBeforeEach) ←
    planHook commandsOf .beforeEach (hook .beforeEach) visibleBeforeAll
  let tests ← tests.mapM (planTest commandsOf visibleBeforeEach)
  let (afterEach, _) ← planHook commandsOf .afterEach (hook .afterEach) visibleBeforeEach
  let (afterAll, _) ← planHook commandsOf .afterAll (hook .afterAll) visibleBeforeAll
  return beforeAll ++ beforeEach ++ tests ++ afterEach ++ afterAll

end

/-- `_suite_item_commands`; `newId` gives the ids that `_new_id` draws. -/
def suiteItemCommands (newId : ℕ → String) (item : CreateSuiteItemDto) : List RawCommand :=
  item.commands.mapIdx fun i command =>
    { id := (orElse (orElse (Json.field command.rawCfg "commandId") (.int command.order))
        (.str (newId i))).pyStr
      order := effectiveOrder command.order (i + 1)
      cfg := command.rawCfg }

/-- The plan that the validation of a request makes. -/
def planRequest (newId : ℕ → String) (dto : CreateTestSuiteDto) :
    Except String (List (PlannedSection CreateSuiteItemDto)) :=
  planSuite (suiteItemCommands newId) dto.hookByPhase dto.tests

/-- `validate_suite_constant_graph`. -/
def validateSuiteConstantGraph (newId : ℕ → String) (dto : CreateTestSuiteDto) :
    Except String Unit := do
  validateSuiteSourcesGraph dto
  let _ ← planRequest newId dto
  return ()

end Suite
end QualityFlow
