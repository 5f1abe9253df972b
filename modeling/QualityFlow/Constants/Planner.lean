/-
# Planning the constants of a list of commands

`plan_definitions_for_commands` and what it calls in
`app/elaborations/services/constants/command_constant_definition_registry.py`.

The planner goes through the commands of an item in the order they are numbered
in.  It keeps the definitions that have been declared, checks that every reference
of a command is to one declared strictly before it and not yet deleted, and that no
declaration takes a name that is in use.
-/

import QualityFlow.Suite.Items
import Mathlib.Data.List.Sort

namespace QualityFlow
namespace Constants

open Py Command Suite

/-! ### Commands and definitions -/

/-- A command as it is handed to the planner. -/
structure RawCommand where
  id : String
  order : ℤ
  cfg : List (String × Json)

/-- `CommandInput`. -/
structure CommandInput where
  commandId : String
  commandOrder : ℤ
  cfg : List (String × Json)

/-- `PlannedDefinition`. -/
structure PlannedDefinition where
  definitionId : String
  commandId : String
  commandOrder : ℤ
  sectionType : SectionType
  name : String
  contextScope : ConstantContext
  valueType : ConstantSourceType
  deletedAtOrder : Option ℤ
deriving DecidableEq

/-- `order or index`. -/
def effectiveOrder (order : ℤ) (index : ℕ) : ℤ := if order = 0 then index else order

/-- `_command_input`; the id of a command is never blank here. -/
def commandInput (defaultOrder : ℕ) (raw : RawCommand) : CommandInput where
  commandId := strip raw.id
  commandOrder := effectiveOrder raw.order defaultOrder
  cfg := raw.cfg

/-- The key by which the commands are sorted. -/
def CommandInput.le (c c' : CommandInput) : Prop :=
  c.commandOrder < c'.commandOrder ∨ c.commandOrder = c'.commandOrder ∧ c.commandId ≤ c'.commandId

instance : DecidableRel CommandInput.le := fun _ _ => inferInstanceAs (Decidable (_ ∨ _))

/-- The commands of an item in the order they are planned in. -/
def sortedCommands (raws : List RawCommand) : List CommandInput :=
  (raws.mapIdx fun i raw => commandInput (i + 1) raw).insertionSort CommandInput.le

/-! ### Tables -/

/-- `_TYPE_COMPATIBILITY`. -/
def typeCompatibility : Dict String (List ConstantSourceType) :=
  [("sendMessageQueue", [.value, .json, .jsonArray, .dataset]),
   ("saveTable", [.json, .jsonArray, .dataset]),
   ("exportDataset", [.json, .jsonArray, .dataset]),
   ("jsonEquals", [.json, .value]), ("jsonEmpty", [.json, .value]),
   ("jsonNotEmpty", [.json, .value]), ("jsonContains", [.json, .value]),
   ("jsonArrayEquals", [.jsonArray]), ("jsonArrayEmpty", [.jsonArray]),
   ("jsonArrayNotEmpty", [.jsonArray]), ("jsonArrayContains", [.jsonArray])]

/-- `_READABLE_SCOPES`. -/
def readableScopes : SectionType → List ConstantContext
  | .beforeAll => [.runEnvelope, .resultScope]
  | .beforeEach => [.runEnvelope, .globalScope, .resultScope]
  | .test => [.runEnvelope, .globalScope, .localScope, .resultScope]
  | .afterEach => [.runEnvelope, .globalScope, .localScope, .resultScope]
  | .afterAll => [.runEnvelope, .globalScope, .resultScope]
  | .mockPreResponse => [.runEnvelope, .resultScope]
  | .mockPostResponse => [.runEnvelope, .resultScope]
  | .mockQueue => [.runEnvelope, .resultScope]

/-- `_WRITABLE_SCOPES`. -/
def writableScopes : SectionType → List ConstantContext
  | .beforeAll => [.globalScope, .resultScope]
  | .beforeEach => [.localScope, .resultScope]
  | .test => [.localScope, .resultScope]
  | .afterEach => [.localScope, .resultScope]
  | .afterAll => [.globalScope, .resultScope]
  | .mockPreResponse => [.runEnvelope, .resultScope]
  | .mockPostResponse => [.resultScope]
  | .mockQueue => [.resultScope]

/-- Every scope there is. -/
def allScopes : List ConstantContext := [.runEnvelope, .globalScope, .localScope, .resultScope]

theorem mem_allScopes (scope : ConstantContext) : scope ∈ allScopes := by
  cases scope <;> decide

/-! ### References -/

inductive RefRole where
  | target
  | source
  | actual
  | expected
  | constant
deriving DecidableEq

/-- `_extract_http_input_node_refs` on a leaf. -/
def nodeRefs (node : HttpInputNode) : List (RefRole × String) :=
  node.definitionId?.toList.map fun d => (.source, d)

mutual

/-- `_extract_http_input_node_refs`. -/
def treeRefs : HttpInputTree → List (RefRole × String)
  | .null => []
  | .node n => nodeRefs n
  | .arr ts => treeListRefs ts
  | .obj kvs => treeItemsRefs kvs

def treeListRefs : List HttpInputTree → List (RefRole × String)
  | [] => []
  | t :: ts => treeRefs t ++ treeListRefs ts

def treeItemsRefs : List (String × HttpInputTree) → List (RefRole × String)
  | [] => []
  | (_, t) :: kvs => treeRefs t ++ treeItemsRefs kvs

end

/-- `_extract_http_auth_refs`. -/
def authRefs : HttpAuthorization → List (RefRole × String)
  | .empty => []
  | .basic username password => nodeRefs username ++ nodeRefs password
  | .bearer token => nodeRefs token
  | .apiKey username apiKey authEndpoint =>
    nodeRefs username ++ nodeRefs apiKey ++ nodeRefs authEndpoint
  | .oauth2 tokenUrl clientId clientSecret =>
    nodeRefs tokenUrl ++ nodeRefs clientId ++ nodeRefs clientSecret

/-- The references among some parameters. -/
def kvRefs (params : Option HttpKvParams) : List (RefRole × String) :=
  match params with
  | none => []
  | some p => p.items.flatMap fun kv => nodeRefs kv.2

/-- The references of a body. -/
def bodyRefs : HttpBody → List (RefRole × String)
  | .json t => treeRefs t
  | .text t => treeRefs t
  | .formUrlEncoded none => []
  | .formUrlEncoded (some form) => form.items.flatMap fun kv => nodeRefs kv.2.val

/-- The references the two HTTP commands share. -/
def requestRefs (c : HttpRequestFields) : List (RefRole × String) :=
  kvRefs c.queryParams ++ kvRefs c.headers ++ kvRefs c.pathParams ++
    (c.authorization.map authRefs).getD []

/-- A reference to a constant, in a role. -/
def inputRefs (role : RefRole) (ref : Option InputRefDto) : List (RefRole × String) :=
  (ref.bind InputRefDto.definitionId?).toList.map fun d => (role, d)

/-- `_definition_refs`. -/
def definitionRefs (cfg : ConfigurationCommandDto) : List (RefRole × String) :=
  match cfg with
  | .deleteVariable c => [(.target, c.targetRuntimeValueRef.definitionId.val)]
  | cfg =>
    inputRefs .source cfg.inputRef? ++ inputRefs .actual cfg.actualRef? ++
      inputRefs .expected cfg.expectedRef? ++
      match cfg with
      | .runSuite c => c.runtimeValueRefs.map fun r => (.constant, r.definitionId.val)
      | .readApi c => requestRefs c.toHttpRequestFields
      | .writeApi c => requestRefs c.toHttpRequestFields ++ bodyRefs c.body
      | _ => []

/-- `cfg.resultConstant`, for the classes that have one. -/
def resultConstant? : ConfigurationCommandDto → Option ResultConstantDto
  | .readApi c => c.resultConstant
  | .writeApi c => c.resultConstant
  | .sendMessageQueue c => c.resultConstant
  | .saveTable c => c.resultConstant
  | .exportDataset c => c.resultConstant
  | .receiveQueue c => c.resultConstant
  | .queryDatabase c => c.resultConstant
  | .runSuite c => c.resultConstant
  | .setVariable _ | .deleteVariable _ | .sleep _ | .dropTable _ | .cleanTable _ | .dropDataset _
  | .cleanDataset _ | .assert _ => none

/-! ### The checks on one command -/

/-- `_carry_over_visible_map`. -/
def carryOverVisibleMap (source : Dict String PlannedDefinition) :
    Dict String PlannedDefinition :=
  (source.filter fun kv => kv.2.deletedAtOrder = none).map fun kv =>
    (kv.1, { kv.2 with commandOrder := 0 })

/-- Whether a definition counts for a command of an order. -/
def PlannedDefinition.ActiveAt (scopes : List ConstantContext) (order : ℤ)
    (d : PlannedDefinition) : Prop :=
  d.contextScope ∈ scopes ∧ d.commandOrder < order ∧ ∀ n ∈ d.deletedAtOrder, order < n

instance (scopes : List ConstantContext) (order : ℤ) :
    DecidablePred (PlannedDefinition.ActiveAt scopes order) := fun d =>
  match h : d.deletedAtOrder with
  | none => decidable_of_iff (d.contextScope ∈ scopes ∧ d.commandOrder < order)
      (by simp [PlannedDefinition.ActiveAt, h])
  | some n => decidable_of_iff (d.contextScope ∈ scopes ∧ d.commandOrder < order ∧ order < n)
      (by simp [PlannedDefinition.ActiveAt, h])

/-- `_active_definitions`. -/
def activeDefinitions (definitions : Dict String PlannedDefinition)
    (scopes : List ConstantContext) (order : ℤ) : Dict String PlannedDefinition :=
  definitions.filter fun kv => decide (kv.2.ActiveAt scopes order)

/-- `_validate_duplicate_name`. -/
def validateDuplicateName (active : Dict String PlannedDefinition) (name : String)
    (contextScope : ConstantContext) : Except String Unit :=
  if active.any fun kv => kv.2.name = name ∧ kv.2.contextScope = contextScope then
    .error s!"Constant '{name}' is already defined in scope '{contextScope.value}'."
  else .ok ()

/-- One reference of `_validate_ref_visibility`. -/
def checkRef (commandCode : String) (sectionType : SectionType)
    (active : Dict String PlannedDefinition) (ref : RefRole × String) : Except String Unit :=
  match active.get? ref.2 with
  | none =>
    .error s!"Constant reference '{ref.2}' is not visible for command '{commandCode}'."
  | some definition =>
    if ((typeCompatibility.get? commandCode).map fun types =>
        decide (definition.valueType ∈ types)) = some false then
      .error (s!"Constant '{definition.name}' has incompatible type "
        ++ s!"'{definition.valueType.text}' for command '{commandCode}'.")
    else if ref.1 = .target ∧ definition.contextScope ∉ writableScopes sectionType then
      .error (s!"Constant '{definition.name}' in scope '{definition.contextScope.value}' "
        ++ s!"cannot be deleted in section '{sectionType.value}'.")
    else .ok ()

/-- One field of `_validate_form_urlencoded_body_refs`. -/
def checkFormField (active : Dict String PlannedDefinition) (fieldName : String)
    (node : HttpInputNode) : Except String Unit :=
  match node with
  | .source _ =>
    .error s!"Datasource values are not supported for formUrlEncoded field '{fieldName}'."
  | .runtimeValue definitionId _ =>
    match active.get? definitionId.val with
    | none => .ok ()
    | some definition =>
      if definition.valueType = .dataset ∨ definition.valueType = .jsonArray then
        .error (s!"Constant '{definition.name}' has incompatible type "
          ++ s!"'{definition.valueType.text}' for formUrlEncoded field '{fieldName}'.")
      else .ok ()
  | .literal _ | .builtIn _ => .ok ()

/-- `_validate_form_urlencoded_body_refs`. -/
def validateFormBodyRefs (active : Dict String PlannedDefinition) :
    ConfigurationCommandDto → Except String Unit
  | .writeApi c =>
    match c.body with
    | .formUrlEncoded (some form) => form.items.forM fun kv => checkFormField active kv.1.val kv.2.val
    | _ => .ok ()
  | _ => .ok ()

/-- `_validate_ref_visibility`. -/
def validateRefVisibility (cfg : ConfigurationCommandDto) (sectionType : SectionType)
    (commandOrder : ℤ) (definitions : Dict String PlannedDefinition) : Except String Unit := do
  let active := activeDefinitions definitions (readableScopes sectionType) commandOrder
  (definitionRefs cfg).forM (checkRef cfg.commandCode sectionType active)
  validateFormBodyRefs active cfg

/-- `_planned_declarations`. -/
def plannedDeclarations (cfg : ConfigurationCommandDto) (commandId : String) (commandOrder : ℤ)
    (sectionType : SectionType) : List PlannedDefinition :=
  (match cfg with
    | .setVariable c =>
      [{ definitionId := c.definitionId.val, commandId, commandOrder, sectionType,
         name := c.name.val, contextScope := c.context, valueType := c.value.valueType,
         deletedAtOrder := none }]
    | _ => []) ++
  (resultConstant? cfg).toList.map fun r =>
    { definitionId := r.definitionId.val, commandId, commandOrder, sectionType,
      name := r.name.val, contextScope := .resultScope, valueType := r.valueType,
      deletedAtOrder := none }

/-- One declaration of `_validate_declarations`: what counts as taken after it. -/
def checkDeclaration (sectionType : SectionType) (active : Dict String PlannedDefinition)
    (declaration : PlannedDefinition) : Except String (Dict String PlannedDefinition) := do
  if declaration.contextScope ∉ writableScopes sectionType then
    .error (s!"Scope '{declaration.contextScope.value}' is not writable in section "
      ++ s!"'{sectionType.value}'.")
  else
    validateDuplicateName active declaration.name declaration.contextScope
    return active.set declaration.definitionId declaration

/-- `_validate_declarations`. -/
def validateDeclarations (cfg : ConfigurationCommandDto) (sectionType : SectionType)
    (commandOrder : ℤ) (definitions : Dict String PlannedDefinition) (commandId : String) :
    Except String (List PlannedDefinition) := do
  let declarations := plannedDeclarations cfg commandId commandOrder sectionType
  let active := activeDefinitions definitions allScopes (commandOrder + 1)
  let _ ← declarations.foldlM (checkDeclaration sectionType) active
  return declarations

/-! ### The planner -/

/-- The variables of the loop. -/
structure PlanState where
  definitions : Dict String PlannedDefinition
  planned : List PlannedDefinition
deriving DecidableEq

/-- One round of the loop, once the configuration has been read. -/
def planConfig (sectionType : SectionType) (s : PlanState) (command : CommandInput)
    (cfg : ConfigurationCommandDto) : Except String PlanState := do
  validateRefVisibility cfg sectionType command.commandOrder s.definitions
  match cfg with
  | .deleteVariable c =>
    let target := c.targetRuntimeValueRef.definitionId.val
    match s.definitions.get? target with
    | none => .error s!"Constant reference '{target}' is not visible for deleteVariable."
    | some existing =>
      return { s with definitions :=
        s.definitions.set target { existing with deletedAtOrder := some command.commandOrder } }
  | _ =>
    let declarations ← validateDeclarations cfg sectionType command.commandOrder s.definitions
      command.commandId
    return { definitions := declarations.foldl (fun ds d => ds.set d.definitionId d) s.definitions
             planned := s.planned ++ declarations }

/-- One round of the loop. -/
def planCommand (sectionType : SectionType) (s : PlanState) (command : CommandInput) :
    Except String PlanState := do
  planConfig sectionType s command (← convertToConfigCommandType command.cfg)

/-- `plan_definitions_for_commands`. -/
def planDefinitionsForCommands (raws : List RawCommand) (sectionType : SectionType)
    (initialVisible : Dict String PlannedDefinition) : Except String PlanState :=
  (sortedCommands raws).foldlM (planCommand sectionType)
    { definitions := carryOverVisibleMap initialVisible, planned := [] }

/-! ### What a step checks, and what it leaves -/

/-- What `_validate_ref_visibility` requires of a reference. -/
structure RefOk (sectionType : SectionType) (active : Dict String PlannedDefinition)
    (commandCode : String) (ref : RefRole × String) (definition : PlannedDefinition) : Prop where
  visible : active.get? ref.2 = some definition
  compatible : ∀ types ∈ typeCompatibility.get? commandCode, definition.valueType ∈ types
  writable : ref.1 = .target → definition.contextScope ∈ writableScopes sectionType

/-- What `_validate_declarations` requires of a declaration. -/
structure Declarable (sectionType : SectionType) (active : Dict String PlannedDefinition)
    (d : PlannedDefinition) : Prop where
  writable : d.contextScope ∈ writableScopes sectionType
  unused : ∀ kv ∈ active, ¬ (kv.2.name = d.name ∧ kv.2.contextScope = d.contextScope)

/-- What the planner requires of a command. -/
structure StepOk (sectionType : SectionType) (s : PlanState) (command : CommandInput)
    (cfg : ConfigurationCommandDto) : Prop where
  refs : ∀ ref ∈ definitionRefs cfg, ∃ definition, RefOk sectionType
    (activeDefinitions s.definitions (readableScopes sectionType) command.commandOrder)
    cfg.commandCode ref definition
  form : validateFormBodyRefs (activeDefinitions s.definitions (readableScopes sectionType)
    command.commandOrder) cfg = .ok ()
  declarations : ∀ d ∈ plannedDeclarations cfg command.commandId command.commandOrder sectionType,
    Declarable sectionType (activeDefinitions s.definitions allScopes (command.commandOrder + 1)) d

/-- The state after some declarations. -/
def PlanState.declare (s : PlanState) (declarations : List PlannedDefinition) : PlanState where
  definitions := declarations.foldl (fun ds d => ds.set d.definitionId d) s.definitions
  planned := s.planned ++ declarations

/-- The state after a deletion. -/
def PlanState.delete (s : PlanState) (target : String) (order : ℤ) : PlanState :=
  { s with definitions :=
      match s.definitions.get? target with
      | none => s.definitions
      | some existing => s.definitions.set target { existing with deletedAtOrder := some order } }

/-- The constant that a command deletes, if it deletes one. -/
def deletedTarget? : ConfigurationCommandDto → Option String
  | .deleteVariable c => some c.targetRuntimeValueRef.definitionId.val
  | _ => none

/-- The state after a command that passes its checks. -/
def PlanState.step (s : PlanState) (sectionType : SectionType) (command : CommandInput)
    (cfg : ConfigurationCommandDto) : PlanState :=
  match deletedTarget? cfg with
  | some target => s.delete target command.commandOrder
  | none => s.declare
      (plannedDeclarations cfg command.commandId command.commandOrder sectionType)

theorem mem_of_get?_activeDefinitions {definitions : Dict String PlannedDefinition}
    {scopes : List ConstantContext} {order : ℤ} {id : String} {d : PlannedDefinition}
    (h : (activeDefinitions definitions scopes order).get? id = some d) :
    (id, d) ∈ definitions ∧ d.ActiveAt scopes order := by
  have hmem := Dict.mem_of_get? h
  simpa [activeDefinitions] using hmem

theorem checkRef_eq_ok {commandCode : String} {sectionType : SectionType}
    {active : Dict String PlannedDefinition} {ref : RefRole × String} :
    checkRef commandCode sectionType active ref = .ok ()
      ↔ ∃ definition, RefOk sectionType active commandCode ref definition := by
  unfold checkRef
  cases hget : active.get? ref.2 with
  | none =>
    simp only [reduceCtorEq, false_iff, not_exists]
    intro definition hok
    rw [hok.visible] at hget
    simp at hget
  | some definition =>
    simp only
    constructor
    · intro h
      split_ifs at h with hcompatible hwritable
      refine ⟨definition, hget, ?_, ?_⟩
      · intro types htypes
        rw [Option.mem_def.1 htypes] at hcompatible
        simpa using hcompatible
      · intro htarget
        by_contra hscope
        exact hwritable ⟨htarget, hscope⟩
    · rintro ⟨definition', hvisible, hcompatible, hwritable⟩
      rw [hget] at hvisible
      obtain rfl := Option.some.inj hvisible
      rw [if_neg, if_neg]
      · rintro ⟨htarget, hscope⟩
        exact hscope (hwritable htarget)
      · intro h
        obtain ⟨types, htypes, hfalse⟩ := Option.map_eq_some_iff.1 h
        have := hcompatible types htypes
        simp [this] at hfalse

theorem validateDuplicateName_eq_ok {active : Dict String PlannedDefinition} {name : String}
    {contextScope : ConstantContext} :
    validateDuplicateName active name contextScope = .ok ()
      ↔ ∀ kv ∈ active, ¬ (kv.2.name = name ∧ kv.2.contextScope = contextScope) := by
  unfold validateDuplicateName
  split_ifs with hany
  · simpa using hany
  · simpa using hany

theorem checkDeclaration_eq_ok {sectionType : SectionType}
    {active active' : Dict String PlannedDefinition} {d : PlannedDefinition} :
    checkDeclaration sectionType active d = .ok active'
      ↔ Declarable sectionType active d ∧ active' = active.set d.definitionId d := by
  unfold checkDeclaration
  constructor
  · intro h
    split_ifs at h with hwritable
    obtain ⟨⟨⟩, hunused, hret⟩ := bind_eq_ok.1 h
    exact ⟨⟨hwritable, validateDuplicateName_eq_ok.1 hunused⟩, (Except.ok.inj hret).symm⟩
  · rintro ⟨⟨hwritable, hunused⟩, rfl⟩
    rw [if_neg (not_not.2 hwritable), validateDuplicateName_eq_ok.2 hunused, ok_bind, pure_eq_ok]

/-- A command declares at most one constant. -/
theorem plannedDeclarations_length (cfg : ConfigurationCommandDto) (commandId : String)
    (commandOrder : ℤ) (sectionType : SectionType) :
    (plannedDeclarations cfg commandId commandOrder sectionType).length ≤ 1 := by
  have hresult (r : Option ResultConstantDto) : r.toList.length ≤ 1 := by cases r <;> simp
  cases cfg <;> simp [plannedDeclarations, resultConstant?, hresult]

theorem validateDeclarations_eq_ok {cfg : ConfigurationCommandDto} {sectionType : SectionType}
    {commandOrder : ℤ} {definitions : Dict String PlannedDefinition} {commandId : String}
    {declarations : List PlannedDefinition} :
    validateDeclarations cfg sectionType commandOrder definitions commandId = .ok declarations
      ↔ (∀ d ∈ plannedDeclarations cfg commandId commandOrder sectionType,
            Declarable sectionType (activeDefinitions definitions allScopes (commandOrder + 1)) d) ∧
          declarations = plannedDeclarations cfg commandId commandOrder sectionType := by
  have hlength := plannedDeclarations_length cfg commandId commandOrder sectionType
  unfold validateDeclarations
  rw [bind_eq_ok]
  match hds : plannedDeclarations cfg commandId commandOrder sectionType with
  | [] => simp [eq_comm]
  | [d] =>
    simp only [List.foldlM_cons, List.foldlM_nil, List.forall_mem_singleton, pure_eq_ok]
    constructor
    · rintro ⟨active', hcheck, hret⟩
      obtain ⟨_, hcheck, -⟩ := bind_eq_ok.1 hcheck
      exact ⟨(checkDeclaration_eq_ok.1 hcheck).1, (Except.ok.inj hret).symm⟩
    · rintro ⟨hd, rfl⟩
      have hcheck := checkDeclaration_eq_ok.2 ⟨hd, rfl⟩
      exact ⟨_, by rw [hcheck, ok_bind], rfl⟩
  | _ :: _ :: _ => simp [hds] at hlength

theorem validateRefVisibility_eq_ok {cfg : ConfigurationCommandDto} {sectionType : SectionType}
    {commandOrder : ℤ} {definitions : Dict String PlannedDefinition} :
    validateRefVisibility cfg sectionType commandOrder definitions = .ok ()
      ↔ (∀ ref ∈ definitionRefs cfg, ∃ definition, RefOk sectionType
            (activeDefinitions definitions (readableScopes sectionType) commandOrder)
            cfg.commandCode ref definition) ∧
          validateFormBodyRefs (activeDefinitions definitions (readableScopes sectionType)
            commandOrder) cfg = .ok () := by
  unfold validateRefVisibility
  rw [bind_eq_ok]
  constructor
  · rintro ⟨⟨⟩, hrefs, hform⟩
    exact ⟨fun ref href => checkRef_eq_ok.1 (forM_eq_ok.1 hrefs ref href), hform⟩
  · rintro ⟨hrefs, hform⟩
    exact ⟨⟨⟩, forM_eq_ok.2 fun ref href => checkRef_eq_ok.2 (hrefs ref href), hform⟩

/-- **One round of the planner: a command passes its checks, and then the state is that
after its declaration or its deletion.** -/
theorem planConfig_eq_ok {sectionType : SectionType} {s s' : PlanState} {command : CommandInput}
    {cfg : ConfigurationCommandDto} :
    planConfig sectionType s command cfg = .ok s'
      ↔ StepOk sectionType s command cfg ∧ s' = s.step sectionType command cfg := by
  unfold planConfig
  rw [bind_eq_ok]
  cases hcfg : deletedTarget? cfg with
  | some target =>
    obtain ⟨c, rfl⟩ : ∃ c, cfg = .deleteVariable c := by
      cases cfg <;> simp [deletedTarget?] at hcfg
      exact ⟨_, rfl⟩
    obtain rfl := Option.some.inj hcfg
    simp only [PlanState.step, hcfg, PlanState.delete]
    constructor
    · rintro ⟨⟨⟩, hrefs, hrest⟩
      obtain ⟨hrefs, hform⟩ := validateRefVisibility_eq_ok.1 hrefs
      refine ⟨⟨hrefs, hform, by simp [plannedDeclarations, resultConstant?]⟩, ?_⟩
      split at hrest
      · simp at hrest
      · exact (Except.ok.inj hrest).symm
    · rintro ⟨⟨hrefs, hform, -⟩, rfl⟩
      refine ⟨⟨⟩, validateRefVisibility_eq_ok.2 ⟨hrefs, hform⟩, ?_⟩
      obtain ⟨definition, hok⟩ := hrefs (.target, _) List.mem_cons_self
      have hmem := (mem_of_get?_activeDefinitions hok.visible).1
      cases hget : s.definitions.get? c.targetRuntimeValueRef.definitionId.val with
      | none =>
        have hkey : c.targetRuntimeValueRef.definitionId.val ∈ s.definitions.keys :=
          List.mem_map_of_mem hmem
        rw [Dict.mem_keys_iff, hget] at hkey
        simp at hkey
      | some existing => rfl
  | none =>
    have hdeclare : (∃ _ : PUnit, validateRefVisibility cfg sectionType command.commandOrder
          s.definitions = .ok ⟨⟩ ∧ (do
            let declarations ← validateDeclarations cfg sectionType command.commandOrder
              s.definitions command.commandId
            return s.declare declarations) = .ok s')
        ↔ StepOk sectionType s command cfg ∧ s' = s.step sectionType command cfg := by
      simp only [PlanState.step, hcfg]
      constructor
      · rintro ⟨⟨⟩, hrefs, hrest⟩
        obtain ⟨hrefs, hform⟩ := validateRefVisibility_eq_ok.1 hrefs
        obtain ⟨declarations, hdeclarations, hret⟩ := bind_eq_ok.1 hrest
        obtain ⟨hall, rfl⟩ := validateDeclarations_eq_ok.1 hdeclarations
        exact ⟨⟨hrefs, hform, hall⟩, (Except.ok.inj hret).symm⟩
      · rintro ⟨⟨hrefs, hform, hall⟩, rfl⟩
        refine ⟨⟨⟩, validateRefVisibility_eq_ok.2 ⟨hrefs, hform⟩, ?_⟩
        rw [validateDeclarations_eq_ok.2 ⟨hall, rfl⟩, ok_bind, pure_eq_ok]
    rw [← hdeclare]
    cases cfg <;> first | rfl | simp [deletedTarget?] at hcfg

theorem planCommand_eq_ok {sectionType : SectionType} {s s' : PlanState} {command : CommandInput} :
    planCommand sectionType s command = .ok s'
      ↔ ∃ cfg, convertToConfigCommandType command.cfg = .ok cfg ∧
          StepOk sectionType s command cfg ∧ s' = s.step sectionType command cfg := by
  unfold planCommand
  rw [bind_eq_ok]
  simp only [planConfig_eq_ok]

end Constants
end QualityFlow
