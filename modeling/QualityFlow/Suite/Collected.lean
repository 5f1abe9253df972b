/-
# Whether the constants that a command reads are checked

`_definition_refs` of `app/elaborations/services/constants/command_constant_definition_registry.py`,
against what `app/elaborations/services/operations` reads.

The collector goes through a configuration in its own way, and what it misses are the
constants bound to the parameters of a dataset.  Of several hooks of a phase, only the
last is planned at all.
-/

import QualityFlow.Constants.Live
import QualityFlow.Suite.Visible

namespace QualityFlow
namespace Suite

open Py Command Constants
open Asks (mayAsk_bind mayAsk_ask mayReturn_bind mayReturn_ask)

/-! ### References, as they are collected and as they are read -/

mutual

theorem treeRefs_eq : ∀ tree : HttpInputTree, treeRefs tree = (treeNodes tree).flatMap nodeRefs
  | .null => rfl
  | .node _ => (List.append_nil _).symm
  | .arr items => treeListRefs_eq items
  | .obj items => treeItemsRefs_eq items

theorem treeListRefs_eq : ∀ items : List HttpInputTree,
    treeListRefs items = (treeNodes.listNodes items).flatMap nodeRefs
  | [] => rfl
  | item :: items => by
    rw [treeListRefs, treeNodes.listNodes, List.flatMap_append, treeRefs_eq item,
      treeListRefs_eq items]

theorem treeItemsRefs_eq : ∀ items : List (String × HttpInputTree),
    treeItemsRefs items = (treeNodes.itemsNodes items).flatMap nodeRefs
  | [] => rfl
  | (_, item) :: items => by
    rw [treeItemsRefs, treeNodes.itemsNodes, List.flatMap_append, treeRefs_eq item,
      treeItemsRefs_eq items]

end

theorem kvRefs_eq (params : Option HttpKvParams) :
    kvRefs params = (kvNodes params).flatMap nodeRefs := by
  cases params with
  | none => rfl
  | some params => rw [kvRefs, kvNodes, Option.map_some, Option.getD_some, List.flatMap_map]

theorem authRefs_eq (authorization : Option HttpAuthorization) :
    (authorization.map authRefs).getD [] = (authNodes authorization).flatMap nodeRefs := by
  rcases authorization with _ | _ | _ | _ | _ | _ <;> simp [authRefs, authNodes]

theorem bodyRefs_eq (body : HttpBody) : bodyRefs body = (bodyNodes body).flatMap nodeRefs := by
  cases body with
  | json tree => exact treeRefs_eq tree
  | text tree => exact treeRefs_eq tree
  | formUrlEncoded form =>
    cases form with
    | none => rfl
    | some form => rw [bodyRefs, bodyNodes, List.flatMap_map]

/-- The references of a request are collected in another order than they are read in. -/
theorem mem_requestRefs {fields : HttpRequestFields} {body : Option HttpBody}
    {ref : RefRole × String} : ref ∈ requestRefs fields ++ (body.map bodyRefs).getD []
      ↔ ∃ node ∈ requestNodes fields body, ref ∈ nodeRefs node := by
  have hbody : (body.map bodyRefs).getD [] = ((body.map bodyNodes).getD []).flatMap nodeRefs := by
    cases body with
    | none => rfl
    | some body => exact bodyRefs_eq body
  rw [requestRefs, hbody, authRefs_eq, kvRefs_eq, kvRefs_eq, kvRefs_eq, ← List.flatMap_append,
    ← List.flatMap_append, ← List.flatMap_append, ← List.flatMap_append, List.mem_flatMap]
  simp only [requestNodes, List.mem_append]
  constructor
  · rintro ⟨node, ((((h | h) | h) | h) | h), href⟩ <;> exact ⟨node, by simp [h], href⟩
  · rintro ⟨node, ((((h | h) | h) | h) | h), href⟩ <;> exact ⟨node, by simp [h], href⟩

/-- The constants that are collected of a command. -/
def collectedIds (cfg : ConfigurationCommandDto) : List String := (definitionRefs cfg).map Prod.snd

theorem mem_collectedIds_of_node {cfg : ConfigurationCommandDto} {node : HttpInputNode}
    {definitionId : String} (hnode : node ∈ commandNodes cfg)
    (hid : node.definitionId? = some definitionId) : definitionId ∈ collectedIds cfg := by
  have href : (RefRole.source, definitionId) ∈ nodeRefs node := by
    rw [nodeRefs, hid]
    exact List.mem_singleton_self _
  refine List.mem_map.2 ⟨(.source, definitionId), ?_, rfl⟩
  cases cfg with
  | readApi c =>
    have hmem := mem_requestRefs.2 ⟨node, hnode, href⟩
    rw [Option.map_none, Option.getD_none, List.append_nil] at hmem
    exact List.mem_append_right _ hmem
  | writeApi c => exact List.mem_append_right _ (mem_requestRefs.2 ⟨node, hnode, href⟩)
  | _ => simp [commandNodes] at hnode

theorem mem_collectedIds_of_ref {cfg : ConfigurationCommandDto} {ref : InputRefDto}
    {definitionId : String} (href : ref ∈ commandRefs cfg)
    (hid : ref.definitionId? = some definitionId) : definitionId ∈ collectedIds cfg := by
  simp only [commandRefs, List.mem_append, Option.mem_toList] at href
  cases cfg with
  | deleteVariable c =>
    simp [ConfigurationCommandDto.inputRef?, ConfigurationCommandDto.actualRef?,
      ConfigurationCommandDto.expectedRef?] at href
  | _ =>
    simp only [collectedIds, definitionRefs, inputRefs, List.map_append, List.map_map,
      List.mem_append, List.mem_map, Option.mem_toList, Option.bind_eq_some_iff]
    rcases href with (href | href) | href
    · exact .inl (.inl (.inl ⟨definitionId, ⟨ref, href, hid⟩, rfl⟩))
    · exact .inl (.inl (.inr ⟨definitionId, ⟨ref, href, hid⟩, rfl⟩))
    · exact .inl (.inr ⟨definitionId, ⟨ref, href, hid⟩, rfl⟩)

/-- **Every constant that a command names is collected.** -/
theorem mem_collectedIds_of_direct {cfg : ConfigurationCommandDto} {definitionId : String}
    (h : definitionId ∈ directIds cfg) : definitionId ∈ collectedIds cfg := by
  simp only [directIds, List.mem_append, List.mem_filterMap] at h
  rcases h with (⟨node, hnode, hid⟩ | ⟨ref, href, hid⟩) | hhanded
  · exact mem_collectedIds_of_node hnode hid
  · exact mem_collectedIds_of_ref href hid
  · cases cfg with
    | runSuite c =>
      obtain ⟨ref, href, rfl⟩ := List.mem_map.1 hhanded
      have hmem : (RefRole.constant, ref.definitionId.val)
          ∈ c.runtimeValueRefs.map fun r => (RefRole.constant, r.definitionId.val) :=
        List.mem_map_of_mem href
      exact List.mem_map.2 ⟨_, List.mem_append_right _ hmem, rfl⟩
    | _ => simp [handedOn] at hhanded

/-! ### The constants that a dataset is bound to -/

/-- The constant that a parameter is bound to. -/
def boundId? : Json → Option String
  | .obj binding =>
    if lower (Json.field binding "kind").token = "constant_ref" then
      some (Json.field binding "definitionId").token
    else none
  | _ => none

/-- Whether a parameter can be resolved: its constant has an id, and its built-in resolver is
one that there is. -/
def canBind : Json → Bool
  | .obj binding =>
    let bindingKind := lower (Json.field binding "kind").token
    let resolver := strip (Json.field binding "resolver").token
    if bindingKind = "constant_ref" then (Json.field binding "definitionId").token ≠ ""
    else if bindingKind = "built_in" then resolver = "$now" ∨ resolver = "$today"
    else true
  | _ => true

/-- The constants that some parameters are bound to, up to the first parameter that cannot be
resolved. -/
def boundIds : List (String × Json) → List String
  | [] => []
  | (_, binding) :: bindings =>
    if canBind binding then (boundId? binding).toList ++ boundIds bindings else []

section

variable {visible : String → Option (List (String × Json))} {definitionId : String}

/-- A definition of an id. -/
def definitionOf (definitionId : String) : CommandConstantDefinitionEntity where
  id := definitionId
  ownerType := .suite
  suiteId := none
  suiteItemId := none
  mockServerApiId := none
  mockServerQueueId := none
  commandId := ""
  commandOrder := 0
  sectionType := .test
  name := ""
  contextScope := .localScope
  valueType := .value
  declaredAtOrder := 0
  deletedAtOrder := none

theorem mayReturn_resolveDefinitionPath {id : String} (hne : id ≠ "") :
    ∃ found, (resolveDefinitionPath id).MayReturn (Possible visible) found := by
  have hpossible : Possible visible (.definition id) (some (definitionOf id)) := by
    intro d hd
    obtain rfl := Option.mem_some.1 hd
    exact ⟨rfl, hne⟩
  exact ⟨_, .ask hpossible .done⟩

theorem mayReturn_readConstant {id : String} (hne : id ≠ "") (value : Json) :
    ∃ definition path, (readConstant id).MayReturn (Possible visible) (definition, path, value) := by
  obtain ⟨⟨definition, path⟩, hfound⟩ : ∃ found, (resolveDefinitionPath id).MayReturn
    (Possible visible) found := mayReturn_resolveDefinitionPath hne
  refine ⟨definition, path, mayReturn_bind.2 ⟨_, hfound, mayReturn_bind.2 ⟨value, ?_, .done⟩⟩⟩
  have hpossible : Possible visible (.constant id path) (.ok value) := trivial
  exact .ask hpossible .done

theorem ne_of_mayReturn_resolveDefinitionPath {id : String}
    {found : CommandConstantDefinitionEntity × String}
    (h : (resolveDefinitionPath id).MayReturn (Possible visible) found) : id ≠ "" := by
  obtain ⟨answer, hpossible, hreturn⟩ := mayReturn_ask.1 h
  cases answer with
  | none => simp at hreturn
  | some definition => exact (hpossible definition rfl).2

/-- A constant is read by its own id, which is not blank. -/
theorem readConstant_reads {id : String} :
    (∃ path, (readConstant id).MayAsk (Possible visible) (.constant definitionId path))
      ↔ definitionId = id ∧ id ≠ "" := by
  constructor
  · rintro ⟨path, h⟩
    rcases mayAsk_bind.1 h with hpath | ⟨found, hfound, hrest⟩
    · cases mayAsk_resolveDefinitionPath hpath
    refine ⟨?_, ne_of_mayReturn_resolveDefinitionPath hfound⟩
    rcases mayAsk_readConstant h with hq | ⟨path, hq⟩
    · cases hq
    · exact (Question.constant.inj hq).1
  · rintro ⟨rfl, hne⟩
    obtain ⟨found, hfound⟩ : ∃ found, (resolveDefinitionPath definitionId).MayReturn
      (Possible visible) found := mayReturn_resolveDefinitionPath hne
    exact ⟨found.2, mayAsk_bind.2 (.inr ⟨found, hfound, mayAsk_bind.2 (.inl (.here _))⟩)⟩

theorem resolveBinding_returns {parameterName : String} {binding : Json} :
    (∃ value, (resolveBinding parameterName binding).MayReturn (Possible visible) value)
      ↔ canBind binding := by
  cases binding with
  | obj binding =>
    simp only [resolveBinding, canBind]
    split_ifs with hconstant hbuiltIn
    · rw [decide_eq_true_eq]
      constructor
      · rintro ⟨value, h⟩
        obtain ⟨found, hfound, -⟩ := mayReturn_bind.1 h
        obtain ⟨found, hfound, -⟩ := mayReturn_bind.1 hfound
        exact ne_of_mayReturn_resolveDefinitionPath hfound
      · intro hne
        obtain ⟨definition, path, hread⟩ := mayReturn_readConstant hne .null
        refine ⟨.null, mayReturn_bind.2 ⟨_, hread, ?_⟩⟩
        simp
    · unfold resolveBuiltin
      simp only
      split_ifs with hresolver
      · simp only [hresolver, decide_true, iff_true]
        have hpossible : Possible visible (.clock (strip (Json.field binding "resolver").token)) .null :=
          trivial
        exact ⟨.null, .ask hpossible .done⟩
      · simp [hresolver]
    · simp
  | _ => simp [resolveBinding, canBind]

theorem resolveBinding_reads {parameterName : String} {binding : Json} :
    (∃ path, (resolveBinding parameterName binding).MayAsk (Possible visible)
        (.constant definitionId path)) ↔ canBind binding ∧ boundId? binding = some definitionId := by
  cases binding with
  | obj binding =>
    simp only [resolveBinding, canBind, boundId?]
    split_ifs with hconstant hbuiltIn
    · have hread := @readConstant_reads visible definitionId (Json.field binding "definitionId").token
      rw [decide_eq_true_eq, Option.some_inj, and_comm, @eq_comm _ _ definitionId, ← hread]
      refine exists_congr fun path => ?_
      rw [mayAsk_bind]
      refine or_iff_left ?_
      rintro ⟨⟨definition, path, resolved⟩, -, hrest⟩
      simp only at hrest
      split_ifs at hrest <;> simp at hrest
    · simp only [and_false, iff_false, not_exists]
      intro path h
      unfold resolveBuiltin at h
      simp only at h
      split_ifs at h
      · rcases mayAsk_ask.1 h with hq | ⟨answer, -, hask⟩
        · cases hq
        · simp at hask
      · simp at h
    · simp
  | _ => simp [resolveBinding, boundId?]

/-- **The parameters of a dataset read the constants that they are bound to.** -/
theorem resolveDatasetParameterBindings_reads {bindings : List (String × Json)} :
    (∃ path, (resolveDatasetParameterBindings bindings).MayAsk (Possible visible)
      (.constant definitionId path)) ↔ definitionId ∈ boundIds bindings := by
  induction bindings with
  | nil => simp [resolveDatasetParameterBindings, boundIds]
  | cons kv bindings ih =>
    obtain ⟨parameterName, binding⟩ := kv
    have hcons : (∃ path, (resolveDatasetParameterBindings ((parameterName, binding) :: bindings)).MayAsk
        (Possible visible) (.constant definitionId path)) ↔
        (∃ path, (resolveBinding parameterName binding).MayAsk (Possible visible)
          (.constant definitionId path)) ∨
        (∃ value, (resolveBinding parameterName binding).MayReturn (Possible visible) value) ∧
        ∃ path, (resolveDatasetParameterBindings bindings).MayAsk (Possible visible)
          (.constant definitionId path) := by
      simp only [resolveDatasetParameterBindings, mayAsk_bind, Asks.pure_eq_done, Asks.mayAsk_done,
        and_false, exists_false, or_false, exists_or]
      refine or_congr_right ?_
      constructor
      · rintro ⟨path, value, hvalue, hrest⟩
        exact ⟨⟨value, hvalue⟩, path, hrest⟩
      · rintro ⟨⟨value, hvalue⟩, path, hrest⟩
        exact ⟨path, value, hvalue, hrest⟩
    rw [hcons, resolveBinding_reads, resolveBinding_returns, ih, boundIds]
    split_ifs with hbind
    · simp [hbind]
    · simp [hbind]

/-- The constants that a source reads once it has been found. -/
def sourceIds (source : List (String × Json)) : List String :=
  if (Json.field source "sourceType").token = "dataset" then boundIds (parameterBindings source)
  else []

theorem resolveFoundSource_reads {source : List (String × Json)} :
    (∃ path, (resolveFoundSource source).MayAsk (Possible visible) (.constant definitionId path))
      ↔ definitionId ∈ sourceIds source := by
  unfold sourceIds
  constructor
  · rintro ⟨path, h⟩
    obtain ⟨hdataset, hbindings⟩ := mayAsk_resolveFoundSource (by trivial) h
    rw [if_pos hdataset]
    exact resolveDatasetParameterBindings_reads.1 ⟨path, hbindings⟩
  · intro h
    split_ifs at h with hdataset
    · obtain ⟨path, hbindings⟩ := resolveDatasetParameterBindings_reads.2 h
      have hpossible : Possible visible (.dataset (Json.field source "datasetId").token) (.ok ()) :=
        trivial
      refine ⟨path, ?_⟩
      simp only [resolveFoundSource, hdataset]
      exact .later hpossible (mayAsk_bind.2 (.inr ⟨(), .done, mayAsk_bind.2 (.inl hbindings)⟩))
    · simp at h

end

/-! ### The constants that a command reads -/

section

variable {visible : String → Option (List (String × Json))} {scope : ExecutionScope}
  {cfg : ConfigurationCommandDto} {definitionId : String}

/-- A command that can look up a source can read the constants of the source. -/
theorem canRead_of_canLookUp {sourceCode : String} {source : List (String × Json)}
    (hlookup : CanLookUp visible scope cfg sourceCode) (hsource : visible sourceCode = some source)
    (hid : definitionId ∈ sourceIds source) : CanRead visible scope cfg definitionId := by
  obtain ⟨hpolicy, data, hask⟩ := hlookup
  rcases (looksUp_command cfg data).mayAsk hask with hq | ⟨token, -, hcall, hreach⟩
  · exact hq.elim
  · obtain rfl := eq_of_mayAsk_source hcall
    obtain ⟨path, hfound⟩ := resolveFoundSource_reads.2 hid
    refine ⟨path, hpolicy, data, hreach _ ?_⟩
    rw [resolveSourcePayload, token.strip_val]
    have hpossible : Possible visible (.source token.val) (some source) := hsource.symm
    exact .later hpossible hfound

/-- **A command reads the constants that it names, and those of the datasets that it can look
up.** -/
theorem direct_or_bound_of_canRead (h : CanRead visible scope cfg definitionId) :
    definitionId ∈ directIds cfg ∨ ∃ sourceCode source, CanLookUp visible scope cfg sourceCode ∧
      visible sourceCode = some source ∧ definitionId ∈ sourceIds source := by
  obtain ⟨path, hpolicy, data, hask⟩ := h
  rcases (looksUp_command cfg data).mayAsk hask with hq | ⟨token, -, hcall, hreach⟩
  · exact .inl hq
  · rcases mayAsk_resolveSourcePayload hcall with hq | ⟨source, hpossible, hfound⟩
    · cases hq
    have hlookup : (resolveSourcePayload token.val).MayAsk (Possible visible)
        (.source token.val) := by
      rw [resolveSourcePayload, token.strip_val]
      exact .here _
    have hsource : some source = visible token.val := hpossible
    exact .inr ⟨token.val, source, ⟨hpolicy, data, hreach _ hlookup⟩, hsource.symm,
      resolveFoundSource_reads.1 ⟨path, hfound⟩⟩

end

/-! ### What the planner checks -/

/-- A command of an item as the planner gets it. -/
def plannedCommand (newId : ℕ → String) (item : CreateSuiteItemDto) (i : ℕ) : Option CommandInput :=
  (suiteItemCommands newId item)[i]?.map (commandInput (i + 1))

/-- The planner collects a constant at a command of an item, and finds it visible there: the
constant is among the definitions that are active after the commands before it. -/
def CheckedAt (newId : ℕ → String) (dto : CreateTestSuiteDto) (item : CreateSuiteItemDto) (i : ℕ)
    (cfg : ConfigurationCommandDto) (definitionId : String) : Prop :=
  ∃ plan, planRequest newId dto = .ok plan ∧ ∃ s ∈ plan, s.item = item ∧
    ∃ initialVisible, planDefinitionsForCommands (suiteItemCommands newId item) s.sectionType
        initialVisible = .ok s.state ∧
      ∃ before command after,
        planSteps (suiteItemCommands newId item) = before ++ ⟨command, cfg⟩ :: after ∧
          plannedCommand newId item i = some command ∧
          ∃ ref ∈ definitionRefs cfg, ref.2 = definitionId ∧
            ∃ definition, RefOk s.sectionType (activeDefinitions
              ((planStart initialVisible).after s.sectionType before).definitions
              (readableScopes s.sectionType) command.commandOrder) cfg.commandCode ref definition

namespace CreateTestSuiteDto

variable (dto : CreateTestSuiteDto)

/-- A constant that a command of an item can read, where the sources are those that a run of
the stored suite makes visible to the item. -/
def Reads (item : CreateSuiteItemDto) (cfg : ConfigurationCommandDto) (definitionId : String) :
    Prop :=
  CanRead (sourceIn (dto.runSources item)) item.executionScope cfg definitionId

/-- Every constant that a command of a suite can read is checked at the command. -/
def ReadsChecked (newId : ℕ → String) : Prop :=
  ∀ item ∈ dto.hooks ++ dto.tests, ∀ (i : ℕ) command, item.commands[i]? = some command →
    ∀ cfg, command.Reads cfg → ∀ definitionId, dto.Reads item cfg definitionId →
      CheckedAt newId dto item i cfg definitionId

/-- What the validation of the constants leaves open: that a hook which is not the last of its
phase reads nothing, and that the constants which the parameters of a dataset are bound to are
named by the command as well. -/
structure ReadsCollected : Prop where
  planned : ∀ item ∈ dto.hooks, item ∉ plannedItems dto.hookByPhase dto.tests →
    ∀ command ∈ item.commands, ∀ cfg, command.Reads cfg → ∀ definitionId,
      ¬ dto.Reads item cfg definitionId
  bound : ∀ item ∈ dto.hooks ++ dto.tests, ∀ command ∈ item.commands, ∀ cfg, command.Reads cfg →
    ∀ sourceCode, CanLookUp (sourceIn (dto.runSources item)) item.executionScope cfg sourceCode →
      ∀ source, sourceIn (dto.runSources item) sourceCode = some source →
        ∀ definitionId ∈ sourceIds source, definitionId ∈ collectedIds cfg

end CreateTestSuiteDto

section

variable {newId : ℕ → String} {dto : CreateTestSuiteDto} {item : CreateSuiteItemDto} {i : ℕ}
  {command : CreateSuiteItemCommandDto} {cfg : ConfigurationCommandDto} {definitionId : String}

theorem mem_planSteps (hcommand : item.commands[i]? = some command) (hread : command.Reads cfg) :
    ∃ input, plannedCommand newId item i = some input ∧
      ⟨input, cfg⟩ ∈ planSteps (suiteItemCommands newId item) := by
  obtain ⟨raw, hraw, hcfg⟩ : ∃ raw, (suiteItemCommands newId item)[i]? = some raw ∧
      raw.cfg = command.rawCfg := by
    rw [suiteItemCommands, List.getElem?_mapIdx, hcommand, Option.map_some]
    exact ⟨_, rfl, rfl⟩
  have hsorted : commandInput (i + 1) raw ∈ sortedCommands (suiteItemCommands newId item) := by
    refine (List.mem_insertionSort _).2 (List.mem_iff_getElem?.2 ⟨i, ?_⟩)
    rw [List.getElem?_mapIdx, hraw, Option.map_some]
  refine ⟨commandInput (i + 1) raw, by rw [plannedCommand, hraw, Option.map_some], ?_⟩
  refine List.mem_filterMap.2 ⟨_, hsorted, ?_⟩
  have hconvert : convertToConfigCommandType raw.cfg = .ok cfg := by
    rw [hcfg]
    exact hread
  rw [Constants.readCommand, commandInput, hconvert]
  rfl

/-- What is collected of a command of a planned item has been checked. -/
theorem checkedAt_of_collected (h : validateSuiteConstantGraph newId dto = .ok ())
    (hitem : item ∈ plannedItems dto.hookByPhase dto.tests)
    (hcommand : item.commands[i]? = some command) (hread : command.Reads cfg)
    (hid : definitionId ∈ collectedIds cfg) : CheckedAt newId dto item i cfg definitionId := by
  obtain ⟨⟨⟩, -, h⟩ := bind_eq_ok.1 h
  obtain ⟨plan, hplan, -⟩ := bind_eq_ok.1 h
  obtain ⟨hitems, hsections⟩ := planSuite_sections hplan
  rw [← hitems] at hitem
  obtain ⟨s, hs, rfl⟩ := List.mem_map.1 hitem
  obtain ⟨initialVisible, hstate⟩ := hsections s hs
  obtain ⟨input, hinput, hstep⟩ : ∃ input, plannedCommand newId s.item i = some input ∧
      ⟨input, cfg⟩ ∈ planSteps (suiteItemCommands newId s.item) := mem_planSteps hcommand hread
  obtain ⟨before, after, hsteps⟩ := List.append_of_mem hstep
  have hok := (plan_ok hstate).1
  rw [hsteps] at hok
  obtain ⟨ref, href, rfl⟩ := List.mem_map.1 hid
  obtain ⟨definition, hdefinition⟩ := hok.stepOk.refs ref href
  exact ⟨plan, hplan, s, hs, rfl, initialVisible, hstate, before, input, after, hsteps, hinput,
    ref, href, rfl, definition, hdefinition⟩

theorem CheckedAt.planned (h : CheckedAt newId dto item i cfg definitionId) :
    item ∈ plannedItems dto.hookByPhase dto.tests ∧ definitionId ∈ collectedIds cfg := by
  obtain ⟨plan, hplan, s, hs, rfl, _, _, _, _, _, _, _, ref, href, rfl, _⟩ := h
  refine ⟨?_, List.mem_map_of_mem href⟩
  rw [← (planSuite_sections hplan).1]
  exact List.mem_map_of_mem hs

end

/-- **All that the commands of an accepted suite read has been checked just where the hooks
that are not planned read nothing and the constants of datasets are named as well.** -/
theorem readsChecked_iff {newId : ℕ → String} {dto : CreateTestSuiteDto}
    (h : validateSuiteConstantGraph newId dto = .ok ()) :
    dto.ReadsChecked newId ↔ dto.ReadsCollected := by
  constructor
  · intro hchecked
    constructor
    · intro item hitem hplanned command hcommand cfg hread definitionId hreads
      obtain ⟨i, hi⟩ := List.mem_iff_getElem?.1 hcommand
      have hat := hchecked item (List.mem_append_left _ hitem) i command hi cfg hread _ hreads
      exact hplanned hat.planned.1
    · intro item hitem command hcommand cfg hread sourceCode hlookup source hsource id hid
      obtain ⟨i, hi⟩ := List.mem_iff_getElem?.1 hcommand
      have hreads : dto.Reads item cfg id := canRead_of_canLookUp hlookup hsource hid
      exact (hchecked item hitem i command hi cfg hread id hreads).planned.2
  · rintro ⟨hplanned, hbound⟩ item hitem i command hi cfg hread definitionId hreads
    have hcommand : command ∈ item.commands := List.mem_iff_getElem?.2 ⟨i, hi⟩
    have hmem : item ∈ plannedItems dto.hookByPhase dto.tests := by
      by_contra hnot
      rcases List.mem_append.1 hitem with hhook | htest
      · exact hplanned item hhook hnot command hcommand cfg hread definitionId hreads
      · exact hnot (by simp [plannedItems, htest])
    refine checkedAt_of_collected h hmem hi hread ?_
    rcases direct_or_bound_of_canRead hreads with hdirect | ⟨code, source, hlookup, hsource, hid⟩
    · exact mem_collectedIds_of_direct hdirect
    · exact hbound item hitem command hcommand cfg hread code hlookup source hsource _ hid

/-! ### A constant that is read -/

theorem setVariable_normal : normalizeCommandCode (.str "setVariable") = "setVariable" := by decide

theorem setVariable_ne : "setVariable" ≠ "" := by decide

/-- The command that declares a constant. -/
def ordersVariable : SetVariableConfigurationCommandDto where
  keys := ⟨"setVariable", .context, setVariable_normal, setVariable_ne⟩
  definitionId := orders
  name := orders
  context := .localScope
  value := .value (.str "orders")
  sourceType := none
  data := .null
  resolver := none
  function := none
  datasetId := none
  jsonArrayId := none
  parameters := none
  target := none
  key := none
  scope := none

/-- The fields of a request whose path takes the constant. -/
def constantRequest : ReadApiConfigurationCommandDto :=
  { ordersRequest with pathParams := some ⟨[("orders", .runtimeValue orders none)], by simp⟩ }

/-- A test that declares a constant and then makes a request with it. -/
def constantTest : CreateSuiteItemDto :=
  { requestTest [] List.nodup_nil with
    commands :=
      [{ order := 1, description := "orders", cfg := some (.setVariable ordersVariable) },
       { order := 2, description := "orders", cfg := some (.readApi constantRequest) }] }

/-- The request reads the constant, and the constant has been checked there. -/
theorem readsChecked_constantTest :
    validateSuiteConstantGraph toString (oneTest constantTest) = .ok () ∧
      (oneTest constantTest).Reads constantTest (.readApi constantRequest) "orders" ∧
      (oneTest constantTest).ReadsChecked toString := by
  have hvalid : validateSuiteConstantGraph toString (oneTest constantTest) = .ok () := by
    decide +kernel
  refine ⟨hvalid, ?_, (readsChecked_iff hvalid).2 ⟨fun item hitem => absurd hitem List.not_mem_nil, ?_⟩⟩
  · obtain ⟨path, hread⟩ : ∃ path, (readConstant orders.val).MayAsk
        (Possible (sourceIn ((oneTest constantTest).runSources constantTest)))
        (.constant "orders" path) := readConstant_reads.2 ⟨rfl, orders.ne_empty⟩
    refine ⟨path, ⟨_, rfl⟩, .null, ?_⟩
    have hparams : (resolvePathParamsAndUrl constantRequest.url.val constantRequest.pathParams).MayAsk
        (Possible (sourceIn ((oneTest constantTest).runSources constantTest)))
        (.constant "orders" path) := by
      refine mayAsk_bind.2 (.inl ?_)
      rw [List.mapM_cons]
      exact mayAsk_bind.2 (.inl (mayAsk_bind.2 (.inl (mayAsk_bind.2 (.inl hread)))))
    exact mayAsk_bind.2 (.inl (mayAsk_bind.2 (.inl hparams)))
  · intro item hitem command hcommand cfg hread sourceCode hlookup
    obtain rfl : item = constantTest := List.mem_singleton.1 hitem
    obtain ⟨-, data, hask⟩ := hlookup
    have hread : convertToConfigCommandType command.rawCfg = .ok cfg := hread
    rcases List.mem_cons.1 hcommand with rfl | hcommand
    · obtain rfl := Except.ok.inj ((convert_setVariable ordersVariable rfl).symm.trans hread)
      rcases source_of_mayAsk hask with ⟨token, hnode, -⟩ | ⟨token, href, -⟩
      · cases hnode
      · cases href
    · obtain rfl := List.mem_singleton.1 hcommand
      obtain rfl := Except.ok.inj ((convert_readApi constantRequest rfl).symm.trans hread)
      rcases source_of_mayAsk hask with ⟨token, hnode, -⟩ | ⟨token, href, -⟩
      · simp [commandNodes, requestNodes, kvNodes, constantRequest, ordersRequest, authNodes] at hnode
      · cases href

/-- A dataset whose parameter is bound to a constant. -/
def boundDataset : SuiteSource :=
  .dataset orders orders []
    (some [("day", .obj [("kind", .str "constant_ref"), ("definitionId", .str "day")])]) none

/-- The command that saves the rows of the dataset. -/
def saveOrders : SaveTableConfigurationCommandDto where
  keys := ⟨"saveTable", .action, by decide, by decide⟩
  inputRef := .source orders
  sourceConstantRef := none
  tableName := "orders"
  resultConstant := none

/-- A test that saves the rows of the dataset. -/
def boundTest : CreateSuiteItemDto := plainItem none [boundDataset] (by simp) (.saveTable saveOrders)

/-- **A constant that is read is not always checked**: a dataset reads one that no command
declares. -/
theorem day_not_checked : ¬ ∀ (newId : ℕ → String) (dto : CreateTestSuiteDto),
    validateSuiteConstantGraph newId dto = .ok () → dto.ReadsChecked newId := by
  intro hchecked
  have hvalid : validateSuiteConstantGraph toString (oneTest boundTest) = .ok () := by
    decide +kernel
  have hread : convertToConfigCommandType saveOrders.modelDump = .ok (.saveTable saveOrders) := by
    rw [convert_saveTable saveOrders rfl, if_neg (by decide)]
    rfl
  have hsource : sourceIn ((oneTest boundTest).runSources boundTest) "orders"
      = some boundDataset.modelDump := rfl
  have hlookup : CanLookUp (sourceIn ((oneTest boundTest).runSources boundTest)) .test
      (.saveTable saveOrders) "orders" := by
    refine ⟨⟨_, rfl⟩, .null, mayAsk_bind.2 (.inl ?_)⟩
    have hcall : (resolveSourcePayload orders.val).MayAsk
        (Possible (sourceIn ((oneTest boundTest).runSources boundTest))) (.source "orders") := by
      rw [resolveSourcePayload, orders.strip_val]
      exact .here _
    exact hcall
  have hids : "day" ∈ sourceIds boundDataset.modelDump := by
    decide +kernel
  have hreads : (oneTest boundTest).Reads boundTest (.saveTable saveOrders) "day" :=
    canRead_of_canLookUp hlookup hsource hids
  have hat := hchecked toString (oneTest boundTest) hvalid boundTest (List.mem_singleton_self _) 0 _
    rfl (.saveTable saveOrders) hread "day" hreads
  have hcollected : "day" ∈ collectedIds (.saveTable saveOrders) := hat.planned.2
  have hnone : collectedIds (.saveTable saveOrders) = [] := rfl
  rw [hnone] at hcollected
  cases hcollected

end Suite
end QualityFlow
