/-
# The policy a command runs under

`app/elaborations/services/operations/command_contract_registry.py`,
`command_scope.py`, `command_policy_validator.py`, and the scope that
`_resolve_suite_item_scope` of
`app/elaborations/services/test_suites/suite_item_executor.py` gives an item.

A command is checked against its contract just before it runs: the contract lists
the scopes it may run in, and the paths it writes to have to start in a scope that
may be written.  Saving a suite plans its constants and never looks at the contracts.
Of a contract only the fields that a service reads are kept.
-/

import QualityFlow.Command.RoundTrip
import QualityFlow.Context.Path
import QualityFlow.Suite.Store

namespace QualityFlow
namespace Suite

open Py Command Context Constants

/-! ### Contracts -/

/-- The scopes a command is executed in. -/
inductive ExecutionScope where
  | test
  | hook (phase : HookPhase)
  | mockPreResponse
  | mockPostResponse
deriving DecidableEq

def ExecutionScope.value : ExecutionScope → String
  | .test => "test"
  | .hook .beforeAll => "hook.beforeAll"
  | .hook .beforeEach => "hook.beforeEach"
  | .hook .afterEach => "hook.afterEach"
  | .hook .afterAll => "hook.afterAll"
  | .mockPreResponse => "mock.preResponse"
  | .mockPostResponse => "mock.postResponse"

/-- `OperationContract`. -/
structure OperationContract where
  family : CommandType
  name : String
  supportedScopes : List ExecutionScope
  sideEffects : Bool
  asyncAllowed : Bool

/-- `_HOOK_SCOPES`. -/
def hookScopes : List ExecutionScope :=
  [.hook .beforeAll, .hook .beforeEach, .hook .afterEach, .hook .afterAll]

/-- The contract of a command that changes a constant, or waits. -/
def quietContract (family : CommandType) (code : CommandCode) (others : List ExecutionScope) :
    OperationContract where
  family := family
  name := code.value
  supportedScopes := .test :: hookScopes ++ others
  sideEffects := false
  asyncAllowed := false

/-- The contract of a command that works on something outside the run. -/
def effectContract (code : CommandCode) : OperationContract where
  family := .action
  name := code.value
  supportedScopes := .test :: hookScopes ++ [.mockPostResponse]
  sideEffects := true
  asyncAllowed := true

/-- The contract of an assertion. -/
def assertContract (code : AssertCode) : OperationContract where
  family := .assert
  name := code.value
  supportedScopes := [.test, .mockPreResponse]
  sideEffects := false
  asyncAllowed := false

/-- `_CONTRACTS`. -/
def contracts : Dict String OperationContract :=
  [quietContract .context .setVariable [.mockPreResponse],
   quietContract .context .deleteVariable [], quietContract .action .sleep [],
   effectContract .readApi, effectContract .writeApi, effectContract .sendMessageQueue,
   effectContract .saveTable, effectContract .dropTable, effectContract .cleanTable,
   effectContract .exportDataset, effectContract .dropDataset, effectContract .cleanDataset,
   effectContract .runSuite, quietContract .action .receiveQueue [.mockPostResponse],
   quietContract .action .queryDatabase [.mockPostResponse],
   assertContract .jsonEquals, assertContract .jsonEmpty, assertContract .jsonNotEmpty,
   assertContract .jsonContains, assertContract .jsonArrayEquals, assertContract .jsonArrayEmpty,
   assertContract .jsonArrayNotEmpty, assertContract .jsonArrayContains].map fun contract =>
    (contract.name, contract)

/-- `get_operation_contract`. -/
def getOperationContract (operationType : String) : Option OperationContract :=
  contracts.get? (strip operationType)

/-! ### The validator -/

/-- `cfg.target`, for the classes that have one. -/
def target? : ConfigurationCommandDto → Option TargetPath
  | .setVariable c => c.target
  | .receiveQueue c => c.target
  | .queryDatabase c => c.target
  | _ => none

/-- The path of a constant in a scope. -/
def constantPath (context : ConstantContext) (name : Token) : String :=
  "$." ++ context.value ++ ".constants." ++ name.val

/-- `_collect_target_paths`; only a `setVariable` has a context and a name, and no class
has a `result_target`. -/
def collectTargetPaths (cfg : ConfigurationCommandDto) : List String :=
  ((target? cfg).toList.map TargetPath.path).filter (fun target => strip target ≠ "") ++
    (match cfg with
      | .setVariable c => [constantPath c.context c.name]
      | _ => []) ++
    (resultConstant? cfg).toList.map fun r => constantPath .resultScope r.name

/-- `_validate_scope_rules`. -/
def validateScopeRules (contract : OperationContract) (executionScope : Option ExecutionScope) :
    Except String Unit :=
  match executionScope with
  | none => .ok ()
  | some scope =>
    if scope ∉ contract.supportedScopes then
      .error s!"Operation '{contract.name}' is not allowed in scope '{scope.value}'."
    else if scope = .mockPreResponse ∧ contract.sideEffects then
      .error (s!"Operation '{contract.name}' has side effects and cannot run in "
        ++ "mock.preResponse.")
    else if scope = .mockPreResponse ∧ contract.asyncAllowed then
      .error (s!"Operation '{contract.name}' is async-enabled and cannot run in "
        ++ "mock.preResponse.")
    else .ok ()

/-- One target of `_validate_target_roots`. -/
def validateTargetRoot (executionScope : Option ExecutionScope) (target : String) :
    Except String Unit := do
  match ← extractContextRoot target with
  | none =>
    .error (s!"Unsupported target path '{target}'. "
      ++ "Use $.runEnvelope, $.global, $.local or $.result.")
  | some root =>
    if executionScope = some .test ∧ root = .globalScope then
      .error "Global context is immutable during test execution."
    else if executionScope = some .test ∧ root = .runEnvelope then
      .error "RunEnvelope context is immutable during test execution."
    else .ok ()

/-- `_validate_target_roots`. -/
def validateTargetRoots (targets : List String) (executionScope : Option ExecutionScope) :
    Except String Unit :=
  targets.forM (validateTargetRoot executionScope)

/-- `validate_operation_policy`. -/
def validateOperationPolicy (cfg : ConfigurationCommandDto)
    (executionScope : Option ExecutionScope) : Except String OperationContract := do
  let commandCode := strip cfg.commandCode
  match getOperationContract commandCode with
  | none => .error s!"No command contract found for commandCode '{commandCode}'."
  | some contract =>
    validateScopeRules contract executionScope
    validateTargetRoots (collectTargetPaths cfg) executionScope
    return contract

/-- `_resolve_suite_item_scope`. -/
def resolveSuiteItemScope (item : SuiteItemEntity) : Option ExecutionScope :=
  match item.kind with
  | .test => some .test
  | .hook => item.hookPhase.map ExecutionScope.hook

/-- What `execute_operations` checks of a stored command before it runs it. -/
def operationPolicy (item : SuiteItemEntity) (operation : SuiteItemOperationEntity) :
    Except String OperationContract := do
  validateOperationPolicy (← convertToConfigCommandType operation.configurationJson)
    (resolveSuiteItemScope item)

/-! ### The code of a configuration that has been read -/

theorem of_bind {α β : Type} {Q : Prop} {x : Except String α} {f : α → Except String β} {b : β}
    (h : (x >>= f) = .ok b) (hf : ∀ a, x = .ok a → f a = .ok b → Q) : Q := by
  obtain ⟨a, hx, hb⟩ := bind_eq_ok.1 h
  exact hf a hx hb

/-- The code of an object that opens with its keys. -/
theorem commandCode_of_create {code type : String} {default : CommandType}
    {args : List (String × Json)} {defaultCode : Json} {k : CommandKeys}
    (h : CommandKeys.create (commandKeys code type default ++ args) defaultCode default = .ok k) :
    k.commandCode = normalizeCommandCode (.str code) := by
  unfold CommandKeys.create at h
  obtain ⟨code', hcode, h⟩ := bind_eq_ok.1 h
  have heq : code' = code := by
    simpa [commandKeys, strField, eq_comm] using hcode
  subst heq
  obtain ⟨type', -, h⟩ := bind_eq_ok.1 h
  by_cases hempty : normalizeCommandCode (.str code') = ""
  · rw [dif_pos hempty] at h
    simp at h
  · rw [dif_neg hempty] at h
    split at h
    · rw [← Except.ok.inj h]
    · simp at h

theorem keys_setVariable {d : List (String × Json)} {c : SetVariableConfigurationCommandDto}
    (h : SetVariableConfigurationCommandDto.create d = .ok c) :
    CommandKeys.create d (.str CommandCode.setVariable.value) .context = .ok c.keys := by
  unfold SetVariableConfigurationCommandDto.create at h
  iterate 14 refine of_bind h fun _ _ h => ?_
  refine of_bind h fun keys hkeys h => ?_
  iterate 2 refine of_bind h fun _ _ h => ?_
  dsimp only at h
  split at h
  · rw [ok_bind] at h
    obtain ⟨value, -, h⟩ := bind_eq_ok.1 h
    obtain rfl := Except.ok.inj h
    exact hkeys
  · simp at h

theorem keys_deleteVariable {d : List (String × Json)} {c : DeleteVariableConfigurationCommandDto}
    (h : DeleteVariableConfigurationCommandDto.create d = .ok c) :
    CommandKeys.create d (.str CommandCode.deleteVariable.value) .context = .ok c.keys := by
  unfold DeleteVariableConfigurationCommandDto.create at h
  iterate 2 refine of_bind h fun _ _ h => ?_
  refine of_bind h fun keys hkeys h => ?_
  split at h
  · obtain rfl := Except.ok.inj h
    exact hkeys
  · simp at h

theorem keys_sleep {d : List (String × Json)} {c : SleepConfigurationCommandDto}
    (h : SleepConfigurationCommandDto.create d = .ok c) :
    CommandKeys.create d (.str CommandCode.sleep.value) .action = .ok c.keys := by
  unfold SleepConfigurationCommandDto.create at h
  refine of_bind h fun _ _ h => ?_
  refine of_bind h fun keys hkeys h => ?_
  obtain rfl := Except.ok.inj h
  exact hkeys

theorem keys_named {code : CommandCode} {field : String} {d : List (String × Json)}
    {c : NamedConfigurationCommandDto} (h : NamedConfigurationCommandDto.create code field d = .ok c) :
    CommandKeys.create d (.str code.value) .action = .ok c.keys := by
  unfold NamedConfigurationCommandDto.create at h
  refine of_bind h fun _ _ h => ?_
  refine of_bind h fun keys hkeys h => ?_
  obtain rfl := Except.ok.inj h
  exact hkeys

theorem keys_readApi {d : List (String × Json)} {c : ReadApiConfigurationCommandDto}
    (h : ReadApiConfigurationCommandDto.create d = .ok c) :
    CommandKeys.create d (.str CommandCode.readApi.value) .action = .ok c.keys := by
  unfold ReadApiConfigurationCommandDto.create at h
  iterate 2 refine of_bind h fun _ _ h => ?_
  refine of_bind h fun keys hkeys h => ?_
  refine of_bind h fun _ _ h => ?_
  split_ifs at h
  refine of_bind h fun _ _ h => ?_
  obtain rfl := Except.ok.inj h
  exact hkeys

theorem keys_writeApi {d : List (String × Json)} {c : WriteApiConfigurationCommandDto}
    (h : WriteApiConfigurationCommandDto.create d = .ok c) :
    CommandKeys.create d (.str CommandCode.writeApi.value) .action = .ok c.keys := by
  unfold WriteApiConfigurationCommandDto.create at h
  iterate 2 refine of_bind h fun _ _ h => ?_
  refine of_bind h fun keys hkeys h => ?_
  iterate 2 refine of_bind h fun _ _ h => ?_
  split at h
  · refine of_bind h fun _ _ h => ?_
    obtain rfl := Except.ok.inj h
    exact hkeys
  · simp at h

theorem keys_sendMessageQueue {d : List (String × Json)}
    {c : SendMessageQueueConfigurationCommandDto}
    (h : SendMessageQueueConfigurationCommandDto.create d = .ok c) :
    CommandKeys.create d (.str CommandCode.sendMessageQueue.value) .action = .ok c.keys := by
  unfold SendMessageQueueConfigurationCommandDto.create at h
  iterate 5 refine of_bind h fun _ _ h => ?_
  refine of_bind h fun keys hkeys h => ?_
  refine of_bind h fun _ _ h => ?_
  obtain rfl := Except.ok.inj h
  exact hkeys

theorem keys_saveTable {d : List (String × Json)} {c : SaveTableConfigurationCommandDto}
    (h : SaveTableConfigurationCommandDto.create d = .ok c) :
    CommandKeys.create d (.str CommandCode.saveTable.value) .action = .ok c.keys := by
  unfold SaveTableConfigurationCommandDto.create at h
  iterate 2 refine of_bind h fun _ _ h => ?_
  refine of_bind h fun keys hkeys h => ?_
  refine of_bind h fun _ _ h => ?_
  obtain rfl := Except.ok.inj h
  exact hkeys

theorem keys_exportDataset {d : List (String × Json)} {c : ExportDatasetConfigurationCommandDto}
    (h : ExportDatasetConfigurationCommandDto.create d = .ok c) :
    CommandKeys.create d (.str CommandCode.exportDataset.value) .action = .ok c.keys := by
  unfold ExportDatasetConfigurationCommandDto.create at h
  iterate 7 refine of_bind h fun _ _ h => ?_
  refine of_bind h fun keys hkeys h => ?_
  iterate 2 refine of_bind h fun _ _ h => ?_
  obtain rfl := Except.ok.inj h
  exact hkeys

theorem keys_receiveQueue {d : List (String × Json)} {c : ReceiveQueueConfigurationCommandDto}
    (h : ReceiveQueueConfigurationCommandDto.create d = .ok c) :
    CommandKeys.create d (.str CommandCode.receiveQueue.value) .action = .ok c.keys := by
  unfold ReceiveQueueConfigurationCommandDto.create at h
  iterate 6 refine of_bind h fun _ _ h => ?_
  refine of_bind h fun keys hkeys h => ?_
  refine of_bind h fun _ _ h => ?_
  split_ifs at h
  obtain rfl := Except.ok.inj h
  exact hkeys

theorem keys_queryDatabase {d : List (String × Json)} {c : QueryDatabaseConfigurationCommandDto}
    (h : QueryDatabaseConfigurationCommandDto.create d = .ok c) :
    CommandKeys.create d (.str CommandCode.queryDatabase.value) .action = .ok c.keys := by
  unfold QueryDatabaseConfigurationCommandDto.create at h
  iterate 4 refine of_bind h fun _ _ h => ?_
  refine of_bind h fun keys hkeys h => ?_
  iterate 2 refine of_bind h fun _ _ h => ?_
  obtain rfl := Except.ok.inj h
  exact hkeys

theorem keys_runSuite {d : List (String × Json)} {c : RunSuiteConfigurationCommandDto}
    (h : RunSuiteConfigurationCommandDto.create d = .ok c) :
    CommandKeys.create d (.str CommandCode.runSuite.value) .action = .ok c.keys := by
  unfold RunSuiteConfigurationCommandDto.create at h
  iterate 4 refine of_bind h fun _ _ h => ?_
  refine of_bind h fun keys hkeys h => ?_
  refine of_bind h fun _ _ h => ?_
  obtain rfl := Except.ok.inj h
  exact hkeys

theorem normalizeCommandCode_code (code : CommandCode) :
    normalizeCommandCode (.str code.value) = code.value := by
  cases code <;> rfl

/-- A configuration that is read under a code, from keys that hold it, has it. -/
theorem commandCode_of_read {C : Type} {code : CommandCode} {text type : String}
    {default : CommandType} {args : List (String × Json)} {keys : C → CommandKeys}
    {read : List (String × Json) → Except String C} {f : C → ConfigurationCommandDto}
    {cfg : ConfigurationCommandDto} (htext : text = code.value)
    (h : (read (commandKeys text type default ++ args) >>= fun c => pure (f c)) = .ok cfg)
    (hkeys : ∀ d c, read d = .ok c → CommandKeys.create d (.str code.value) default = .ok (keys c))
    (hf : ∀ c, (f c).commandCode = (keys c).commandCode) : cfg.commandCode = code.value := by
  obtain ⟨c, hc, hret⟩ := bind_eq_ok.1 h
  obtain rfl := Except.ok.inj hret
  rw [hf, commandCode_of_create (hkeys _ _ hc), htext, normalizeCommandCode_code]

/-- **A configuration that has been read has the code of its class.** -/
theorem hasCode_commandCode {data : List (String × Json)} {cfg : ConfigurationCommandDto}
    (h : convertToConfigCommandType data = .ok cfg) : cfg.HasCode cfg.commandCode := by
  have hclass := hasCode_of_convert h
  have hassert (c : AssertConfigurationCommandDto) :
      (ConfigurationCommandDto.assert c).HasCode c.code.value := by
    simp [ConfigurationCommandDto.HasCode]
  suffices hcode : (∃ c, cfg = .assert c) ∨ cfg.commandCode = storedCommandCode data by
    rcases hcode with ⟨c, rfl⟩ | hcode
    · exact hassert c
    · rwa [hcode]
  unfold convertToConfigCommandType at h
  dsimp only at h
  generalize storedCommandCode data = code at h hclass ⊢
  refine of_branch h (fun hc h => .inr ?_) fun h => ?_
  · exact (commandCode_of_read hc h (fun _ _ => keys_setVariable) fun _ => rfl).trans hc.symm
  refine of_branch h (fun hc h => .inr ?_) fun h => ?_
  · exact (commandCode_of_read hc h (fun _ _ => keys_deleteVariable) fun _ => rfl).trans hc.symm
  refine of_branch h (fun hc h => .inr ?_) fun h => ?_
  · obtain ⟨duration, -, h⟩ := bind_eq_ok.1 h
    exact (commandCode_of_read hc h (fun _ _ => keys_sleep) fun _ => rfl).trans hc.symm
  refine of_branch h (fun hc h => .inr ?_) fun h => ?_
  · exact (commandCode_of_read hc h (fun _ _ => keys_readApi) fun _ => rfl).trans hc.symm
  refine of_branch h (fun hc h => .inr ?_) fun h => ?_
  · exact (commandCode_of_read hc h (fun _ _ => keys_writeApi) fun _ => rfl).trans hc.symm
  refine of_branch h (fun hc h => .inr ?_) fun h => ?_
  · exact (commandCode_of_read hc h (fun _ _ => keys_sendMessageQueue) fun _ => rfl).trans hc.symm
  refine of_branch h (fun hc h => .inr ?_) fun h => ?_
  · exact (commandCode_of_read hc h (fun _ _ => keys_saveTable) fun _ => rfl).trans hc.symm
  refine of_branch h (fun hc h => .inr ?_) fun h => ?_
  · exact (commandCode_of_read hc h (fun _ _ => keys_named) fun _ => rfl).trans hc.symm
  refine of_branch h (fun hc h => .inr ?_) fun h => ?_
  · exact (commandCode_of_read hc h (fun _ _ => keys_named) fun _ => rfl).trans hc.symm
  refine of_branch h (fun hc h => .inr ?_) fun h => ?_
  · exact (commandCode_of_read hc h (fun _ _ => keys_exportDataset) fun _ => rfl).trans hc.symm
  refine of_branch h (fun hc h => .inr ?_) fun h => ?_
  · exact (commandCode_of_read hc h (fun _ _ => keys_named) fun _ => rfl).trans hc.symm
  refine of_branch h (fun hc h => .inr ?_) fun h => ?_
  · exact (commandCode_of_read hc h (fun _ _ => keys_named) fun _ => rfl).trans hc.symm
  refine of_branch h (fun hc h => .inr ?_) fun h => ?_
  · exact (commandCode_of_read hc h (fun _ _ => keys_runSuite) fun _ => rfl).trans hc.symm
  refine of_branch h (fun hc h => .inr ?_) fun h => ?_
  · exact (commandCode_of_read hc h (fun _ _ => keys_receiveQueue) fun _ => rfl).trans hc.symm
  refine of_branch h (fun hc h => .inr ?_) fun h => ?_
  · exact (commandCode_of_read hc h (fun _ _ => keys_queryDatabase) fun _ => rfl).trans hc.symm
  refine of_branch h (fun _ h => .inl ?_) fun h => ?_
  · obtain ⟨c, -, hret⟩ := bind_eq_ok.1 h
    exact ⟨c, (Except.ok.inj hret).symm⟩
  exact absurd h (by simp)

/-! ### When the policy accepts -/

/-- Whether a configuration is an assertion. -/
def IsAssert (cfg : ConfigurationCommandDto) : Prop := ∃ c, cfg = .assert c

/-- Whether a path starts in a scope that may be written. -/
def WritableIn (scope : ExecutionScope) (path : String) : Prop :=
  ∃ root, extractContextRoot path = .ok (some root) ∧
    (scope = .test → root ≠ .globalScope ∧ root ≠ .runEnvelope)

theorem validateTargetRoots_eq_ok {targets : List String} {scope : ExecutionScope} :
    validateTargetRoots targets (some scope) = .ok ()
      ↔ ∀ target ∈ targets, WritableIn scope target := by
  rw [validateTargetRoots, forM_eq_ok]
  refine forall₂_congr fun target _ => ?_
  unfold validateTargetRoot WritableIn
  rw [bind_eq_ok]
  constructor
  · rintro ⟨root?, hroot, h⟩
    cases root? with
    | none => simp at h
    | some root =>
      refine ⟨root, hroot, fun htest => ?_⟩
      subst htest
      simp only [true_and] at h
      split_ifs at h with hglobal henvelope
      exact ⟨hglobal, henvelope⟩
  · rintro ⟨root, hroot, hwritable⟩
    refine ⟨some root, hroot, ?_⟩
    simp only [Option.some.injEq]
    rw [if_neg fun h => (hwritable h.1).1 h.2, if_neg fun h => (hwritable h.1).2 h.2]

/-- The scope a context is a part of. -/
def contextRoot : ConstantContext → ContextRoot
  | .runEnvelope => .runEnvelope
  | .globalScope => .globalScope
  | .localScope => .localScope
  | .resultScope => .result

theorem extractContextRoot_constantPath (context : ConstantContext) (name : Token) :
    extractContextRoot (constantPath context name) = .ok (some (contextRoot context)) := by
  have hpath : constantPath context name = String.ofList ('$' :: '.' ::
      (context.value.toList ++ '.' :: "constants.".toList ++ name.val.toList)) := by
    rw [← String.toList_inj]
    simp [constantPath]
  rw [hpath]
  cases context with
  | runEnvelope => exact extractContextRoot_dollar _ _ (by decide) (by decide) (by decide)
  | globalScope => exact extractContextRoot_dollar _ _ (by decide) (by decide) (by decide)
  | localScope => exact extractContextRoot_dollar _ _ (by decide) (by decide) (by decide)
  | resultScope => exact extractContextRoot_dollar _ _ (by decide) (by decide) (by decide)

/-- A constant may be written where its scope may be. -/
theorem writableIn_constantPath {scope : ExecutionScope} {context : ConstantContext}
    {name : Token} :
    WritableIn scope (constantPath context name)
      ↔ (scope = .test → context ≠ .globalScope ∧ context ≠ .runEnvelope) := by
  unfold WritableIn
  rw [extractContextRoot_constantPath]
  cases context <;> simp [contextRoot]

/-- The scopes the items of a suite run in. -/
def suiteScopes : List ExecutionScope := .test :: hookScopes

theorem contract_of_code (code : CommandCode) :
    ∃ contract, getOperationContract code.value = some contract ∧
      ∀ scope ∈ suiteScopes, scope ∈ contract.supportedScopes := by
  cases code <;> exact ⟨_, rfl, by decide⟩

theorem contract_of_assertCode (code : AssertCode) :
    ∃ contract, getOperationContract code.value = some contract ∧
      ∀ scope ∈ suiteScopes, scope ∈ contract.supportedScopes ↔ scope = .test := by
  cases code <;> exact ⟨_, rfl, by decide⟩

/-- A suite may run every command in every section, but an assertion in a test only. -/
theorem contract_of_hasCode {cfg : ConfigurationCommandDto} (h : cfg.HasCode cfg.commandCode) :
    ∃ contract, getOperationContract cfg.commandCode = some contract ∧
      ∀ scope ∈ suiteScopes, scope ∈ contract.supportedScopes ↔ (IsAssert cfg → scope = .test) := by
  have hassert : IsAssert cfg ∨ ¬ IsAssert cfg ∧ ∃ code : CommandCode, cfg.commandCode = code.value := by
    cases cfg with
    | assert c => exact .inl ⟨c, rfl⟩
    | _ => exact .inr ⟨by simp [IsAssert], _, h⟩
  rcases hassert with hassert | ⟨hassert, code, hcode⟩
  · obtain ⟨c, rfl⟩ := hassert
    obtain ⟨contract, hget, hscopes⟩ := contract_of_assertCode c.code
    refine ⟨contract, hget, fun scope hscope => ?_⟩
    rw [hscopes scope hscope]
    exact ⟨fun h _ => h, fun h => h ⟨c, rfl⟩⟩
  · obtain ⟨contract, hget, hscopes⟩ := contract_of_code code
    refine ⟨contract, by rw [hcode, hget], fun scope hscope => ?_⟩
    exact ⟨fun _ hc => absurd hc hassert, fun _ => hscopes scope hscope⟩

theorem validateScopeRules_eq_ok {contract : OperationContract} {scope : ExecutionScope}
    (hscope : scope ∈ suiteScopes) :
    validateScopeRules contract (some scope) = .ok () ↔ scope ∈ contract.supportedScopes := by
  have hmock : scope ≠ .mockPreResponse := by
    rintro rfl
    revert hscope
    decide
  unfold validateScopeRules
  simp only [hmock, false_and, if_false]
  split_ifs with h
  · simpa using h
  · simpa using h

theorem strip_path_ne (t : TargetPath) : strip t.path ≠ "" := by
  intro h
  have hnormal := t.normal
  rw [Command.normalizeTargetPath, h] at hnormal
  simp at hnormal

/-- The paths of a configuration may be written where its target may be, and the
constant it declares. -/
theorem forall_collectTargetPaths {cfg : ConfigurationCommandDto} {scope : ExecutionScope} :
    (∀ path ∈ collectTargetPaths cfg, WritableIn scope path)
      ↔ (∀ t ∈ target? cfg, WritableIn scope t.path) ∧
        ∀ c, cfg = .setVariable c → scope = .test →
          c.context ≠ .globalScope ∧ c.context ≠ .runEnvelope := by
  have hresult : ∀ path ∈ (resultConstant? cfg).toList.map fun r => constantPath .resultScope r.name,
      WritableIn scope path := by
    intro path hpath
    obtain ⟨r, -, rfl⟩ := List.mem_map.1 hpath
    exact writableIn_constantPath.2 fun _ => ⟨by decide, by decide⟩
  have htarget : (∀ path ∈ ((target? cfg).toList.map TargetPath.path).filter
        (fun target => strip target ≠ ""), WritableIn scope path)
      ↔ ∀ t ∈ target? cfg, WritableIn scope t.path := by
    simp [List.mem_filter, strip_path_ne]
  unfold collectTargetPaths
  rw [List.forall_mem_append, List.forall_mem_append, htarget]
  constructor
  · rintro ⟨⟨hpaths, hconstant⟩, -⟩
    refine ⟨hpaths, ?_⟩
    rintro c rfl
    exact writableIn_constantPath.1 (hconstant _ List.mem_cons_self)
  · rintro ⟨hpaths, hconstant⟩
    refine ⟨⟨hpaths, ?_⟩, hresult⟩
    cases cfg with
    | setVariable c =>
      rw [List.forall_mem_singleton]
      exact writableIn_constantPath.2 (hconstant c rfl)
    | _ => simp

/-- What the policy asks of a configuration in a section of a suite. -/
structure Runnable (scope : ExecutionScope) (cfg : ConfigurationCommandDto) : Prop where
  assert : IsAssert cfg → scope = .test
  target : ∀ t ∈ target? cfg, WritableIn scope t.path
  constant : ∀ c, cfg = .setVariable c → scope = .test →
    c.context ≠ .globalScope ∧ c.context ≠ .runEnvelope

/-- **The policy accepts a configuration that has been read just where its contract
supports the scope and its targets may be written.** -/
theorem validateOperationPolicy_isOk {cfg : ConfigurationCommandDto} {scope : ExecutionScope}
    (hcode : cfg.HasCode cfg.commandCode) (hscope : scope ∈ suiteScopes) :
    (∃ contract, validateOperationPolicy cfg (some scope) = .ok contract) ↔ Runnable scope cfg := by
  obtain ⟨contract, hget, hsupported⟩ := contract_of_hasCode hcode
  have hstrip : getOperationContract (strip cfg.commandCode) = some contract := by
    rw [← hget, getOperationContract, getOperationContract, strip_strip]
  have hpolicy : validateOperationPolicy cfg (some scope) = (do
      validateScopeRules contract (some scope)
      validateTargetRoots (collectTargetPaths cfg) (some scope)
      return contract) := by
    simp only [validateOperationPolicy, hstrip]
  rw [hpolicy]
  constructor
  · rintro ⟨contract', h⟩
    obtain ⟨⟨⟩, hrules, h⟩ := bind_eq_ok.1 h
    obtain ⟨⟨⟩, hroots, -⟩ := bind_eq_ok.1 h
    have hpaths := forall_collectTargetPaths.1 (validateTargetRoots_eq_ok.1 hroots)
    exact ⟨(hsupported scope hscope).1 ((validateScopeRules_eq_ok hscope).1 hrules), hpaths.1,
      hpaths.2⟩
  · rintro ⟨hassert, htarget, hconstant⟩
    have hrules := (validateScopeRules_eq_ok hscope).2 ((hsupported scope hscope).2 hassert)
    have hroots := validateTargetRoots_eq_ok.2 (forall_collectTargetPaths.2 ⟨htarget, hconstant⟩)
    exact ⟨contract, by rw [hrules, ok_bind, hroots, ok_bind, pure_eq_ok]⟩

/-! ### What saving a suite checks -/

/-- The configuration that a command is executed with. -/
def CreateSuiteItemCommandDto.Reads (command : CreateSuiteItemCommandDto)
    (cfg : ConfigurationCommandDto) : Prop :=
  convertToConfigCommandType command.rawCfg = .ok cfg

/-- The scope the commands of an item are executed in. -/
def CreateSuiteItemDto.executionScope (item : CreateSuiteItemDto) : ExecutionScope :=
  match item.hookPhase with
  | none => .test
  | some phase => .hook phase

/-- The policy accepts a command once it is stored and its turn comes. -/
def RunsUnderPolicy (item : CreateSuiteItemDto) (command : CreateSuiteItemCommandDto) : Prop :=
  ∀ (id itemId suiteId : String) (position : ℤ), ∃ operation contract,
    buildSuiteItemCommandEntity id itemId command = .ok operation ∧
      operationPolicy (buildSuiteItemEntity itemId suiteId item position) operation = .ok contract

theorem resolveSuiteItemScope_build (item : CreateSuiteItemDto) (itemId suiteId : String)
    (position : ℤ) :
    resolveSuiteItemScope (buildSuiteItemEntity itemId suiteId item position)
      = some item.executionScope := by
  have hphase := item.hookPhase_isSome
  unfold resolveSuiteItemScope CreateSuiteItemDto.executionScope
  simp only [buildSuiteItemEntity]
  cases hkind : item.kind with
  | test =>
    cases h : item.hookPhase with
    | none => rfl
    | some phase => simp [h, hkind] at hphase
  | hook =>
    cases h : item.hookPhase with
    | none => simp [h, hkind] at hphase
    | some phase => rfl

theorem executionScope_eq_test {item : CreateSuiteItemDto} :
    item.executionScope = .test ↔ item.kind = .test := by
  have hphase := item.hookPhase_isSome
  unfold CreateSuiteItemDto.executionScope
  cases hkind : item.kind <;> cases h : item.hookPhase <;> simp [h, hkind] at hphase ⊢

theorem executionScope_mem (item : CreateSuiteItemDto) : item.executionScope ∈ suiteScopes := by
  unfold CreateSuiteItemDto.executionScope
  cases item.hookPhase with
  | none => decide
  | some phase => cases phase <;> decide

/-- A command that can be read back is accepted where its configuration is. -/
theorem runsUnderPolicy_iff {item : CreateSuiteItemDto} {command : CreateSuiteItemCommandDto}
    {cfg : ConfigurationCommandDto} (h : command.Reads cfg) :
    RunsUnderPolicy item command ↔ Runnable item.executionScope cfg := by
  have hread := h
  obtain ⟨dto, hdto⟩ : ∃ dto, command.cfg = some dto := by
    cases hcfg : command.cfg with
    | none =>
      rw [CreateSuiteItemCommandDto.Reads, CreateSuiteItemCommandDto.rawCfg, hcfg] at h
      exact absurd h (by rintro ⟨⟩)
    | some dto => exact ⟨dto, rfl⟩
  have hstored (id itemId : String) : ∃ operation,
      buildSuiteItemCommandEntity id itemId command = .ok operation ∧
        operation.configurationJson = command.rawCfg := by
    simp only [buildSuiteItemCommandEntity, CreateSuiteItemCommandDto.rawCfg, hdto,
      if_neg (strip_commandCode_ne dto)]
    exact ⟨_, rfl, rfl⟩
  rw [← validateOperationPolicy_isOk (hasCode_commandCode hread) (executionScope_mem item)]
  constructor
  · intro hall
    obtain ⟨operation, contract, hbuild, hpolicy⟩ := hall "" "" "" 0
    obtain ⟨operation', hbuild', hjson⟩ := hstored "" ""
    rw [hbuild] at hbuild'
    obtain rfl := Except.ok.inj hbuild'
    rw [operationPolicy, hjson, hread, ok_bind, resolveSuiteItemScope_build] at hpolicy
    exact ⟨contract, hpolicy⟩
  · rintro ⟨contract, hpolicy⟩ id itemId suiteId position
    obtain ⟨operation, hbuild, hjson⟩ := hstored id itemId
    refine ⟨operation, contract, hbuild, ?_⟩
    rw [operationPolicy, hjson, hread, ok_bind, resolveSuiteItemScope_build, hpolicy]

/-- Every command of a suite that is accepted can be read back. -/
theorem reads_of_accepted {newId : ℕ → String} {dto : CreateTestSuiteDto}
    (h : validateSuiteConstantGraph newId dto = .ok ()) {item : CreateSuiteItemDto}
    (hitem : item ∈ dto.hooks ++ dto.tests) {command : CreateSuiteItemCommandDto}
    (hcommand : command ∈ item.commands) : ∃ cfg, command.Reads cfg := by
  obtain ⟨⟨⟩, hsources, -⟩ := bind_eq_ok.1 h
  have hitems := forM_eq_ok.1 hsources item hitem
  obtain ⟨visible, -, hcommands⟩ := bind_eq_ok.1 hitems
  obtain ⟨cfg, hcfg, -⟩ := bind_eq_ok.1 (forM_eq_ok.1 hcommands command hcommand)
  exact ⟨cfg, hcfg⟩

/-- A test of a suite that is accepted declares its constants where a test may write. -/
theorem context_of_accepted {newId : ℕ → String} {dto : CreateTestSuiteDto}
    (h : validateSuiteConstantGraph newId dto = .ok ()) {item : CreateSuiteItemDto}
    (hitem : item ∈ dto.tests) {command : CreateSuiteItemCommandDto}
    (hcommand : command ∈ item.commands) {c : SetVariableConfigurationCommandDto}
    (hread : command.Reads (.setVariable c)) :
    c.context ≠ .globalScope ∧ c.context ≠ .runEnvelope := by
  obtain ⟨⟨⟩, -, hplan⟩ := bind_eq_ok.1 h
  obtain ⟨plan, hplan, -⟩ := bind_eq_ok.1 hplan
  obtain ⟨⟨_, _⟩, -, hplan⟩ := bind_eq_ok.1 hplan
  obtain ⟨⟨_, visible⟩, -, hplan⟩ := bind_eq_ok.1 hplan
  obtain ⟨sections, htests, -⟩ := bind_eq_ok.1 hplan
  obtain ⟨testSection, htest⟩ := item_of_mapM htests item hitem
  obtain ⟨state, hcommands, -⟩ := bind_eq_ok.1 htest
  obtain ⟨i, hi, hget⟩ := List.mem_iff_getElem.1 hcommand
  have hraw : ∃ input ∈ sortedCommands (suiteItemCommands newId item),
      input.cfg = command.rawCfg := by
    simp only [sortedCommands, List.mem_insertionSort, List.mem_mapIdx]
    refine ⟨_, ⟨i, by simpa [suiteItemCommands] using hi, rfl⟩, ?_⟩
    simp [commandInput, suiteItemCommands, hget]
  obtain ⟨input, hinput, hcfg⟩ := hraw
  obtain ⟨s, s', hstep⟩ := step_of_foldlM hcommands input hinput
  obtain ⟨cfg, hconvert, hok, -⟩ := planCommand_eq_ok.1 hstep
  rw [hcfg, hread] at hconvert
  obtain rfl := Except.ok.inj hconvert
  have hwritable := (hok.declarations _ (List.mem_append_left _ List.mem_cons_self)).writable
  constructor <;>
  · intro hcontext
    simp [hcontext, writableScopes] at hwritable

/-- What saving a suite leaves unchecked of what the policy asks. -/
structure CreateTestSuiteDto.PolicyReady (dto : CreateTestSuiteDto) : Prop where
  /-- Only a test has assertions. -/
  assert : ∀ item ∈ dto.hooks ++ dto.tests, ∀ command ∈ item.commands, ∀ cfg,
    command.Reads cfg → IsAssert cfg → item.kind = .test
  /-- A target starts in a scope, and in a test in one that a test may write. -/
  target : ∀ item ∈ dto.hooks ++ dto.tests, ∀ command ∈ item.commands, ∀ cfg,
    command.Reads cfg → ∀ t ∈ target? cfg, WritableIn item.executionScope t.path
  /-- A test that is sent among the hooks, and so not planned, declares no constant of
  a scope that a test may not write. -/
  constant : ∀ item ∈ dto.hooks, item.kind = .test → ∀ command ∈ item.commands, ∀ c,
    command.Reads (.setVariable c) → c.context ≠ .globalScope ∧ c.context ≠ .runEnvelope

/-- **A suite that is accepted runs under the policy just where its assertions are in
tests and its targets may be written.**  Planning the constants checks neither. -/
theorem accepted_runsUnderPolicy_iff {newId : ℕ → String} {dto : CreateTestSuiteDto}
    (h : validateSuiteConstantGraph newId dto = .ok ()) :
    (∀ item ∈ dto.hooks ++ dto.tests, ∀ command ∈ item.commands, RunsUnderPolicy item command)
      ↔ dto.PolicyReady := by
  constructor
  · intro hall
    have hrunnable : ∀ item ∈ dto.hooks ++ dto.tests, ∀ command ∈ item.commands, ∀ cfg,
        command.Reads cfg → Runnable item.executionScope cfg :=
      fun item hitem command hcommand cfg hread =>
        (runsUnderPolicy_iff hread).1 (hall item hitem command hcommand)
    refine ⟨?_, ?_, ?_⟩
    · intro item hitem command hcommand cfg hread hassert
      exact executionScope_eq_test.1 ((hrunnable item hitem command hcommand cfg hread).assert hassert)
    · intro item hitem command hcommand cfg hread
      exact (hrunnable item hitem command hcommand cfg hread).target
    · intro item hitem hkind command hcommand c hread
      exact (hrunnable item (List.mem_append_left _ hitem) command hcommand _ hread).constant c rfl
        (executionScope_eq_test.2 hkind)
  · intro hready item hitem command hcommand
    obtain ⟨cfg, hread⟩ := reads_of_accepted h hitem hcommand
    refine (runsUnderPolicy_iff hread).2 ⟨?_, hready.target item hitem command hcommand cfg hread, ?_⟩
    · intro hassert
      exact executionScope_eq_test.2 (hready.assert item hitem command hcommand cfg hread hassert)
    · rintro c rfl htest
      rcases List.mem_append.1 hitem with hhook | htests
      · exact hready.constant item hhook (executionScope_eq_test.1 htest) command hcommand c hread
      · exact context_of_accepted h htests hcommand hread

/-- An item with one command and the sources that the command sees. -/
def plainItem (phase : Option HookPhase) (sources : List SuiteSource)
    (sources_nodup : (sources.map SuiteSource.sourceCode).Nodup) (cfg : ConfigurationCommandDto) :
    CreateSuiteItemDto where
  kind := if phase.isSome then .hook else .test
  hookPhase := phase
  description := "orders"
  onFailure := .abort
  sources := sources
  commands := [{ order := 1, description := "orders", cfg := some cfg }]
  templateKind := .custom
  templateConfig := none
  hookPhase_isSome := by cases phase <;> simp
  sources_nodup := sources_nodup

/-- A `receiveQueue` that writes what it receives to the global scope. -/
def receiveGlobal : ConfigurationCommandDto := .receiveQueue
  { receiveOnce with target := some ⟨"$.global.orders", by decide⟩ }

/-- A test that receives into the global scope. -/
def receiveTest : CreateSuiteItemDto := plainItem none [] List.nodup_nil receiveGlobal

theorem receiveTest_runsUnderPolicy_iff :
    (∀ item ∈ [] ++ [receiveTest], ∀ command ∈ item.commands, RunsUnderPolicy item command)
      ↔ CreateTestSuiteDto.PolicyReady
        { description := "orders", tests := [receiveTest], hooks := [] } :=
  have haccepted : validateSuiteConstantGraph toString
      { description := "orders", tests := [receiveTest], hooks := [] } = .ok () := rfl
  accepted_runsUnderPolicy_iff haccepted

theorem jsonData_normal : normalizeEvaluatedObjectType "json-data" = "json-data" := by decide

/-- An assertion that the rows of a source are there. -/
def rowsNotEmpty : ConfigurationCommandDto := .assert
  { code := .jsonArrayNotEmpty
    commandType := .assert
    errorMessage := none
    evaluatedObjectType := "json-data"
    actualRef := .source ⟨"rows", by decide, by decide⟩
    actualConstantRef := none
    expected := .null
    expectedRef := none
    expectedJsonArrayId := none
    compareKeys := none
    jsonSchema := none
    evaluatedObjectType_normal := jsonData_normal
    required := rfl }

/-- A hook that makes an assertion. -/
def assertHook : CreateSuiteItemDto :=
  plainItem (some .beforeEach)
    [.jsonArray ⟨"rows", by decide, by decide⟩ ⟨"7", by decide, by decide⟩] (by simp) rowsNotEmpty

/-- **Two suites that are accepted and cannot run:** a test that receives into the
global scope, and a hook that makes an assertion. -/
theorem accepted_not_runnable :
    (validateSuiteConstantGraph toString
          { description := "orders", tests := [receiveTest], hooks := [] } = .ok () ∧
        ¬ RunsUnderPolicy receiveTest
          { order := 1, description := "orders", cfg := some receiveGlobal }) ∧
      validateSuiteConstantGraph toString
          { description := "orders", tests := [], hooks := [assertHook] } = .ok () ∧
        ¬ RunsUnderPolicy assertHook
          { order := 1, description := "orders", cfg := some rowsNotEmpty } := by
  have hreceive : CreateSuiteItemCommandDto.Reads
      { order := 1, description := "orders", cfg := some receiveGlobal } _ :=
    convert_receiveQueue { receiveOnce with target := some ⟨"$.global.orders", by decide⟩ } rfl
  have hassert : ∃ c, CreateSuiteItemCommandDto.Reads
      { order := 1, description := "orders", cfg := some rowsNotEmpty } (.assert c) := ⟨_, rfl⟩
  refine ⟨⟨rfl, ?_⟩, rfl, ?_⟩
  · rw [runsUnderPolicy_iff hreceive]
    intro h
    obtain ⟨root, hroot, hwritable⟩ := h.target _ rfl
    have hglobal : extractContextRoot "$.global.orders" = .ok (some .globalScope) := rfl
    rw [hglobal] at hroot
    obtain rfl := Option.some.inj (Except.ok.inj hroot)
    exact (hwritable rfl).1 rfl
  · obtain ⟨c, hread⟩ := hassert
    rw [runsUnderPolicy_iff hread]
    intro h
    exact absurd (h.assert ⟨c, rfl⟩) (by decide)

end Suite
end QualityFlow
