/-
# Planning what a template has generated

`plan_definitions_for_commands` of
`app/elaborations/services/constants/command_constant_definition_registry.py` on the
commands of `app/templating/templates/send_verify.py` and
`app/templating/templates/mock_assert.py`, once they are stored and read back.

The generators number their commands from zero.  The zero of the first is read back
as its place, which is one, and so is the order of the second: a first command that
declares a constant is no longer before a second that refers to it.
-/

import QualityFlow.Py.Sort
import QualityFlow.Suite.Store
import QualityFlow.Template.Shape
import QualityFlow.Command.RoundTrip

namespace QualityFlow
namespace Template

open Py Command Constants Suite

/-! ### Reading the commands back -/

/-- Commands numbered from a number on, as the planner sees them. -/
def inputsFrom (ids : ℕ → String) (n : ℕ) (cfgs : List ConfigurationCommandDto) :
    List CommandInput :=
  cfgs.mapIdx fun i cfg =>
    { commandId := strip (ids (n + i)), commandOrder := max (n + i : ℕ) 1, cfg := cfg.modelDump }

@[simp] theorem inputsFrom_nil (ids : ℕ → String) (n : ℕ) : inputsFrom ids n [] = [] := rfl

theorem inputsFrom_cons (ids : ℕ → String) (n : ℕ) (cfg : ConfigurationCommandDto)
    (cfgs : List ConfigurationCommandDto) :
    inputsFrom ids n (cfg :: cfgs)
      = { commandId := strip (ids n), commandOrder := max n 1, cfg := cfg.modelDump } ::
          inputsFrom ids (n + 1) cfgs := by
  simp [inputsFrom, List.mapIdx_cons, Nat.add_assoc, Nat.add_comm 1]

/-- Every order is at least the number they start from. -/
theorem le_order_of_mem_inputsFrom {ids : ℕ → String} {n : ℕ}
    {cfgs : List ConfigurationCommandDto} {c : CommandInput} (h : c ∈ inputsFrom ids n cfgs) :
    (n : ℤ) ≤ c.commandOrder := by
  obtain ⟨i, hi, rfl⟩ := List.mem_mapIdx.1 h
  simp only
  omega

/-- From one on, the orders increase. -/
theorem inputsFrom_pairwise (ids : ℕ → String) {n : ℕ} (hn : 1 ≤ n)
    (cfgs : List ConfigurationCommandDto) :
    (inputsFrom ids n cfgs).Pairwise CommandInput.le := by
  induction cfgs generalizing n with
  | nil => exact .nil
  | cons cfg cfgs ih =>
    rw [inputsFrom_cons, List.pairwise_cons]
    refine ⟨fun c hc => Or.inl ?_, ih (by omega)⟩
    have := le_order_of_mem_inputsFrom hc
    simp only
    omega

/-- What numbered commands have at a place. -/
theorem Numbered.getElem {commands : List CreateSuiteItemCommandDto}
    {cfgs : List ConfigurationCommandDto} (h : Numbered commands cfgs) :
    commands.length = cfgs.length ∧ ∀ (i : ℕ) (hi : i < commands.length) (hi' : i < cfgs.length),
      (commands[i]).order = i ∧ (commands[i]).cfg = some cfgs[i] := by
  have hlength : commands.length = cfgs.length := by
    have := congrArg List.length h.cfgs
    simpa using this
  refine ⟨hlength, fun i hi hi' => ⟨?_, ?_⟩⟩
  · have := congrArg (fun l => l[i]?) h.orders
    simpa [hi, hi'] using this
  · have := congrArg (fun l => l[i]?) h.cfgs
    simpa [hi, hi'] using this

theorem Numbered.isSome {commands : List CreateSuiteItemCommandDto}
    {cfgs : List ConfigurationCommandDto} (h : Numbered commands cfgs) :
    ∀ dto ∈ commands, dto.cfg.isSome = true := by
  intro dto hdto
  have hmem : dto.cfg ∈ cfgs.map some := h.cfgs ▸ List.mem_map_of_mem hdto
  obtain ⟨cfg, -, hcfg⟩ := List.mem_map.1 hmem
  rw [← hcfg]
  rfl

/-- Numbered commands are read in their order. -/
theorem orderOperations_numbered (db : Database) (itemId : String) (drawn : ℕ)
    {commands : List CreateSuiteItemCommandDto} {cfgs : List ConfigurationCommandDto}
    (h : Numbered commands cfgs) :
    db.orderOperations (operationRows db itemId drawn commands)
      = operationRows db itemId drawn commands := by
  obtain ⟨hlength, hget⟩ := h.getElem
  have hlt : (operationRows db itemId drawn commands).Pairwise fun a b => a.order < b.order := by
    rw [List.pairwise_iff_getElem]
    intro i j hi hj hij
    simp only [operationRows, List.length_mapIdx] at hi hj
    simp only [operationRows, List.getElem_mapIdx, operationRow,
      (hget i hi (hlength ▸ hi)).1, (hget j hj (hlength ▸ hj)).1]
    exact_mod_cast hij
  exact eq_of_perm_of_pairwise_lt (db.orderOperations_perm _) hlt (db.orderOperations_sorted _)

/-- The order of a command that is read back. -/
theorem effectiveOrder_readBack (i : ℕ) :
    effectiveOrder (effectiveOrder (i : ℤ) (i + 1)) (i + 1) = max (i : ℤ) 1 := by
  unfold effectiveOrder
  split_ifs <;> push_cast <;> omega

/-- **The planner sees numbered commands in their order, the first two with one
order.** -/
theorem sortedCommands_numbered (db : Database) (store : Store) (item : SuiteItemEntity)
    {commands : List CreateSuiteItemCommandDto} {cfgs : List ConfigurationCommandDto}
    (h : Numbered commands cfgs) (hfresh : ∀ op ∈ store.operations, op.suiteItemId ≠ item.id) :
    sortedCommands (commandsForItem db (store.withOperations db item.id commands) item)
      = (inputsFrom (fun i => db.newId (store.drawn + i)) 0 cfgs).insertionSort
          CommandInput.le := by
  obtain ⟨hlength, hget⟩ := h.getElem
  rw [sortedCommands, commandsForItem, getAllBySuiteItemId_withOperations db item.id commands hfresh,
    orderOperations_numbered db item.id store.drawn h]
  congr 1
  apply List.ext_getElem
  · simp [operationRows, inputsFrom, hlength]
  · intro i hi hi'
    have hcommands : i < commands.length := by simpa [operationRows] using hi
    have hcfgs : i < cfgs.length := hlength ▸ hcommands
    obtain ⟨horder, hcfg⟩ := hget i hcommands hcfgs
    have heffective := effectiveOrder_readBack i
    simp only [operationRows, List.getElem_mapIdx, operationRow, commandInput, inputsFrom,
      CreateSuiteItemCommandDto.rawCfg, horder, hcfg, heffective, Option.map_some,
      Option.getD_some, Nat.zero_add]

/-- Of the first two commands either may come first. -/
theorem insertionSort_inputs (ids : ℕ → String) (c₀ c₁ : ConfigurationCommandDto)
    (cfgs : List ConfigurationCommandDto) :
    let x₀ : CommandInput := { commandId := strip (ids 0), commandOrder := 1, cfg := c₀.modelDump }
    let x₁ : CommandInput := { commandId := strip (ids 1), commandOrder := 1, cfg := c₁.modelDump }
    let rest := inputsFrom ids 2 cfgs
    (inputsFrom ids 0 (c₀ :: c₁ :: cfgs)).insertionSort CommandInput.le = x₀ :: x₁ :: rest ∨
      (inputsFrom ids 0 (c₀ :: c₁ :: cfgs)).insertionSort CommandInput.le = x₁ :: x₀ :: rest := by
  intro x₀ x₁ rest
  have hinputs : inputsFrom ids 0 (c₀ :: c₁ :: cfgs) = x₀ :: inputsFrom ids 1 (c₁ :: cfgs) := by
    rw [inputsFrom_cons]
    rfl
  have htail : inputsFrom ids 1 (c₁ :: cfgs) = x₁ :: rest := by
    rw [inputsFrom_cons]
    rfl
  rw [hinputs, List.insertionSort_cons, (inputsFrom_pairwise ids le_rfl _).insertionSort_eq, htail]
  by_cases hle : CommandInput.le x₀ x₁
  · exact Or.inl (List.orderedInsert_cons_of_le _ _ hle)
  · right
    rw [List.orderedInsert_of_not_le _ _ hle]
    have hrest : ∀ c ∈ rest, CommandInput.le x₀ c := by
      intro c hc
      have := le_order_of_mem_inputsFrom hc
      refine Or.inl ?_
      show (1 : ℤ) < c.commandOrder
      omega
    congr 1
    cases hr : rest with
    | nil => rfl
    | cons c cs =>
      rw [hr] at hrest
      exact List.orderedInsert_cons_of_le _ _ (hrest c List.mem_cons_self)

/-! ### What a check is read back as -/

/-- What the class makes of the dump of a check: the operand is lost where it is
blank. -/
theorem create_readBack (ids : IdPrefix) (a : GeneratedAssert) :
    AssertConfigurationCommandDto.create
      (("commandCode", .str a.operator.code.value) :: ("commandType", .str CommandType.assert.value)
        :: assertArgs (a.check ids).modelDump)
      = AssertConfigurationCommandDto.checkRequired a.operator.code .assert none "json-data"
          (.runtimeValue (ids.id a.index)) none (unblank a.expected) none none none none := by
  have hkeys := create_assertKeys (a.check ids)
  have hcode : AssertCode.ofString? a.operator.code.value = some a.operator.code :=
    a.operator.code.ofString?_value
  have htype : orElse (unblank (.str "json-data")) (.str "json-data") = .str "json-data" := rfl
  have hnone : unblankText (none : Option String) = none := rfl
  have hdump : dumpOption InputRefDto.modelDump none = .null := rfl
  have hempty : (Json.ofOption none).truthy = false := rfl
  simp only [GeneratedAssert.check] at hkeys
  simp [AssertConfigurationCommandDto.create, assertArgs, AssertConfigurationCommandDto.modelDump,
    GeneratedAssert.check, hkeys, hcode, htype, hnone, hdump, hempty, coerceInputRef,
    AssertConfigurationCommandDto.resolveExpectedRef, Token.ofString?]

/-- A check is read back where its operand is not blank, as itself. -/
theorem convert_check {ids : IdPrefix} {a : GeneratedAssert} {cfg : ConfigurationCommandDto} :
    convertToConfigCommandType (a.check ids).modelDump = .ok cfg
      ↔ isBlank a.expected = false ∧ cfg = .assert (a.check ids) := by
  have hread : convertToConfigCommandType (a.check ids).modelDump
      = ConfigurationCommandDto.assert <$> AssertConfigurationCommandDto.checkRequired
          a.operator.code .assert none "json-data" (.runtimeValue (ids.id a.index)) none
          (unblank a.expected) none none none none :=
    (convert_assert _).trans (congrArg (ConfigurationCommandDto.assert <$> ·) (create_readBack ids a))
  rw [hread, map_eq_ok]
  cases hblank : isBlank a.expected with
  | false =>
    have hfields := (a.check ids).checkRequired_fields
    rw [unblank_eq_self.2 hblank]
    constructor
    · rintro ⟨c, hc, rfl⟩
      exact ⟨rfl, congrArg _ (Except.ok.inj (hc.symm.trans hfields))⟩
    · rintro ⟨-, rfl⟩
      exact ⟨_, hfields, rfl⟩
  | true =>
    have hlost : unblank a.expected = .null := by
      cases hexpected : a.expected with
      | str t =>
        rw [hexpected] at hblank
        simpa [unblank, isBlank] using hblank
      | _ => simp [hexpected, isBlank] at hblank
    have hequals : a.operator = .equals := by
      cases hoperator : a.operator with
      | equals => rfl
      | present =>
        rw [a.required.2 hoperator] at hblank
        simp [isBlank] at hblank
    simp only [Bool.true_eq_false, false_and, iff_false]
    rintro ⟨c, hc, -⟩
    rw [hlost, hequals] at hc
    unfold AssertConfigurationCommandDto.checkRequired at hc
    split at hc
    · simp at hc
    · rename_i hnone
      simp [Operator.code, AssertCode.requiredError] at hnone

/-- A read is read back as itself. -/
theorem convert_read (ids : IdPrefix) (index : ℕ) (source : ReadSource) :
    convertToConfigCommandType (source.command ids index).modelDump
      = .ok (source.command ids index) := by
  cases source with
  | queue queueId => exact convert_receiveQueue _ rfl
  | database connectionId query => exact convert_queryDatabase _ rfl

/-! ### Commands of one order -/

/-- A command that refers to a constant cannot be the first. -/
theorem not_plan_first {y : CommandInput}
    (href : ∀ cfg, convertToConfigCommandType y.cfg = .ok cfg → definitionRefs cfg ≠ [])
    (sectionType : SectionType) (rest : List CommandInput) (s' : PlanState) :
    (y :: rest).foldlM (planCommand sectionType) { definitions := [], planned := [] } ≠ .ok s' := by
  intro h
  obtain ⟨s, hfirst, -⟩ := foldlM_cons_eq_ok.1 h
  obtain ⟨cfg, hcfg, hok, -⟩ := planCommand_eq_ok.1 hfirst
  obtain ⟨ref, hmem⟩ := List.exists_mem_of_ne_nil _ (href cfg hcfg)
  obtain ⟨definition, hvisible, -⟩ := hok.refs ref hmem
  exact absurd (mem_of_get?_activeDefinitions hvisible).1 List.not_mem_nil

/-- What a command declares has the order of the command. -/
theorem commandOrder_of_mem_plannedDeclarations {cfg : ConfigurationCommandDto}
    {commandId : String} {commandOrder : ℤ} {sectionType : SectionType} {d : PlannedDefinition}
    (h : d ∈ plannedDeclarations cfg commandId commandOrder sectionType) :
    d.commandOrder = commandOrder := by
  unfold plannedDeclarations at h
  rw [List.mem_append] at h
  rcases h with h | h
  · split at h
    · rw [List.mem_singleton.1 h]
    · simp at h
  · obtain ⟨r, -, rfl⟩ := List.mem_map.1 h
    rfl

/-- What is declared after the first command has its order. -/
theorem commandOrder_of_first {sectionType : SectionType} {x : CommandInput}
    {cfg : ConfigurationCommandDto} {kv : String × PlannedDefinition}
    (h : kv ∈ (PlanState.step { definitions := [], planned := [] } sectionType x cfg).definitions) :
    kv.2.commandOrder = x.commandOrder := by
  have hdeclare (ds : List PlannedDefinition) (hds : ∀ d ∈ ds, d.commandOrder = x.commandOrder)
      (definitions : Dict String PlannedDefinition)
      (hdefinitions : ∀ kv ∈ definitions, kv.2.commandOrder = x.commandOrder) :
      ∀ kv ∈ ds.foldl (fun ds d => ds.set d.definitionId d) definitions,
        kv.2.commandOrder = x.commandOrder := by
    induction ds generalizing definitions with
    | nil => exact hdefinitions
    | cons d ds ih =>
      rw [List.forall_mem_cons] at hds
      refine ih hds.2 _ fun kv hkv => ?_
      rcases Dict.mem_set hkv with rfl | hkv
      · exact hds.1
      · exact hdefinitions kv hkv
  unfold PlanState.step at h
  split at h
  · simp [PlanState.delete] at h
  · exact hdeclare _ (fun d => commandOrder_of_mem_plannedDeclarations) [] (by simp) kv h

/-- A command that refers to a constant cannot be the second, where the first has the
same order. -/
theorem not_plan_tied {x y : CommandInput} (horder : x.commandOrder = y.commandOrder)
    (href : ∀ cfg, convertToConfigCommandType y.cfg = .ok cfg → definitionRefs cfg ≠ [])
    (sectionType : SectionType) (rest : List CommandInput) (s' : PlanState) :
    (x :: y :: rest).foldlM (planCommand sectionType) { definitions := [], planned := [] }
      ≠ .ok s' := by
  intro h
  obtain ⟨s₁, hfirst, h⟩ := foldlM_cons_eq_ok.1 h
  obtain ⟨s₂, hsecond, -⟩ := foldlM_cons_eq_ok.1 h
  obtain ⟨cfg₁, -, -, rfl⟩ := planCommand_eq_ok.1 hfirst
  obtain ⟨cfg₂, hcfg₂, hok, -⟩ := planCommand_eq_ok.1 hsecond
  obtain ⟨ref, hmem⟩ := List.exists_mem_of_ne_nil _ (href cfg₂ hcfg₂)
  obtain ⟨definition, hvisible, -⟩ := hok.refs ref hmem
  obtain ⟨hdefinition, -, hbefore, -⟩ := mem_of_get?_activeDefinitions hvisible
  have horder' : definition.commandOrder = x.commandOrder := commandOrder_of_first hdefinition
  omega

/-! ### The assertions -/

/-- The constant that a read declares, as the planner records it. -/
def plannedConstant (ids : IdPrefix) (index : ℕ) (commandId : String) (commandOrder : ℤ) :
    PlannedDefinition where
  definitionId := (ids.id index).val
  commandId := commandId
  commandOrder := commandOrder
  sectionType := .test
  name := (actualNames.id index).val
  contextScope := .resultScope
  valueType := .json
  deletedAtOrder := none

/-- No constant has the name of one that an assertion declares. -/
def FreshFor (definitions : Dict String PlannedDefinition) (a : GeneratedAssert) : Prop :=
  ∀ kv ∈ definitions, kv.2.name ≠ (actualNames.id a.index).val

/-- A read declares its constant. -/
theorem planCommand_read {ids : IdPrefix} {a : GeneratedAssert} {s : PlanState}
    (hfresh : FreshFor s.definitions a) (commandId : String) (commandOrder : ℤ) :
    planCommand .test s
        { commandId, commandOrder, cfg := (a.source.command ids a.index).modelDump }
      = .ok (s.declare [plannedConstant ids a.index commandId commandOrder]) := by
  have hwritable : ConstantContext.resultScope ∈ writableScopes .test := by decide
  have hunused (active : Dict String PlannedDefinition) (hsub : ∀ kv ∈ active, kv ∈ s.definitions) :
      Declarable .test active (plannedConstant ids a.index commandId commandOrder) :=
    ⟨hwritable, fun kv hkv hname => hfresh kv (hsub kv hkv) hname.1⟩
  have hactive (order : ℤ) : ∀ kv ∈ activeDefinitions s.definitions allScopes order,
      kv ∈ s.definitions := fun kv hkv => (List.mem_filter.1 hkv).1
  rw [planCommand_eq_ok]
  refine ⟨_, convert_read ids a.index a.source, ?_⟩
  cases a.source with
  | queue queueId =>
    refine ⟨⟨by simp [ReadSource.command, definitionRefs, inputRefs,
      ConfigurationCommandDto.inputRef?, ConfigurationCommandDto.actualRef?,
      ConfigurationCommandDto.expectedRef?], rfl, ?_⟩, rfl⟩
    intro d hd
    rw [List.mem_singleton.1 hd]
    exact hunused _ (hactive _)
  | database connectionId query =>
    refine ⟨⟨by simp [ReadSource.command, definitionRefs, inputRefs,
      ConfigurationCommandDto.inputRef?, ConfigurationCommandDto.actualRef?,
      ConfigurationCommandDto.expectedRef?], rfl, ?_⟩, rfl⟩
    intro d hd
    rw [List.mem_singleton.1 hd]
    exact hunused _ (hactive _)

/-- A check after its read is accepted where its operand is not blank. -/
theorem planCommand_check {ids : IdPrefix} {a : GeneratedAssert} {s s' : PlanState}
    {commandId readId : String} {readOrder commandOrder : ℤ} (horder : readOrder < commandOrder) :
    let read := s.declare [plannedConstant ids a.index readId readOrder]
    planCommand .test read { commandId, commandOrder, cfg := (a.check ids).modelDump } = .ok s'
      ↔ isBlank a.expected = false ∧ s' = read := by
  intro read
  rw [planCommand_eq_ok]
  have hvisible : (activeDefinitions read.definitions (readableScopes .test) commandOrder).get?
      (ids.id a.index).val = some (plannedConstant ids a.index readId readOrder) := by
    refine Dict.get?_filter_set ?_ _
    rw [decide_eq_true_eq]
    have hreadable : ConstantContext.resultScope ∈ readableScopes .test := by decide
    exact ⟨hreadable, horder, by simp [plannedConstant]⟩
  have hrefs : definitionRefs (.assert (a.check ids)) = [(.actual, (ids.id a.index).val)] := rfl
  have hok : StepOk .test read { commandId, commandOrder, cfg := (a.check ids).modelDump }
      (.assert (a.check ids)) := by
    refine ⟨?_, rfl, by simp [plannedDeclarations, resultConstant?]⟩
    rw [hrefs, List.forall_mem_singleton]
    refine ⟨_, hvisible, ?_, by simp⟩
    have hcompatible (operator : Operator) :
        ∀ types ∈ typeCompatibility.get? operator.code.value, ConstantSourceType.json ∈ types := by
      cases operator <;> decide
    exact hcompatible a.operator
  have hstep : read.step .test { commandId, commandOrder, cfg := (a.check ids).modelDump }
      (.assert (a.check ids)) = read := by
    simp [PlanState.step, deletedTarget?, plannedDeclarations, resultConstant?, PlanState.declare]
  constructor
  · rintro ⟨cfg, hcfg, -, rfl⟩
    obtain ⟨hblank, rfl⟩ := convert_check.1 hcfg
    exact ⟨hblank, hstep⟩
  · rintro ⟨hblank, rfl⟩
    exact ⟨_, convert_check.2 ⟨hblank, rfl⟩, hok, hstep.symm⟩

/-- After an assertion the others are as fresh as before it. -/
theorem FreshFor.declare {ids : IdPrefix} {a a' : GeneratedAssert} {s : PlanState}
    (h : FreshFor s.definitions a') (hne : a.index ≠ a'.index) (commandId : String)
    (commandOrder : ℤ) :
    FreshFor (s.declare [plannedConstant ids a.index commandId commandOrder]).definitions a' := by
  intro kv hkv
  rcases Dict.mem_set hkv with rfl | hkv
  · intro hname
    have hid : actualNames.id a.index = actualNames.id a'.index := by
      rw [Token.mk.injEq]
      exact hname
    exact hne (actualNames.id_injective hid)
  · exact h kv hkv

/-- **The assertions of a program are accepted where none has a blank operand:** each
reads its own constant, which its read has declared just before. -/
theorem plan_asserts (ids : IdPrefix) (newIds : ℕ → String) {asserts : List GeneratedAssert} {n : ℕ}
    (hn : 1 ≤ n) {s : PlanState} (hindex : (asserts.map (·.index)).Nodup)
    (hfresh : ∀ a ∈ asserts, FreshFor s.definitions a) :
    (∃ s', (inputsFrom newIds n (asserts.flatMap (GeneratedAssert.commands ids))).foldlM
        (planCommand .test) s = .ok s')
      ↔ ∀ a ∈ asserts, isBlank a.expected = false := by
  induction asserts generalizing n s with
  | nil => simp
  | cons a asserts ih =>
    rw [List.map_cons, List.nodup_cons] at hindex
    rw [List.forall_mem_cons] at hfresh ⊢
    obtain ⟨hfirst, hrest⟩ := hfresh
    have hcommands : (a :: asserts).flatMap (GeneratedAssert.commands ids)
        = a.source.command ids a.index :: .assert (a.check ids) ::
            asserts.flatMap (GeneratedAssert.commands ids) := rfl
    have horder : max (n : ℤ) 1 < max ((n + 1 : ℕ) : ℤ) 1 := by omega
    have hread := @planCommand_read ids _ _ hfirst (strip (newIds n)) (max n 1)
    have hnext := ih (n := n + 1 + 1) (by omega) (s := s.declare [plannedConstant ids a.index
      (strip (newIds n)) (max n 1)]) hindex.2 fun a' ha' =>
        (hrest a' ha').declare (fun heq => hindex.1 (heq ▸ List.mem_map_of_mem ha')) _ _
    rw [hcommands, inputsFrom_cons, inputsFrom_cons]
    simp only [foldlM_cons_eq_ok, hread, Except.ok.injEq, exists_eq_left']
    constructor
    · rintro ⟨s', s₁, hcheck, hrun⟩
      obtain ⟨hblank, rfl⟩ := (planCommand_check horder).1 hcheck
      exact ⟨hblank, hnext.1 ⟨s', hrun⟩⟩
    · rintro ⟨hblank, hblanks⟩
      obtain ⟨s', hrun⟩ := hnext.2 hblanks
      exact ⟨s', _, (planCommand_check horder).2 ⟨hblank, rfl⟩, hrun⟩

/-! ### Whether a program is accepted -/

/-- The commands of an item, once they are stored and read back, are planned from
nothing. -/
def Accepted (db : Database) (store : Store) (item : SuiteItemEntity)
    (commands : List CreateSuiteItemCommandDto) : Prop :=
  ∃ store' state, insertSuiteItemOperations db item.id commands
      (deleteBySuiteItemId item.id store) = .ok store' ∧
    planDefinitionsForCommands (commandsForItem db store' item) .test [] = .ok state

section

variable {db : Database} {store : Store} {item : SuiteItemEntity}
  {commands : List CreateSuiteItemCommandDto} {cfgs : List ConfigurationCommandDto}

/-- Numbered commands are accepted where the planner takes them. -/
theorem accepted_iff_plan (h : Numbered commands cfgs) :
    Accepted db store item commands
      ↔ ∃ state, ((inputsFrom (fun i => db.newId (store.drawn + i)) 0 cfgs).insertionSort
          CommandInput.le).foldlM (planCommand .test) { definitions := [], planned := [] }
            = .ok state := by
  have hfresh : ∀ op ∈ (deleteBySuiteItemId item.id store).operations,
      op.suiteItemId ≠ item.id := by simp [deleteBySuiteItemId]
  have hsorted := sortedCommands_numbered db _ item h hfresh
  unfold Accepted
  rw [insertSuiteItemOperations_eq, if_pos h.isSome]
  simp only [Except.ok.injEq, planDefinitionsForCommands, exists_and_left, exists_eq_left', hsorted]
  rfl

/-- Where the second command refers to a constant, the program is rejected: the planner
gives the first two commands one order. -/
theorem not_accepted {c₀ c₁ : ConfigurationCommandDto} {rest : List ConfigurationCommandDto}
    (h : Numbered commands (c₀ :: c₁ :: rest))
    (href : ∀ cfg, convertToConfigCommandType c₁.modelDump = .ok cfg → definitionRefs cfg ≠ []) :
    ¬ Accepted db store item commands := by
  rw [accepted_iff_plan h]
  rintro ⟨state, hrun⟩
  rcases insertionSort_inputs (fun i => db.newId (store.drawn + i)) c₀ c₁ rest with hsort | hsort
  · rw [hsort] at hrun
    refine not_plan_tied ?_ ?_ .test _ state hrun
    · rfl
    · exact href
  · rw [hsort] at hrun
    refine not_plan_first ?_ .test _ state hrun
    exact href

/-- Planning a sleep changes nothing. -/
theorem planCommand_sleep (c : SleepConfigurationCommandDto) (hcode : c.keys.commandCode = "sleep")
    (s : PlanState) (commandId : String) (commandOrder : ℤ) :
    planCommand .test s
        { commandId, commandOrder, cfg := (ConfigurationCommandDto.sleep c).modelDump } = .ok s := by
  rw [planCommand_eq_ok]
  refine ⟨_, convert_sleep c hcode, ⟨?_, rfl, by simp [plannedDeclarations, resultConstant?]⟩, ?_⟩
  · simp [definitionRefs, inputRefs, ConfigurationCommandDto.inputRef?,
      ConfigurationCommandDto.actualRef?, ConfigurationCommandDto.expectedRef?]
  · simp [PlanState.step, deletedTarget?, plannedDeclarations, resultConstant?, PlanState.declare]

/-- A program that first sleeps is accepted where its assertions are. -/
theorem accepted_after_sleep {ids : IdPrefix} {c : SleepConfigurationCommandDto}
    (hcode : c.keys.commandCode = "sleep") {asserts : List GeneratedAssert} (hne : asserts ≠ [])
    (h : Numbered commands (.sleep c :: asserts.flatMap (GeneratedAssert.commands ids)))
    (hindex : (asserts.map (·.index)).Nodup) :
    Accepted db store item commands ↔ ∀ a ∈ asserts, isBlank a.expected = false := by
  rw [accepted_iff_plan h]
  generalize (fun i => db.newId (store.drawn + i)) = newIds
  rw [← plan_asserts ids newIds (n := 1) le_rfl (s := { definitions := [], planned := [] }) hindex
    fun a _ kv hkv => absurd hkv List.not_mem_nil]
  obtain ⟨a, as, rfl⟩ := List.exists_cons_of_ne_nil hne
  have hcommands : (a :: as).flatMap (GeneratedAssert.commands ids)
      = a.source.command ids a.index :: .assert (a.check ids) ::
          as.flatMap (GeneratedAssert.commands ids) := rfl
  rw [hcommands, inputsFrom_cons newIds 1]
  refine exists_congr fun state => ?_
  rcases insertionSort_inputs newIds (.sleep c) (a.source.command ids a.index)
    (.assert (a.check ids) :: as.flatMap (GeneratedAssert.commands ids)) with hsort | hsort
  · rw [hsort, foldlM_cons_eq_ok, planCommand_sleep c hcode]
    simp only [Except.ok.injEq, exists_eq_left']
    rfl
  · rw [hsort, foldlM_cons_eq_ok, foldlM_cons_eq_ok]
    refine exists_congr fun s => and_congr_right fun _ => ?_
    rw [foldlM_cons_eq_ok, planCommand_sleep c hcode]
    simp only [Except.ok.injEq, exists_eq_left']

end

/-! ### The two generators -/

/-- The assertions are numbered as the parts they come from. -/
theorem DescribesAll.indices {items : List (List (String × Json) × ℕ)}
    {asserts : List GeneratedAssert} (h : DescribesAll items asserts) :
    asserts.map (·.index) = items.map Prod.snd := by
  induction h with
  | nil => rfl
  | cons hfirst _ ih => rw [List.map_cons, List.map_cons, hfirst.1, ih]

/-- The operands of the assertions are those of the parts they come from. -/
theorem DescribesAll.isBlank {items : List (List (String × Json) × ℕ)}
    {asserts : List GeneratedAssert} (h : DescribesAll items asserts) :
    (∀ a ∈ asserts, isBlank a.expected = false)
      ↔ ∀ item ∈ items, normalizeToken (Json.field item.1 "operator") = "equals" →
          Command.isBlank (Json.field item.1 "expected") = false := by
  induction h with
  | nil => simp
  | @cons item a _ _ hfirst _ ih =>
    rw [List.forall_mem_cons, List.forall_mem_cons, ih]
    refine and_congr_left fun _ => ?_
    obtain ⟨-, -, hoperator, hexpected⟩ := hfirst
    rcases operator_of_get? hoperator with ⟨hname, hcode⟩ | ⟨hname, hcode⟩
    · have hequals : a.operator = .equals := by
        cases hop : a.operator with
        | equals => rfl
        | present => simp [hop, Operator.code] at hcode
      simp [hname, hexpected hequals]
    · have hpresent : a.operator = .present := by
        cases hop : a.operator with
        | equals => simp [hop, Operator.code] at hcode
        | present => rfl
      simp [hname, a.required.2 hpresent, Command.isBlank]

/-- What keeps a generated program from being rejected: it is a `mock_assert`, it waits,
and no assertion compares with a blank text. -/
def Plannable (kind : TemplateKind) (config : Option (List (String × Json))) : Prop :=
  kind = .mockAssert ∧ coerceWaitMs (Json.field (config.getD []) "wait_ms") 1000 ≠ .ok 0 ∧
    ∀ specs, coerceAssertList (Json.field (config.getD []) "asserts") = .ok specs →
      ∀ spec ∈ specs, normalizeToken (Json.field spec "operator") = "equals" →
        isBlank (Json.field spec "expected") = false

theorem coerceWaitMs_nonneg {value : Json} {default waitMs : ℤ} (hdefault : 0 ≤ default)
    (h : coerceWaitMs value default = .ok waitMs) : 0 ≤ waitMs := by
  unfold coerceWaitMs at h
  split at h
  · obtain rfl := Except.ok.inj h
    exact hdefault
  · split at h
    · simp at h
    · split at h
      · simp at h
      · obtain rfl := Except.ok.inj h
        omega

/-- No `send_verify` is accepted: its send refers to the payload, which is declared
with the same order. -/
theorem SendVerify.not_accepted {config : List (String × Json)}
    {commands : List CreateSuiteItemCommandDto}
    (h : SendVerify.generateCommands config = .ok commands) (db : Database) (store : Store)
    (item : SuiteItemEntity) : ¬ Accepted db store item commands := by
  obtain ⟨plan, -, hnumbered⟩ := SendVerify.generateCommands_eq_ok h
  refine Template.not_accepted hnumbered fun cfg hcfg => ?_
  have hread := convert_sendMessageQueue (sendPayload plan.queueId) rfl
  have hqueue : strip (sendPayload plan.queueId).queueId ≠ "" := plan.queueId.strip_ne_empty
  rw [if_neg hqueue] at hread
  obtain rfl := Except.ok.inj (hread.symm.trans hcfg)
  simp [definitionRefs, inputRefs, ConfigurationCommandDto.inputRef?, InputRefDto.definitionId?,
    sendPayload]

/-- A `mock_assert` is accepted where it waits and no operand is blank. -/
theorem MockAssert.accepted_iff {config : List (String × Json)}
    {commands : List CreateSuiteItemCommandDto}
    (h : MockAssert.generateCommands config = .ok commands) (db : Database) (store : Store)
    (item : SuiteItemEntity) :
    Accepted db store item commands ↔ Plannable .mockAssert (some config) := by
  obtain ⟨⟨waitMs, asserts, hne⟩, ⟨hwait, specs, hspecs, hall⟩, hnumbered⟩ :=
    MockAssert.generateCommands_eq_ok h
  simp only at hwait hall
  have hnonneg := coerceWaitMs_nonneg (by decide) hwait
  have hblank := hall.isBlank
  have hplannable : Plannable .mockAssert (some config)
      ↔ 0 < waitMs ∧ ∀ a ∈ asserts, isBlank a.expected = false := by
    unfold Plannable
    rw [Option.getD_some, hwait, hspecs, hblank]
    simp only [true_and, ne_eq, Except.ok.injEq, forall_eq']
    refine and_congr (by omega) ⟨fun hspec item hitem => ?_, fun hitem spec hspec => ?_⟩
    · exact hspec item.1 (List.fst_mem_of_mem_zipIdx hitem)
    · obtain ⟨i, hi, rfl⟩ := List.getElem_of_mem hspec
      exact hitem (specs[i], i) (List.mk_mem_zipIdx_iff_getElem?.2 (List.getElem?_eq_getElem hi))
  rw [hplannable]
  by_cases hpos : 0 < waitMs
  · rw [MockAssert.Plan.commands, sleepCommands, if_pos hpos] at hnumbered
    have hindex : (asserts.map (·.index)).Nodup := by
      rw [hall.indices, List.zipIdx_map_snd]
      exact List.nodup_range'
    rw [accepted_after_sleep rfl hne hnumbered hindex, and_iff_right hpos]
  · rw [MockAssert.Plan.commands, sleepCommands, if_neg hpos, List.nil_append] at hnumbered
    obtain ⟨a, as, rfl⟩ := List.exists_cons_of_ne_nil hne
    refine iff_of_false (Template.not_accepted hnumbered fun cfg hcfg => ?_) fun h => hpos h.1
    obtain ⟨-, rfl⟩ := convert_check.1 hcfg
    simp [definitionRefs, inputRefs, ConfigurationCommandDto.inputRef?,
      ConfigurationCommandDto.actualRef?, ConfigurationCommandDto.expectedRef?,
      InputRefDto.definitionId?, GeneratedAssert.check]

/-- **A generated program, once stored and read back, is accepted just where it is a
`mock_assert` that waits and compares with no blank text.** -/
theorem generated_accepted_iff {kind : TemplateKind} {config : Option (List (String × Json))}
    {commands : List CreateSuiteItemCommandDto} (h : generateCommands kind config = .ok commands)
    (db : Database) (store : Store) (item : SuiteItemEntity) :
    Accepted db store item commands ↔ Plannable kind config := by
  cases kind with
  | custom => simp [generateCommands] at h
  | sendVerify =>
    exact iff_of_false (SendVerify.not_accepted h db store item) fun hplannable =>
      absurd hplannable.1 (by simp)
  | mockAssert =>
    cases config with
    | none => exact MockAssert.accepted_iff h db store item
    | some config => exact MockAssert.accepted_iff h db store item

/-- A test of a suite. -/
def templateTest (kind : TemplateKind) (config : List (String × Json)) : SuiteItemEntity where
  id := "test"
  testSuiteId := "suite"
  kind := .test
  hookPhase := none
  description := "orders"
  sourcesJson := []
  position := 1
  onFailure := OnFailure.abort.value
  templateKind := kind
  templateConfig := some config

/-- A `mock_assert` that waits a second for one row. -/
def mockConfig : List (String × Json) :=
  [("asserts", .arr [.obj [("target", .str "database"), ("operator", .str "exists"),
    ("connection_id", .str "orders"), ("database_query", .str "select 1")]])]

theorem generated_accepted_mock : ∃ commands,
    generateCommands .mockAssert (some mockConfig) = .ok commands ∧
      Accepted listDatabase Store.empty (templateTest .mockAssert mockConfig) commands := by
  have hplannable : Plannable .mockAssert (some mockConfig) := by
    refine ⟨rfl, by decide, ?_⟩
    intro specs hspecs spec hspec hoperator
    obtain rfl := Except.ok.inj hspecs
    rw [List.mem_singleton.1 hspec] at hoperator
    exact absurd hoperator (by decide)
  exact ⟨_, rfl, (generated_accepted_iff rfl _ _ _).2 hplannable⟩

/-- A `send_verify` without assertions. -/
def sendConfig : List (String × Json) :=
  [("queue_id", .str "orders"),
   ("payload", .obj [("kind", .str "json_inline"), ("value", .obj [("total", .int 10)])])]

/-- **A `send_verify` without assertions is rejected:** its send and the payload it
refers to are read back with one order. -/
theorem sendVerify_rejected : ∃ commands,
    generateCommands .sendVerify (some sendConfig) = .ok commands ∧
      ¬ Accepted listDatabase Store.empty (templateTest .sendVerify sendConfig) commands :=
  ⟨_, rfl, @SendVerify.not_accepted sendConfig _ rfl _ _ _⟩

end Template
end QualityFlow
