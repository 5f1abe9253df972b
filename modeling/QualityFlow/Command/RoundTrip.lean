/-
# What a stored configuration keeps

A configuration is dumped, stored, and decoded again before every use.  For each
class this module says what the decoder makes of the dump of any value of it;
`convert_modelDump_iff` puts them together.
-/

import QualityFlow.Command.Codec

namespace QualityFlow
namespace Command

open Py

/-! ### Reading a dump, class by class -/

/-- The code of a dump is the code of the configuration. -/
theorem storedCommandCode_modelDump (k : CommandKeys) (rest : List (String × Json)) :
    storedCommandCode (k.modelDump ++ rest)
      = if k.commandCode = "assert" then (deriveAssertCommandCode (k.modelDump ++ rest)).value
        else k.commandCode := by
  have hstrip : strip k.commandCode ≠ "" := by
    intro h0
    have hnormal := k.code_normal
    rw [normalizeCommandCode, Json.token_str, h0] at hnormal
    exact k.code_ne hnormal.symm
  simp [storedCommandCode, CommandKeys.modelDump, unblank, hstrip, k.code_normal]

theorem storedCommandCode_of_eq {k : CommandKeys} (code : CommandCode)
    (h : k.commandCode = code.value) (rest : List (String × Json)) :
    storedCommandCode (k.modelDump ++ rest) = code.value := by
  have hne : code.value ≠ "assert" := by cases code <;> decide
  rw [storedCommandCode_modelDump, h, if_neg hne]

/-- The keys are read back from what the decoder hands on. -/
@[simp] theorem create_commandKeys (k : CommandKeys) {code : String} (h : k.commandCode = code)
    (rest : List (String × Json)) (defaultCode : Json) (defaultType : CommandType) :
    CommandKeys.create (("commandCode", .str code) :: ("commandType", .str k.commandType.value) :: rest)
      defaultCode defaultType = .ok k := by
  rw [← h, CommandKeys.create_modelDump]

/-- A required text is lost where it is blank. -/
@[simp] theorem strField_unblank (s : String) :
    strField (unblank (.str s))
      = if strip s = "" then .error "Input should be a valid string" else .ok s := by
  by_cases h : strip s = ""
  · rw [unblank, if_pos h, if_pos h]
    rfl
  · rw [unblank, if_neg h, if_neg h, strField_str]

theorem ofString?_valueType (t : ConstantSourceType) :
    ConstantSourceType.ofString? (if strip t.text = "raw" then "value" else strip t.text)
      = some t := by
  cases t <;> rfl

theorem orElse_valueType (t : ConstantSourceType) (d : Json) :
    orElse (unblank (.str t.text)) d = .str t.text := by
  cases t <;> rfl

/-- What is read back of the value of a `setVariable`: the payload where it is not
blank, `data` otherwise. -/
def VariableValue.reread (v : VariableValue) (data : Json) : VariableValue :=
  let payload := orNull (unblank v.payload) (unblank data)
  match v with
  | .value _ => .value payload
  | .json _ => .json payload
  | .jsonArray _ => .jsonArray payload
  | .dataset _ => .dataset payload
  | .function f => .function f

theorem VariableValue.create_reread (v : VariableValue) (data : Json) (name : String)
    (h : ∀ f, v = .function f → name = f.value) :
    VariableValue.create v.valueType.text (orNull (unblank v.payload) (unblank data)) name
      = .ok (v.reread data) := by
  simp only [create, ofString?_valueType]
  cases v with
  | function f =>
    rw [h f rfl]
    cases f <;> rfl
  | _ => rfl

theorem convert_setVariable (c : SetVariableConfigurationCommandDto)
    (h : c.keys.commandCode = "setVariable") :
    convertToConfigCommandType c.modelDump = .ok (.setVariable
      { c with
        value := c.value.reread c.data, sourceType := none, data := .null, resolver := none,
        function := none, datasetId := none, jsonArrayId := none, parameters := none,
        key := unblankText c.key, scope := unblankText c.scope }) := by
  have hcode : storedCommandCode c.modelDump = "setVariable" :=
    storedCommandCode_of_eq .setVariable h _
  have hcontext : orNull (unblank (.str c.context.value)) (.ofOption (unblankText c.scope))
      = .str c.context.value := by cases c.context <;> rfl
  have htype_ne : c.value.valueType.text ≠ "" := by cases c.value.valueType <;> decide
  have hcontext_ne : c.context.value ≠ "" := by cases c.context <;> decide
  have hctx : ConstantContext.ofString? ((SetVariableConfigurationCommandDto.contextAliases.get?
      (strip c.context.value)).getD (strip c.context.value)) = some c.context := by
    cases c.context <;> decide
  have hfunction : ∃ o, optStrField (orElse (unblank c.value.functionName)
      (orNull (.ofOption (unblankText c.resolver)) (.ofOption (unblankText c.function)))) = .ok o ∧
      ∀ f, c.value = .function f → firstTruthy [o, none, none] = f.value := by
    cases c.value with
    | function f => cases f <;> exact ⟨_, rfl, by rintro _ ⟨⟩; rfl⟩
    | _ =>
      cases unblankText c.resolver <;> cases unblankText c.function <;>
        exact ⟨_, rfl, by rintro _ ⟨⟩⟩
  obtain ⟨o, ho, hname⟩ := hfunction
  have hvalue := c.value.create_reread c.data _ hname
  have hpayload : (if orNull (unblank c.value.payload) (unblank c.data) = .null then Json.null
      else orNull (unblank c.value.payload) (unblank c.data))
        = orNull (unblank c.value.payload) (unblank c.data) := by
    split_ifs with h0
    · exact h0.symm
    · rfl
  rw [convertToConfigCommandType]
  simp only [hcode]
  simp [SetVariableConfigurationCommandDto.modelDump, CommandKeys.modelDump, h, commandKeys,
    SetVariableConfigurationCommandDto.create, setVariableArgs, hcontext, orElse_valueType, ho,
    firstTruthy, c.name.ne_empty, hcontext_ne, htype_ne, hctx, hpayload, hvalue]

theorem convert_deleteVariable (c : DeleteVariableConfigurationCommandDto)
    (h : c.keys.commandCode = "deleteVariable") :
    convertToConfigCommandType c.modelDump
      = .ok (.deleteVariable { c with targetConstantRef := none }) := by
  have hcode : storedCommandCode c.modelDump = "deleteVariable" :=
    storedCommandCode_of_eq .deleteVariable h _
  rw [convertToConfigCommandType]
  simp only [hcode]
  simp [DeleteVariableConfigurationCommandDto.modelDump, CommandKeys.modelDump, h, commandKeys,
    DeleteVariableConfigurationCommandDto.create]

theorem convert_sleep (c : SleepConfigurationCommandDto) (h : c.keys.commandCode = "sleep") :
    convertToConfigCommandType c.modelDump = .ok (.sleep c) := by
  have hcode : storedCommandCode c.modelDump = "sleep" :=
    storedCommandCode_of_eq .sleep h _
  rw [convertToConfigCommandType]
  simp only [hcode]
  simp [SleepConfigurationCommandDto.modelDump, CommandKeys.modelDump, h, commandKeys,
    SleepConfigurationCommandDto.create]

theorem convert_readApi (c : ReadApiConfigurationCommandDto) (h : c.keys.commandCode = "readApi") :
    convertToConfigCommandType c.modelDump
      = .ok (.readApi { c with timeoutSeconds := some (c.timeoutSeconds.getD .default) }) := by
  have hcode : storedCommandCode c.modelDump = "readApi" :=
    storedCommandCode_of_eq .readApi h _
  have hmethod (d : Json) : orElse (unblank (.str "GET")) d = .str "GET" := rfl
  have hget : normalizeHttpMethod (firstTruthy [some "GET", some "GET"]) = "GET" := rfl
  rw [convertToConfigCommandType]
  simp only [hcode]
  simp [ReadApiConfigurationCommandDto.modelDump, CommandKeys.modelDump, h, commandKeys,
    ReadApiConfigurationCommandDto.create, HttpRequestFields.create, httpArgs, resultConstantNames,
    hmethod, hget]

theorem convert_writeApi (c : WriteApiConfigurationCommandDto)
    (h : c.keys.commandCode = "writeApi") :
    convertToConfigCommandType c.modelDump
      = .ok (.writeApi { c with timeoutSeconds := some (c.timeoutSeconds.getD .default) }) := by
  have hcode : storedCommandCode c.modelDump = "writeApi" :=
    storedCommandCode_of_eq .writeApi h _
  rw [convertToConfigCommandType]
  simp only [hcode]
  simp [WriteApiConfigurationCommandDto.modelDump, CommandKeys.modelDump, h, commandKeys,
    WriteApiConfigurationCommandDto.create, HttpRequestFields.create, httpArgs,
    resultConstantNames]

theorem convert_sendMessageQueue (c : SendMessageQueueConfigurationCommandDto)
    (h : c.keys.commandCode = "sendMessageQueue") :
    convertToConfigCommandType c.modelDump
      = if strip c.queueId = "" then .error "Input should be a valid string"
        else .ok (.sendMessageQueue
          { c with sourceConstantRef := none, templateId := unblankText c.templateId }) := by
  have hcode : storedCommandCode c.modelDump = "sendMessageQueue" :=
    storedCommandCode_of_eq .sendMessageQueue h _
  rw [convertToConfigCommandType]
  simp only [hcode]
  by_cases hq : strip c.queueId = "" <;>
    simp [SendMessageQueueConfigurationCommandDto.modelDump, CommandKeys.modelDump, h, commandKeys,
      SendMessageQueueConfigurationCommandDto.create, InputFields.create, inputRefNames,
      resultConstantNames, coerceInputRef, hq]

theorem convert_saveTable (c : SaveTableConfigurationCommandDto)
    (h : c.keys.commandCode = "saveTable") :
    convertToConfigCommandType c.modelDump
      = if strip c.tableName = "" then .error "Input should be a valid string"
        else .ok (.saveTable { c with sourceConstantRef := none }) := by
  have hcode : storedCommandCode c.modelDump = "saveTable" :=
    storedCommandCode_of_eq .saveTable h _
  rw [convertToConfigCommandType]
  simp only [hcode]
  by_cases hq : strip c.tableName = "" <;>
    simp [SaveTableConfigurationCommandDto.modelDump, CommandKeys.modelDump, h, commandKeys,
      SaveTableConfigurationCommandDto.create, InputFields.create, inputRefNames,
      resultConstantNames, coerceInputRef, hq]

theorem convert_dropTable (c : NamedConfigurationCommandDto)
    (h : c.keys.commandCode = "dropTable") :
    convertToConfigCommandType (c.modelDump "table_name")
      = if strip c.name = "" then .error "Input should be a valid string"
        else .ok (.dropTable c) := by
  have hcode : storedCommandCode (c.modelDump "table_name") = "dropTable" :=
    storedCommandCode_of_eq .dropTable h _
  rw [convertToConfigCommandType]
  simp only [hcode]
  by_cases hq : strip c.name = "" <;>
    simp [NamedConfigurationCommandDto.modelDump, CommandKeys.modelDump, h, commandKeys,
      DropTableConfigurationCommandDto.create, NamedConfigurationCommandDto.create, hq]

theorem convert_cleanTable (c : NamedConfigurationCommandDto)
    (h : c.keys.commandCode = "cleanTable") :
    convertToConfigCommandType (c.modelDump "table_name")
      = if strip c.name = "" then .error "Input should be a valid string"
        else .ok (.cleanTable c) := by
  have hcode : storedCommandCode (c.modelDump "table_name") = "cleanTable" :=
    storedCommandCode_of_eq .cleanTable h _
  rw [convertToConfigCommandType]
  simp only [hcode]
  by_cases hq : strip c.name = "" <;>
    simp [NamedConfigurationCommandDto.modelDump, CommandKeys.modelDump, h, commandKeys,
      CleanTableConfigurationCommandDto.create, NamedConfigurationCommandDto.create, hq]

theorem convert_dropDataset (c : NamedConfigurationCommandDto)
    (h : c.keys.commandCode = "dropDataset") :
    convertToConfigCommandType (c.modelDump "dataset_id")
      = if strip c.name = "" then .error "Input should be a valid string"
        else .ok (.dropDataset c) := by
  have hcode : storedCommandCode (c.modelDump "dataset_id") = "dropDataset" :=
    storedCommandCode_of_eq .dropDataset h _
  rw [convertToConfigCommandType]
  simp only [hcode]
  by_cases hq : strip c.name = "" <;>
    simp [NamedConfigurationCommandDto.modelDump, CommandKeys.modelDump, h, commandKeys,
      DropDatasetConfigurationCommandDto.create, NamedConfigurationCommandDto.create, hq]

theorem convert_cleanDataset (c : NamedConfigurationCommandDto)
    (h : c.keys.commandCode = "cleanDataset") :
    convertToConfigCommandType (c.modelDump "dataset_id")
      = if strip c.name = "" then .error "Input should be a valid string"
        else .ok (.cleanDataset c) := by
  have hcode : storedCommandCode (c.modelDump "dataset_id") = "cleanDataset" :=
    storedCommandCode_of_eq .cleanDataset h _
  rw [convertToConfigCommandType]
  simp only [hcode]
  by_cases hq : strip c.name = "" <;>
    simp [NamedConfigurationCommandDto.modelDump, CommandKeys.modelDump, h, commandKeys,
      CleanDatasetConfigurationCommandDto.create, NamedConfigurationCommandDto.create, hq]

theorem convert_exportDataset (c : ExportDatasetConfigurationCommandDto)
    (h : c.keys.commandCode = "exportDataset") :
    convertToConfigCommandType c.modelDump = .ok (.exportDataset
      { c with
        sourceConstantRef := none,
        connectionId := unblankText c.connectionId <|> unblankText c.datasetId,
        tableName := unblankText c.tableName,
        datasetDescription := unblankText c.datasetDescription,
        datasetId := unblankText c.datasetId }) := by
  have hcode : storedCommandCode c.modelDump = "exportDataset" :=
    storedCommandCode_of_eq .exportDataset h _
  have hconnection (a b : Option String) :
      orNull (.ofOption a) (.ofOption b) = .ofOption (a <|> b) := by cases a <;> rfl
  rw [convertToConfigCommandType]
  simp only [hcode]
  simp [ExportDatasetConfigurationCommandDto.modelDump, CommandKeys.modelDump, h, commandKeys,
    ExportDatasetConfigurationCommandDto.create, InputFields.create, inputRefNames,
    resultConstantNames, coerceInputRef, hconnection]

theorem convert_receiveQueue (c : ReceiveQueueConfigurationCommandDto)
    (h : c.keys.commandCode = "receiveQueue") :
    convertToConfigCommandType c.modelDump = .ok (.receiveQueue
      { c with
        retry := if c.retry = 0 then 3 else c.retry
        waitTimeSeconds := if c.waitTimeSeconds = 0 then 1 else c.waitTimeSeconds
        retry_nonneg := by have := c.retry_nonneg; split_ifs <;> omega
        waitTimeSeconds_nonneg := by have := c.waitTimeSeconds_nonneg; split_ifs <;> omega }) := by
  have hcode : storedCommandCode c.modelDump = "receiveQueue" :=
    storedCommandCode_of_eq .receiveQueue h _
  have hm := c.maxMessages_pos
  have hr := c.retry_nonneg
  have hw := c.waitTimeSeconds_nonneg
  have hm' : (if c.maxMessages = 0 then 1 else c.maxMessages) = c.maxMessages := by
    split_ifs <;> omega
  have hr' : ¬(if c.retry = 0 then 3 else c.retry) < 0 := by split_ifs <;> omega
  have hw' : ¬(if c.waitTimeSeconds = 0 then 1 else c.waitTimeSeconds) < 0 := by split_ifs <;> omega
  rw [convertToConfigCommandType]
  simp only [hcode]
  simp [ReceiveQueueConfigurationCommandDto.modelDump, CommandKeys.modelDump, h, commandKeys,
    ReceiveQueueConfigurationCommandDto.create, resultConstantNames, hm', not_le.2 hm, hr', hw']

theorem convert_queryDatabase (c : QueryDatabaseConfigurationCommandDto)
    (h : c.keys.commandCode = "queryDatabase") :
    convertToConfigCommandType c.modelDump = .ok (.queryDatabase c) := by
  have hcode : storedCommandCode c.modelDump = "queryDatabase" :=
    storedCommandCode_of_eq .queryDatabase h _
  rw [convertToConfigCommandType]
  simp only [hcode]
  simp [QueryDatabaseConfigurationCommandDto.modelDump, CommandKeys.modelDump, h, commandKeys,
    QueryDatabaseConfigurationCommandDto.create, resultConstantNames]

theorem convert_runSuite (c : RunSuiteConfigurationCommandDto)
    (h : c.keys.commandCode = "runSuite") :
    convertToConfigCommandType c.modelDump = .ok (.runSuite
      { c with constantRefs := [], constantRefs_suffix := List.nil_suffix }) := by
  have hcode : storedCommandCode c.modelDump = "runSuite" :=
    storedCommandCode_of_eq .runSuite h _
  have hnil : RunSuiteConfigurationCommandDto.refsField (.arr []) = .ok [] := rfl
  rw [convertToConfigCommandType]
  simp only [hcode]
  simp [RunSuiteConfigurationCommandDto.modelDump, CommandKeys.modelDump, h, commandKeys,
    RunSuiteConfigurationCommandDto.create, resultConstantNames, hnil]

/-! ### Assertions -/

theorem storedCommandCode_assert (c : AssertConfigurationCommandDto) :
    storedCommandCode c.modelDump = c.code.value := by
  have hblank : unblank (.str c.code.value) = .str c.code.value := by cases c.code <;> rfl
  have hcode : normalizeCommandCode (.str c.code.value) = c.code.value := by cases c.code <;> rfl
  have hne : c.code.value ≠ "assert" := by cases c.code <;> decide
  simp [storedCommandCode, AssertConfigurationCommandDto.modelDump, hblank, hcode, hne]

theorem create_assertKeys (c : AssertConfigurationCommandDto) (rest : List (String × Json)) :
    CommandKeys.create (("commandCode", .str c.code.value) ::
      ("commandType", .str c.commandType.value) :: rest) .null .assert
        = .ok ⟨c.code.value, c.commandType, by cases c.code <;> rfl, by cases c.code <;> decide⟩ :=
  CommandKeys.create_modelDump ⟨c.code.value, c.commandType, _, _⟩ rest .null .assert

/-- The decoder hands the dump of an assertion to its class. -/
theorem convert_assert (c : AssertConfigurationCommandDto) :
    convertToConfigCommandType c.modelDump = .assert <$> AssertConfigurationCommandDto.create
      (("commandCode", .str c.code.value) :: ("commandType", .str c.commandType.value) ::
        assertArgs c.modelDump) := by
  have htype : normalizeCommandType (firstNonEmpty c.modelDump ["commandType", "command_type"])
      = c.commandType.value := by
    simp [AssertConfigurationCommandDto.modelDump]
  rw [convertToConfigCommandType]
  simp only [storedCommandCode_assert, htype]
  have hcode (m : Except String AssertConfigurationCommandDto) :
      (m >>= fun c => .ok (.assert c)) = ConfigurationCommandDto.assert <$> m := by
    cases m <;> rfl
  cases c.code <;>
    · simp [commandKeys, AssertCode.value]
      rw [if_pos (by decide), hcode]

/-- What the class reads, where it accepts. -/
theorem create_assert_eq_ok {d : List (String × Json)} {c : AssertConfigurationCommandDto}
    (h : AssertConfigurationCommandDto.create d = .ok c) :
    optStrField (Json.field d "error_message") = .ok c.errorMessage ∧
    normalizeEvaluatedObjectType <$> strField (fieldD d "evaluated_object_type" (.str "json-data"))
      = .ok c.evaluatedObjectType ∧
    RuntimeValueRefDto.field (Json.field d "actualConstantRef") = .ok c.actualConstantRef ∧
    Json.field d "expected" = c.expected ∧
    optStrField (Json.field d "expected_json_array_id") = .ok c.expectedJsonArrayId := by
  simp only [AssertConfigurationCommandDto.create, bind_eq_ok] at h
  obtain ⟨errorMessage, hmessage, type, htype, actualRef, -, constantRef, hconstant, expectedRef, -,
    arrayId, harray, keys, -, schema, -, commandKeys, -, h⟩ := h
  rw [hmessage, htype, hconstant, harray]
  split at h
  · simp at h
  · simp at h
  · obtain ⟨h1, h2, h3, h4, h5⟩ := AssertConfigurationCommandDto.checkRequired_eq_ok h
    rw [h1, h2, h3, h4, h5]
    exact ⟨rfl, rfl, rfl, rfl, rfl⟩

/-! ### The round trip -/

/-- A text of white space only. -/
def isBlank : Json → Bool
  | .str s => strip s = ""
  | _ => false

/-- An optional text that is not blank where it is there. -/
def NotBlank (o : Option String) : Prop := ∀ s ∈ o, strip s ≠ ""

instance (o : Option String) : Decidable (NotBlank o) :=
  inferInstanceAs (Decidable (∀ s ∈ o, strip s ≠ ""))

theorem unblank_eq_self {v : Json} : unblank v = v ↔ isBlank v = false := by
  cases v with
  | str s =>
    unfold unblank isBlank
    by_cases h : strip s = "" <;> simp [h]
  | _ => exact ⟨fun _ => rfl, fun _ => rfl⟩

theorem unblankText_eq_self {o : Option String} : unblankText o = o ↔ NotBlank o := by
  cases o with
  | none => simp [unblankText, NotBlank]
  | some s => simp [unblankText, NotBlank, Option.filter]

/-- What of a configuration survives being stored and read back. -/
def ConfigurationCommandDto.RoundTrips : ConfigurationCommandDto → Prop
  | .setVariable c =>
    c.keys.commandCode = "setVariable" ∧ c.sourceType = none ∧ c.data = .null ∧
    c.resolver = none ∧ c.function = none ∧ c.datasetId = none ∧ c.jsonArrayId = none ∧
    c.parameters = none ∧ isBlank c.value.payload = false ∧ NotBlank c.key ∧ NotBlank c.scope
  | .deleteVariable c => c.keys.commandCode = "deleteVariable" ∧ c.targetConstantRef = none
  | .sleep c => c.keys.commandCode = "sleep"
  | .readApi c => c.keys.commandCode = "readApi" ∧ c.timeoutSeconds ≠ none
  | .writeApi c => c.keys.commandCode = "writeApi" ∧ c.timeoutSeconds ≠ none
  | .sendMessageQueue c =>
    c.keys.commandCode = "sendMessageQueue" ∧ strip c.queueId ≠ "" ∧
    c.sourceConstantRef = none ∧ NotBlank c.templateId
  | .saveTable c =>
    c.keys.commandCode = "saveTable" ∧ strip c.tableName ≠ "" ∧ c.sourceConstantRef = none
  | .dropTable c => c.keys.commandCode = "dropTable" ∧ strip c.name ≠ ""
  | .cleanTable c => c.keys.commandCode = "cleanTable" ∧ strip c.name ≠ ""
  | .exportDataset c =>
    c.keys.commandCode = "exportDataset" ∧ c.sourceConstantRef = none ∧
    NotBlank c.connectionId ∧ (c.connectionId = none → c.datasetId = none) ∧
    NotBlank c.tableName ∧ NotBlank c.datasetDescription ∧ NotBlank c.datasetId
  | .dropDataset c => c.keys.commandCode = "dropDataset" ∧ strip c.name ≠ ""
  | .cleanDataset c => c.keys.commandCode = "cleanDataset" ∧ strip c.name ≠ ""
  | .receiveQueue c =>
    c.keys.commandCode = "receiveQueue" ∧ c.retry ≠ 0 ∧ c.waitTimeSeconds ≠ 0
  | .queryDatabase c => c.keys.commandCode = "queryDatabase"
  | .runSuite c => c.keys.commandCode = "runSuite" ∧ c.constantRefs = []
  | .assert c =>
    NotBlank c.errorMessage ∧ c.evaluatedObjectType ≠ "" ∧ isBlank c.expected = false ∧
    c.actualConstantRef = none ∧ c.expectedJsonArrayId = none

/-- The code of the class a configuration belongs to. -/
def ConfigurationCommandDto.HasCode : ConfigurationCommandDto → String → Prop
  | .setVariable _, code => code = CommandCode.setVariable.value
  | .deleteVariable _, code => code = CommandCode.deleteVariable.value
  | .sleep _, code => code = CommandCode.sleep.value
  | .readApi _, code => code = CommandCode.readApi.value
  | .writeApi _, code => code = CommandCode.writeApi.value
  | .sendMessageQueue _, code => code = CommandCode.sendMessageQueue.value
  | .saveTable _, code => code = CommandCode.saveTable.value
  | .dropTable _, code => code = CommandCode.dropTable.value
  | .cleanTable _, code => code = CommandCode.cleanTable.value
  | .exportDataset _, code => code = CommandCode.exportDataset.value
  | .dropDataset _, code => code = CommandCode.dropDataset.value
  | .cleanDataset _, code => code = CommandCode.cleanDataset.value
  | .receiveQueue _, code => code = CommandCode.receiveQueue.value
  | .queryDatabase _, code => code = CommandCode.queryDatabase.value
  | .runSuite _, code => code = CommandCode.runSuite.value
  | .assert _, code => (AssertCode.ofString? code).isSome

/-- A result comes from one of the two branches. -/
theorem of_branch {α : Type} {P Q : Prop} [Decidable P] {x y : Except String α} {a : α}
    (h : (if P then x else y) = .ok a) (hx : P → x = .ok a → Q) (hy : y = .ok a → Q) : Q := by
  by_cases hP : P
  · rw [if_pos hP] at h
    exact hx hP h
  · rw [if_neg hP] at h
    exact hy h

theorem hasCode_of_bind {α : Type} {code : String} {m : Except String α}
    {f : α → ConfigurationCommandDto} {dto : ConfigurationCommandDto}
    (h : (m >>= fun a => pure (f a)) = .ok dto) (hf : ∀ a, (f a).HasCode code) :
    dto.HasCode code := by
  obtain ⟨a, -, ha⟩ := bind_eq_ok.1 h
  obtain rfl := Except.ok.inj ha
  exact hf a

/-- The stored code decides the class that is read. -/
theorem hasCode_of_convert {data : List (String × Json)} {dto : ConfigurationCommandDto}
    (h : convertToConfigCommandType data = .ok dto) : dto.HasCode (storedCommandCode data) := by
  unfold convertToConfigCommandType at h
  dsimp only at h
  generalize storedCommandCode data = code at h ⊢
  refine of_branch h (fun hc h => hasCode_of_bind h fun _ => hc) fun h => ?_
  refine of_branch h (fun hc h => hasCode_of_bind h fun _ => hc) fun h => ?_
  refine of_branch h (fun hc h => ?_) fun h => ?_
  · obtain ⟨_, -, h⟩ := bind_eq_ok.1 h
    exact hasCode_of_bind h fun _ => hc
  refine of_branch h (fun hc h => hasCode_of_bind h fun _ => hc) fun h => ?_
  refine of_branch h (fun hc h => hasCode_of_bind h fun _ => hc) fun h => ?_
  refine of_branch h (fun hc h => hasCode_of_bind h fun _ => hc) fun h => ?_
  refine of_branch h (fun hc h => hasCode_of_bind h fun _ => hc) fun h => ?_
  refine of_branch h (fun hc h => hasCode_of_bind h fun _ => hc) fun h => ?_
  refine of_branch h (fun hc h => hasCode_of_bind h fun _ => hc) fun h => ?_
  refine of_branch h (fun hc h => hasCode_of_bind h fun _ => hc) fun h => ?_
  refine of_branch h (fun hc h => hasCode_of_bind h fun _ => hc) fun h => ?_
  refine of_branch h (fun hc h => hasCode_of_bind h fun _ => hc) fun h => ?_
  refine of_branch h (fun hc h => hasCode_of_bind h fun _ => hc) fun h => ?_
  refine of_branch h (fun hc h => hasCode_of_bind h fun _ => hc) fun h => ?_
  refine of_branch h (fun hc h => hasCode_of_bind h fun _ => hc) fun h => ?_
  refine of_branch h (fun hc h => hasCode_of_bind h fun _ => hc) fun h => ?_
  exact absurd h (by simp)

theorem deriveAssert_ne (data : List (String × Json)) (code : CommandCode) :
    (deriveAssertCommandCode data).value ≠ code.value := by
  cases deriveAssertCommandCode data <;> cases code <;> decide

/-- A configuration whose stored code is that of its class has that code. -/
theorem commandCode_of_stored {k : CommandKeys} {rest : List (String × Json)} {code : CommandCode}
    (h : storedCommandCode (k.modelDump ++ rest) = code.value) : k.commandCode = code.value := by
  rw [storedCommandCode_modelDump] at h
  split_ifs at h with ha
  · exact absurd h (deriveAssert_ne _ code)
  · exact h

/-- A configuration is read back just where it has the code of its class and what
its class makes of it is the configuration itself. -/
theorem convert_eq_iff {k : CommandKeys} {rest : List (String × Json)}
    {dto : ConfigurationCommandDto} (code : CommandCode)
    {r : Except String ConfigurationCommandDto}
    (hread : k.commandCode = code.value → convertToConfigCommandType (k.modelDump ++ rest) = r)
    (hcode : ∀ s, dto.HasCode s → s = code.value) :
    convertToConfigCommandType (k.modelDump ++ rest) = .ok dto
      ↔ k.commandCode = code.value ∧ r = .ok dto := by
  constructor
  · intro h
    have hk := commandCode_of_stored (hcode _ (hasCode_of_convert h))
    exact ⟨hk, (hread hk).symm.trans h⟩
  · rintro ⟨hk, hr⟩
    exact (hread hk).trans hr

/-- An optional text survives where it is not blank. -/
theorem ite_error_eq_ok {P : Prop} [Decidable P] {e : String} {x : Except String α} {a : α} :
    (if P then .error e else x) = .ok a ↔ ¬P ∧ x = .ok a := by
  by_cases h : P <;> simp [h]

theorem reread_eq_self (v : VariableValue) :
    v.reread .null = v ↔ isBlank v.payload = false := by
  cases v with
  | function f => exact ⟨fun _ => rfl, fun _ => rfl⟩
  | _ => simp [VariableValue.reread, VariableValue.payload, unblank_eq_self]

theorem roundTrips_setVariable (c : SetVariableConfigurationCommandDto) :
    convertToConfigCommandType c.modelDump = .ok (.setVariable c)
      ↔ (ConfigurationCommandDto.setVariable c).RoundTrips := by
  refine (convert_eq_iff .setVariable (convert_setVariable c) fun _ => id).trans ?_
  refine and_congr_right fun _ => ?_
  constructor
  · intro h
    have hc := ConfigurationCommandDto.setVariable.inj (Except.ok.inj h)
    have hdata : Json.null = c.data := congrArg (·.data) hc
    have hvalue : c.value.reread c.data = c.value := congrArg (·.value) hc
    rw [← hdata] at hvalue
    exact ⟨(congrArg (·.sourceType) hc).symm, hdata.symm, (congrArg (·.resolver) hc).symm,
      (congrArg (·.function) hc).symm, (congrArg (·.datasetId) hc).symm,
      (congrArg (·.jsonArrayId) hc).symm, (congrArg (·.parameters) hc).symm,
      (reread_eq_self _).1 hvalue, unblankText_eq_self.1 (congrArg (·.key) hc),
      unblankText_eq_self.1 (congrArg (·.scope) hc)⟩
  · rintro ⟨hsource, hdata, hresolver, hfunction, hdataset, harray, hparameters, hvalue, hkey, hscope⟩
    rw [hdata, (reread_eq_self _).2 hvalue, unblankText_eq_self.2 hkey,
      unblankText_eq_self.2 hscope]
    cases c
    simp_all

theorem roundTrips_deleteVariable (c : DeleteVariableConfigurationCommandDto) :
    convertToConfigCommandType c.modelDump = .ok (.deleteVariable c)
      ↔ (ConfigurationCommandDto.deleteVariable c).RoundTrips := by
  refine (convert_eq_iff .deleteVariable (convert_deleteVariable c) fun _ => id).trans ?_
  refine and_congr_right fun _ => ?_
  cases c
  simp [eq_comm]

theorem getD_eq_self {α : Type} (o : Option α) (d : α) : some (o.getD d) = o ↔ o ≠ none := by
  cases o <;> simp

theorem roundTrips_readApi (c : ReadApiConfigurationCommandDto) :
    convertToConfigCommandType c.modelDump = .ok (.readApi c)
      ↔ (ConfigurationCommandDto.readApi c).RoundTrips := by
  refine (convert_eq_iff .readApi (convert_readApi c) fun _ => id).trans ?_
  refine and_congr_right fun _ => ?_
  obtain ⟨⟨⟩, _, _⟩ := c
  simp [getD_eq_self]

theorem roundTrips_writeApi (c : WriteApiConfigurationCommandDto) :
    convertToConfigCommandType c.modelDump = .ok (.writeApi c)
      ↔ (ConfigurationCommandDto.writeApi c).RoundTrips := by
  refine (convert_eq_iff .writeApi (convert_writeApi c) fun _ => id).trans ?_
  refine and_congr_right fun _ => ?_
  obtain ⟨⟨⟩, _, _, _⟩ := c
  simp [getD_eq_self]

theorem roundTrips_sendMessageQueue (c : SendMessageQueueConfigurationCommandDto) :
    convertToConfigCommandType c.modelDump = .ok (.sendMessageQueue c)
      ↔ (ConfigurationCommandDto.sendMessageQueue c).RoundTrips := by
  refine (convert_eq_iff .sendMessageQueue (convert_sendMessageQueue c)
    fun _ => id).trans ?_
  refine and_congr_right fun _ => ?_
  rw [ite_error_eq_ok]
  refine and_congr_right fun _ => ?_
  obtain ⟨⟨⟩, _, _, _, _, _, _⟩ := c
  simp [unblankText_eq_self, @eq_comm _ none]

theorem roundTrips_saveTable (c : SaveTableConfigurationCommandDto) :
    convertToConfigCommandType c.modelDump = .ok (.saveTable c)
      ↔ (ConfigurationCommandDto.saveTable c).RoundTrips := by
  refine (convert_eq_iff .saveTable (convert_saveTable c) fun _ => id).trans ?_
  refine and_congr_right fun _ => ?_
  rw [ite_error_eq_ok]
  refine and_congr_right fun _ => ?_
  obtain ⟨⟨⟩, _, _, _⟩ := c
  simp [eq_comm]

theorem roundTrips_exportDataset (c : ExportDatasetConfigurationCommandDto) :
    convertToConfigCommandType c.modelDump = .ok (.exportDataset c)
      ↔ (ConfigurationCommandDto.exportDataset c).RoundTrips := by
  refine (convert_eq_iff .exportDataset (convert_exportDataset c) fun _ => id).trans ?_
  refine and_congr_right fun _ => ?_
  constructor
  · intro h
    have hc := ConfigurationCommandDto.exportDataset.inj (Except.ok.inj h)
    have hconnection : (unblankText c.connectionId <|> unblankText c.datasetId) = c.connectionId :=
      congrArg (·.connectionId) hc
    have hdataset : unblankText c.datasetId = c.datasetId := congrArg (·.datasetId) hc
    rw [hdataset] at hconnection
    have hnone : c.connectionId = none → c.datasetId = none := by
      intro h0
      rw [h0] at hconnection
      exact hconnection
    have hblank : NotBlank c.connectionId := by
      intro t ht hs
      have hlost : unblankText (some t) = none := by simp [unblankText, Option.filter, hs]
      rw [Option.mem_def.1 ht, hlost] at hconnection
      have hid : c.datasetId = some t := hconnection
      exact unblankText_eq_self.1 hdataset t hid hs
    exact ⟨(congrArg (·.sourceConstantRef) hc).symm, hblank, hnone,
      unblankText_eq_self.1 (congrArg (·.tableName) hc),
      unblankText_eq_self.1 (congrArg (·.datasetDescription) hc),
      unblankText_eq_self.1 hdataset⟩
  · rintro ⟨hconstant, hconnection, hnone, htable, hdescription, hdataset⟩
    have hfirst : (c.connectionId <|> c.datasetId) = c.connectionId := by
      cases h0 : c.connectionId with
      | none => exact hnone h0
      | some t => rfl
    rw [unblankText_eq_self.2 hconnection, unblankText_eq_self.2 hdataset, hfirst,
      unblankText_eq_self.2 htable, unblankText_eq_self.2 hdescription, ← hconstant]

theorem roundTrips_receiveQueue (c : ReceiveQueueConfigurationCommandDto) :
    convertToConfigCommandType c.modelDump = .ok (.receiveQueue c)
      ↔ (ConfigurationCommandDto.receiveQueue c).RoundTrips := by
  refine (convert_eq_iff .receiveQueue (convert_receiveQueue c) fun _ => id).trans ?_
  refine and_congr_right fun _ => ?_
  have hdefault {n d : ℤ} (hd : d ≠ 0) : (if n = 0 then d else n) = n ↔ n ≠ 0 := by
    split_ifs <;> omega
  cases c
  simp [hdefault]

theorem roundTrips_runSuite (c : RunSuiteConfigurationCommandDto) :
    convertToConfigCommandType c.modelDump = .ok (.runSuite c)
      ↔ (ConfigurationCommandDto.runSuite c).RoundTrips := by
  refine (convert_eq_iff .runSuite (convert_runSuite c) fun _ => id).trans ?_
  refine and_congr_right fun _ => ?_
  cases c
  simp [eq_comm]

theorem roundTrips_assert (c : AssertConfigurationCommandDto) :
    convertToConfigCommandType c.modelDump = .ok (.assert c)
      ↔ (ConfigurationCommandDto.assert c).RoundTrips := by
  have hstrip : strip c.evaluatedObjectType = c.evaluatedObjectType := by
    rw [← c.evaluatedObjectType_normal, normalizeEvaluatedObjectType, strip_lower,
      strip_replaceChar (by decide) (by decide), strip_strip]
  have htype : orElse (unblank (.str c.evaluatedObjectType)) (.str "json-data")
      = .str (orText c.evaluatedObjectType "json-data") := by
    by_cases he : c.evaluatedObjectType = ""
    · rw [he]
      rfl
    · rw [unblank, hstrip, if_neg he, orElse_str he, orText, if_neg he]
  rw [convert_assert, map_eq_ok]
  constructor
  · rintro ⟨c', hcreate, hc⟩
    obtain rfl := ConfigurationCommandDto.assert.inj hc
    obtain ⟨hmessage, hobject, hconstant, hexpected, harray⟩ := create_assert_eq_ok hcreate
    simp only [assertArgs, AssertConfigurationCommandDto.modelDump] at *
    simp at hmessage hobject hconstant hexpected harray
    refine ⟨unblankText_eq_self.1 hmessage, ?_, unblank_eq_self.1 hexpected, hconstant.symm,
      harray.symm⟩
    intro he
    rw [htype, he, orText, if_pos rfl] at hobject
    exact absurd (Except.ok.inj hobject) (by decide)
  · rintro ⟨hmessage, hobject, hexpected, hconstant, harray⟩
    refine ⟨c, ?_, rfl⟩
    have hobject' : orText c.evaluatedObjectType "json-data" = c.evaluatedObjectType :=
      if_neg hobject
    have hcode : AssertCode.ofString? c.code.value = some c.code := c.code.ofString?_value
    have hkeys := create_assertKeys c
    have hnone : (Json.ofOption (unblankText none)).truthy = false := rfl
    have hresolve : AssertConfigurationCommandDto.resolveExpectedRef c.expectedRef none
        = c.expectedRef := by cases c.expectedRef <;> rfl
    have hactual : coerceInputRef (some c.actualRef) none = some c.actualRef := rfl
    have hrequired := c.checkRequired_fields
    rw [harray, hconstant] at hrequired
    simp [AssertConfigurationCommandDto.create, assertArgs,
      AssertConfigurationCommandDto.modelDump, htype, hobject', unblankText_eq_self.2 hmessage,
      unblank_eq_self.2 hexpected, harray, hconstant, hkeys, hcode, hnone, hresolve, hactual,
      hrequired]

/-- **A stored configuration is read back as it was just where nothing of it is
lost.** -/
theorem convert_modelDump_iff (dto : ConfigurationCommandDto) :
    convertToConfigCommandType dto.modelDump = .ok dto ↔ dto.RoundTrips := by
  cases dto with
  | setVariable c => exact roundTrips_setVariable c
  | deleteVariable c => exact roundTrips_deleteVariable c
  | sleep c =>
    refine (convert_eq_iff .sleep (convert_sleep c) fun _ => id).trans ?_
    exact and_iff_left rfl
  | readApi c => exact roundTrips_readApi c
  | writeApi c => exact roundTrips_writeApi c
  | sendMessageQueue c => exact roundTrips_sendMessageQueue c
  | saveTable c => exact roundTrips_saveTable c
  | dropTable c =>
    refine (convert_eq_iff .dropTable (convert_dropTable c) fun _ => id).trans ?_
    exact and_congr_right fun _ => ite_error_eq_ok.trans (and_iff_left rfl)
  | cleanTable c =>
    refine (convert_eq_iff .cleanTable (convert_cleanTable c) fun _ => id).trans ?_
    exact and_congr_right fun _ => ite_error_eq_ok.trans (and_iff_left rfl)
  | exportDataset c => exact roundTrips_exportDataset c
  | dropDataset c =>
    refine (convert_eq_iff .dropDataset (convert_dropDataset c) fun _ => id).trans ?_
    exact and_congr_right fun _ => ite_error_eq_ok.trans (and_iff_left rfl)
  | cleanDataset c =>
    refine (convert_eq_iff .cleanDataset (convert_cleanDataset c) fun _ => id).trans ?_
    exact and_congr_right fun _ => ite_error_eq_ok.trans (and_iff_left rfl)
  | receiveQueue c => exact roundTrips_receiveQueue c
  | queryDatabase c =>
    refine (convert_eq_iff .queryDatabase (convert_queryDatabase c) fun _ => id).trans ?_
    exact and_iff_left rfl
  | runSuite c => exact roundTrips_runSuite c
  | assert c => exact roundTrips_assert c

/-- A `receiveQueue` that is not to be retried. -/
def receiveOnce : ReceiveQueueConfigurationCommandDto where
  keys := ⟨"receiveQueue", .action, by decide, by decide⟩
  queueId := ⟨"orders", by decide, by decide⟩
  maxMessages := 1
  retry := 0
  waitTimeSeconds := 1
  target := none
  resultConstant := none
  maxMessages_pos := by decide
  retry_nonneg := by decide
  waitTimeSeconds_nonneg := by decide

/-- **A retry of zero is lost:** the class accepts it, and the decoder makes it
three. -/
theorem retry_zero_lost :
    ReceiveQueueConfigurationCommandDto.create
        [("queue_id", .str "orders"), ("retry", .int 0)] = .ok receiveOnce ∧
      convertToConfigCommandType receiveOnce.modelDump
        = .ok (.receiveQueue { receiveOnce with retry := 3, retry_nonneg := by decide }) ∧
      convertToConfigCommandType receiveOnce.modelDump ≠ .ok (.receiveQueue receiveOnce) := by
  have hread : convertToConfigCommandType receiveOnce.modelDump
      = .ok (.receiveQueue { receiveOnce with retry := 3, retry_nonneg := by decide }) :=
    convert_receiveQueue receiveOnce rfl
  refine ⟨rfl, hread, ?_⟩
  rw [hread]
  intro h
  have hretry := congrArg ReceiveQueueConfigurationCommandDto.retry
    (ConfigurationCommandDto.receiveQueue.inj (Except.ok.inj h))
  exact absurd hretry (by decide)

end Command
end QualityFlow
