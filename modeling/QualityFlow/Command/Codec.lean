/-
# Reading a stored configuration

`convert_to_config_command_type` in
`app/elaborations/models/dtos/configuration_command_dto.py`: the decoder every
stored command passes through before it is planned or executed.

It looks most fields up under several names, and takes a default where it finds
nothing.  A blank text counts as nothing, and so does a zero where the default is
taken with `or`; `RoundTrips` collects the values that are lost so.
-/

import QualityFlow.Command.Dto

namespace QualityFlow
namespace Command

open Py

/-! ### The decoder -/

/-- `_derive_assert_command_code`. -/
def deriveAssertCommandCode (data : List (String × Json)) : AssertCode :=
  let assertType := lower (replaceChar '_' '-' (firstNonEmpty data ["assert_type", "assertType"]).token)
  let arrayId := (firstNonEmpty data
    ["expected_json_array_id", "expectedJsonArrayId", "json_array_id"]).truthy
  if assertType = "equals" then .jsonEquals
  else if assertType = "empty" then if arrayId then .jsonArrayEmpty else .jsonEmpty
  else if assertType = "not-empty" then if arrayId then .jsonArrayNotEmpty else .jsonNotEmpty
  else if assertType = "contains" then if arrayId then .jsonArrayContains else .jsonContains
  else if assertType = "json-array-equals" then .jsonArrayEquals
  else .jsonEquals

/-- `int(value)`. -/
def pyInt : Json → Except String ℤ
  | .int n => .ok n
  | .bool b => .ok (if b then 1 else 0)
  | .float q => .ok (q.num.tdiv q.den)
  | .str s =>
    match intOfText s with
    | some n => .ok n
    | none => .error s!"invalid literal for int() with base 10: '{s}'"
  | _ => .error "int() argument must be a string, a bytes-like object or a real number"

/-- `text or default`. -/
def orText (s d : String) : String := if s = "" then d else s

/-- The names under which the input of a command is looked up. -/
def inputRefNames : List String :=
  ["inputRef", "input_ref", "sourceConstantRef", "source_constant_ref"]

/-- The names under which the result constant of a command is looked up. -/
def resultConstantNames : List String := ["resultConstant", "result_constant"]

/-- The two keys the decoder hands to every class. -/
def commandKeys (code type : String) (default : CommandType) : List (String × Json) :=
  [("commandCode", .str code), ("commandType", .str (orText type default.value))]

/-- The legacy source type of a `setVariable`, under its present name. -/
def legacySourceType (value : Json) : Json :=
  if value.token = "raw" ∨ value.token = "value" then .str "value"
  else if value.token = "json" then .str "json"
  else if value.token = "function" then .str "function"
  else value

/-- What the decoder hands to `SetVariableConfigurationCommandDto`. -/
def setVariableArgs (data : List (String × Json)) : List (String × Json) :=
  [("definitionId", firstNonEmpty data ["definitionId", "definition_id"]),
   ("name", firstNonEmpty data ["name", "key"]),
   ("context", firstNonEmpty data ["context", "scope"]),
   ("valueType", orElse (firstNonEmpty data ["valueType", "value_type"])
     (legacySourceType (firstNonEmpty data ["sourceType", "source_type"]))),
   ("value", firstNonEmpty data ["value", "data"]),
   ("functionName", orElse (firstNonEmpty data ["functionName", "function_name"])
     (firstNonEmpty data ["resolver", "function"])),
   ("target", firstNonEmpty data ["target"]), ("key", firstNonEmpty data ["key"]),
   ("scope", firstNonEmpty data ["scope"])]

/-- What the decoder hands to the two HTTP classes. -/
def httpArgs (data : List (String × Json)) : List (String × Json) :=
  [("url", firstNonEmpty data ["url"]),
   ("queryParams", firstNonEmpty data ["queryParams", "query_params"]),
   ("headers", firstNonEmpty data ["headers"]),
   ("pathParams", firstNonEmpty data ["pathParams", "path_params"]),
   ("authorization", firstNonEmpty data ["authorization"]),
   ("bodyType", orElse (firstNonEmpty data ["bodyType", "body_type"]) (.str "json")),
   ("timeoutSeconds", orElse (firstNonEmpty data ["timeoutSeconds", "timeout_seconds"]) (.int 30)),
   ("resultConstant", firstNonEmpty data resultConstantNames)]

/-- What the decoder hands to `AssertConfigurationCommandDto`. -/
def assertArgs (data : List (String × Json)) : List (String × Json) :=
  let arrayId := firstNonEmpty data
    ["expected_json_array_id", "expectedJsonArrayId", "json_array_id"]
  let expectedRef := firstNonEmpty data ["expectedRef", "expected_ref"]
  let expectedRef := if expectedRef = .null ∧ arrayId.truthy = true then
      .obj [("kind", .str "source"), ("sourceCode", arrayId)] else expectedRef
  [("error_message", firstNonEmpty data ["error_message", "errorMessage"]),
   ("evaluated_object_type", orElse (firstNonEmpty data
     ["evaluated_object_type", "evaluetedObjectType", "evaluatedObjectType"]) (.str "json-data")),
   ("actualRef", firstNonEmpty data
     ["actualRef", "actual_ref", "actualConstantRef", "actual_constant_ref"]),
   ("expected", firstNonEmpty data ["expected"]), ("expectedRef", expectedRef),
   ("compare_keys",
     dumpTokens (normalizeCompareKeys (firstNonEmpty data ["compare_keys", "compareKeys"]))),
   ("json_schema", firstNonEmpty data ["json_schema", "jsonSchema"])]

/-- The command code of a stored configuration. -/
def storedCommandCode (data : List (String × Json)) : String :=
  let code := normalizeCommandCode (firstNonEmpty data
    ["commandCode", "command_code", "operationType", "operation_type", "type"])
  if code = "assert" then (deriveAssertCommandCode data).value else code

/-- `convert_to_config_command_type`. -/
def convertToConfigCommandType (data : List (String × Json)) :
    Except String ConfigurationCommandDto := do
  let code := storedCommandCode data
  let type := normalizeCommandType (firstNonEmpty data ["commandType", "command_type"])
  if code = "setVariable" then
    return .setVariable (← SetVariableConfigurationCommandDto.create
      (commandKeys code type .context ++ setVariableArgs data))
  else if code = "deleteVariable" then
    return .deleteVariable (← DeleteVariableConfigurationCommandDto.create
      (commandKeys code type .context ++
        [("targetRuntimeValueRef", firstNonEmpty data ["targetRuntimeValueRef",
          "target_runtime_value_ref", "targetConstantRef", "target_constant_ref"])]))
  else if code = "sleep" then
    let duration ← pyInt (orElse (firstNonEmpty data ["duration"]) (.int 0))
    return .sleep (← SleepConfigurationCommandDto.create
      (commandKeys code type .action ++ [("duration", .int duration)]))
  else if code = "readApi" then
    return .readApi (← ReadApiConfigurationCommandDto.create
      (commandKeys code type .action ++
        ("method", orElse (firstNonEmpty data ["method"]) (.str "GET")) :: httpArgs data))
  else if code = "writeApi" then
    return .writeApi (← WriteApiConfigurationCommandDto.create
      (commandKeys code type .action ++
        ("method", firstNonEmpty data ["method"]) :: ("body", firstNonEmpty data ["body"]) ::
          httpArgs data))
  else if code = "sendMessageQueue" then
    return .sendMessageQueue (← SendMessageQueueConfigurationCommandDto.create
      (commandKeys code type .action ++
        [("queue_id", firstNonEmpty data ["queue_id", "queueId"]),
         ("inputRef", firstNonEmpty data inputRefNames),
         ("message_template", firstNonEmpty data ["message_template", "messageTemplate"]),
         ("template_id", firstNonEmpty data ["template_id", "templateId"]),
         ("template_params", firstNonEmpty data ["template_params", "templateParams"]),
         ("resultConstant", firstNonEmpty data resultConstantNames)]))
  else if code = "saveTable" then
    return .saveTable (← SaveTableConfigurationCommandDto.create
      (commandKeys code type .action ++
        [("table_name", firstNonEmpty data ["table_name", "tableName"]),
         ("inputRef", firstNonEmpty data inputRefNames),
         ("resultConstant", firstNonEmpty data resultConstantNames)]))
  else if code = "dropTable" then
    return .dropTable (← DropTableConfigurationCommandDto.create
      (commandKeys code type .action ++
        [("table_name", firstNonEmpty data ["table_name", "tableName"])]))
  else if code = "cleanTable" then
    return .cleanTable (← CleanTableConfigurationCommandDto.create
      (commandKeys code type .action ++
        [("table_name", firstNonEmpty data ["table_name", "tableName"])]))
  else if code = "exportDataset" then
    return .exportDataset (← ExportDatasetConfigurationCommandDto.create
      (commandKeys code type .action ++
        [("connection_id",
           firstNonEmpty data ["connection_id", "connectionId", "dataset_id", "datasetId"]),
         ("table_name", firstNonEmpty data ["table_name", "tableName"]),
         ("inputRef", firstNonEmpty data inputRefNames),
         ("mode", orElse (firstNonEmpty data ["mode", "export_mode", "exportMode"]) (.str "append")),
         ("mapping_keys",
           dumpTokens (normalizeCompareKeys (firstNonEmpty data ["mapping_keys", "mappingKeys"]))),
         ("dataset_description",
           firstNonEmpty data ["dataset_description", "datasetDescription"]),
         ("dataset_id", firstNonEmpty data ["dataset_id", "datasetId"]),
         ("resultConstant", firstNonEmpty data resultConstantNames)]))
  else if code = "dropDataset" then
    return .dropDataset (← DropDatasetConfigurationCommandDto.create
      (commandKeys code type .action ++
        [("dataset_id", firstNonEmpty data ["dataset_id", "datasetId"])]))
  else if code = "cleanDataset" then
    return .cleanDataset (← CleanDatasetConfigurationCommandDto.create
      (commandKeys code type .action ++
        [("dataset_id", firstNonEmpty data ["dataset_id", "datasetId"])]))
  else if code = "runSuite" then
    return .runSuite (← RunSuiteConfigurationCommandDto.create
      (commandKeys code type .action ++
        [("suite_id", firstNonEmpty data ["suite_id", "suiteId"]),
         ("runtimeValueRefs", orElse (firstNonEmpty data ["runtimeValueRefs", "runtime_value_refs",
           "constantRefs", "constant_refs"]) (.arr [])),
         ("resultConstant", firstNonEmpty data resultConstantNames)]))
  else if code = "receiveQueue" then
    return .receiveQueue (← ReceiveQueueConfigurationCommandDto.create
      (commandKeys code type .action ++
        [("queue_id", firstNonEmpty data ["queue_id", "queueId"]),
         ("max_messages", orElse (firstNonEmpty data ["max_messages", "maxMessages"]) (.int 1)),
         ("retry", orElse (firstNonEmpty data ["retry"]) (.int 3)),
         ("wait_time_seconds",
           orElse (firstNonEmpty data ["wait_time_seconds", "waitTimeSeconds"]) (.int 1)),
         ("target", firstNonEmpty data ["target"]),
         ("resultConstant", firstNonEmpty data resultConstantNames)]))
  else if code = "queryDatabase" then
    return .queryDatabase (← QueryDatabaseConfigurationCommandDto.create
      (commandKeys code type .action ++
        [("connection_id", firstNonEmpty data ["connection_id", "connectionId"]),
         ("query", firstNonEmpty data ["query", "sql"]),
         ("target", firstNonEmpty data ["target"]),
         ("resultConstant", firstNonEmpty data resultConstantNames)]))
  else if (AssertCode.ofString? code).isSome then
    return .assert (← AssertConfigurationCommandDto.create
      (commandKeys code type .assert ++ assertArgs data))
  else
    .error s!"Unsupported command code: {code}"

/-! ### What the decoder finds in a dump -/

/-- A value as `_first_non_empty` sees it: a blank text is nothing. -/
def unblank : Json → Json
  | .str s => if strip s = "" then .null else .str s
  | v => v

/-- The same for an optional text. -/
def unblankText (o : Option String) : Option String := o.filter fun s => strip s ≠ ""

/-- The first of two values that is not null. -/
def orNull : Json → Json → Json
  | .null, y => y
  | x, _ => x

@[simp] theorem orNull_null_left (y : Json) : orNull .null y = y := rfl

@[simp] theorem orNull_null_right (x : Json) : orNull x .null = x := by
  cases x <;> rfl

@[simp] theorem orNull_str (s : String) (y : Json) : orNull (.str s) y = .str s := rfl

@[simp] theorem firstNonEmpty_nil (data : List (String × Json)) :
    firstNonEmpty data [] = .null := rfl

@[simp] theorem firstNonEmpty_cons (data : List (String × Json)) (key : String)
    (keys : List String) :
    firstNonEmpty data (key :: keys)
      = orNull (unblank (Json.field data key)) (firstNonEmpty data keys) := by
  rw [firstNonEmpty]
  cases Json.field data key with
  | str s =>
    simp only [unblank]
    split_ifs <;> rfl
  | _ => rfl

@[simp] theorem field_nil (key : String) : Json.field [] key = .null := rfl

@[simp] theorem field_cons (k : String) (v : Json) (d : List (String × Json)) (key : String) :
    Json.field ((k, v) :: d) key = if k = key then v else Json.field d key := by
  rw [Json.field, Dict.get?_cons]
  split_ifs <;> rfl

@[simp] theorem fieldD_nil (key : String) (default : Json) : fieldD [] key default = default := rfl

@[simp] theorem unblank_null : unblank .null = .null := rfl

@[simp] theorem unblank_int (n : ℤ) : unblank (.int n) = .int n := rfl

@[simp] theorem unblank_token (t : Token) : unblank (.str t.val) = .str t.val :=
  if_neg t.strip_ne_empty

@[simp] theorem unblank_unblank (v : Json) : unblank (unblank v) = unblank v := by
  cases v with
  | str s => by_cases h : strip s = "" <;> simp [unblank, h]
  | _ => rfl

@[simp] theorem unblank_ofOption (o : Option String) :
    unblank (.ofOption o) = .ofOption (unblankText o) := by
  cases o with
  | none => rfl
  | some s => by_cases h : strip s = "" <;> simp [unblank, unblankText, Option.filter, Json.ofOption, h]

/-- A field whose dump is never a text is found as it was dumped. -/
theorem unblank_dumpOption {α : Type} {dump : α → Json} (h : ∀ x, unblank (dump x) = dump x)
    (o : Option α) : unblank (dumpOption dump o) = dumpOption dump o := by
  cases o with
  | none => rfl
  | some x => exact h x

/-- A field that reads the dump of a value reads the dump of an optional one. -/
theorem field_dumpOption {α : Type} {dump : α → Json} {field : Json → Except String (Option α)}
    (hnull : field .null = .ok none) (h : ∀ x, field (dump x) = .ok (some x)) (o : Option α) :
    field (dumpOption dump o) = .ok o := by
  cases o with
  | none => exact hnull
  | some x => exact h x

@[simp] theorem optStrField_ofOption (o : Option String) : optStrField (.ofOption o) = .ok o := by
  cases o <;> rfl

@[simp] theorem unblankText_target (t : Option TargetPath) :
    unblankText (t.map TargetPath.path) = t.map TargetPath.path := by
  cases t with
  | none => rfl
  | some t =>
    have hne : strip t.path ≠ "" := by
      intro h
      have hnormal := t.normal
      simp [normalizeTargetPath, h] at hnormal
    simp [unblankText, Option.filter, hne]

@[simp] theorem field_target (t : Option TargetPath) :
    TargetPath.field (.ofOption (t.map TargetPath.path)) = .ok t := by
  cases t with
  | none => rfl
  | some t => exact TargetPath.field_path t

@[simp] theorem unblank_resultConstant (o : Option ResultConstantDto) :
    unblank (dumpOption ResultConstantDto.modelDump o)
      = dumpOption ResultConstantDto.modelDump o :=
  unblank_dumpOption (fun _ => rfl) o

@[simp] theorem field_resultConstant (o : Option ResultConstantDto) :
    ResultConstantDto.field (dumpOption ResultConstantDto.modelDump o) = .ok o :=
  field_dumpOption rfl ResultConstantDto.field_modelDump o

@[simp] theorem unblank_kvParams (o : Option HttpKvParams) :
    unblank (dumpOption HttpKvParams.modelDump o) = dumpOption HttpKvParams.modelDump o :=
  unblank_dumpOption (fun _ => rfl) o

@[simp] theorem field_kvParams (o : Option HttpKvParams) :
    HttpKvParams.field (dumpOption HttpKvParams.modelDump o) = .ok o :=
  field_dumpOption rfl HttpKvParams.field_modelDump o

@[simp] theorem listField_kvParams (o : Option HttpKvParams) :
    HttpKvParams.listField (dumpOption HttpKvParams.modelDump o) = .ok o :=
  field_dumpOption rfl HttpKvParams.listField_modelDump o

@[simp] theorem unblank_authorization (o : Option HttpAuthorization) :
    unblank (dumpOption HttpAuthorization.modelDump o)
      = dumpOption HttpAuthorization.modelDump o :=
  unblank_dumpOption (fun a => by cases a <;> rfl) o

@[simp] theorem field_authorization (o : Option HttpAuthorization) :
    HttpAuthorization.field (dumpOption HttpAuthorization.modelDump o) = .ok o :=
  field_dumpOption rfl HttpAuthorization.field_modelDump o

@[simp] theorem unblank_messageTemplate (o : Option SendMessageTemplateDto) :
    unblank (dumpOption SendMessageTemplateDto.modelDump o)
      = dumpOption SendMessageTemplateDto.modelDump o :=
  unblank_dumpOption (fun _ => rfl) o

@[simp] theorem field_messageTemplate (o : Option SendMessageTemplateDto) :
    SendMessageTemplateDto.field (dumpOption SendMessageTemplateDto.modelDump o) = .ok o :=
  field_dumpOption rfl SendMessageTemplateDto.field_modelDump o

@[simp] theorem unblank_dict (o : Option (List (String × Json))) :
    unblank (dumpOption Json.obj o) = dumpOption Json.obj o :=
  unblank_dumpOption (fun _ => rfl) o

@[simp] theorem optDictField_dict (o : Option (List (String × Json))) :
    optDictField (dumpOption Json.obj o) = .ok o :=
  field_dumpOption rfl (fun _ => rfl) o

@[simp] theorem unblank_inputRef (r : InputRefDto) : unblank r.modelDump = r.modelDump := by
  cases r <;> rfl

@[simp] theorem unblank_inputRefs (o : Option InputRefDto) :
    unblank (dumpOption InputRefDto.modelDump o) = dumpOption InputRefDto.modelDump o :=
  unblank_dumpOption unblank_inputRef o

@[simp] theorem field_inputRefs (o : Option InputRefDto) :
    InputRefDto.field (dumpOption InputRefDto.modelDump o) = .ok o :=
  field_dumpOption rfl InputRefDto.field_modelDump o

@[simp] theorem orNull_inputRef (r : InputRefDto) (y : Json) :
    orNull r.modelDump y = r.modelDump := by
  cases r <;> rfl

@[simp] theorem unblank_runtimeValueRef (r : RuntimeValueRefDto) :
    unblank r.modelDump = r.modelDump := rfl

@[simp] theorem orNull_runtimeValueRef (r : RuntimeValueRefDto) (y : Json) :
    orNull r.modelDump y = r.modelDump := rfl

@[simp] theorem unblank_timeout (o : Option Timeout) :
    unblank (dumpOption Timeout.modelDump o) = dumpOption Timeout.modelDump o :=
  unblank_dumpOption (fun t => by cases t <;> rfl) o

/-- A null time limit is read as the default one. -/
@[simp] theorem field_orElse_timeout (o : Option Timeout) :
    Timeout.field (orElse (dumpOption Timeout.modelDump o) (.int 30))
      = .ok (some (o.getD .default)) := by
  cases o with
  | none =>
    show some <$> Timeout.ofInt 30 = _
    rw [Timeout.ofInt, dif_pos (by decide), dif_pos thirty_lt_floatLimit]
    rfl
  | some t => rw [dumpOption, orElse, if_pos t.truthy_modelDump, Timeout.field_modelDump]; rfl

@[simp] theorem unblank_commandType (t : CommandType) :
    unblank (.str t.value) = .str t.value := by
  cases t <;> rfl

@[simp] theorem normalizeCommandType_value (t : CommandType) :
    normalizeCommandType (.str t.value) = t.value := by
  cases t <;> rfl

@[simp] theorem orText_value (t : CommandType) (d : String) : orText t.value d = t.value := by
  cases t <;> rfl

@[simp] theorem orElse_bodyType (b : HttpBodyType) (d : Json) :
    orElse (unblank (.str b.value)) d = .str b.value := by
  cases b <;> rfl

@[simp] theorem unblank_writeMethod (m : WriteMethod) :
    unblank (.str m.value) = .str m.value := by
  cases m <;> rfl

@[simp] theorem normalizeHttpMethod_writeMethod (m : WriteMethod) :
    WriteMethod.ofString? (normalizeHttpMethod m.value) = some m := by
  cases m <;> rfl

@[simp] theorem unblank_body (b : HttpBody) : unblank b.modelDump = b.modelDump := by
  have htree (t : HttpInputTree) : unblank t.modelDump = t.modelDump := by
    cases t with
    | node n => cases n <;> rfl
    | _ => rfl
  cases b with
  | json t => exact htree t
  | text t => exact htree t
  | formUrlEncoded f => exact unblank_dumpOption (fun _ => rfl) f

@[simp] theorem orElse_exportMode (m : ExportMode) (d : Json) :
    orElse (unblank (.str m.value)) d = .str m.value := by
  cases m <;> rfl

@[simp] theorem unblank_compareKeys (k : Option CompareKeys) :
    unblank (CompareKeys.modelDump k) = CompareKeys.modelDump k := by
  cases k <;> rfl

/-- The comparison keys that are read back from a dump. -/
@[simp] theorem ofList_compareKeys (k : Option CompareKeys) :
    CompareKeys.ofList (normalizeCompareKeys (CompareKeys.modelDump k)) = k := by
  cases k with
  | none => rfl
  | some k => simp [CompareKeys.modelDump]

@[simp] theorem orNull_refs (refs : List RuntimeValueRefDto) (y : Json) :
    orNull (unblank (RunSuiteConfigurationCommandDto.dumpRefs refs)) y
      = RunSuiteConfigurationCommandDto.dumpRefs refs := rfl

@[simp] theorem orElse_refs (refs : List RuntimeValueRefDto) :
    orElse (RunSuiteConfigurationCommandDto.dumpRefs refs) (.arr [])
      = RunSuiteConfigurationCommandDto.dumpRefs refs := by
  cases refs <;> rfl

/-- An integer that is zero is read as the default. -/
@[simp] theorem intField_orElse (n d : ℤ) :
    intField (orElse (.int n) (.int d)) = .ok (if n = 0 then d else n) := by
  unfold orElse
  split_ifs <;> simp_all [intField, Json.truthy]

@[simp] theorem pyInt_orElse (n : ℤ) : pyInt (orElse (.int n) (.int 0)) = .ok n := by
  unfold orElse
  split_ifs <;> simp_all [pyInt, Json.truthy]

end Command
end QualityFlow
