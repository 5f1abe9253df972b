/-
# Assertions

`app/elaborations/services/operations/assert_command_executor.py`, and what it calls in
`app/elaborations/services/asserts/assert_evaluator_composite.py` and
`app/elaborations/services/asserts/json_data_assert_evaluators.py`.

The executor resolves what an assertion is about and what it is compared with, and hands
both to the evaluator of its type, with rows of data: the resolved actual value where it
is a list, and the data that came into the command where it is not.
-/

import QualityFlow.Command.Dto
import QualityFlow.Py.Counter
import QualityFlow.Py.Dumps
import QualityFlow.Py.Except

namespace QualityFlow
namespace Assert

open Py Command

/-! ### What is read -/

/-- A row: a JSON object. -/
abbrev Row := List (String × Json)

/-- A stored `JsonPayloadEntity`. -/
structure JsonPayloadEntity where
  jsonType : String
  payload : Json

/-- What `jsonschema.validate` raises. -/
inductive SchemaFailure where
  | validationError (message : String)
  | schemaError (message : String)

/-- What an assertion calls besides its evaluator: the two resolvers, the store of JSON
payloads, and `jsonschema.validate`. -/
structure Services where
  resolveInputReference : InputRefDto → Json → Except String Json
  resolveDynamicValue : Json → Except String Json
  jsonPayload? : String → Option JsonPayloadEntity
  validate : Json → List (String × Json) → Option SchemaFailure

/-- `AssertEvaluationContext`. -/
structure AssertEvaluationContext where
  cfg : AssertConfigurationCommandDto
  data : List Json
  actual : Json
  expected : Json

/-! ### Helpers of the evaluators -/

/-- The loop of `_normalize_rows`, from an index on. -/
def normalizeRowsFrom (label : String) (index : ℕ) : List Json → Except String (List Row)
  | [] => .ok []
  | .obj row :: items => do return row :: (← normalizeRowsFrom label (index + 1) items)
  | _ :: _ => .error s!"{label} item at index {index} must be a JSON object."

/-- `_normalize_rows`. -/
def normalizeRows (value : Json) (label : String) : Except String (List Row) :=
  match value with
  | .arr items => normalizeRowsFrom label 0 items
  | _ => .error s!"{label} must be a JSON array."

/-- `_normalize_json_object`. -/
def normalizeJsonObject (value : Json) (label : String) : Except String Row :=
  match value with
  | .obj row => .ok row
  | _ => .error s!"{label} must be a JSON object."

/-- `_is_empty_json_value`. -/
def isEmptyJsonValue : Json → Bool
  | .null => true
  | .obj row => row.isEmpty
  | .arr items => items.isEmpty
  | .str s => s.isEmpty
  | _ => false

/-- `[key for key in compare_keys if key not in row]`. -/
def missingKeys (compareKeys : List String) (row : Row) : List String :=
  compareKeys.filter fun key => !Dict.has row key

/-- `str` of a list of texts. -/
def textOfKeys (keys : List String) : String := Json.repr (.arr (keys.map .str))

/-- The values of some keys of a row, each as `_serialize_value` writes it. -/
def projection (compareKeys : List String) (row : Row) : List String :=
  compareKeys.map fun key => (Json.field row key).dumps true

/-- The loop of `_build_multiset`, from an index on. -/
def buildMultisetFrom (compareKeys : List String) (label : String) (index : ℕ)
    (multiset : Counter (List String)) : List Row → Except String (Counter (List String))
  | [] => .ok multiset
  | row :: rows =>
    let missing := missingKeys compareKeys row
    if missing ≠ [] then
      .error s!"{label} item at index {index} is missing compare_keys: {textOfKeys missing}"
    else
      buildMultisetFrom compareKeys label (index + 1)
        (multiset.add (projection compareKeys row)) rows

/-- `_build_multiset`. -/
def buildMultiset (rows : List Row) (compareKeys : List String) (label : String) :
    Except String (Counter (List String)) :=
  buildMultisetFrom compareKeys label 0 [] rows

/-- The rows of a payload, an object being one row. -/
def payloadRows (payload : Json) (label : String) : Except String (List Row) :=
  match payload with
  | .obj row => .ok [row]
  | payload => normalizeRows payload label

/-- `_load_expected_json_array_rows`. -/
def loadExpectedJsonArrayRows (services : Services) (context : AssertEvaluationContext) :
    Except String (List Row) :=
  if context.expected ≠ .null then payloadRows context.expected "Expected value"
  else
    let id := strip (context.cfg.expectedJsonArrayId.getD "")
    if id = "" then .error "expected_json_array_id is required."
    else
      match services.jsonPayload? id with
      | none => .error s!"Expected json-array '{id}' not found."
      | some entity =>
        if strip entity.jsonType ≠ "json-array" then
          .error s!"Datasource '{id}' is not of type 'json-array'."
        else payloadRows entity.payload "Expected json-array payload"

/-- `list(cfg.compare_keys or [])`. -/
def compareKeys (cfg : AssertConfigurationCommandDto) : List String :=
  match cfg.compareKeys with
  | none => []
  | some keys => keys.keys.map Token.val

/-! ### The evaluators -/

/-- `NotEmptyDataAssertEvaluator`. -/
def evaluateNotEmpty (context : AssertEvaluationContext) : Except String Unit :=
  if isEmptyJsonValue context.actual then
    .error "Assert failed: expected actual value to be not empty."
  else .ok ()

/-- `EmptyDataAssertEvaluator`. -/
def evaluateEmpty (context : AssertEvaluationContext) : Except String Unit :=
  if isEmptyJsonValue context.actual then .ok ()
  else .error "Assert failed: expected actual value to be empty."

/-- The loop of `SchemaValidationDataAssertEvaluator`, from an index on. -/
def validateRowsFrom (services : Services) (schema : List (String × Json)) (index : ℕ) :
    List Row → Except String Unit
  | [] => .ok ()
  | row :: rows =>
    match services.validate (.obj row) schema with
    | some (.validationError message) =>
      .error s!"Assert failed: row {index} does not match json schema ({message})."
    | some (.schemaError message) =>
      .error s!"Assert failed: invalid json schema ({message})."
    | none => validateRowsFrom services schema (index + 1) rows

/-- `SchemaValidationDataAssertEvaluator`. -/
def evaluateSchema (services : Services) (context : AssertEvaluationContext) :
    Except String Unit :=
  match context.cfg.jsonSchema with
  | none => .error "Assert failed: json_schema is required."
  | some schema => do
    validateRowsFrom services schema 0 (← normalizeRows (.arr context.data) "Actual data")

/-- `ContainsDataAssertEvaluator`. -/
def evaluateContains (context : AssertEvaluationContext) : Except String Unit := do
  let keys := compareKeys context.cfg
  if keys = [] then .error "Assert failed: compare_keys is required."
  else
    let actual ← normalizeJsonObject context.actual "Actual value"
    let expected ← normalizeJsonObject context.expected "Expected value"
    if missingKeys keys expected ≠ [] then
      .error s!"Expected value is missing compare_keys: {textOfKeys (missingKeys keys expected)}"
    else if missingKeys keys actual ≠ [] then
      .error s!"Actual value is missing compare_keys: {textOfKeys (missingKeys keys actual)}"
    else if keys.all fun key => (Json.field actual key).pyEq (Json.field expected key) then .ok ()
    else .error "Assert failed: actual value does not contain expected values."

/-- What the two array evaluators have in common: the rows counted, and compared. -/
def evaluateArrays (compare : Counter (List String) → Counter (List String) → Bool)
    (message : String) (services : Services) (context : AssertEvaluationContext) :
    Except String Unit := do
  let keys := compareKeys context.cfg
  if keys = [] then .error "Assert failed: compare_keys is required."
  else
    let actualRows ← normalizeRows (.arr context.data) "Actual data"
    let expectedRows ← loadExpectedJsonArrayRows services context
    let actual ← buildMultiset actualRows keys "Actual data"
    let expected ← buildMultiset expectedRows keys "Expected json-array payload"
    if compare actual expected then .ok () else .error message

/-- `JsonArrayContainsDataAssertEvaluator`. -/
def evaluateArrayContains : Services → AssertEvaluationContext → Except String Unit :=
  evaluateArrays (fun actual expected => actual.all fun kv => decide (kv.2 ≤ expected.get kv.1))
    "Assert failed: actual data is not contained in expected json-array."

/-- `JsonArrayEqualsDataAssertEvaluator`. -/
def evaluateArrayEquals : Services → AssertEvaluationContext → Except String Unit :=
  evaluateArrays Counter.eq "Assert failed: actual data is not equal to expected json-array."

/-- `EqualsDataAssertEvaluator`. -/
def evaluateEquals (context : AssertEvaluationContext) : Except String Unit :=
  if context.actual.pyEq context.expected then .ok ()
  else .error "Assert failed: actual value is not equal to expected value."

/-- `_EVALUATOR_MAPPING`. -/
def evaluatorMapping (services : Services) :
    Dict (String × String) (AssertEvaluationContext → Except String Unit) :=
  [(("json-data", "not-empty"), evaluateNotEmpty), (("json-data", "empty"), evaluateEmpty),
   (("json-data", "schema-validation"), evaluateSchema services),
   (("json-data", "contains"), evaluateContains),
   (("json-data", "json-array-equals"), evaluateArrayEquals services),
   (("json-data", "json-array-contains"), evaluateArrayContains services),
   (("json-data", "equals"), evaluateEquals)]

/-- `data if isinstance(data, list) else []`. -/
def listOrEmpty : Json → List Json
  | .arr items => items
  | _ => []

/-- `evaluate_assert`. -/
def evaluateAssert (services : Services) (cfg : AssertConfigurationCommandDto)
    (data actual expected : Json) : Except String Unit :=
  let objectType := lower (replaceChar '_' '-' (strip cfg.evaluatedObjectType))
  let assertType := lower (replaceChar '_' '-' (strip cfg.assertType))
  match (evaluatorMapping services).get? (objectType, assertType) with
  | none =>
    .error (s!"Unsupported assert evaluator for object_type='{objectType}', "
      ++ s!"assert_type='{assertType}'.")
  | some evaluate => evaluate { cfg, data := listOrEmpty data, actual, expected }

/-! ### The executor -/

/-- `ExecutionResultDto`. -/
structure ExecutionResultDto where
  data : Json
  result : List Json

/-- `ExecutionResultDto.extend`. -/
def ExecutionResultDto.extend (r new : ExecutionResultDto) : ExecutionResultDto where
  data := new.data
  result := r.result ++ new.result

/-- What `append_assert_artifact` appends. -/
structure AssertArtifact where
  commandId : String
  assertType : String
  status : String
  actual : Json
  expected : Json
  error : Option String

/-- The resolved `expected` of a command, or what its `expectedRef` resolves to. -/
def resolveExpected (services : Services) (cfg : AssertConfigurationCommandDto) (data : Json) :
    Except String Json := do
  let resolved ←
    if cfg.expected ≠ .null then services.resolveDynamicValue cfg.expected else .ok .null
  match resolved, cfg.expectedRef with
  | .null, some ref => services.resolveInputReference ref data
  | resolved, _ => return resolved

/-- `resolved_actual if isinstance(resolved_actual, list) else data`. -/
def dataToEvaluate (actual data : Json) : Json :=
  match actual with
  | .arr items => .arr items
  | _ => data

/-- `AssertOperationExecutor.execute`: the artifacts it appends, and its result. -/
def execute (services : Services) (operationId : String) (cfg : AssertConfigurationCommandDto)
    (data : Json) : List AssertArtifact × Except String ExecutionResultDto :=
  match services.resolveInputReference cfg.actualRef data with
  | .error e => ([], .error e)
  | .ok actual =>
    match resolveExpected services cfg data with
    | .error e => ([], .error e)
    | .ok expected =>
      match evaluateAssert services cfg (dataToEvaluate actual data) actual expected with
      | .error technicalMessage =>
        let configuredMessage := strip (cfg.errorMessage.getD "")
        ([{ commandId := operationId, assertType := cfg.assertType, status := "failed", actual,
            expected, error := some technicalMessage }],
          .error (if configuredMessage = "" then technicalMessage else configuredMessage))
      | .ok () =>
        ([{ commandId := operationId, assertType := cfg.assertType, status := "passed", actual,
            expected, error := none }],
          .ok { data, result := [.obj [("message", .str (s!"Assert '{cfg.code.value}' passed for "
            ++ s!"'{cfg.evaluatedObjectType}' data."))]] })

/-- The executor returns. -/
def Succeeds (services : Services) (operationId : String) (cfg : AssertConfigurationCommandDto)
    (data : Json) : Prop :=
  ∃ result, (execute services operationId cfg data).2 = .ok result

end Assert
end QualityFlow
