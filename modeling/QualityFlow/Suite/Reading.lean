/-
# What a command reads before it acts

`app/elaborations/services/operations/command_data_resolver.py`,
`http_input_node_resolver.py` beside it, and the executors that call them, as
`execute_operations` of `command_executor_composite.py` starts them.

A command reads constants by the ids of their definitions and sources by their codes, in
the order its executor goes through its configuration, and a raise ends it.  What the
tables, the run context, the clock and the services answer is left open.  What a command
then does, and what it writes, is left out.
-/

import QualityFlow.Context.Resolver
import QualityFlow.Py.Asks
import QualityFlow.Suite.Policy

namespace QualityFlow
namespace Suite

open Py Command Context
open Asks (ofExcept)

/-! ### Questions -/

/-- What comes back from the service that hands out a token. -/
inductive PostAnswer where
  | exception (text : String)
  | status (code : ℕ)
  | notJson
  | body (value : Json)

/-- What an executor asks the tables, the context of the run, the clock and the services. -/
inductive Question where
  /-- `CommandConstantDefinitionService().get_by_id`. -/
  | definition (definitionId : String)
  /-- `resolve_dynamic_value` on the path of a definition. -/
  | constant (definitionId path : String)
  /-- `resolve_dynamic_value` on any other value. -/
  | dynamic (value : Json)
  /-- `context.visible_sources.get`. -/
  | source (sourceCode : String)
  /-- The payload of `JsonFilesService().get_by_id`. -/
  | jsonArray (jsonArrayId : String)
  /-- What `get_dataset_or_raise_for_runtime` and `normalize_perimeter` raise. -/
  | dataset (datasetId : String)
  /-- The rows of `execute_dataset_query`. -/
  | rows (datasetId : String) (parameters : List (String × Json))
  /-- `QueueService().get_by_id` and the connection of its broker. -/
  | queue (queueId : String)
  | clock (resolver : String)
  | post (endpoint : String) (payload : List (String × String))

/-- The answers to a question. -/
abbrev Question.Answer : Question → Type
  | .definition _ => Option CommandConstantDefinitionEntity
  | .constant _ _ | .dynamic _ | .rows _ _ => Except String Json
  | .source _ => Option (List (String × Json))
  | .jsonArray _ => Option Json
  | .dataset _ | .queue _ => Except String Unit
  | .clock _ => Json
  | .post _ _ => PostAnswer

/-- A computation of an executor. -/
abbrev Reading := Asks Question.Answer

/-! ### Constants -/

/-- `resolve_definition_path`. -/
def resolveDefinitionPath (definitionId : String) :
    Reading (CommandConstantDefinitionEntity × String) :=
  .ask (.definition definitionId) fun
    | none => .raised s!"Constant definition '{definitionId}' not found."
    | some definition =>
      .done (definition, s!"$.{definition.contextScope.value}.constants.{definition.name}")

/-- A constant by its definition, its path and its value; a path that does not resolve stays
as it is. -/
def readConstant (definitionId : String) :
    Reading (CommandConstantDefinitionEntity × String × Json) := do
  let (definition, path) ← resolveDefinitionPath definitionId
  let resolved ← .ask (.constant definitionId path) ofExcept
  return (definition, path, resolved)

/-- `resolve_definition_input_data`, on an id that is not blank. -/
def resolveDefinitionInputData (definitionId : String) : Reading Json := do
  let (_, path, resolved) ← readConstant definitionId
  return if resolved = .str path then .null else resolved

/-! ### Sources -/

/-- `DatasetParameterResolver.resolve_builtin`. -/
def resolveBuiltin (resolverName : String) : Reading Json :=
  let normalized := strip resolverName
  if normalized = "$now" ∨ normalized = "$today" then Asks.question (Question.clock normalized)
  else .raised s!"Unsupported dataset built-in resolver '{normalized}'."

/-- One round of `_resolve_dataset_parameter_bindings`. -/
def resolveBinding (parameterName : String) : Json → Reading Json
  | .obj binding =>
    let bindingKind := lower (Json.field binding "kind").token
    if bindingKind = "constant_ref" then do
      let (_, path, resolved) ← readConstant (Json.field binding "definitionId").token
      if resolved = .str path then
        .raised s!"Dataset parameter '{parameterName}' constant reference is not resolved."
      else return resolved
    else if bindingKind = "built_in" then
      resolveBuiltin (Json.field binding "resolver").token
    else return .obj binding
  | binding => return binding

/-- `_resolve_dataset_parameter_bindings`. -/
def resolveDatasetParameterBindings :
    List (String × Json) → Reading (List (String × Json))
  | [] => return []
  | (parameterName, binding) :: bindings => do
    let value ← resolveBinding parameterName binding
    let values ← resolveDatasetParameterBindings bindings
    return (parameterName, value) :: values

/-- `bindings if isinstance(bindings, dict) else {}`. -/
def parameterBindings (source : List (String × Json)) : List (String × Json) :=
  match Json.field source "parameterBindings" with
  | .obj bindings => bindings
  | _ => []

/-- `_resolve_source_payload`, once the source has been found. -/
def resolveFoundSource (source : List (String × Json)) : Reading (Json × String) :=
  let sourceType := (Json.field source "sourceType").token
  if sourceType = "jsonArray" then
    let jsonArrayId := (Json.field source "jsonArrayId").token
    .ask (.jsonArray jsonArrayId) fun
      | none => .raised s!"Json array '{jsonArrayId}' not found"
      | some (.arr payload) => .done (.arr payload, sourceType)
      | some payload => .done (.arr [payload], sourceType)
  else if sourceType = "dataset" then do
    let datasetId := (Json.field source "datasetId").token
    .ask (.dataset datasetId) ofExcept
    let parameterValues ← resolveDatasetParameterBindings (parameterBindings source)
    let rows ← .ask (.rows datasetId parameterValues) ofExcept
    return (if rows.truthy then rows else .arr [], sourceType)
  else .raised s!"Unsupported sourceType '{sourceType}'."

/-- `_resolve_source_payload`. -/
def resolveSourcePayload (sourceCode : String) : Reading (Json × String) :=
  .ask (.source (strip sourceCode)) fun
    | none => .raised s!"Source '{sourceCode}' is not visible in the current execution context."
    | some source => resolveFoundSource source

/-- `resolve_input_reference`. -/
def resolveInputReference (inputRef : Option InputRefDto) (data : Json) : Reading (Json × String) :=
  match inputRef with
  | none => return (data, "json")
  | some (.runtimeValue definitionId) => do
    let resolved ← resolveDefinitionInputData definitionId.val
    let (definition, _) ← resolveDefinitionPath definitionId.val
    return (resolved, definition.valueType.text)
  | some (.source sourceCode) => resolveSourcePayload sourceCode.val

/-! ### Paths inside a value -/

/-- `".." in path`. -/
def hasTwoDots : List Char → Bool
  | '.' :: '.' :: _ => true
  | _ :: rest => hasTwoDots rest
  | [] => false

/-- `_split_relative_field_path`, on a path that is not blank. -/
def splitRelativeFieldPath (path : String) : Except String (List String) :=
  let s := path.toList.foldl splitStep { parts := [], buffer := [], bracketLevel := 0 }
  let parts := s.parts ++ [String.ofList s.buffer]
  if path.toList.head? = some '.' ∨ path.toList.getLast? = some '.' ∨ hasTwoDots path.toList ∨
      "" ∈ parts then
    .error s!"Invalid fieldPath '{path}'."
  else .ok parts

/-- The loop of `_relative_segment_tokens`: each round takes a character at least. -/
def relativeTokensLoop (segment : String) : ℕ → List Char → Except String (List Key)
  | 0, _ => .ok []
  | _, [] => .ok []
  | rounds + 1, '[' :: remaining =>
    let between := remaining.takeWhile (· ≠ ']')
    if between.length = remaining.length then .error s!"Invalid field path segment '{segment}'."
    else
      let indexToken := strip (String.ofList between)
      match if indexToken = "" then none else intOfDigits indexToken with
      | none => .error s!"Invalid list index '{indexToken}' in field path '{segment}'."
      | some i => do
        return .index i ::
          (← relativeTokensLoop segment rounds (remaining.drop (between.length + 1)))
  | rounds + 1, char :: remaining => do
    let name := (char :: remaining).takeWhile (· ≠ '[')
    return .name (String.ofList name) ::
      (← relativeTokensLoop segment rounds ((char :: remaining).drop name.length))

/-- `_relative_segment_tokens`. -/
def relativeSegmentTokens (segment : String) : Except String (List Key) :=
  relativeTokensLoop segment (strip segment).toList.length (strip segment).toList

/-- One token of the walk; what is not there is `None`, and ends it. -/
def stepInto : Json → Key → Option Json
  | .arr xs, .index i => xs[i]?
  | .obj kvs, .name k => Dict.get? kvs k
  | _, _ => none

/-- The loops of `_resolve_relative_field_path`: a segment is cut when the walk gets to it. -/
def walkSegments : Json → List String → Except String Json
  | current, [] => .ok current
  | current, segment :: segments => do
    let tokens ← relativeSegmentTokens segment
    match tokens.foldlM stepInto current with
    | none => return .null
    | some next => walkSegments next segments

/-- `_resolve_relative_field_path`. -/
def resolveRelativeFieldPath (value : Json) (fieldPath : String) : Except String Json :=
  let normalized := strip fieldPath
  if normalized = "" then .ok value
  else if startsWith normalized "$" then
    .error "fieldPath must be relative and must not start with '$'."
  else do walkSegments value (← splitRelativeFieldPath normalized)

/-! ### The inputs of a request -/

/-- `resolve_http_input_node` on a leaf. -/
def resolveHttpInputNode : HttpInputNode → Reading Json
  | .literal value => .ask (.dynamic value) ofExcept
  | .runtimeValue definitionId fieldPath => do
    let (_, path, resolved) ← readConstant definitionId.val
    if resolved = .str path then return .null
    else
      match fieldPath with
      | some fieldPath => ofExcept (resolveRelativeFieldPath resolved fieldPath.val)
      | none => return resolved
  | .source sourceCode => do
    let (payload, _) ← resolveSourcePayload sourceCode.val
    return payload
  | .builtIn resolver => Asks.question (Question.clock resolver.value)

mutual

/-- `resolve_http_input_node`. -/
def resolveHttpInputTree : HttpInputTree → Reading Json
  | .null => return .null
  | .node node => resolveHttpInputNode node
  | .arr items => do return .arr (← resolveHttpInputList items)
  | .obj items => do return .obj (← resolveHttpInputItems items)

def resolveHttpInputList : List HttpInputTree → Reading (List Json)
  | [] => return []
  | item :: items => do
    let value ← resolveHttpInputTree item
    let values ← resolveHttpInputList items
    return value :: values

def resolveHttpInputItems : List (String × HttpInputTree) → Reading (List (String × Json))
  | [] => return []
  | (key, item) :: items => do
    let value ← resolveHttpInputTree item
    let values ← resolveHttpInputItems items
    return (key, value) :: values

end

/-- The items of some parameters that resolve to something. -/
def resolveKvItems (params : Option HttpKvParams) : Reading (List (String × Json)) := do
  let items := (params.map HttpKvParams.items).getD []
  let resolved ← items.mapM fun kv => do return (kv.1, ← resolveHttpInputNode kv.2)
  return resolved.filter fun kv => kv.2 ≠ .null

/-- `resolve_http_kv_params`. -/
def resolveHttpKvParams (params : Option HttpKvParams) : Reading (Option (List (String × Json))) := do
  let result ← resolveKvItems params
  return if result = [] then none else some result

/-- `resolve_http_headers`. -/
def resolveHttpHeaders (headers : Option HttpKvParams) : Reading (List (String × String)) := do
  let result ← resolveKvItems headers
  return result.map fun kv => (kv.1, kv.2.pyStr)

/-- The parts of an address: characters, and the names between braces. -/
def urlParts : Option (List Char) → List Char → List (Char ⊕ String)
  | none, [] => []
  | some name, [] => (.inl '\x7b') :: name.map .inl
  | none, char :: rest =>
    if char = '\x7b' then urlParts (some []) rest else .inl char :: urlParts none rest
  | some name, char :: rest =>
    if char = '\x7d' then
      if name = [] then .inl '\x7b' :: .inl '\x7d' :: urlParts none rest
      else .inr (String.ofList name) :: urlParts none rest
    else urlParts (some (name ++ [char])) rest

/-- `_replace_placeholder` on a part. -/
def replacePlaceholder (resolved : Dict String String) : Char ⊕ String → Except String String
  | .inl char => .ok (String.ofList [char])
  | .inr name =>
    match resolved.get? name with
    | some value => .ok value
    | none => .error s!"URL path parameter '{name}' has no matching pathParams entry."

/-- One path parameter. -/
def resolvePathParam (kv : String × HttpInputNode) : Reading (String × String) := do
  let value ← resolveHttpInputNode kv.2
  if value = .null then .raised s!"Path parameter '{kv.1}' resolved to None."
  else return (kv.1, value.pyStr)

/-- `resolve_path_params_and_url`. -/
def resolvePathParamsAndUrl (url : String) (pathParams : Option HttpKvParams) : Reading String :=
  let parts := urlParts none url.toList
  match pathParams with
  | none =>
    let unresolved := parts.filterMap fun part => part.getRight?
    if unresolved = [] then return url
    else .raised ("URL contains unresolved path parameter(s): "
      ++ String.intercalate ", " unresolved ++ ".")
  | some params => do
    let resolved ← params.items.mapM resolvePathParam
    let texts ← ofExcept (parts.mapM (replacePlaceholder resolved))
    return String.join texts

/-- The checks on a field of a form before it is resolved. -/
def checkFormNode (key : String) : HttpInputNode → Reading Unit
  | .source _ => .raised s!"formUrlEncoded field '{key}' does not support datasource values."
  | .runtimeValue definitionId _ => do
    let (definition, _) ← resolveDefinitionPath definitionId.val
    if definition.valueType = .dataset ∨ definition.valueType = .jsonArray then
      .raised (s!"formUrlEncoded field '{key}' does not support runtime value type "
        ++ s!"'{definition.valueType.text}'.")
    else return ()
  | .literal _ | .builtIn _ => return ()

/-- One field of a form. -/
def resolveFormField (key : String) (node : HttpInputNode) : Reading (Option (String × Json)) := do
  checkFormNode key node
  match ← resolveHttpInputNode node with
  | .null => return none
  | .arr _ | .obj _ =>
    .raised (s!"formUrlEncoded field '{key}' resolved to a non-scalar value. "
      ++ "Use a fieldPath that targets a scalar leaf.")
  | value => return some (key, value)

/-- `resolve_http_body`. -/
def resolveHttpBody : HttpBody → Reading Json
  | .json tree | .text tree => resolveHttpInputTree tree
  | .formUrlEncoded none => return .null
  | .formUrlEncoded (some form) => do
    let fields ← form.items.mapM fun kv => resolveFormField kv.1.val kv.2.val
    let result := fields.filterMap id
    return if result = [] then .null else .obj result

/-! ### Authorization -/

def base64Digits : List Char :=
  "ABCDEFGHIJKLMNOPQRSTUVWXYZabcdefghijklmnopqrstuvwxyz0123456789+/".toList

def base64Digit (n : ℕ) : Char := base64Digits.getD n 'A'

/-- `base64.b64encode`. -/
def b64encode : List ℕ → List Char
  | [] => []
  | [a] => [base64Digit (a / 4), base64Digit (a % 4 * 16), '=', '=']
  | [a, b] => [base64Digit (a / 4), base64Digit (a % 4 * 16 + b / 16), base64Digit (b % 16 * 4), '=']
  | a :: b :: c :: rest =>
    base64Digit (a / 4) :: base64Digit (a % 4 * 16 + b / 16) ::
      base64Digit (b % 16 * 4 + c / 64) :: base64Digit (c % 64) :: b64encode rest

/-- `_resolve_leaf`. -/
def resolveLeaf (node : HttpInputNode) : Reading String := do
  return (← resolveHttpInputNode node).token

/-- The token that a service hands out; `request` and `response` are the words of the
messages. -/
def requestToken (endpoint : String) (payload : List (String × String))
    (request response : String) : Reading (List (String × String)) :=
  .ask (.post endpoint payload) fun
    | .exception text => .raised s!"{request} failed: {text}"
    | .status code => .raised s!"{request} returned status {code}."
    | .notJson => .raised s!"{response} is not valid JSON."
    | .body value =>
      let accessToken := match value with
        | .obj body => (Json.field body "access_token").token
        | _ => ""
      if accessToken = "" then .raised s!"{response} missing 'access_token'."
      else .done [("Authorization", s!"Bearer {accessToken}")]

/-- `if not value: raise`, for a leaf of an authorization. -/
def requireLeaf (field auth value : String) : Except String Unit :=
  if value = "" then .error s!"authorization.{field} resolved to empty for {auth} auth." else .ok ()

/-- `compile_authorization`. -/
def compileAuthorization : Option HttpAuthorization → Reading (List (String × String))
  | none | some .empty => return []
  | some (.basic username password) => do
    let username ← resolveLeaf username
    let password ← resolveLeaf password
    ofExcept (requireLeaf "username" "basic" username)
    let credentials := b64encode ((username ++ ":" ++ password).toUTF8.toList.map UInt8.toNat)
    return [("Authorization", s!"Basic {String.ofList credentials}")]
  | some (.bearer token) => do
    let token ← resolveLeaf token
    ofExcept (requireLeaf "token" "bearer" token)
    return [("Authorization", s!"Bearer {token}")]
  | some (.apiKey username apiKey authEndpoint) => do
    let username ← resolveLeaf username
    let apiKey ← resolveLeaf apiKey
    let authEndpoint ← resolveLeaf authEndpoint
    ofExcept (requireLeaf "username" "apiKey" username)
    ofExcept (requireLeaf "apiKey" "apiKey" apiKey)
    ofExcept (requireLeaf "authEndpoint" "apiKey" authEndpoint)
    requestToken authEndpoint [("username", username), ("apiKey", apiKey)]
      "apiKey auth handshake" "apiKey auth handshake response"
  | some (.oauth2 tokenUrl clientId clientSecret) => do
    let tokenUrl ← resolveLeaf tokenUrl
    let clientId ← resolveLeaf clientId
    let clientSecret ← resolveLeaf clientSecret
    ofExcept (requireLeaf "tokenUrl" "oauth2" tokenUrl)
    ofExcept (requireLeaf "clientId" "oauth2" clientId)
    requestToken tokenUrl
      [("grant_type", "client_credentials"), ("client_id", clientId), ("client_secret", clientSecret)]
      "oauth2 token request" "oauth2 token response"

/-! ### Executors -/

/-- What `_request_kwargs` gathers from the run. -/
structure RequestKwargs where
  url : String
  headers : List (String × String)
  params : Option (List (String × Json))
  body : Json

/-- `_request_kwargs`; only a `writeApi` has a body. -/
def requestKwargs (fields : HttpRequestFields) (body : Option HttpBody) : Reading RequestKwargs := do
  let url ← resolvePathParamsAndUrl fields.url.val fields.pathParams
  let headers ← resolveHttpHeaders fields.headers
  let authHeaders ← compileAuthorization fields.authorization
  let params ← resolveHttpKvParams fields.queryParams
  let body ← match body with
    | none => pure Json.null
    | some body => resolveHttpBody body
  return { url, headers := Dict.update headers authHeaders, params, body }

/-- The expected value that stands in an assertion itself. -/
def resolveExpected (cfg : AssertConfigurationCommandDto) : Reading Json :=
  if cfg.expected = .null then return .null else .ask (.dynamic cfg.expected) ofExcept

/-- The operands of `AssertOperationExecutor`. -/
def assertOperands (cfg : AssertConfigurationCommandDto) (data : Json) : Reading (Json × Json) := do
  let (actual, _) ← resolveInputReference (some cfg.actualRef) data
  let expected ← resolveExpected cfg
  if expected = .null ∧ cfg.expectedRef ≠ none then do
    let (expected, _) ← resolveInputReference cfg.expectedRef data
    return (actual, expected)
  else return (actual, expected)

/-- The constants that `RunSuiteOperationExecutor` hands on. -/
def runSuiteConstants (refs : List RuntimeValueRefDto) : Reading (List (String × Json)) := do
  let values ← refs.mapM fun ref => do
    let (definition, _, resolved) ← readConstant ref.definitionId.val
    return (definition.name, resolved)
  return values.filter fun kv => kv.2 ≠ .null

/-- What a command reads of the run before it acts; `data` is what the command before it has
handed on. -/
def readCommand (data : Json) : ConfigurationCommandDto → Reading Unit
  | .readApi c => do
    let _ ← requestKwargs c.toHttpRequestFields none
  | .writeApi c => do
    let _ ← requestKwargs c.toHttpRequestFields (some c.body)
  | .sendMessageQueue c => do
    .ask (.queue c.queueId) ofExcept
    let _ ← resolveInputReference (some c.inputRef) data
  | .saveTable c => do
    let _ ← resolveInputReference (some c.inputRef) data
  | .exportDataset c => do
    let _ ← resolveInputReference (some c.inputRef) data
  | .runSuite c => do
    let _ ← runSuiteConstants c.runtimeValueRefs
  | .assert c => do
    let _ ← assertOperands c data
  | .deleteVariable c => do
    let _ ← resolveDefinitionPath c.targetRuntimeValueRef.definitionId.val
  | .setVariable _ | .sleep _ | .dropTable _ | .cleanTable _ | .dropDataset _ | .cleanDataset _
  | .receiveQueue _ | .queryDatabase _ => return ()

/-! ### What can be read -/

/-- `_is_runtime_ref_expression`. -/
def isRuntimeRefExpression (value : String) : Bool :=
  strip value = "$" || startsWith (strip value) "$."

mutual

/-- Whether `resolve_dynamic_value` does anything but return a value as it is. -/
def hasReference : Json → Bool
  | .str s => isRuntimeRefExpression s
  | .arr xs => anyReference xs
  | .obj kvs => Dict.has kvs "$const" || Dict.has kvs "$ref" || anyItemReference kvs
  | .null | .bool _ | .int _ | .float _ => false

def anyReference : List Json → Bool
  | [] => false
  | x :: xs => hasReference x || anyReference xs

def anyItemReference : List (String × Json) → Bool
  | [] => false
  | (_, x) :: kvs => hasReference x || anyItemReference kvs

end

/-- The answers that are possible where some sources are visible: a value without references
is returned as it is, and a definition has the id it is asked for, which is not blank. -/
def Possible (visible : String → Option (List (String × Json))) :
    ∀ q : Question, q.Answer → Prop
  | .source sourceCode, (answer : Option (List (String × Json))) => answer = visible sourceCode
  | .dynamic value, (answer : Except String Json) => hasReference value = false → answer = .ok value
  | .definition definitionId, (answer : Option CommandConstantDefinitionEntity) =>
    ∀ d ∈ answer, d.id = definitionId ∧ definitionId ≠ ""
  | .constant _ _, _ | .jsonArray _, _ | .dataset _, _ | .rows _ _, _ | .queue _, _ | .clock _, _
  | .post _ _, _ => True

/-- A question that a command can come to, in a scope and where some sources are visible. -/
def CanAsk (visible : String → Option (List (String × Json))) (scope : ExecutionScope)
    (cfg : ConfigurationCommandDto) (q : Question) : Prop :=
  (∃ contract, validateOperationPolicy cfg (some scope) = .ok contract) ∧
    ∃ data, (readCommand data cfg).MayAsk (Possible visible) q

/-- A source that a command can look up. -/
def CanLookUp (visible : String → Option (List (String × Json))) (scope : ExecutionScope)
    (cfg : ConfigurationCommandDto) (sourceCode : String) : Prop :=
  CanAsk visible scope cfg (.source sourceCode)

/-- A constant that a command can read. -/
def CanRead (visible : String → Option (List (String × Json))) (scope : ExecutionScope)
    (cfg : ConfigurationCommandDto) (definitionId : String) : Prop :=
  ∃ path, CanAsk visible scope cfg (.constant definitionId path)

end Suite
end QualityFlow
