/-
# Importing an OpenAPI document

`import_openapi_json` of `app/mock_servers/services/openapi_import_service.py`.

The import goes through the paths of the document, and for each path through the methods.  An
operation whose route is known, or was found before, is skipped, and any other becomes an entry
of the server.  Routes are compared by the path normalized once; an entry has the path
normalized twice, and is stored with it normalized a third time.  For a path that ends in
spaces and slashes these differ, so that two entries can come to stand for one route.

What `json.loads` makes of the file is given.
-/

import QualityFlow.MockServer.Routes

namespace QualityFlow
namespace MockServer

open Py

/-! ### Responses -/

/-- `_is_openapi_3`. -/
def isOpenapi3 (payload : Dict String Json) : Bool :=
  startsWith (Json.field payload "openapi").token "3."

/-- The place of a media type among those of a response. -/
def mediaScore (mediaType : String) : ℕ :=
  let value := (lower (strip mediaType)).toList
  if value = "application/json".toList then 0
  else if "+json".toList.isSuffixOf value then 1
  else if value.tails.any fun rest => "json".toList.isPrefixOf rest then 2
  else 99

/-- `_iter_json_media_types`. -/
def iterJsonMediaTypes (content : Dict String Json) : List (Dict String Json) :=
  let items := content.filterMap fun kv => kv.2.asObj?.map fun entry => (mediaScore kv.1, entry)
  (items.insertionSort fun a b => a.1 ≤ b.1).map Prod.snd

/-- The example that an entry of `examples` stands for, where it is not `None`. -/
def exampleOf? : Json → Option Json
  | .null => none
  | .obj entry =>
    if Dict.has entry "value" then some (Json.field entry "value") else some (.obj entry)
  | entry => some entry

/-- `_extract_example_from_media_entry`. -/
def extractExample (mediaEntry : Dict String Json) : Json :=
  if mediaEntry.has "example" then Json.field mediaEntry "example"
  else
    let examples := ((Json.field mediaEntry "examples").asObj?.getD []).map Prod.snd
    match examples.findSome? exampleOf? with
    | some value => value
    | none =>
      match Json.field mediaEntry "schema" with
      | .obj schema => Json.field schema "example"
      | _ => .null

/-- `int(status_value)` of a text that is a two and two more digits. -/
def successStatus? (status : String) : Option ℤ :=
  match status.toList with
  | ['2', b, c] => do return 200 + 10 * (← decimalValue b) + (← decimalValue c)
  | _ => none

/-- The first entry with a status of two hundred and some. -/
def successEntry? (responses : Dict String Json) : Option (ℤ × Dict String Json) :=
  responses.findSome? fun kv => do
    let entry ← kv.2.asObj?
    let status ← successStatus? (strip kv.1)
    return (status, entry)

/-- `_pick_response_entry`. -/
def pickResponseEntry (responses : Dict String Json) : ℤ × Dict String Json :=
  match (Json.field responses "200").asObj?, successEntry? responses,
      (Json.field responses "default").asObj? with
  | some entry, _, _ => (200, entry)
  | none, some found, _ => found
  | none, none, some entry => (200, entry)
  | none, none, none => (200, [])

/-- `_extract_response_body`. -/
def extractResponseBody (responseEntry : Dict String Json) : Json :=
  let default : Json := .obj [("status", .str "ok")]
  match Json.field responseEntry "content" with
  | .obj content =>
    (((iterJsonMediaTypes content).map extractExample).find? (· ≠ .null)).getD default
  | _ => default

/-- `_response_body_type`. -/
def responseBodyType : Json → String
  | .str _ => "string"
  | .null => "any"
  | _ => "json"

/-- `_response_headers`. -/
def responseHeaders : Json → Json
  | .obj _ | .arr _ => .obj [("Content-Type", .str "application/json")]
  | _ => .obj []

/-! ### Entries -/

/-- `_route_label`. -/
def routeLabel (method path : String) : String := upper (strip method) ++ " " ++ normalizePath path

/-- `_operation_description`. -/
def operationDescription (method path : String) (operation : Dict String Json) : String :=
  let summary := (Json.field operation "summary").token
  let operationId := (Json.field operation "operationId").token
  if summary ≠ "" then summary
  else if operationId ≠ "" then operationId
  else routeLabel method path

/-- An entry of `apis_to_append`: the keys that all entries have alike are left out. -/
structure MockApiEntry where
  order : ℕ
  description : String
  method : String
  path : String
  configurationJson : Dict String Json

/-- `_build_mock_api`. -/
def buildMockApi (method path : String) (operation : Dict String Json) (order : ℕ) :
    MockApiEntry :=
  let responses := (Json.field operation "responses").asObj?.getD []
  let (responseStatus, responseEntry) := pickResponseEntry responses
  let responseBody := extractResponseBody responseEntry
  let normalizedPath := normalizePath path
  { order
    description := operationDescription method normalizedPath operation
    method := upper (strip method)
    path := normalizedPath
    configurationJson := [("method", .str (upper (strip method))), ("path", .str normalizedPath),
      ("params", .obj []), ("authMode", .str "inherit"), ("authorization", .obj []),
      ("headers", .obj []), ("body", .null), ("body_type", .str "any"),
      ("body_match", .str "contains"), ("response_status", .int responseStatus),
      ("response_headers", responseHeaders responseBody), ("response_body", responseBody),
      ("response_body_type", .str (responseBodyType responseBody)), ("priority", .int 0),
      ("pre_response_commands", .arr []), ("response_operations", .arr []),
      ("post_response_commands", .arr [])] }

/-! ### The import -/

/-- A method and a path. -/
abbrev Route := String × String

/-- `OpenApiImportResult`. -/
structure OpenApiImportResult where
  apisToAppend : List MockApiEntry
  skippedDuplicates : List String
  templatedPaths : List String
  warnings : List String
  errors : List String

/-- The result before anything is read. -/
def OpenApiImportResult.empty : OpenApiImportResult := ⟨[], [], [], [], []⟩

/-- The variables of the loop. -/
structure Import extends OpenApiImportResult where
  discovered : List Route

/-- `_normalize_existing_routes`. -/
def normalizeExistingRoutes (existing : Option (List Route)) : List Route :=
  (existing.getD []).map fun route => (upper (strip route.1), normalizePath route.2)

/-- One turn of the loop over the methods. -/
def importMethod (known : List Route) (path : String) (pathItem : Dict String Json) (s : Import)
    (method : String) : Import :=
  match Json.field pathItem (lower method) with
  | .obj operation =>
    if (method, path) ∈ known ∨ (method, path) ∈ s.discovered then
      { s with skippedDuplicates := s.skippedDuplicates ++ [routeLabel method path] }
    else
      { s with
        discovered := s.discovered ++ [(method, path)]
        apisToAppend := s.apisToAppend ++
          [buildMockApi method path operation (s.apisToAppend.length + 1)] }
  | _ => s

/-- A path with braces is noted once. -/
def noteTemplated (path : String) (s : Import) : Import :=
  if '\x7b' ∈ path.toList ∧ '\x7d' ∈ path.toList ∧ path ∉ s.templatedPaths then
    { s with
      templatedPaths := s.templatedPaths ++ [path]
      warnings := s.warnings ++ ["Il path templated " ++ path ++
        " verra importato letteralmente e non matchera /... dinamici."] }
  else s

/-- One turn of the loop over the paths. -/
def importPath (known : List Route) (s : Import) (entry : String × Json) : Import :=
  let path := normalizePath entry.1
  match entry.2 with
  | .obj pathItem => methods.foldl (importMethod known path pathItem) (noteTemplated path s)
  | _ =>
    { s with warnings := s.warnings ++
        ["Path " ++ path ++ " ignorato: definizione path non valida."] }

/-- Why a file cannot be read. -/
inductive LoadError where
  | unicode
  | json (message : String)

/-- `import_openapi_json`, on what the file is read as. -/
def importOpenapiJson (payload : Except LoadError Json) (existing : Option (List Route)) :
    OpenApiImportResult :=
  let failed (message : String) : OpenApiImportResult := { OpenApiImportResult.empty with
    errors := [message] }
  match payload with
  | .error .unicode => failed "Il file deve essere un JSON UTF-8 valido."
  | .error (.json message) => failed ("JSON non valido: " ++ message)
  | .ok (.obj payload) =>
    if isOpenapi3 payload then
      match Json.field payload "paths" with
      | .obj paths =>
        (paths.foldl (importPath (normalizeExistingRoutes existing))
          { OpenApiImportResult.empty with discovered := [] }).toOpenApiImportResult
      | _ => failed "Spec OpenAPI non valida: sezione 'paths' mancante o non valida."
    else failed "Sono supportati solo file OpenAPI 3.x in formato JSON."
  | .ok _ => failed "Il file OpenAPI deve contenere un oggetto JSON."

/-! ### Operations -/

/-- An operation of a document: an object under a supported method of an object path item. -/
structure Operation where
  path : String
  method : String
  operation : Dict String Json

/-- The operations of a path item, by the order of the methods. -/
def pathOperations (entry : String × Json) : List Operation :=
  match entry.2 with
  | .obj pathItem => methods.filterMap fun method =>
      (Json.field pathItem (lower method)).asObj?.map fun operation => ⟨entry.1, method, operation⟩
  | _ => []

/-- The operations of a document: the paths in its order, and for each path the methods. -/
def operations (paths : Dict String Json) : List Operation := paths.flatMap pathOperations

/-- The route of an operation by which duplicates are found. -/
def Operation.key (op : Operation) : Route := (op.method, normalizePath op.path)

/-- The label of an operation that is skipped. -/
def Operation.label (op : Operation) : String := routeLabel op.method (normalizePath op.path)

/-- The entry of an operation that is imported. -/
def Operation.entry (op : Operation) (order : ℕ) : MockApiEntry :=
  buildMockApi op.method (normalizePath op.path) op.operation order

/-- The entries of some operations, numbered from one. -/
def entries (ops : List Operation) : List MockApiEntry :=
  ops.mapIdx fun i op => op.entry (i + 1)

/-- What has been decided of each operation: whether it is imported. -/
structure Decided (decisions : List (Operation × Bool)) (result : OpenApiImportResult) : Prop where
  imported : result.apisToAppend = entries ((decisions.filter fun d => d.2).map Prod.fst)
  skipped : result.skippedDuplicates =
    (decisions.filter fun d => !d.2).map fun d => d.1.label

/-- The keys of the operations that are imported. -/
def importedKeys (decisions : List (Operation × Bool)) : List Route :=
  (decisions.filter fun d => d.2).map fun d => d.1.key

/-- What the loops keep, once they have gone through some operations. -/
structure ImportInv (known : List Route) (done : List Operation) (s : Import)
    (decisions : List (Operation × Bool)) : Prop where
  all : decisions.map Prod.fst = done
  decided : Decided decisions s.toOpenApiImportResult
  discovered : s.discovered = importedKeys decisions
  nodup : (importedKeys decisions).Nodup
  new : ∀ key ∈ importedKeys decisions, key ∉ known
  seen : ∀ op ∈ done, op.key ∈ known ∨ op.key ∈ importedKeys decisions

theorem importedKeys_concat (decisions : List (Operation × Bool)) (op : Operation) :
    importedKeys (decisions ++ [(op, true)]) = importedKeys decisions ++ [op.key] := by
  simp [importedKeys]

theorem importedKeys_concat_false (decisions : List (Operation × Bool)) (op : Operation) :
    importedKeys (decisions ++ [(op, false)]) = importedKeys decisions := by
  simp [importedKeys]

theorem entries_concat (ops : List Operation) (op : Operation) :
    entries (ops ++ [op]) = entries ops ++ [op.entry (ops.length + 1)] := by
  simp [entries]

/-- An operation that is a duplicate. -/
theorem ImportInv.skip {known : List Route} {done : List Operation} {s : Import}
    {decisions : List (Operation × Bool)} (h : ImportInv known done s decisions) (op : Operation)
    (hknown : op.key ∈ known ∨ op.key ∈ s.discovered) :
    ImportInv known (done ++ [op])
      { s with skippedDuplicates := s.skippedDuplicates ++ [op.label] }
      (decisions ++ [(op, false)]) := by
  constructor
  · simp [h.all]
  · constructor
    · simpa using h.decided.imported
    · simp [h.decided.skipped]
  · rw [importedKeys_concat_false]
    exact h.discovered
  · rw [importedKeys_concat_false]
    exact h.nodup
  · rw [importedKeys_concat_false]
    exact h.new
  · rw [importedKeys_concat_false]
    intro op' hop'
    rcases List.mem_append.1 hop' with hold | hlast
    · exact h.seen op' hold
    · obtain rfl := List.mem_singleton.1 hlast
      rwa [h.discovered] at hknown

/-- An operation that is new. -/
theorem ImportInv.append {known : List Route} {done : List Operation} {s : Import}
    {decisions : List (Operation × Bool)} (h : ImportInv known done s decisions) (op : Operation)
    (hnew : ¬(op.key ∈ known ∨ op.key ∈ s.discovered)) :
    ImportInv known (done ++ [op])
      { s with
        discovered := s.discovered ++ [op.key]
        apisToAppend := s.apisToAppend ++ [op.entry (s.apisToAppend.length + 1)] }
      (decisions ++ [(op, true)]) := by
  obtain ⟨hunknown, hfirst⟩ := not_or.1 hnew
  rw [h.discovered] at hfirst
  constructor
  · simp [h.all]
  · constructor
    · show s.apisToAppend ++ [op.entry (s.apisToAppend.length + 1)] = _
      have hlength : s.apisToAppend.length =
          ((decisions.filter fun d => d.2).map Prod.fst).length := by
        rw [h.decided.imported, entries, List.length_mapIdx]
      rw [List.filter_append, List.map_append]
      show _ = entries (_ ++ [op])
      rw [entries_concat, ← hlength, h.decided.imported]
    · simpa using h.decided.skipped
  · rw [importedKeys_concat, ← h.discovered]
  · rw [importedKeys_concat, ← List.concat_eq_append]
    exact h.nodup.concat hfirst
  · rw [importedKeys_concat]
    intro key hkey
    rcases List.mem_append.1 hkey with hold | hlast
    · exact h.new key hold
    · obtain rfl := List.mem_singleton.1 hlast
      exact hunknown
  · rw [importedKeys_concat]
    intro op' hop'
    rcases List.mem_append.1 hop' with hold | hlast
    · exact (h.seen op' hold).imp_right (List.mem_append_left _)
    · obtain rfl := List.mem_singleton.1 hlast
      exact .inr (List.mem_append_right _ (List.mem_singleton_self _))

/-- Warnings and templated paths do not matter. -/
theorem ImportInv.change {known : List Route} {done : List Operation} {s s' : Import}
    {decisions : List (Operation × Bool)} (h : ImportInv known done s decisions)
    (happend : s'.apisToAppend = s.apisToAppend)
    (hskipped : s'.skippedDuplicates = s.skippedDuplicates)
    (hdiscovered : s'.discovered = s.discovered) : ImportInv known done s' decisions where
  all := h.all
  decided := ⟨happend ▸ h.decided.imported, hskipped ▸ h.decided.skipped⟩
  discovered := hdiscovered ▸ h.discovered
  nodup := h.nodup
  new := h.new
  seen := h.seen

theorem importMethod_inv {known : List Route} {done : List Operation} {s : Import}
    {decisions : List (Operation × Bool)} (h : ImportInv known done s decisions) (rawPath : String)
    (pathItem : Dict String Json) (method : String) :
    ∃ decisions', ImportInv known
      (done ++ (((Json.field pathItem (lower method)).asObj?.map fun operation =>
        Operation.mk rawPath method operation).toList))
      (importMethod known (normalizePath rawPath) pathItem s method) decisions' := by
  unfold importMethod
  cases Json.field pathItem (lower method) with
  | obj operation =>
    by_cases hduplicate : (method, normalizePath rawPath) ∈ known ∨
        (method, normalizePath rawPath) ∈ s.discovered
    · dsimp only
      rw [if_pos hduplicate]
      exact ⟨_, h.skip ⟨rawPath, method, operation⟩ hduplicate⟩
    · dsimp only
      rw [if_neg hduplicate]
      exact ⟨_, h.append ⟨rawPath, method, operation⟩ hduplicate⟩
  | null | bool | int | float | str | arr =>
    refine ⟨decisions, ?_⟩
    simp only [Json.asObj?, Option.map_none, Option.toList_none, List.append_nil]
    exact h

theorem foldl_importMethod_inv {known : List Route} {done : List Operation} {s : Import}
    {decisions : List (Operation × Bool)} (h : ImportInv known done s decisions) (rawPath : String)
    (pathItem : Dict String Json) (names : List String) :
    ∃ decisions', ImportInv known
      (done ++ names.filterMap fun method => (Json.field pathItem (lower method)).asObj?.map
        fun operation => Operation.mk rawPath method operation)
      (names.foldl (importMethod known (normalizePath rawPath) pathItem) s) decisions' := by
  induction names generalizing done s decisions with
  | nil => exact ⟨decisions, by simpa using h⟩
  | cons name names ih =>
    obtain ⟨decisions₁, h₁⟩ := importMethod_inv h rawPath pathItem name
    obtain ⟨decisions₂, h₂⟩ := ih h₁
    refine ⟨decisions₂, ?_⟩
    rw [List.append_assoc] at h₂
    rw [List.filterMap_cons]
    cases hfield : (Json.field pathItem (lower name)).asObj? with
    | none => simpa [hfield] using h₂
    | some operation => simpa [hfield] using h₂

theorem importPath_inv {known : List Route} {done : List Operation} {s : Import}
    {decisions : List (Operation × Bool)} (h : ImportInv known done s decisions)
    (entry : String × Json) :
    ∃ decisions', ImportInv known (done ++ pathOperations entry) (importPath known s entry)
      decisions' := by
  obtain ⟨rawPath, pathItem⟩ := entry
  have hnoted : ImportInv known done (noteTemplated (normalizePath rawPath) s) decisions := by
    unfold noteTemplated
    split
    · exact h.change rfl rfl rfl
    · exact h
  cases pathItem with
  | obj pathItem => exact foldl_importMethod_inv hnoted rawPath pathItem methods
  | null | bool | int | float | str | arr =>
    refine ⟨decisions, ?_⟩
    rw [pathOperations, List.append_nil]
    exact h.change rfl rfl rfl

/-- **The loops go through the operations of the document.** -/
theorem importPaths_inv {known : List Route} {done : List Operation} {s : Import}
    {decisions : List (Operation × Bool)} (h : ImportInv known done s decisions)
    (paths : Dict String Json) :
    ∃ decisions', ImportInv known (done ++ operations paths)
      (paths.foldl (importPath known) s) decisions' := by
  induction paths generalizing done s decisions with
  | nil => exact ⟨decisions, by simpa [operations] using h⟩
  | cons entry paths ih =>
    obtain ⟨decisions₁, h₁⟩ := importPath_inv h entry
    obtain ⟨decisions₂, h₂⟩ := ih h₁
    refine ⟨decisions₂, ?_⟩
    rw [operations, List.flatMap_cons, ← List.append_assoc]
    exact h₂

theorem importInv_start (known : List Route) :
    ImportInv known [] { OpenApiImportResult.empty with discovered := [] } [] where
  all := rfl
  decided := ⟨rfl, rfl⟩
  discovered := rfl
  nodup := List.nodup_nil
  new := by simp [importedKeys]
  seen := by simp

/-! ### Routes as they are stored -/

/-- The route of an entry, with the path as `MockServerApiConfigurationDto` stores it. -/
def MockApiEntry.route (entry : MockApiEntry) : Route :=
  (upper (strip entry.method), normalizePath entry.path)

/-- The same of an existing route. -/
def storedRoute (route : Route) : Route := (upper (strip route.1), normalizePath route.2)

/-- The route that is stored for an operation with a key. -/
def routeOfKey (key : Route) : Route := (key.1, normalizePath (normalizePath key.2))

theorem upper_strip_method : ∀ method ∈ methods, upper (strip (upper (strip method))) = method := by
  decide +kernel

theorem method_of_mem_operations {paths : Dict String Json} {op : Operation}
    (h : op ∈ operations paths) : op.method ∈ methods := by
  obtain ⟨⟨rawPath, pathItem⟩, -, hop⟩ := List.mem_flatMap.1 h
  cases pathItem with
  | obj pathItem =>
    obtain ⟨method, hmethod, hmap⟩ := List.mem_filterMap.1 hop
    obtain ⟨operation, -, rfl⟩ := Option.map_eq_some_iff.1 hmap
    exact hmethod
  | null | bool | int | float | str | arr => simp [pathOperations] at hop

theorem method_entry (op : Operation) (order : ℕ) :
    (op.entry order).method = upper (strip op.method) := by
  simp only [Operation.entry, buildMockApi]

theorem path_entry (op : Operation) (order : ℕ) :
    (op.entry order).path = normalizePath (normalizePath op.path) := by
  simp only [Operation.entry, buildMockApi]

theorem order_entry (op : Operation) (order : ℕ) : (op.entry order).order = order := by
  simp only [Operation.entry, buildMockApi]

/-- The route an entry is stored with. -/
theorem route_entry {paths : Dict String Json} {op : Operation} (h : op ∈ operations paths)
    (order : ℕ) : (op.entry order).route = routeOfKey op.key := by
  have hmethod := upper_strip_method op.method (method_of_mem_operations h)
  unfold MockApiEntry.route routeOfKey Operation.key
  rw [method_entry, path_entry, hmethod]

/-- A tidy path is stored as it is compared. -/
theorem routeOfKey_of_tidy {op : Operation} (h : Tidy op.path) : routeOfKey op.key = op.key := by
  have hidem := (normalizePath_idem_iff op.path).2 h
  unfold routeOfKey Operation.key
  dsimp only
  rw [hidem, hidem]

/-- The imported routes, as they are stored. -/
theorem map_route_entries {paths : Dict String Json} {ops : List Operation}
    (h : ∀ op ∈ ops, op ∈ operations paths) :
    (entries ops).map MockApiEntry.route = ops.map fun op => routeOfKey op.key := by
  induction ops using List.reverseRecOn with
  | nil => rfl
  | append_singleton ops op ih =>
    have hops := ih fun op' hop' => h op' (List.mem_append_left _ hop')
    have hop := h op (List.mem_append_right _ (List.mem_singleton_self op))
    rw [entries_concat, List.map_append, List.map_append, hops, List.map_singleton,
      List.map_singleton, route_entry hop]

theorem map_order_entries (ops : List Operation) :
    (entries ops).map MockApiEntry.order = List.range' 1 ops.length := by
  induction ops using List.reverseRecOn with
  | nil => rfl
  | append_singleton ops op ih =>
    rw [entries_concat, List.map_append, ih, List.map_singleton, order_entry, List.length_append,
      List.length_singleton, List.range'_1_concat, Nat.add_comm 1]

/-! ### What the import does -/

/-- Each operation is imported or skipped, and no two routes clash as they are stored. -/
structure Partitioned (paths : Dict String Json) (existing : List Route)
    (result : OpenApiImportResult) : Prop where
  partition : ∃ decisions, decisions.map Prod.fst = operations paths ∧ Decided decisions result
  orders : result.apisToAppend.map MockApiEntry.order = List.range' 1 result.apisToAppend.length
  distinct : (result.apisToAppend.map MockApiEntry.route).Nodup
  fresh : ∀ api ∈ result.apisToAppend, ∀ route ∈ existing, api.route ≠ storedRoute route

/-- An operation whose path is not tidy, where it is new, is stored under a route of its own.
This is what distinct routes come to: an operation with a tidy path is stored under the key that
it was compared by, so that only the others can clash. -/
structure Untangled (known : List Route) (ops : List Operation) : Prop where
  existing : ∀ op ∈ ops, ¬Tidy op.path → op.key ∉ known → routeOfKey op.key ∉ known
  pairs : ∀ op ∈ ops, ¬Tidy op.path → op.key ∉ known → ∀ op' ∈ ops, op'.key ∉ known →
    op'.key ≠ op.key → routeOfKey op'.key ≠ routeOfKey op.key

/-- Tidy paths cannot clash. -/
theorem untangled_of_tidy {known : List Route} {ops : List Operation}
    (h : ∀ op ∈ ops, Tidy op.path) : Untangled known ops where
  existing op hop huntidy := absurd (h op hop) huntidy
  pairs op hop huntidy := absurd (h op hop) huntidy

theorem Untangled.fresh {known : List Route} {ops : List Operation} (h : Untangled known ops)
    {op : Operation} (hop : op ∈ ops) (hnew : op.key ∉ known) : routeOfKey op.key ∉ known := by
  by_cases htidy : Tidy op.path
  · rwa [routeOfKey_of_tidy htidy]
  · exact h.existing op hop htidy hnew

theorem Untangled.inj {known : List Route} {ops : List Operation} (h : Untangled known ops)
    {op op' : Operation} (hop : op ∈ ops) (hnew : op.key ∉ known) (hop' : op' ∈ ops)
    (hnew' : op'.key ∉ known) (hroute : routeOfKey op.key = routeOfKey op'.key) :
    op.key = op'.key := by
  by_contra hne
  by_cases htidy : Tidy op.path
  · by_cases htidy' : Tidy op'.path
    · rw [routeOfKey_of_tidy htidy, routeOfKey_of_tidy htidy'] at hroute
      exact hne hroute
    · exact h.pairs op' hop' htidy' hnew' op hop hnew hne hroute
  · exact h.pairs op hop htidy hnew op' hop' hnew' (Ne.symm hne) hroute.symm

/-- The keys that are imported are those of the new operations. -/
theorem ImportInv.mem_importedKeys {known : List Route} {done : List Operation} {s : Import}
    {decisions : List (Operation × Bool)} (h : ImportInv known done s decisions) (key : Route) :
    key ∈ importedKeys decisions ↔ ∃ op ∈ done, op.key ∉ known ∧ op.key = key := by
  constructor
  · intro hkey
    obtain ⟨decision, hdecision, rfl⟩ := List.mem_map.1 hkey
    have hmem : decision.1 ∈ done := by
      rw [← h.all]
      exact List.mem_map_of_mem (List.mem_filter.1 hdecision).1
    exact ⟨decision.1, hmem, h.new _ hkey, rfl⟩
  · rintro ⟨op, hop, hnew, rfl⟩
    exact (h.seen op hop).resolve_left hnew

/-- The routes of what has been imported. -/
theorem ImportInv.routes {known : List Route} {paths : Dict String Json} {s : Import}
    {decisions : List (Operation × Bool)} (h : ImportInv known (operations paths) s decisions) :
    s.apisToAppend.map MockApiEntry.route = (importedKeys decisions).map routeOfKey := by
  have hmem : ∀ op ∈ (decisions.filter fun d => d.2).map Prod.fst, op ∈ operations paths := by
    intro op hop
    obtain ⟨decision, hdecision, rfl⟩ := List.mem_map.1 hop
    rw [← h.all]
    exact List.mem_map_of_mem (List.mem_filter.1 hdecision).1
  rw [h.decided.imported, map_route_entries hmem, importedKeys, List.map_map, List.map_map]
  rfl

/-- The loops leave no clash just where the operations are untangled. -/
theorem ImportInv.partitioned_iff {existing : List Route} {paths : Dict String Json} {s : Import}
    {decisions : List (Operation × Bool)}
    (h : ImportInv (existing.map storedRoute) (operations paths) s decisions) :
    Partitioned paths existing s.toOpenApiImportResult ↔
      Untangled (existing.map storedRoute) (operations paths) := by
  have hroutes := h.routes
  constructor
  · intro hpart
    have hdistinct := hpart.distinct
    rw [hroutes, List.nodup_map_iff_inj_on h.nodup] at hdistinct
    constructor
    · intro op hop _ hnew hclash
      have hkey := (h.mem_importedKeys op.key).2 ⟨op, hop, hnew, rfl⟩
      have hroute : routeOfKey op.key ∈ s.apisToAppend.map MockApiEntry.route := by
        rw [hroutes]
        exact List.mem_map_of_mem hkey
      obtain ⟨api, hapi, hapiRoute⟩ := List.mem_map.1 hroute
      obtain ⟨route, hmem, hstored⟩ := List.mem_map.1 hclash
      exact hpart.fresh api hapi route hmem (hapiRoute.trans hstored.symm)
    · intro op hop _ hnew op' hop' hnew' hne heq
      have hkey := (h.mem_importedKeys op.key).2 ⟨op, hop, hnew, rfl⟩
      have hkey' := (h.mem_importedKeys op'.key).2 ⟨op', hop', hnew', rfl⟩
      exact hne (hdistinct op'.key hkey' op.key hkey heq)
  · intro hfree
    constructor
    · exact ⟨decisions, h.all, h.decided⟩
    · rw [h.decided.imported, map_order_entries, entries, List.length_mapIdx]
    · rw [hroutes, List.nodup_map_iff_inj_on h.nodup]
      intro key hkey key' hkey' heq
      obtain ⟨op, hop, hnew, rfl⟩ := (h.mem_importedKeys key).1 hkey
      obtain ⟨op', hop', hnew', rfl⟩ := (h.mem_importedKeys key').1 hkey'
      exact hfree.inj hop hnew hop' hnew' heq
    · intro api hapi route hmem heq
      have hroute : api.route ∈ (importedKeys decisions).map routeOfKey := by
        rw [← hroutes]
        exact List.mem_map_of_mem hapi
      obtain ⟨key, hkey, hkeyRoute⟩ := List.mem_map.1 hroute
      obtain ⟨op, hop, hnew, rfl⟩ := (h.mem_importedKeys key).1 hkey
      apply hfree.fresh hop hnew
      rw [hkeyRoute, heq]
      exact List.mem_map_of_mem hmem

/-- **An import parts the operations of a document, and leaves no two routes alike just where
no new operation with an untidy path is stored under the route of another.** -/
theorem importOpenapiJson_partitioned_iff (payload paths : Dict String Json)
    (existing : Option (List Route)) (hversion : isOpenapi3 payload = true)
    (hpaths : Json.field payload "paths" = .obj paths) :
    Partitioned paths (existing.getD []) (importOpenapiJson (.ok (.obj payload)) existing) ↔
      Untangled ((existing.getD []).map storedRoute) (operations paths) := by
  have hresult : importOpenapiJson (.ok (.obj payload)) existing =
      (paths.foldl (importPath ((existing.getD []).map storedRoute))
        { OpenApiImportResult.empty with discovered := [] }).toOpenApiImportResult := by
    unfold importOpenapiJson
    dsimp only
    rw [if_pos hversion, hpaths]
    rfl
  obtain ⟨decisions, hinv⟩ := importPaths_inv
    (importInv_start ((existing.getD []).map storedRoute)) paths
  rw [List.nil_append] at hinv
  rw [hresult]
  exact hinv.partitioned_iff

/-- Two paths, the first of which is that of a route there is. -/
theorem knownPath_partitioned_iff :
    let paths : Dict String Json := [("/a", .obj [("get", .obj [])]), ("b/", .obj [("post", .obj [])])]
    let payload : Dict String Json := [("openapi", .str "3.0.0"), ("paths", .obj paths)]
    let result := importOpenapiJson (.ok (.obj payload)) (some [("get", "/a/")])
    (Partitioned paths [("get", "/a/")] result ↔
        Untangled [storedRoute ("get", "/a/")] (operations paths)) ∧
      result.apisToAppend.map MockApiEntry.route = [("POST", "/b")] :=
  ⟨importOpenapiJson_partitioned_iff _ _ (some [("get", "/a/")]) (by decide +kernel) rfl,
    by decide +kernel⟩

/-- Two paths that are stored alike are both imported. -/
theorem twoPaths_not_partitioned :
    ¬Partitioned [("/a", .obj [("get", .obj [])]), ("/a /", .obj [("get", .obj [])])] []
        (importOpenapiJson (.ok (.obj [("openapi", .str "3.0.0"),
          ("paths", .obj [("/a", .obj [("get", .obj [])]), ("/a /", .obj [("get", .obj [])])])]))
          none) := by
  intro h
  have hsame : ¬((importOpenapiJson (.ok (.obj [("openapi", .str "3.0.0"),
      ("paths", .obj [("/a", .obj [("get", .obj [])]), ("/a /", .obj [("get", .obj [])])])]))
      none).apisToAppend.map MockApiEntry.route).Nodup := by
    decide +kernel
  exact hsame h.distinct

end MockServer
end QualityFlow
