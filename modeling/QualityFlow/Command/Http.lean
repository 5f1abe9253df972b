/-
# The inputs of an HTTP command

`HttpInputNode` and the coercions around it in
`app/elaborations/models/dtos/configuration_command_dto.py`.

A node is a leaf of a request: a literal, a runtime value, a source or a built-in
function.  A body is a tree of such leaves, or, where it is form-encoded, one
leaf for each key.  Every coercion is applied to what a request sends and again
to what the store gives back, so each has the lemma that it reads its own dump.
-/

import QualityFlow.Command.Values

namespace QualityFlow
namespace Command

open Py

/-- `HttpInputNode`: its kind decides which of the fields are there. -/
inductive HttpInputNode where
  | literal (value : Json)
  | runtimeValue (definitionId : Token) (fieldPath : Option Token)
  | source (sourceCode : Token)
  | builtIn (resolver : RuntimeFunction)

namespace HttpInputNode

/-- `_HTTP_INPUT_NODE_KINDS`. -/
def kinds : List String := ["literal", "runtimeValue", "source", "builtIn"]

/-- `validate_node`, after the fields have been read. -/
def validateNode (kind : String) (value : Json)
    (definitionId fieldPath sourceCode resolver : Option String) : Except String HttpInputNode := do
  if strip kind = "literal" then
    return .literal value
  else if strip kind = "runtimeValue" then
    let definitionId ← requireToken "definitionId is required for runtimeValue nodes."
      (definitionId.getD "")
    return .runtimeValue definitionId (Token.ofString? (fieldPath.getD ""))
  else if strip kind = "source" then
    return .source (← requireToken "sourceCode is required for source nodes." (sourceCode.getD ""))
  else if strip kind = "builtIn" then
    match RuntimeFunction.ofString? (strip (resolver.getD "")) with
    | some f => return .builtIn f
    | none => .error "resolver must be one of: now, today."
  else
    .error "kind must be one of: literal, runtimeValue, source, builtIn."

/-- The model itself: the declared types first, then `validate_node`. -/
def create (kind value definitionId fieldPath sourceCode resolver : Json) :
    Except String HttpInputNode := do
  let kind ← strField kind
  let definitionId ← optStrField definitionId
  let fieldPath ← optStrField fieldPath
  let sourceCode ← optStrField sourceCode
  let resolver ← optStrField resolver
  validateNode kind value definitionId fieldPath sourceCode resolver

def modelDump : HttpInputNode → Json
  | .literal v =>
    .obj [("kind", .str "literal"), ("value", v), ("definitionId", .null), ("fieldPath", .null),
      ("sourceCode", .null), ("resolver", .null)]
  | .runtimeValue d p =>
    .obj [("kind", .str "runtimeValue"), ("value", .null), ("definitionId", .str d.val),
      ("fieldPath", .ofOption (p.map Token.val)), ("sourceCode", .null), ("resolver", .null)]
  | .source c =>
    .obj [("kind", .str "source"), ("value", .null), ("definitionId", .null), ("fieldPath", .null),
      ("sourceCode", .str c.val), ("resolver", .null)]
  | .builtIn f =>
    .obj [("kind", .str "builtIn"), ("value", .null), ("definitionId", .null), ("fieldPath", .null),
      ("sourceCode", .null), ("resolver", .str f.value)]

/-- `_coerce_http_input_node` on an object. -/
def coerceObj (d : List (String × Json)) : Except String (Option HttpInputNode) :=
  if (Json.field d "kind").token ∈ kinds then
    some <$> create (.str (Json.field d "kind").token) (Json.field d "value")
      (firstNonEmpty d ["definitionId", "definition_id"])
      (firstNonEmpty d ["fieldPath", "field_path"])
      (firstNonEmpty d ["sourceCode", "source_code"]) (Json.field d "resolver")
  else .ok none

/-- `_coerce_http_input_node`. -/
def coerce? : Json → Except String (Option HttpInputNode)
  | .obj d => coerceObj d
  | _ => .ok none

/-- `_coerce_to_http_input_node`: what is no node is a literal. -/
def coerce (value : Json) : Except String HttpInputNode := do
  match ← coerce? value with
  | some node => return node
  | none => return .literal value

theorem coerce?_modelDump (n : HttpInputNode) : coerce? n.modelDump = .ok (some n) := by
  cases n with
  | literal v =>
    simp [coerce?, coerceObj, modelDump, create, validateNode, firstNonEmpty, kinds, Json.field,
      strField, optStrField, show strip "literal" = "literal" from rfl]
  | runtimeValue d p =>
    cases p with
    | none =>
      simp [coerce?, coerceObj, modelDump, create, validateNode, firstNonEmpty, kinds, Json.field,
        strField, optStrField, Json.ofOption, d.strip_ne_empty, show strip "runtimeValue" = "runtimeValue" from rfl]
      rfl
    | some p =>
      simp [coerce?, coerceObj, modelDump, create, validateNode, firstNonEmpty, kinds, Json.field,
        strField, optStrField, Json.ofOption, d.strip_ne_empty, p.strip_ne_empty,
        show strip "runtimeValue" = "runtimeValue" from rfl]
  | source c =>
    simp [coerce?, coerceObj, modelDump, create, validateNode, firstNonEmpty, kinds, Json.field,
      strField, optStrField, c.strip_ne_empty, show strip "source" = "source" from rfl]
  | builtIn f =>
    have h : RuntimeFunction.ofString? (strip f.value) = some f := by cases f <;> rfl
    simp [coerce?, coerceObj, modelDump, create, validateNode, firstNonEmpty, kinds, Json.field,
      strField, optStrField, h,
      show strip "builtIn" = "builtIn" from rfl]

/-- **A node is read back from its dump.** -/
@[simp] theorem coerce_modelDump (n : HttpInputNode) : coerce n.modelDump = .ok n := by
  simp [coerce, coerce?_modelDump]

/-- The id of the constant the node reads, if it reads one. -/
def definitionId? : HttpInputNode → Option String
  | .runtimeValue d _ => some d.val
  | _ => none

end HttpInputNode

/-! ### Trees -/

/-- The result of `_coerce_http_input_tree`. -/
inductive HttpInputTree where
  | null
  | node (n : HttpInputNode)
  | arr (ts : List HttpInputTree)
  | obj (kvs : List (String × HttpInputTree))

namespace HttpInputTree

mutual

/-- `_coerce_http_input_tree`. -/
def coerce : Json → Except String HttpInputTree
  | .null => .ok .null
  | .obj kvs => do
    match ← HttpInputNode.coerceObj kvs with
    | some n => return .node n
    | none => return .obj (← coerceItems kvs)
  | .arr xs => do return .arr (← coerceList xs)
  | .bool b => .ok (.node (.literal (.bool b)))
  | .int n => .ok (.node (.literal (.int n)))
  | .float q => .ok (.node (.literal (.float q)))
  | .str s => .ok (.node (.literal (.str s)))

def coerceList : List Json → Except String (List HttpInputTree)
  | [] => .ok []
  | x :: xs => do return (← coerce x) :: (← coerceList xs)

def coerceItems : List (String × Json) → Except String (List (String × HttpInputTree))
  | [] => .ok []
  | (k, x) :: kvs => do return (k, ← coerce x) :: (← coerceItems kvs)

end

mutual

def modelDump : HttpInputTree → Json
  | .null => .null
  | .node n => n.modelDump
  | .arr ts => .arr (dumpList ts)
  | .obj kvs => .obj (dumpItems kvs)

def dumpList : List HttpInputTree → List Json
  | [] => []
  | t :: ts => t.modelDump :: dumpList ts

def dumpItems : List (String × HttpInputTree) → List (String × Json)
  | [] => []
  | (k, t) :: kvs => (k, t.modelDump) :: dumpItems kvs

end

theorem dumpItems_eq_map (kvs : List (String × HttpInputTree)) :
    dumpItems kvs = kvs.map fun kv => (kv.1, kv.2.modelDump) := by
  induction kvs with
  | nil => rfl
  | cons kv kvs ih => simp [dumpItems, ih]

/-- No kind of a node is empty or opens with a bracket. -/
theorem kind_spec : ∀ k ∈ HttpInputNode.kinds,
    k ≠ "" ∧ k.toList.head? ≠ some '[' ∧ k.toList.head? ≠ some '\x7b' := by
  decide

theorem token_obj_not_kind (kvs : List (String × Json)) :
    (Json.obj kvs).token ∉ HttpInputNode.kinds := by
  intro h
  have hkind := kind_spec _ h
  rcases Json.token_obj kvs with h | h
  · exact hkind.1 h
  · exact hkind.2.2 h

theorem token_arr_not_kind (xs : List Json) : (Json.arr xs).token ∉ HttpInputNode.kinds := by
  intro h
  have hkind := kind_spec _ h
  rcases Json.token_arr xs with h | h
  · exact hkind.1 h
  · exact hkind.2.1 h

/-- What a subtree is dumped to is never taken for the kind of a node: it is no
text, and the text of an array or an object opens with a bracket. -/
theorem token_modelDump_not_kind (t : HttpInputTree) :
    t.modelDump.token ∉ HttpInputNode.kinds := by
  cases t with
  | null => decide
  | node n => cases n <;> exact token_obj_not_kind _
  | arr ts => exact token_arr_not_kind _
  | obj kvs => exact token_obj_not_kind _

/-- An object of subtrees is not read back as a node. -/
theorem coerceObj_dumpItems (kvs : List (String × HttpInputTree)) :
    HttpInputNode.coerceObj (dumpItems kvs) = .ok none := by
  have h : (Json.field (dumpItems kvs) "kind").token ∉ HttpInputNode.kinds := by
    rw [Json.field, dumpItems_eq_map, Dict.get?_map]
    cases Dict.get? kvs "kind" with
    | none => decide
    | some t => exact token_modelDump_not_kind t
  rw [HttpInputNode.coerceObj, if_neg h]

/-- A node is read back from the object it is dumped to. -/
theorem coerce_modelDump_node (n : HttpInputNode) : coerce n.modelDump = .ok (.node n) := by
  have h := HttpInputNode.coerce?_modelDump n
  cases n <;>
    · simp only [HttpInputNode.modelDump, HttpInputNode.coerce?] at h
      simp [HttpInputNode.modelDump, coerce, h]

mutual

/-- **A tree is read back from its dump.** -/
@[simp] theorem coerce_modelDump : ∀ t : HttpInputTree, coerce t.modelDump = .ok t
  | .null => rfl
  | .node n => coerce_modelDump_node n
  | .arr ts => by rw [modelDump, coerce, coerceList_dumpList ts, ok_bind, pure_eq_ok]
  | .obj kvs => by
    rw [modelDump, coerce, coerceObj_dumpItems, ok_bind]
    show (do return HttpInputTree.obj (← coerceItems (dumpItems kvs))) = _
    rw [coerceItems_dumpItems kvs, ok_bind, pure_eq_ok]

theorem coerceList_dumpList : ∀ ts : List HttpInputTree, coerceList (dumpList ts) = .ok ts
  | [] => rfl
  | t :: ts => by
    rw [dumpList, coerceList, coerce_modelDump t, ok_bind, coerceList_dumpList ts, ok_bind,
      pure_eq_ok]

theorem coerceItems_dumpItems :
    ∀ kvs : List (String × HttpInputTree), coerceItems (dumpItems kvs) = .ok kvs
  | [] => rfl
  | (k, t) :: kvs => by
    rw [dumpItems, coerceItems, coerce_modelDump t, ok_bind, coerceItems_dumpItems kvs, ok_bind,
      pure_eq_ok]

end

end HttpInputTree

/-! ### Form bodies -/

/-- `_is_http_form_scalar`. -/
def isHttpFormScalar : Json → Bool
  | .arr _ | .obj _ => false
  | _ => true

/-- What `_validate_http_form_body_node` lets through. -/
def HttpInputNode.FormOk : HttpInputNode → Prop
  | .source _ => False
  | .literal v => isHttpFormScalar v = true
  | _ => True

/-- `_validate_http_form_body_node`. -/
def validateHttpFormBodyNode (field : Token) :
    HttpInputNode → Except String {n : HttpInputNode // n.FormOk}
  | .source _ =>
    .error s!"body.{field.val} does not support source nodes for formUrlEncoded."
  | .literal v =>
    if h : isHttpFormScalar v = true then .ok ⟨.literal v, h⟩
    else .error s!"body.{field.val} must resolve to a scalar literal for formUrlEncoded."
  | .runtimeValue d p => .ok ⟨.runtimeValue d p, trivial⟩
  | .builtIn f => .ok ⟨.builtIn f, trivial⟩

theorem validateHttpFormBodyNode_ok (field : Token) {n : HttpInputNode} (h : n.FormOk) :
    validateHttpFormBodyNode field n = .ok ⟨n, h⟩ := by
  cases n with
  | source c => exact h.elim
  | literal v => exact dif_pos h
  | runtimeValue d p => rfl
  | builtIn f => rfl

/-- The items `_coerce_http_form_body` collects. -/
structure HttpFormItems where
  items : Dict Token {n : HttpInputNode // n.FormOk}
  keys_nodup : items.keys.Nodup

namespace HttpFormItems

def empty : HttpFormItems := ⟨[], List.nodup_nil⟩

/-- One round of the loop. -/
def add (acc : HttpFormItems) (kv : String × Json) : Except String HttpFormItems := do
  let key ← requireToken "body keys are required for formUrlEncoded." kv.1
  let node ← HttpInputNode.coerce kv.2
  let node ← validateHttpFormBodyNode key node
  return ⟨acc.items.set key node, Dict.nodup_keys_set acc.keys_nodup key node⟩

def dump (f : HttpFormItems) : List (String × Json) :=
  f.items.map fun kv => (kv.1.val, kv.2.val.modelDump)

/-- Reading items whose keys are not there yet appends them. -/
theorem foldlM_add_dump (acc : HttpFormItems) (items : Dict Token {n : HttpInputNode // n.FormOk})
    (h : (acc.items ++ items).keys.Nodup) :
    (items.map fun kv => (kv.1.val, kv.2.val.modelDump)).foldlM add acc
      = .ok ⟨acc.items ++ items, h⟩ := by
  induction items generalizing acc with
  | nil =>
    rw [List.map_nil, List.foldlM_nil, pure_eq_ok]
    congr
    simp
  | cons kv items ih =>
    obtain ⟨key, node⟩ := kv
    have hkey : key ∉ acc.items.keys := by
      intro hmem
      rw [Dict.keys, List.map_append, List.nodup_append] at h
      exact h.2.2 key hmem key (by simp) rfl
    have hset := Dict.set_of_not_mem hkey node
    have hadd : acc.add (key.val, node.val.modelDump)
        = .ok ⟨acc.items.set key node, Dict.nodup_keys_set acc.keys_nodup key node⟩ := by
      simp [add, validateHttpFormBodyNode_ok key node.2]
    rw [List.map_cons, List.foldlM_cons, hadd, ok_bind]
    have happ : acc.items.set key node ++ items = acc.items ++ (key, node) :: items := by
      rw [hset, List.append_assoc, List.singleton_append]
    rw [ih _ (by rw [happ]; exact h)]
    simp only [happ]

theorem foldlM_add_empty (f : HttpFormItems) : f.dump.foldlM add empty = .ok f :=
  foldlM_add_dump empty f.items (by simpa [empty] using f.keys_nodup)

end HttpFormItems

/-- The result of `_coerce_http_form_body`, where it is not `None`. -/
structure HttpFormBody extends HttpFormItems where
  ne_nil : items ≠ []

namespace HttpFormBody

/-- `_coerce_http_form_body`. -/
def coerce : Json → Except String (Option HttpFormBody)
  | .null => .ok none
  | .obj kvs => do
    let f ← kvs.foldlM HttpFormItems.add HttpFormItems.empty
    return if h : f.items ≠ [] then some ⟨f, h⟩ else none
  | _ => .error "body must be an object for formUrlEncoded."

@[simp] theorem coerce_null : coerce .null = .ok none := rfl

def modelDump (f : HttpFormBody) : Json := .obj f.dump

/-- **A form body is read back from its dump.** -/
@[simp] theorem coerce_modelDump (f : HttpFormBody) : coerce f.modelDump = .ok (some f) := by
  rw [modelDump, coerce, HttpFormItems.foldlM_add_empty, ok_bind, dif_pos f.ne_nil, pure_eq_ok]

end HttpFormBody

/-! ### Parameters -/

/-- The result of `_coerce_http_kv_params`, where it is not `None`. -/
structure HttpKvParams where
  items : List (String × HttpInputNode)
  ne_nil : items ≠ []

namespace HttpKvParams

/-- `result if result else None`. -/
def ofItems (items : List (String × HttpInputNode)) : Option HttpKvParams :=
  if h : items ≠ [] then some ⟨items, h⟩ else none

def coerceItem (kv : String × Json) : Except String (String × HttpInputNode) := do
  return (kv.1, ← HttpInputNode.coerce kv.2)

/-- `_coerce_http_kv_params`: the keys of a list are its indices. -/
def coerce : Json → Except String (Option HttpKvParams)
  | .obj kvs => do return ofItems (← kvs.mapM coerceItem)
  | .arr xs => do return ofItems (← (xs.mapIdx fun i x => (toString i, x)).mapM coerceItem)
  | _ => .ok none

/-- A field declared `dict | list | None` and coerced so. -/
def listField : Json → Except String (Option HttpKvParams)
  | .null => .ok none
  | .obj kvs => coerce (.obj kvs)
  | .arr xs => coerce (.arr xs)
  | _ => .error "Input should be a valid dictionary"

/-- A field declared `dict | None` and coerced so. -/
def field : Json → Except String (Option HttpKvParams)
  | .null => .ok none
  | .obj kvs => coerce (.obj kvs)
  | _ => .error "Input should be a valid dictionary"

def modelDump (p : HttpKvParams) : Json := .obj (p.items.map fun kv => (kv.1, kv.2.modelDump))

/-- **Parameters are read back from their dump.** -/
theorem coerce_modelDump (p : HttpKvParams) : coerce p.modelDump = .ok (some p) := by
  have h : (p.items.map fun kv => (kv.1, kv.2.modelDump)).mapM coerceItem = .ok p.items :=
    mapM_map_ok fun kv _ => by simp [coerceItem]
  rw [modelDump, coerce, h, ok_bind, pure_eq_ok, ofItems, dif_pos p.ne_nil]

@[simp] theorem listField_modelDump (p : HttpKvParams) : listField p.modelDump = .ok (some p) :=
  coerce_modelDump p

@[simp] theorem field_modelDump (p : HttpKvParams) : field p.modelDump = .ok (some p) :=
  coerce_modelDump p

end HttpKvParams

/-! ### Authorization -/

/-- The result of `_coerce_authorization_guided`, where it is not `None`. -/
inductive HttpAuthorization where
  | empty
  | basic (username password : HttpInputNode)
  | bearer (token : HttpInputNode)
  | apiKey (username apiKey authEndpoint : HttpInputNode)
  | oauth2 (tokenUrl clientId clientSecret : HttpInputNode)

namespace HttpAuthorization

/-- `_coerce_authorization_guided` on an object. -/
def coerceObj (d : List (String × Json)) : Except String HttpAuthorization := do
  let leaf (key : String) := HttpInputNode.coerce (Json.field d key)
  let authType := (Json.field d "type").token
  if authType = "" then
    return .empty
  else if authType = "basic" then
    if Json.field d "username" = .null ∧ Json.field d "password" = .null then
      return .empty
    else
      return .basic (← leaf "username") (← leaf "password")
  else if authType = "bearer" then
    if Json.field d "token" = .null then
      return .empty
    else
      return .bearer (← leaf "token")
  else if authType = "apiKey" then
    return .apiKey (← leaf "username") (← leaf "apiKey") (← leaf "authEndpoint")
  else if authType = "oauth2" then
    return .oauth2 (← leaf "tokenUrl") (← leaf "clientId") (← leaf "clientSecret")
  else
    .error "authorization.type must be one of: basic, bearer, apiKey, oauth2."

/-- A field declared `dict | None` and coerced so. -/
def field : Json → Except String (Option HttpAuthorization)
  | .null => .ok none
  | .obj d => some <$> coerceObj d
  | _ => .error "Input should be a valid dictionary"

def modelDump : HttpAuthorization → Json
  | .empty => .obj []
  | .basic u p =>
    .obj [("type", .str "basic"), ("username", u.modelDump), ("password", p.modelDump)]
  | .bearer t => .obj [("type", .str "bearer"), ("token", t.modelDump)]
  | .apiKey u k e =>
    .obj [("type", .str "apiKey"), ("username", u.modelDump), ("apiKey", k.modelDump),
      ("authEndpoint", e.modelDump)]
  | .oauth2 u i s =>
    .obj [("type", .str "oauth2"), ("tokenUrl", u.modelDump), ("clientId", i.modelDump),
      ("clientSecret", s.modelDump)]

/-- **An authorization is read back from its dump.** -/
@[simp] theorem field_modelDump (a : HttpAuthorization) : field a.modelDump = .ok (some a) := by
  have hnull (n : HttpInputNode) : n.modelDump ≠ .null := by cases n <;> simp [HttpInputNode.modelDump]
  cases a with
  | empty => rfl
  | basic u p =>
    simp [field, modelDump, coerceObj, Json.field, hnull, show strip "basic" = "basic" from rfl]
  | bearer t =>
    simp [field, modelDump, coerceObj, Json.field, hnull, show strip "bearer" = "bearer" from rfl]
  | apiKey u k e =>
    simp [field, modelDump, coerceObj, Json.field, show strip "apiKey" = "apiKey" from rfl]
  | oauth2 u i s =>
    simp [field, modelDump, coerceObj, Json.field, show strip "oauth2" = "oauth2" from rfl]

end HttpAuthorization

end Command
end QualityFlow
