/-
# Saving and reloading the inputs of an HTTP command

`_serialize_http_input_node` of
`app/elaborations/models/dtos/configuration_command_dto.py`.

A node is written as an object with its kind and the one or two fields that the kind has, and
a literal is written with its value as it is, whatever the value looks like.  What is written
for a subtree is an object, an array or null, and none of these is the text of a kind: so an
object of subtrees is never taken for a node when it is read again.
-/

import QualityFlow.Command.Http

namespace QualityFlow
namespace Command

open Py

namespace HttpInputNode

/-- The fields that `_serialize_http_input_node` writes for a node. -/
def serializeFields : HttpInputNode → List (String × Json)
  | .literal value => [("kind", .str "literal"), ("value", value)]
  | .runtimeValue definitionId none =>
    [("kind", .str "runtimeValue"), ("definitionId", .str definitionId.val)]
  | .runtimeValue definitionId (some fieldPath) =>
    [("kind", .str "runtimeValue"), ("definitionId", .str definitionId.val),
      ("fieldPath", .str fieldPath.val)]
  | .source sourceCode => [("kind", .str "source"), ("sourceCode", .str sourceCode.val)]
  | .builtIn resolver => [("kind", .str "builtIn"), ("resolver", .str resolver.value)]

/-- A node is read back from the fields it is written with. -/
theorem coerceObj_serializeFields (n : HttpInputNode) :
    coerceObj n.serializeFields = .ok (some n) := by
  cases n with
  | literal value =>
    have hkind : strip "literal" = "literal" := rfl
    simp [coerceObj, serializeFields, create, validateNode, firstNonEmpty, kinds, Json.field,
      strField, optStrField, hkind]
  | runtimeValue definitionId fieldPath =>
    have hkind : strip "runtimeValue" = "runtimeValue" := rfl
    rcases fieldPath with _ | fieldPath
    · simp [coerceObj, serializeFields, create, validateNode, firstNonEmpty, kinds, Json.field,
        strField, optStrField, definitionId.strip_ne_empty, hkind]
      rfl
    · simp [coerceObj, serializeFields, create, validateNode, firstNonEmpty, kinds, Json.field,
        strField, optStrField, definitionId.strip_ne_empty, fieldPath.strip_ne_empty, hkind]
  | source sourceCode =>
    have hkind : strip "source" = "source" := rfl
    simp [coerceObj, serializeFields, create, validateNode, firstNonEmpty, kinds, Json.field,
      strField, optStrField, sourceCode.strip_ne_empty, hkind]
  | builtIn resolver =>
    have hkind : strip "builtIn" = "builtIn" := rfl
    have hresolver : RuntimeFunction.ofString? (strip resolver.value) = some resolver := by
      cases resolver <;> rfl
    simp [coerceObj, serializeFields, create, validateNode, firstNonEmpty, kinds, Json.field,
      strField, optStrField, hresolver, hkind]

end HttpInputNode

namespace HttpInputTree

mutual

/-- `_serialize_http_input_node`. -/
def serialize : HttpInputTree → Json
  | .null => .null
  | .node n => .obj n.serializeFields
  | .arr ts => .arr (serializeList ts)
  | .obj kvs => .obj (serializeItems kvs)

def serializeList : List HttpInputTree → List Json
  | [] => []
  | t :: ts => t.serialize :: serializeList ts

def serializeItems : List (String × HttpInputTree) → List (String × Json)
  | [] => []
  | (k, t) :: kvs => (k, t.serialize) :: serializeItems kvs

end

theorem serializeItems_eq_map (kvs : List (String × HttpInputTree)) :
    serializeItems kvs = kvs.map fun kv => (kv.1, kv.2.serialize) := by
  induction kvs with
  | nil => rfl
  | cons kv kvs ih => simp [serializeItems, ih]

/-- What a subtree is written as is never taken for the kind of a node. -/
theorem token_serialize_not_kind (t : HttpInputTree) :
    t.serialize.token ∉ HttpInputNode.kinds := by
  cases t with
  | null => decide
  | node n => exact token_obj_not_kind _
  | arr ts => exact token_arr_not_kind _
  | obj kvs => exact token_obj_not_kind _

/-- An object of subtrees is not read back as a node. -/
theorem coerceObj_serializeItems (kvs : List (String × HttpInputTree)) :
    HttpInputNode.coerceObj (serializeItems kvs) = .ok none := by
  have h : (Json.field (serializeItems kvs) "kind").token ∉ HttpInputNode.kinds := by
    rw [Json.field, serializeItems_eq_map, Dict.get?_map]
    cases Dict.get? kvs "kind" with
    | none => decide
    | some t => exact token_serialize_not_kind t
  rw [HttpInputNode.coerceObj, if_neg h]

mutual

/-- A tree is read back from what it is written as. -/
theorem coerce_serialize : ∀ t : HttpInputTree, coerce t.serialize = .ok t
  | .null => rfl
  | .node n => by
    rw [serialize, coerce, HttpInputNode.coerceObj_serializeFields, ok_bind]
    rfl
  | .arr ts => by rw [serialize, coerce, coerceList_serializeList ts, ok_bind, pure_eq_ok]
  | .obj kvs => by
    rw [serialize, coerce, coerceObj_serializeItems, ok_bind]
    show (do return HttpInputTree.obj (← coerceItems (serializeItems kvs))) = _
    rw [coerceItems_serializeItems kvs, ok_bind, pure_eq_ok]

theorem coerceList_serializeList :
    ∀ ts : List HttpInputTree, coerceList (serializeList ts) = .ok ts
  | [] => rfl
  | t :: ts => by
    rw [serializeList, coerceList, coerce_serialize t, ok_bind, coerceList_serializeList ts,
      ok_bind, pure_eq_ok]

theorem coerceItems_serializeItems :
    ∀ kvs : List (String × HttpInputTree), coerceItems (serializeItems kvs) = .ok kvs
  | [] => rfl
  | (k, t) :: kvs => by
    rw [serializeItems, coerceItems, coerce_serialize t, ok_bind, coerceItems_serializeItems kvs,
      ok_bind, pure_eq_ok]

end

/-- A value that is read and written `n` times over. -/
def reload : ℕ → Json → Except String Json
  | 0, x => .ok x
  | n + 1, x => do reload n (← coerce x).serialize

theorem reload_serialize (n : ℕ) (t : HttpInputTree) :
    reload n t.serialize = .ok t.serialize := by
  induction n with
  | zero => rfl
  | succ n ih => rw [reload, coerce_serialize, ok_bind, ih]

/-- **What has been read once is read the same ever after.**  A tree that a value is read as is
written as a value that is read as the same tree, however often it is saved and reloaded. -/
theorem coerce_reloaded (x : Json) (t : HttpInputTree) (h : coerce x = .ok t) :
    coerce t.serialize = .ok t ∧ ∀ n, reload (n + 1) x = .ok t.serialize := by
  refine ⟨coerce_serialize t, fun n => ?_⟩
  rw [reload, h, ok_bind, reload_serialize]

/-- A literal that looks like a reference stays a literal, and a reference with a legacy name
gets the current one. -/
theorem lookalike_reloaded :
    coerce (.arr [.obj [("kind", .str "literal"), ("value", .obj [("kind", .str "source")])],
        .obj [("kind", .str "source"), ("source_code", .str "rows")]]) =
      .ok (.arr [.node (.literal (.obj [("kind", .str "source")])),
        .node (.source ⟨"rows", rfl, by decide⟩)]) ∧
    ∀ n, reload (n + 1)
      (.arr [.obj [("kind", .str "literal"), ("value", .obj [("kind", .str "source")])],
        .obj [("kind", .str "source"), ("source_code", .str "rows")]]) =
      .ok (.arr [.obj [("kind", .str "literal"), ("value", .obj [("kind", .str "source")])],
        .obj [("kind", .str "source"), ("sourceCode", .str "rows")]]) := by
  refine ⟨rfl, ?_⟩
  exact (coerce_reloaded
    (.arr [.obj [("kind", .str "literal"), ("value", .obj [("kind", .str "source")])],
      .obj [("kind", .str "source"), ("source_code", .str "rows")]])
    (.arr [.node (.literal (.obj [("kind", .str "source")])),
      .node (.source ⟨"rows", rfl, by decide⟩)]) rfl).2

end HttpInputTree

end Command
end QualityFlow
