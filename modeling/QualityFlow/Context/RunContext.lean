/-
# The context of a run

`app/elaborations/services/suite_runs/run_context.py`.

A run has four scopes, each a dictionary: the run envelope, the global, the local and
the result scope.  The global scope holds the run envelope and the local scope holds
the global one, as the same objects.  A write goes from the object of a scope along the
tokens of a path, makes what is missing on the way, and puts the value into the last
object; a raise leaves what was made before it.

The visible sources, the last result, the invocation id and the phase of a hook are
carried along by the source and read by no reference; they are left out.
-/

import QualityFlow.Context.Path
import QualityFlow.Py.Heap
import QualityFlow.Suite.Items

namespace QualityFlow
namespace Context

open Py Suite

/-- `RunContext`: the scopes are the places of their dictionaries. -/
structure RunContext where
  runId : String
  runEnvelope : ℕ
  globalScope : ℕ
  localScope : ℕ
  resultScope : ℕ
  currentItemKind : SuiteItemKind
deriving DecidableEq

/-! ### Making a context -/

/-- `_build_run_context_payload` and `create_run_context`. -/
def createRunContext (h : Heap) (runId : String) (event initialVars : Val) : Heap × RunContext :=
  let (h, event) := h.dictOrNew event
  let (h, initialVars) := h.dictOrNew initialVars
  let (h, runEnvelope) := h.alloc
    (.dict [("run_id", .str (strip runId)), ("event", event), ("constants", initialVars)])
  let (h, globals) := h.alloc (.dict [])
  let (h, globalScope) := h.alloc
    (.dict [("runEnvelope", .ref runEnvelope), ("constants", .ref globals)])
  let (h, locals) := h.alloc (.dict [])
  let (h, localScope) := h.alloc (.dict [("global", .ref globalScope), ("constants", .ref locals)])
  let (h, artifacts) := h.alloc (.dict [])
  let (h, commands) := h.alloc (.dict [])
  let (h, results) := h.alloc (.dict [])
  let (h, resultScope) := h.alloc
    (.dict [("artifacts", .ref artifacts), ("commands", .ref commands), ("constants", .ref results)])
  (h, { runId := strip runId, runEnvelope, globalScope, localScope, resultScope,
        currentItemKind := .hook })

/-! ### Walking along tokens -/

/-- What a token names: an index, or a key. -/
def toKey (token : String) : Except String Key := do
  match ← toIndex token with
  | some i => return .index i
  | none => return .name token

/-- `_ensure_list_size`, for a number of items that are missing. -/
def ensureListSize (l : ℕ) : ℕ → Heap → Heap
  | 0, h => h
  | n + 1, h =>
    let (h, fresh) := h.alloc (.dict [])
    ensureListSize l n (h.append l (.ref fresh))

/-- The checks of `_assign_nested_value` on an object that a token is to be looked up in. -/
def openSlot (h : Heap) (current : Val) (key : Key) : Except String (Heap × ℕ) :=
  match key, current, h.obj? current with
  | .index i, .ref l, some (.list xs) => .ok (ensureListSize l (i + 1 - xs.length) h, l)
  | .name _, .ref l, some (.dict _) => .ok (h, l)
  | .index _, _, _ => .error "Target path expects a list segment."
  | .name _, _, _ => .error "Target path expects an object segment."

/-- The object that is made for a token to be looked up in. -/
def newContainer : Key → Obj
  | .index _ => .list []
  | .name _ => .dict []

/-- `_assign_nested_value`. -/
def assignNestedValue (value : Val) (h : Heap) (current : Val) :
    List String → Heap × Except String Unit
  | [] => (h, .error "Target path must include at least one segment.")
  | token :: rest =>
    match toKey token with
    | .error e => (h, .error e)
    | .ok key =>
      match openSlot h current key with
      | .error e => (h, .error e)
      | .ok (h, l) =>
        match rest.head?.map toKey with
        | none => (h.setItem l key value, .ok ())
        | some (.error e) => (h, .error e)
        | some (.ok nextKey) =>
          let child := (h.item? (.ref l) key).getD .null
          if child = .null then
            let (h, fresh) := h.alloc (newContainer nextKey)
            assignNestedValue value (h.setItem l key (.ref fresh)) (.ref fresh) rest
          else assignNestedValue value h child rest

/-- `_remove_nested_value`. -/
def removeNestedValue (h : Heap) (current : Val) : List String → Heap × Except String Unit
  | [] => (h, .ok ())
  | token :: rest =>
    match toKey token with
    | .error e => (h, .error e)
    | .ok key =>
      match current, h.item? current key with
      | .ref l, some child =>
        if rest = [] then (h.eraseItem l key, .ok ()) else removeNestedValue h child rest
      | _, _ => (h, .ok ())

/-! ### Writing and removing -/

/-- The dictionary of a scope. -/
def RunContext.scope (c : RunContext) : ContextRoot → ℕ
  | .runEnvelope => c.runEnvelope
  | .globalScope => c.globalScope
  | .localScope => c.localScope
  | .result | .response => c.resultScope

/-- `_target_from_root`. -/
def targetFromRoot (c : RunContext) (h : Heap) (root : ContextRoot) : Heap × ℕ :=
  match root with
  | .response =>
    match h.field c.resultScope "commands" with
    | .ref l =>
      if h.isDict (.ref l) then (h, l)
      else
        let (h, commands) := h.alloc (.dict [])
        (h.setItem c.resultScope (.name "commands") (.ref commands), commands)
    | _ =>
      let (h, commands) := h.alloc (.dict [])
      (h.setItem c.resultScope (.name "commands") (.ref commands), commands)
  | root => (h, c.scope root)

/-- The fields of a scope that a path names themselves; any other is a constant. -/
def scopeFields : List String := ["constants", "event", "run_id", "runEnvelope", "global"]

/-- The tokens below the scope. -/
def targetTokens (root : ContextRoot) (tokens : List String) : List String :=
  match root, tokens.tail with
  | _, [] => []
  | .result, target | .response, target => target
  | _, token :: rest =>
    if token ∈ scopeFields then token :: rest else "constants" :: token :: rest

/-- The scopes that a test may not write. -/
def checkMutable (c : RunContext) (root : ContextRoot) : Except String Unit :=
  if root = .globalScope ∧ c.currentItemKind = .test then
    .error "Global context is immutable during test execution."
  else if root = .runEnvelope ∧ c.currentItemKind = .test then
    .error "RunEnvelope context is immutable during test execution."
  else .ok ()

/-- The assignment to a scope itself. -/
def assignRoot (h : Heap) (target : ℕ) (value : Val) : Heap × Except String Unit :=
  if h.isDict value then
    let h : Heap := h.modify target fun _ => .dict []
    match h.obj? value with
    | some o => (h.modify target fun _ => o, .ok ())
    | none => (h, .ok ())
  else (h, .error "Root assignment requires a JSON object value.")

/-- The scope a path is in, and the tokens below it. -/
def contextTarget (path : String) : Except String (Option (ContextRoot × List String)) := do
  let tokens ← pathTokens path
  return (rootOfTokens tokens).map fun root => (root, targetTokens root tokens)

/-- `write_context_path`. -/
def writeContextPath (c : RunContext) (h : Heap) (path : String) (value : Val) :
    Heap × Except String Unit :=
  match contextTarget path with
  | .error e => (h, .error e)
  | .ok none =>
    (h, .error "Unsupported target path. Use $.runEnvelope, $.global, $.local or $.result.")
  | .ok (some (root, tokens)) =>
    match checkMutable c root with
    | .error e => (h, .error e)
    | .ok () =>
      let (h, target) := targetFromRoot c h root
      if tokens = [] then assignRoot h target value
      else assignNestedValue value h (.ref target) tokens

/-- `remove_context_path`. -/
def removeContextPath (c : RunContext) (h : Heap) (path : String) : Heap × Except String Unit :=
  match contextTarget path with
  | .error e => (h, .error e)
  | .ok none => (h, .ok ())
  | .ok (some (root, tokens)) =>
    match checkMutable c root with
    | .error e => (h, .error e)
    | .ok () =>
      let (h, target) := targetFromRoot c h root
      removeNestedValue h (.ref target) tokens

/-- The path that `set_context_var` writes to. -/
def contextVarPath (kind : SuiteItemKind) (key scope : String) : Except String String :=
  if strip key = "" then .error "Context variable key is required."
  else
    let scope := strip (if scope = "" then "local" else scope)
    let scope :=
      if scope = "auto" then (if kind = .test then "local" else "global") else scope
    .ok s!"$.{scope}.constants.{strip key}"

/-- `set_context_var`. -/
def setContextVar (c : RunContext) (h : Heap) (key : String) (value : Val) (scope : String) :
    Heap × Except String Unit :=
  match contextVarPath c.currentItemKind key scope with
  | .error e => (h, .error e)
  | .ok path => writeContextPath c h path value

/-! ### The scope that references are resolved in -/

/-- `build_run_context_scope`. -/
def buildRunContextScope (c : RunContext) (h : Heap) : Heap × ℕ :=
  let (h, vars) := h.dictOrNew (h.field c.globalScope "constants")
  let (h, response) := h.dictOrNew (h.field c.resultScope "commands")
  h.alloc (.dict
    [("runEnvelope", .ref c.runEnvelope), ("global", .ref c.globalScope),
     ("local", .ref c.localScope), ("result", .ref c.resultScope), ("vars", vars),
     ("response", response)])

end Context
end QualityFlow
