/-
# Which server answers a request

The calls of `app/mock_servers/api/mock_server_api.py` on the rows of
`app/mock_servers/services/mock_server_payload_service.py` and the registry of
`app/mock_servers/services/runtime/mock_server_runtime_registry.py`, and the requests that
`dispatch_mock_runtime_request` looks up.

A call first commits the rows and then starts or stops the server.  In every state that the calls
reach, the registry runs the active servers as their rows are (`Control.Reached.served`), so a
request takes the first matching route of the active server that has its endpoint
(`dispatch_route`).
That rests on three things: that nothing outside makes the start of a server fail, that the
endpoint of every row is one that the registry finds again, and that no server is updated while it
runs to inline commands that cannot be loaded.  Such an update leaves the row inactive and the
server answering with its former routes.
-/

import QualityFlow.Command.Codec
import QualityFlow.MockServer.Registry
import QualityFlow.MockServer.Routes

namespace QualityFlow
namespace MockServer

open Py Function

/-! ### The rows -/

/-- A row of `mock_servers`, with the rows of its queues and routes. -/
structure MockServerRow where
  id : String
  description : String
  endpoint : String
  isActive : Bool
  queues : List MockQueueBinding
  apis : List MockServerApiEntity

/-- `_normalize_endpoint` of the class of the configuration. -/
def checkedEndpoint (endpoint : String) : Except String String :=
  let value := stripChar '/' (strip endpoint)
  if value = "" then .error "endpoint is required." else .ok (lower value)

/-- `str(dto.cfg.endpoint or "").strip().lower()`. -/
def storedEndpoint (endpoint : String) : String := lower (strip endpoint)

/-- `CreateMockServerDto`, with the ids that its rows are given. -/
structure CreateMockServerDto where
  description : String
  endpoint : String
  isActive : Bool
  queues : List MockQueueBinding
  apis : List (String × ℤ × MockServerApiConfigurationDto)

/-- The row that a dto is stored as. -/
def CreateMockServerDto.row (dto : CreateMockServerDto) (id endpoint : String) : MockServerRow where
  id
  description := dto.description
  endpoint := storedEndpoint endpoint
  isActive := dto.isActive
  queues := dto.queues.map fun q => { q with queueId := strip q.queueId }
  apis := dto.apis.map fun api => buildApiEntity api.1 api.2.1 api.2.2

/-- The row that has an id. -/
def rowOf (rows : List MockServerRow) (id : String) : Option MockServerRow :=
  rows.find? fun row => row.id = id

/-- `get_by_endpoint`. -/
def getByEndpoint (rows : List MockServerRow) (endpoint : String) : Option MockServerRow :=
  rows.find? fun row => row.endpoint = storedEndpoint endpoint

/-- `update`, with `is_active`. -/
def setActive (rows : List MockServerRow) (id : String) (isActive : Bool) : List MockServerRow :=
  rows.map fun row => if row.id = id then { row with isActive } else row

/-- The order of `get_all_active`. -/
def MockServerRow.le (a b : MockServerRow) : Prop :=
  a.description < b.description ∨ a.description = b.description ∧ a.id ≤ b.id

instance : DecidableRel MockServerRow.le := fun _ _ => inferInstanceAs (Decidable (_ ∨ _))

/-- `get_all_active`. -/
def getAllActive (rows : List MockServerRow) : List MockServerRow :=
  (rows.filter (·.isActive)).insertionSort MockServerRow.le

/-! ### Loading -/

/-- The `order` of `_build_inline_operation_snapshot`. -/
def inlineOrder (rawOperation : Dict String Json) (order : ℕ) : Except String ℤ :=
  Command.pyInt (Command.orElse (Json.field rawOperation "order") (.int order))

/-- The orders of the commands of `_parse_inline_operations`. -/
def parseInlineOperations (value : Option (List (Dict String Json))) : Except String (List ℤ) :=
  (value.getD []).zipIdx.mapM fun item => inlineOrder item.1 item.2

/-- The route of a row, once its inline commands are read. -/
def loadApi (entity : MockServerApiEntity) : Except String MockApiRoute := do
  let _ ← parseInlineOperations entity.configurationJson.preResponseCommands
  let _ ← parseInlineOperations entity.configurationJson.postResponseCommands
  return loadRoute entity

/-- The routes of `load_runtime_server`, which raises where a command cannot be read. -/
def loadApis (entities : List MockServerApiEntity) : Except String (List MockApiRoute) := do
  let routes ← entities.mapM loadApi
  return routes.insertionSort MockApiRoute.le

theorem mapM_loadApi {entities : List MockServerApiEntity} {routes : List MockApiRoute}
    (h : entities.mapM loadApi = .ok routes) : routes = entities.map loadRoute := by
  induction entities generalizing routes with
  | nil => exact (Except.ok.inj h).symm
  | cons entity entities ih =>
    rw [List.mapM_cons, bind_eq_ok] at h
    obtain ⟨route, hroute, h⟩ := h
    obtain ⟨rest, hrest, h⟩ := bind_eq_ok.1 h
    have hloaded : route = loadRoute entity := by
      unfold loadApi at hroute
      obtain ⟨-, -, hroute⟩ := bind_eq_ok.1 hroute
      obtain ⟨-, -, hroute⟩ := bind_eq_ok.1 hroute
      exact (Except.ok.inj hroute).symm
    rw [← Except.ok.inj h, hloaded, ih hrest, List.map_cons]

theorem loadApis_eq_ok {entities : List MockServerApiEntity} {routes : List MockApiRoute}
    (h : loadApis entities = .ok routes) : routes = loadRoutes entities := by
  obtain ⟨loaded, hloaded, h⟩ := bind_eq_ok.1 h
  rw [← Except.ok.inj h, mapM_loadApi hloaded, loadRoutes]

/-! ### The calls -/

/-- The rows, the registry, and the routes of the servers as they were loaded. -/
structure Control where
  rows : List MockServerRow
  registry : Registry
  routes : String → List MockApiRoute

/-- What a call finds outside: whether the constants of the commands are in order, whether each
listener can be started, and whether the log can be written. -/
structure Outer where
  constants : Except String Unit
  listen : ℕ → Except String Unit
  log : Except String Unit

namespace Control

/-- The row of a server and its routes, as `start_server` loads them. -/
def load (c : Control) (id : String) : Except String (MockServerEntity × List MockApiRoute) :=
  match rowOf c.rows id with
  | some row => (loadApis row.apis).map fun routes => (⟨row.endpoint, row.queues⟩, routes)
  | none => .error s!"Mock server '{id}' not found."

/-- `start_server`, on the rows there are. -/
def start (c : Control) (id : String) (outer : Outer) : Except String Unit × Control :=
  let loaded := c.load id
  let started := c.registry.startServer id
    { load := loaded.map Prod.fst, listen := outer.listen, log := outer.log }
  let routes := match loaded with
    | .ok server => update c.routes id server.2
    | .error _ => c.routes
  (started.1, { c with registry := started.2, routes })

/-- `stop_server`. -/
def stop (c : Control) (id : String) : Control :=
  { c with registry := c.registry.stopServerLocked id }

/-- A start, after which a server that could not be started is no longer active. -/
def activated (c : Control) (id : String) (outer : Outer) : Control :=
  match c.start id outer with
  | (.ok _, c') => c'
  | (.error _, c') => { c' with rows := setActive c'.rows id false }

/-- `create_mock_server_api`, with the id of the new row. -/
def create (c : Control) (id : String) (dto : CreateMockServerDto) (outer : Outer) : Control :=
  match checkedEndpoint dto.endpoint, outer.constants with
  | .ok endpoint, .ok _ =>
    if (getByEndpoint c.rows endpoint).isSome then c
    else
      let c := { c with rows := c.rows ++ [dto.row id endpoint] }
      if dto.isActive then c.activated id outer else c
  | _, _ => c

/-- `update_mock_server_api`. -/
def updated (c : Control) (id : String) (dto : CreateMockServerDto) (outer : Outer) : Control :=
  match checkedEndpoint dto.endpoint, outer.constants with
  | .ok endpoint, .ok _ =>
    if (rowOf c.rows id).isNone then c
    else if (getByEndpoint c.rows endpoint).any fun row => row.id ≠ id then c
    else
      let rows := c.rows.map fun row => if row.id = id then dto.row id endpoint else row
      let c := { c with rows }
      if dto.isActive then c.activated id outer else c.stop id
  | _, _ => c

/-- `delete_mock_server_api`; the row stays where the log of the stop raises. -/
def delete (c : Control) (id : String) (outer : Outer) : Control :=
  let c := c.stop id
  match outer.log with
  | .ok _ => { c with rows := c.rows.filter fun row => row.id ≠ id }
  | .error _ => c

/-- `activate_mock_server_api`. -/
def activate (c : Control) (id : String) (outer : Outer) : Control :=
  if (rowOf c.rows id).isNone then c
  else { c with rows := setActive c.rows id true }.activated id outer

/-- `deactivate_mock_server_api`. -/
def deactivate (c : Control) (id : String) : Control :=
  if (rowOf c.rows id).isNone then c
  else { c with rows := setActive c.rows id false }.stop id

/-- `bootstrap_active_servers`, in a new process. -/
def restart (c : Control) (outer : String → Outer) : Control :=
  (getAllActive c.rows).foldl (fun c row => (c.start row.id (outer row.id)).2)
    { rows := c.rows, registry := .empty, routes := fun _ => [] }

end Control

inductive ControlCall where
  | create (id : String) (dto : CreateMockServerDto) (outer : Outer)
  | update (id : String) (dto : CreateMockServerDto) (outer : Outer)
  | delete (id : String) (outer : Outer)
  | activate (id : String) (outer : Outer)
  | deactivate (id : String)
  | restart (outer : String → Outer)

def Control.call (c : Control) : ControlCall → Control
  | .create id dto outer => c.create id dto outer
  | .update id dto outer => c.updated id dto outer
  | .delete id outer => c.delete id outer
  | .activate id outer => c.activate id outer
  | .deactivate id => c.deactivate id
  | .restart outer => c.restart outer

/-- The server of `get_server_by_endpoint`, by its id. -/
def Control.serverAt (c : Control) (endpoint : String) : Option String :=
  match c.registry.serverIdsByEndpoint (normalizeEndpoint endpoint) with
  | none => none
  | some id => if id = "" then none else (c.registry.serversById id).map fun _ => id

/-- `dispatch_mock_runtime_request`, up to the route that it takes. -/
def Control.dispatch (c : Control) (endpoint method path : String)
    (queryParams headers : Dict String String) (bodyJson : Json) (bodyRaw : String) :
    Option MockApiRoute :=
  match c.serverAt endpoint with
  | none => none
  | some id => findMatchingApiRoute (c.routes id) method path queryParams headers bodyJson bodyRaw

/-! ### What the calls keep -/

/-- The rows have ids and endpoints of their own, and the registry finds each endpoint again. -/
structure RowsKept (rows : List MockServerRow) : Prop where
  ids : (rows.map (·.id)).Nodup
  endpoints : (rows.map (·.endpoint)).Nodup
  named : ∀ row ∈ rows, row.id ≠ ""
  normal : ∀ row ∈ rows, normalizeEndpoint row.endpoint = row.endpoint

/-- What `load_runtime_server` makes of a row. -/
def MockServerRow.runtime (row : MockServerRow) : MockRuntimeServer :=
  loadRuntimeServer ⟨row.endpoint, row.queues⟩

namespace Control

/-- The registry runs a server as its row is, or not at all where that is not active. -/
def Right (c : Control) (id : String) : Prop :=
  c.registry.serversById id
      = ((rowOf c.rows id).filter (·.isActive)).map MockServerRow.runtime ∧
    ∀ row, rowOf c.rows id = some row → row.isActive = true →
      loadApis row.apis = .ok (c.routes id)

/-- **The registry runs the active servers as their rows are.** -/
structure Served (c : Control) : Prop where
  rows : RowsKept c.rows
  consistent : c.registry.Consistent
  right : ∀ id, c.Right id

/-- The same of all servers but one. -/
structure ServedBut (c : Control) (id : String) : Prop where
  rows : RowsKept c.rows
  consistent : c.registry.Consistent
  right : ∀ other, other ≠ id → c.Right other
  removable : c.registry.Removable id

end Control

/-- Nothing goes wrong outside when a server is started or stopped. -/
def Outer.Calm (outer : Outer) : Prop := (∀ i, outer.listen i = .ok ()) ∧ outer.log = .ok ()

/-- An endpoint that the registry finds again as it is stored. -/
def Findable (endpoint : String) : Prop :=
  ∀ checked, checkedEndpoint endpoint = .ok checked →
    normalizeEndpoint (storedEndpoint checked) = storedEndpoint checked

/-- The routes of a server can be loaded: `int` takes the order of each of its inline commands. -/
def CreateMockServerDto.Loadable (dto : CreateMockServerDto) : Prop :=
  ∃ routes, loadApis (dto.apis.map fun api => buildApiEntity api.1 api.2.1 api.2.2) = .ok routes

/-- A call by which nothing goes wrong outside; the id of a new row is a new one, and what a
running server is updated to can be loaded. -/
def Control.Allows (c : Control) : ControlCall → Prop
  | .create id dto outer =>
    id ≠ "" ∧ rowOf c.rows id = none ∧ outer.Calm ∧ Findable dto.endpoint
  | .update id dto outer =>
    outer.Calm ∧ Findable dto.endpoint ∧
      ((c.registry.serversById id).isSome → dto.isActive = true → dto.Loadable)
  | .delete _ outer => outer.Calm
  | .activate _ outer => outer.Calm
  | .deactivate _ => True
  | .restart outer => ∀ id, (outer id).Calm

/-- Before the first call. -/
def Control.empty : Control where
  rows := []
  registry := .empty
  routes _ := []

/-- What the calls lead to. -/
inductive Control.Reached : Control → Prop where
  | empty : Reached .empty
  | call {c : Control} (before : Reached c) (call : ControlCall) (allowed : c.Allows call) :
      Reached (c.call call)

/-! ### Rows -/

section

variable {rows : List MockServerRow} {row : MockServerRow} {id other : String}

theorem rowOf_eq_some (h : RowsKept rows) :
    rowOf rows id = some row ↔ row ∈ rows ∧ row.id = id := by
  unfold rowOf
  constructor
  · intro hrow
    exact ⟨List.mem_of_find?_eq_some hrow, by simpa using List.find?_some hrow⟩
  · rintro ⟨hmem, rfl⟩
    cases hfound : rows.find? fun r => r.id = row.id with
    | none =>
      have hnone := List.find?_eq_none.1 hfound row hmem
      simp at hnone
    | some found =>
      have hid : found.id = row.id := by simpa using List.find?_some hfound
      rw [List.inj_on_of_nodup_map h.ids (List.mem_of_find?_eq_some hfound) hmem hid]

/-- Two rows have one endpoint only where they are one. -/
theorem RowsKept.id_of_endpoint (h : RowsKept rows) {row' : MockServerRow}
    (hrow : rowOf rows id = some row) (hrow' : rowOf rows other = some row')
    (hendpoint : row.endpoint = row'.endpoint) : id = other := by
  obtain ⟨hmem, rfl⟩ := (rowOf_eq_some h).1 hrow
  obtain ⟨hmem', rfl⟩ := (rowOf_eq_some h).1 hrow'
  rw [List.inj_on_of_nodup_map h.endpoints hmem hmem' hendpoint]

theorem RowsKept.endpoint_runtime (h : RowsKept rows) (hrow : rowOf rows id = some row) :
    row.runtime.endpoint = row.endpoint := h.normal row ((rowOf_eq_some h).1 hrow).1

end

/-! ### Changes of the rows -/

section

variable {rows : List MockServerRow} {row : MockServerRow} {id other : String}

theorem not_mem_of_rowOf (h : rowOf rows id = none) : ∀ row ∈ rows, row.id ≠ id := by
  intro row hrow hid
  have hnone := List.find?_eq_none.1 h row hrow
  simp [hid] at hnone

/-- A new row. -/
theorem RowsKept.append (h : RowsKept rows) (hid : rowOf rows row.id = none) (hnamed : row.id ≠ "")
    (hnormal : normalizeEndpoint row.endpoint = row.endpoint)
    (hendpoint : ∀ other ∈ rows, other.endpoint ≠ row.endpoint) : RowsKept (rows ++ [row]) where
  ids := by
    rw [List.map_append, List.nodup_append]
    refine ⟨h.ids, by simp, ?_⟩
    intro a ha b hb
    obtain ⟨other, hother, rfl⟩ := List.mem_map.1 ha
    obtain rfl : b = row.id := by simpa using hb
    exact not_mem_of_rowOf hid other hother
  endpoints := by
    rw [List.map_append, List.nodup_append]
    refine ⟨h.endpoints, by simp, ?_⟩
    intro a ha b hb
    obtain ⟨other, hother, rfl⟩ := List.mem_map.1 ha
    obtain rfl : b = row.endpoint := by simpa using hb
    exact hendpoint other hother
  named := List.forall_mem_append.2 ⟨h.named, by simpa using hnamed⟩
  normal := List.forall_mem_append.2 ⟨h.normal, by simpa using hnormal⟩

theorem rowOf_append (hother : other ≠ row.id) :
    rowOf (rows ++ [row]) other = rowOf rows other := by
  unfold rowOf
  rw [List.find?_append]
  simp [hother.symm]

theorem rowOf_append_self (hid : rowOf rows row.id = none) :
    rowOf (rows ++ [row]) row.id = some row := by
  unfold rowOf at hid ⊢
  rw [List.find?_append, hid]
  simp

/-- The row of an id, changed. -/
def changeRow (rows : List MockServerRow) (id : String) (f : MockServerRow → MockServerRow) :
    List MockServerRow :=
  rows.map fun row => if row.id = id then f row else row

variable {f : MockServerRow → MockServerRow}

theorem RowsKept.change (h : RowsKept rows)
    (hf : ∀ row ∈ rows, row.id = id → (f row).id = id ∧
      normalizeEndpoint (f row).endpoint = (f row).endpoint ∧
      ∀ other ∈ rows, other.id ≠ id → other.endpoint ≠ (f row).endpoint) :
    RowsKept (changeRow rows id f) where
  ids := by
    have hsame : (changeRow rows id f).map (·.id) = rows.map (·.id) := by
      unfold changeRow
      rw [List.map_map]
      refine List.map_congr_left fun row hrow => ?_
      show (if row.id = id then f row else row).id = row.id
      split
      · rename_i hid
        rw [(hf row hrow hid).1, hid]
      · rfl
    rw [hsame]
    exact h.ids
  endpoints := by
    have hids := List.pairwise_map.1 h.ids
    have hendpoints := List.pairwise_map.1 h.endpoints
    unfold changeRow
    rw [List.map_map]
    refine List.pairwise_map.2 ((hids.and hendpoints).imp_of_mem fun {a b} ha hb hne => ?_)
    obtain ⟨hid, hendpoint⟩ := hne
    show (if a.id = id then f a else a).endpoint ≠ (if b.id = id then f b else b).endpoint
    split
    · rename_i ha'
      rw [if_neg fun hb' => hid (ha'.trans hb'.symm)]
      exact ((hf a ha ha').2.2 b hb fun hb' => hid (ha'.trans hb'.symm)).symm
    · rename_i ha'
      split
      · rename_i hb'
        exact (hf b hb hb').2.2 a ha ha'
      · exact hendpoint
  named := by
    intro row hrow
    obtain ⟨before, hbefore, rfl⟩ := List.mem_map.1 hrow
    split
    · rename_i hid
      rw [(hf before hbefore hid).1, ← hid]
      exact h.named before hbefore
    · exact h.named before hbefore
  normal := by
    intro row hrow
    obtain ⟨before, hbefore, rfl⟩ := List.mem_map.1 hrow
    split
    · rename_i hid
      exact (hf before hbefore hid).2.1
    · exact h.normal before hbefore

theorem rowOf_change (hf : ∀ row, row.id = id → (f row).id = id) (other : String) :
    rowOf (changeRow rows id f) other
      = if other = id then (rowOf rows id).map f else rowOf rows other := by
  unfold rowOf changeRow
  rw [List.find?_map]
  have hkept (row : MockServerRow) : ((if row.id = id then f row else row).id = other)
      ↔ row.id = other := by
    split
    · rename_i hid
      rw [hf row hid, hid]
    · rfl
  have hsame : ((fun row : MockServerRow => decide (row.id = other)) ∘
      fun row => if row.id = id then f row else row) = fun row => decide (row.id = other) := by
    funext row
    exact decide_eq_decide.2 (hkept row)
  rw [hsame]
  by_cases hother : other = id
  · subst hother
    rw [if_pos rfl]
    cases hfound : rows.find? fun row => row.id = other with
    | none => rfl
    | some row =>
      have hid : row.id = other := by simpa using List.find?_some hfound
      simp [hid]
  · rw [if_neg hother]
    cases hfound : rows.find? fun row => row.id = other with
    | none => rfl
    | some row =>
      have hid : row.id = other := by simpa using List.find?_some hfound
      simp [hid, hother]

/-- A row in the place of another. -/
theorem rowOf_replace {row' : MockServerRow} (hid : row'.id = id) (hrow : rowOf rows id = some row) :
    rowOf (changeRow rows id fun _ => row') id = some row' := by
  rw [rowOf_change fun _ _ => hid, if_pos rfl, hrow]
  rfl

/-- The rows but one. -/
theorem RowsKept.remove (h : RowsKept rows) : RowsKept (rows.filter fun row => row.id ≠ id) where
  ids := h.ids.sublist (List.filter_sublist.map _)
  endpoints := h.endpoints.sublist (List.filter_sublist.map _)
  named row hrow := h.named row (List.mem_of_mem_filter hrow)
  normal row hrow := h.normal row (List.mem_of_mem_filter hrow)

theorem rowOf_remove (other : String) :
    rowOf (rows.filter fun row => row.id ≠ id) other
      = if other = id then none else rowOf rows other := by
  unfold rowOf
  rw [List.find?_filter]
  by_cases hother : other = id
  · subst hother
    rw [if_pos rfl, List.find?_eq_none]
    simp
  · rw [if_neg hother]
    congr 1
    funext row
    by_cases hid : row.id = other
    · simp [hid, hother]
    · simp [hid]

end

/-! ### A start and a stop -/

namespace Control

variable {c : Control} {id : String} {row : MockServerRow} {outer : Outer}

/-- The endpoint of a server that runs as its row is. -/
theorem Right.endpoint {server : MockRuntimeServer} (hrows : RowsKept c.rows) (h : c.Right id)
    (hserver : c.registry.serversById id = some server) :
    ∃ row, rowOf c.rows id = some row ∧ row.isActive = true ∧ server = row.runtime ∧
      server.endpoint = row.endpoint := by
  rw [h.1, Option.map_eq_some_iff] at hserver
  obtain ⟨row, hrow, rfl⟩ := hserver
  obtain ⟨hrow, hactive⟩ := Option.filter_eq_some_iff.1 hrow
  exact ⟨row, hrow, hactive, rfl, hrows.endpoint_runtime hrow⟩

theorem Served.but (h : c.Served) (id : String) : c.ServedBut id where
  rows := h.rows
  consistent := h.consistent
  right other _ := h.right other
  removable server hserver := by
    obtain ⟨row, hrow, -, -, hendpoint⟩ := (h.right id).endpoint h.rows hserver
    rw [hendpoint]
    exact h.rows.normal row ((rowOf_eq_some h.rows).1 hrow).1

/-- Other rows of one server. -/
theorem ServedBut.change (h : c.ServedBut id) {rows : List MockServerRow} (hrows : RowsKept rows)
    (hothers : ∀ other, other ≠ id → rowOf rows other = rowOf c.rows other) :
    { c with rows }.ServedBut id where
  rows := hrows
  consistent := h.consistent
  right other hother := by
    unfold Right
    rw [hothers other hother]
    exact h.right other hother
  removable := h.removable

/-- **A server that is not active is as its row says once it is stopped.** -/
theorem ServedBut.stop (h : c.ServedBut id)
    (hrow : ∀ row, rowOf c.rows id = some row → row.isActive = false) : (c.stop id).Served where
  rows := h.rows
  consistent := h.consistent.stop h.removable
  right other := by
    have hbyId : (c.stop id).registry.serversById
        = Function.update c.registry.serversById id none := rfl
    unfold Right
    rw [hbyId]
    by_cases hother : other = id
    · subst hother
      rw [Function.update_self]
      constructor
      · cases hfound : rowOf c.rows other with
        | none => rw [show (c.stop other).rows = c.rows from rfl, hfound]; rfl
        | some row =>
          rw [show (c.stop other).rows = c.rows from rfl, hfound]
          simp [Option.filter, hrow row hfound]
      · intro row hfound hactive
        rw [hrow row hfound] at hactive
        cases hactive
    · rw [Function.update_of_ne hother]
      exact h.right other hother

/-- What a start does where nothing goes wrong. -/
theorem start_calm {routes : List MockApiRoute} (hrow : rowOf c.rows id = some row)
    (hload : loadApis row.apis = .ok routes) (hcalm : outer.Calm) :
    ∃ threads started, c.start id outer = (.ok (), { c with
      registry := c.registry.restarted id row.runtime threads started
      routes := Function.update c.routes id routes }) := by
  have hloaded : c.load id = .ok (⟨row.endpoint, row.queues⟩, routes) := by
    unfold load
    rw [hrow]
    simp only [hload, Except.map]
  let env : StartEnv :=
    { load := .ok ⟨row.endpoint, row.queues⟩, listen := outer.listen, log := outer.log }
  obtain ⟨threads, started, hstart⟩ : ∃ threads started, c.registry.call (.start id env)
      = (env.log, c.registry.restarted id row.runtime threads started) :=
    Registry.startServer_ok rfl fun i _ => hcalm.1 i
  refine ⟨threads, started, ?_⟩
  have hserver : c.registry.startServer id env
      = (env.log, c.registry.restarted id row.runtime threads started) := hstart
  unfold start
  simp only [show env.log = .ok () from hcalm.2] at hserver
  simp only [env] at hserver
  simp only [hloaded, Except.map, hserver]

/-- **A server that cannot be loaded is not touched.** -/
theorem start_refused {e : String} (hrow : rowOf c.rows id = some row)
    (hload : loadApis row.apis = .error e) : c.start id outer = (.error e, c) := by
  have hloaded : c.load id = .error e := by
    unfold load
    rw [hrow]
    simp only [hload, Except.map]
  unfold start
  simp only [hloaded, Except.map, Registry.startServer]

/-- The servers that are registered have rows of their own. -/
def Rowed (c : Control) (id : String) : Prop :=
  ∀ other, other ≠ id → ∀ server, c.registry.serversById other = some server →
    ∃ row, rowOf c.rows other = some row ∧ server.endpoint = row.endpoint

theorem ServedBut.rowed (h : c.ServedBut id) : c.Rowed id := by
  intro other hother server hserver
  obtain ⟨row, hrow, -, -, hendpoint⟩ := (h.right other hother).endpoint h.rows hserver
  exact ⟨row, hrow, hendpoint⟩

/-- **A start leaves the registry consistent**, as no other server has the endpoint. -/
theorem consistent_restarted (hrows : RowsKept c.rows) (hc : c.registry.Consistent)
    (hrowed : c.Rowed id) (hremovable : c.registry.Removable id)
    (hrow : rowOf c.rows id = some row) (threads : List Listener) (started : ℕ) :
    (c.registry.restarted id row.runtime threads started).Consistent := by
  show (c.registry.restarted id (loadRuntimeServer ⟨row.endpoint, row.queues⟩) threads
    started).Consistent
  refine hc.start ?_ (.inr hremovable) threads started
  intro other server hserver hsame
  by_contra hother
  obtain ⟨row', hrow', hendpoint⟩ := hrowed other hother server hserver
  refine hother (hrows.id_of_endpoint hrow hrow' ?_).symm
  rw [← hendpoint, hsame, hrows.normal row ((rowOf_eq_some hrows).1 hrow).1]

/-- **A server that is active is as its row says once it is started.** -/
theorem ServedBut.start {routes : List MockApiRoute} (h : c.ServedBut id)
    (hrow : rowOf c.rows id = some row) (hactive : row.isActive = true)
    (hload : loadApis row.apis = .ok routes) (hcalm : outer.Calm) :
    ∃ c', c.start id outer = (.ok (), c') ∧ c'.Served := by
  obtain ⟨threads, started, hstart⟩ := start_calm hrow hload hcalm
  refine ⟨_, hstart, ?_⟩
  exact
    { rows := h.rows
      consistent :=
        consistent_restarted h.rows h.consistent h.rowed h.removable hrow threads started
      right := by
        intro other
        unfold Right Registry.restarted
        dsimp only
        by_cases hother : other = id
        · subst hother
          rw [Function.update_self, Function.update_self, hrow]
          refine ⟨by simp [Option.filter, hactive], fun row' hrow' _ => ?_⟩
          rw [← Option.some.inj hrow', hload]
        · rw [Function.update_of_ne hother, Function.update_of_ne hother]
          exact h.right other hother }

/-- A server that is neither active nor registered is as its row says. -/
theorem right_of_idle (hidle : c.registry.serversById id = none)
    (hinactive : ∀ row, rowOf c.rows id = some row → row.isActive = false) : c.Right id := by
  unfold Right
  rw [hidle]
  constructor
  · cases hrow : rowOf c.rows id with
    | none => rfl
    | some row => simp [Option.filter, hinactive row hrow]
  · intro row hrow hactive
    rw [hinactive row hrow] at hactive
    cases hactive

theorem ServedBut.served (h : c.ServedBut id) (hright : c.Right id) : c.Served where
  rows := h.rows
  consistent := h.consistent
  right other := by
    by_cases hother : other = id
    · rw [hother]
      exact hright
    · exact h.right other hother

/-- The flag of a row. -/
theorem ServedBut.setActive (h : c.ServedBut id) (isActive : Bool) :
    { c with rows := MockServer.setActive c.rows id isActive }.ServedBut id := by
  have hunchanged : ∀ row ∈ c.rows, row.id = id → ∀ other ∈ c.rows, other.id ≠ id →
      other.endpoint ≠ row.endpoint := by
    intro row hrow hid other hother hne hsame
    refine hne ?_
    rw [List.inj_on_of_nodup_map h.rows.endpoints hother hrow hsame, hid]
  have hkept : RowsKept (changeRow c.rows id fun row => { row with isActive }) :=
    h.rows.change fun row hrow hid =>
      ⟨hid, h.rows.normal row hrow, hunchanged row hrow hid⟩
  refine h.change hkept fun other hother => ?_
  have hchanged : rowOf (changeRow c.rows id fun row => { row with isActive }) other
      = if other = id then (rowOf c.rows id).map fun row => { row with isActive }
        else rowOf c.rows other :=
    rowOf_change (f := fun row => { row with isActive }) (fun _ hid => hid) other
  rwa [if_neg hother] at hchanged

theorem rowOf_setActive {isActive : Bool} (hrow : rowOf c.rows id = some row) :
    rowOf (MockServer.setActive c.rows id isActive) id = some { row with isActive } := by
  have hchanged : rowOf (changeRow c.rows id fun row => { row with isActive }) id
      = if id = id then (rowOf c.rows id).map fun row => { row with isActive }
        else rowOf c.rows id :=
    rowOf_change (f := fun row => { row with isActive }) (fun _ hid => hid) id
  rw [if_pos rfl, hrow] at hchanged
  exact hchanged

/-- **What is activated is as its row says**, where it can be loaded or was not running: a server
that cannot be loaded is set inactive, and one that was running would go on as it was. -/
theorem ServedBut.activated (h : c.ServedBut id) (hrow : rowOf c.rows id = some row)
    (hactive : row.isActive = true) (hcalm : outer.Calm)
    (hloads : (c.registry.serversById id).isSome → ∃ routes, loadApis row.apis = .ok routes) :
    (c.activated id outer).Served := by
  unfold Control.activated
  cases hload : loadApis row.apis with
  | ok routes =>
    obtain ⟨c', hstart, hserved⟩ := h.start hrow hactive hload hcalm
    rw [hstart]
    exact hserved
  | error e =>
    have hidle : c.registry.serversById id = none := by
      by_contra hrunning
      obtain ⟨routes, hroutes⟩ := hloads (Option.isSome_iff_ne_none.2 hrunning)
      rw [hload] at hroutes
      cases hroutes
    rw [start_refused hrow hload]
    refine (h.setActive false).served (right_of_idle hidle fun row' hrow' => ?_)
    have hset : rowOf (MockServer.setActive c.rows id false) id
        = some { row with isActive := false } := rowOf_setActive hrow
    rw [hset, Option.some.injEq] at hrow'
    rw [← hrow']

/-! ### The calls keep it -/

theorem Served.create (h : c.Served) {dto : CreateMockServerDto}
    (hallowed : c.Allows (.create id dto outer)) : (c.create id dto outer).Served := by
  obtain ⟨hnamed, hnew, hcalm, hfindable⟩ := hallowed
  unfold Control.create
  split
  · rename_i endpoint _ hchecked _
    split
    · exact h
    · rename_i hfree
      have hfree : getByEndpoint c.rows endpoint = none := by simpa using hfree
      have hunused : ∀ other ∈ c.rows, other.endpoint ≠ storedEndpoint endpoint := by
        intro other hother hsame
        have hnone := List.find?_eq_none.1 hfree other hother
        simp [hsame] at hnone
      have hkept : RowsKept (c.rows ++ [dto.row id endpoint]) :=
        h.rows.append hnew hnamed (hfindable endpoint hchecked) hunused
      have hbut := (h.but id).change hkept fun other hother => rowOf_append hother
      have hrow : rowOf (c.rows ++ [dto.row id endpoint]) id = some (dto.row id endpoint) :=
        rowOf_append_self hnew
      have hidle : c.registry.serversById id = none := by
        rw [(h.right id).1, hnew]
        rfl
      dsimp only
      split
      · rename_i hactive
        refine hbut.activated hrow hactive hcalm fun hrunning => ?_
        rw [show c.registry.serversById id = none from hidle] at hrunning
        cases hrunning
      · rename_i hactive
        refine hbut.served (right_of_idle hidle fun row hfound => ?_)
        rw [hrow, Option.some.injEq] at hfound
        rw [← hfound]
        exact eq_false_of_ne_true hactive
  · exact h

theorem Served.updated (h : c.Served) {dto : CreateMockServerDto}
    (hallowed : c.Allows (.update id dto outer)) : (c.updated id dto outer).Served := by
  obtain ⟨hcalm, hfindable, hloads⟩ := hallowed
  unfold Control.updated
  split
  · rename_i endpoint _ hchecked _
    split
    · exact h
    split
    · exact h
    · rename_i hpresent hfree
      have hrows : (c.rows.map fun row => if row.id = id then dto.row id endpoint else row)
          = changeRow c.rows id fun _ => dto.row id endpoint := rfl
      have hunused : ∀ other ∈ c.rows, other.id ≠ id →
          other.endpoint ≠ storedEndpoint endpoint := by
        intro other hother hid hsame
        obtain ⟨found, hfound⟩ : ∃ found, getByEndpoint c.rows endpoint = some found := by
          refine Option.isSome_iff_exists.1 (List.find?_isSome.2 ⟨other, hother, ?_⟩)
          simpa using hsame
        have hfoundEndpoint : found.endpoint = storedEndpoint endpoint := by
          simpa using List.find?_some hfound
        have hfoundId : found.id = id := by
          rw [hfound] at hfree
          simpa using hfree
        refine hid ?_
        rw [← hfoundId, List.inj_on_of_nodup_map h.rows.endpoints (List.mem_of_find?_eq_some hfound)
          hother (hfoundEndpoint.trans hsame.symm)]
      have hkept : RowsKept (changeRow c.rows id fun _ => dto.row id endpoint) :=
        h.rows.change fun row hrow hid => ⟨rfl, hfindable endpoint hchecked, hunused⟩
      have hid : (dto.row id endpoint).id = id := rfl
      have hbut := (h.but id).change hkept fun other hother => by
        rw [rowOf_change fun _ _ => hid, if_neg hother]
      have hrow : rowOf (changeRow c.rows id fun _ => dto.row id endpoint) id
          = some (dto.row id endpoint) := by
        have hsome : rowOf c.rows id ≠ none := by simpa using hpresent
        obtain ⟨row, hrow⟩ := Option.ne_none_iff_exists'.1 hsome
        exact rowOf_replace hid hrow
      rw [hrows]
      dsimp only
      split
      · rename_i hactive
        exact hbut.activated hrow hactive hcalm fun hrunning => hloads hrunning hactive
      · rename_i hactive
        refine hbut.stop fun row hrow' => ?_
        rw [hrow, Option.some.injEq] at hrow'
        rw [← hrow']
        exact eq_false_of_ne_true hactive
  · exact h

/-- **An update that cannot be loaded leaves the registry as it was**: the row is changed and set
inactive, and a server that was running goes on with its former routes. -/
theorem updated_refused {dto : CreateMockServerDto} {endpoint : String}
    (hchecked : checkedEndpoint dto.endpoint = .ok endpoint) (hconstants : outer.constants = .ok ())
    (hrow : rowOf c.rows id = some row)
    (hfree : ¬(getByEndpoint c.rows endpoint).any fun row => row.id ≠ id)
    (hactive : dto.isActive = true) (hloads : ¬dto.Loadable) :
    (c.updated id dto outer).registry = c.registry ∧ (c.updated id dto outer).routes = c.routes ∧
      rowOf (c.updated id dto outer).rows id
        = some { dto.row id endpoint with isActive := false } := by
  let changed : Control := { c with rows := changeRow c.rows id fun _ => dto.row id endpoint }
  have hchanged : rowOf changed.rows id = some (dto.row id endpoint) := rowOf_replace rfl hrow
  obtain ⟨e, hload⟩ : ∃ e, loadApis (dto.row id endpoint).apis = .error e := by
    cases hload : loadApis (dto.row id endpoint).apis with
    | ok routes => exact absurd ⟨routes, hload⟩ hloads
    | error e => exact ⟨e, rfl⟩
  have hupdated : c.updated id dto outer
      = { changed with rows := MockServer.setActive changed.rows id false } := by
    unfold Control.updated
    simp only [hchecked, hconstants, hrow, hfree, hactive, Option.isNone_some, if_true, if_false,
      Bool.false_eq_true]
    show changed.activated id outer = _
    unfold Control.activated
    rw [start_refused hchanged hload]
  rw [hupdated]
  exact ⟨rfl, rfl, rowOf_setActive hchanged⟩

theorem Served.activate (h : c.Served) (hcalm : outer.Calm) : (c.activate id outer).Served := by
  unfold Control.activate
  split
  · exact h
  · rename_i hpresent
    have hsome : rowOf c.rows id ≠ none := by simpa using hpresent
    obtain ⟨row, hrow⟩ := Option.ne_none_iff_exists'.1 hsome
    refine ((h.but id).setActive true).activated (rowOf_setActive hrow) rfl hcalm fun hrunning => ?_
    -- a server that runs is active, and has been loaded as its row is
    obtain ⟨server, hserver⟩ := Option.isSome_iff_exists.1 hrunning
    obtain ⟨row', hrow', hactive, -, -⟩ := (h.right id).endpoint h.rows hserver
    obtain rfl : row = row' := Option.some.inj (hrow.symm.trans hrow')
    exact ⟨c.routes id, (h.right id).2 row hrow hactive⟩

theorem Served.deactivate (h : c.Served) : (c.deactivate id).Served := by
  unfold Control.deactivate
  split
  · exact h
  · rename_i hpresent
    have hsome : rowOf c.rows id ≠ none := by simpa using hpresent
    obtain ⟨row, hrow⟩ := Option.ne_none_iff_exists'.1 hsome
    refine ((h.but id).setActive false).stop fun row' hrow' => ?_
    have hset : rowOf (MockServer.setActive c.rows id false) id
        = some { row with isActive := false } := rowOf_setActive hrow
    rw [hset, Option.some.injEq] at hrow'
    rw [← hrow']

theorem Served.delete (h : c.Served) (hcalm : outer.Calm) : (c.delete id outer).Served := by
  have hremoved (other : String) : rowOf (c.rows.filter fun row => row.id ≠ id) other
      = if other = id then none else rowOf c.rows other := rowOf_remove other
  have hbut := (h.but id).change h.rows.remove fun other hother => by
    rw [hremoved, if_neg hother]
  have hstopped := hbut.stop fun row hrow => by
    rw [hremoved, if_pos rfl] at hrow
    cases hrow
  unfold Control.delete
  rw [hcalm.2]
  exact hstopped

/-- A new process that has started some of the servers. -/
structure Starting (c : Control) (started : List MockServerRow) : Prop where
  rows : RowsKept c.rows
  consistent : c.registry.Consistent
  right : ∀ row ∈ started, c.Right row.id
  idle : ∀ id, (∀ row ∈ started, row.id ≠ id) → c.registry.serversById id = none
  active : ∀ row ∈ started, row ∈ c.rows ∧ row.isActive = true

theorem Starting.start {started : List MockServerRow} {routes : List MockApiRoute}
    (h : c.Starting started) (hrow : row ∈ c.rows) (hactive : row.isActive = true)
    (hload : loadApis row.apis = .ok routes) (hnew : ∀ other ∈ started, other.id ≠ row.id)
    (hcalm : outer.Calm) :
    (c.start row.id outer).2.Starting (started ++ [row]) ∧
      (c.start row.id outer).2.rows = c.rows := by
  have hfound : rowOf c.rows row.id = some row := (rowOf_eq_some h.rows).2 ⟨hrow, rfl⟩
  have hidle : c.registry.serversById row.id = none := h.idle row.id hnew
  have hrowed : c.Rowed row.id := by
    intro other hother server hserver
    by_cases hstarted : ∃ row' ∈ started, row'.id = other
    · obtain ⟨row', hmem, rfl⟩ := hstarted
      obtain ⟨found, hfound', -, -, hendpoint⟩ := (h.right row' hmem).endpoint h.rows hserver
      exact ⟨found, hfound', hendpoint⟩
    · have hnone := h.idle other fun row' hmem hid => hstarted ⟨row', hmem, hid⟩
      rw [hnone] at hserver
      cases hserver
  have hremovable : c.registry.Removable row.id := by
    intro server hserver
    rw [hidle] at hserver
    cases hserver
  obtain ⟨threads, count, hstart⟩ := start_calm hfound hload hcalm
  have hconsistent :=
    consistent_restarted h.rows h.consistent hrowed hremovable hfound threads count
  rw [hstart]
  refine ⟨?_, rfl⟩
  exact
    { rows := h.rows
      consistent := hconsistent
      right := by
        intro row' hmem
        unfold Right Registry.restarted
        dsimp only
        rcases List.mem_append.1 hmem with hmem | hmem
        · rw [Function.update_of_ne (hnew row' hmem), Function.update_of_ne (hnew row' hmem)]
          exact h.right row' hmem
        · rw [List.mem_singleton.1 hmem, Function.update_self, Function.update_self, hfound]
          refine ⟨by simp [Option.filter, hactive], fun other hother _ => ?_⟩
          rw [← Option.some.inj hother, hload]
      idle := by
        intro id hid
        rw [List.forall_mem_append] at hid
        have hne : id ≠ row.id := fun hsame => hid.2 row (List.mem_singleton_self row) hsame.symm
        unfold Registry.restarted
        dsimp only
        rw [Function.update_of_ne hne]
        exact h.idle id hid.1
      active := List.forall_mem_append.2 ⟨h.active, by simpa using ⟨hrow, hactive⟩⟩ }

/-- The loop of a new process. -/
theorem Starting.startAll {started rest : List MockServerRow} (h : c.Starting started)
    {outers : String → Outer} (hcalm : ∀ id, (outers id).Calm)
    (hrest : ∀ row ∈ rest, row ∈ c.rows ∧ row.isActive = true ∧
      ∃ routes, loadApis row.apis = .ok routes)
    (hnodup : ((started ++ rest).map (·.id)).Nodup) :
    (rest.foldl (fun c row => (c.start row.id (outers row.id)).2) c).Starting (started ++ rest) ∧
      (rest.foldl (fun c row => (c.start row.id (outers row.id)).2) c).rows = c.rows := by
  induction rest generalizing c started with
  | nil => exact ⟨by rwa [List.append_nil], rfl⟩
  | cons row rest ih =>
    rw [List.forall_mem_cons] at hrest
    have hnew : ∀ other ∈ started, other.id ≠ row.id := by
      intro other hother hsame
      rw [List.map_append, List.nodup_append] at hnodup
      exact hnodup.2.2 other.id (List.mem_map_of_mem hother) row.id (by simp) hsame
    obtain ⟨⟨hrow, hactive, routes, hload⟩, hrest⟩ := hrest
    obtain ⟨hfirst, hrows⟩ := h.start hrow hactive hload hnew (hcalm row.id)
    have hsplit : started ++ row :: rest = started ++ [row] ++ rest := by simp
    obtain ⟨hlast, hrows'⟩ := ih hfirst (by rw [hrows]; exact hrest) (by rwa [← hsplit])
    exact ⟨by rw [hsplit]; exact hlast, hrows'.trans hrows⟩

theorem Served.restart (h : c.Served) {outers : String → Outer} (hcalm : ∀ id, (outers id).Calm) :
    (c.restart outers).Served := by
  let fresh : Control := { rows := c.rows, registry := .empty, routes := fun _ => [] }
  have hfresh : fresh.Starting [] :=
    { rows := h.rows
      consistent := Registry.consistent_empty
      right := by simp
      idle := fun _ _ => rfl
      active := by simp }
  have hperm : (getAllActive c.rows).Perm (c.rows.filter (·.isActive)) :=
    List.perm_insertionSort _ _
  have hmem {row : MockServerRow} :
      row ∈ getAllActive c.rows ↔ row ∈ c.rows ∧ row.isActive = true := by
    rw [hperm.mem_iff, List.mem_filter]
  have hnodup : (([] ++ getAllActive c.rows).map MockServerRow.id).Nodup := by
    rw [List.nil_append, (hperm.map MockServerRow.id).nodup_iff]
    exact h.rows.ids.sublist (List.filter_sublist.map _)
  have hloads : ∀ row ∈ getAllActive c.rows, row ∈ c.rows ∧ row.isActive = true ∧
      ∃ routes, loadApis row.apis = .ok routes := by
    intro row hrow
    obtain ⟨hin, hactive⟩ := hmem.1 hrow
    exact ⟨hin, hactive, c.routes row.id,
      (h.right row.id).2 row ((rowOf_eq_some h.rows).2 ⟨hin, rfl⟩) hactive⟩
  obtain ⟨hall, hrows⟩ := hfresh.startAll hcalm hloads hnodup
  rw [List.nil_append] at hall
  have hrows : (c.restart outers).rows = c.rows := hrows
  exact
    { rows := hall.rows
      consistent := hall.consistent
      right := by
        intro id
        by_cases hactive : ∃ row ∈ getAllActive c.rows, row.id = id
        · obtain ⟨row, hrow, rfl⟩ := hactive
          exact hall.right row hrow
        · have hidle : (c.restart outers).registry.serversById id = none :=
            hall.idle id fun row hrow hid => hactive ⟨row, hrow, hid⟩
          refine right_of_idle hidle fun row hrow => eq_false_of_ne_true fun hrunning => ?_
          rw [hrows] at hrow
          obtain ⟨hin, hid⟩ := (rowOf_eq_some h.rows).1 hrow
          exact hactive ⟨row, hmem.2 ⟨hin, hrunning⟩, hid⟩ }

theorem served_empty : Control.empty.Served where
  rows :=
    { ids := List.nodup_nil
      endpoints := List.nodup_nil
      named := List.forall_mem_nil _
      normal := List.forall_mem_nil _ }
  consistent := Registry.consistent_empty
  right id := by
    constructor
    · rfl
    · intro row hrow
      simp [Control.empty, rowOf] at hrow

/-- **The registry runs the active servers as their rows are, in every state the calls reach.** -/
theorem Reached.served (h : c.Reached) : c.Served := by
  induction h with
  | empty => exact served_empty
  | call before call allowed ih =>
    cases call <;> rw [Control.call]
    case create id dto outer => exact ih.create allowed
    case update id dto outer => exact ih.updated allowed
    case delete id outer => exact ih.delete allowed
    case activate id outer => exact ih.activate allowed
    case deactivate id => exact ih.deactivate
    case restart outers => exact ih.restart allowed

end Control

/-! ### Requests -/

/-- The active server that has an endpoint. -/
def activeAt (rows : List MockServerRow) (endpoint : String) : Option MockServerRow :=
  rows.find? fun row => row.isActive && decide (row.endpoint = normalizeEndpoint endpoint)

/-- A request takes a route of the active server that has its endpoint, as its rows are at the
time. -/
theorem Control.Served.dispatch {c : Control} (hs : c.Served) (endpoint method path : String)
    (queryParams headers : Dict String String) (bodyJson : Json) (bodyRaw : String) :
    c.dispatch endpoint method path queryParams headers bodyJson bodyRaw
      = (activeAt c.rows endpoint).bind fun row =>
          findMatchingApiRoute (loadRoutes row.apis) method path queryParams headers bodyJson
            bodyRaw := by
  cases hfound : activeAt c.rows endpoint with
  | none =>
    have hnone : c.serverAt endpoint = none := by
      unfold Control.serverAt
      cases hid : c.registry.serverIdsByEndpoint (normalizeEndpoint endpoint) with
      | none => rfl
      | some id =>
        obtain ⟨server, hserver, hendpoint⟩ := (hs.consistent.endpoints _ _).1 hid
        obtain ⟨row, hrow, hactive, -, hsame⟩ := (hs.right id).endpoint hs.rows hserver
        have hmem := ((rowOf_eq_some hs.rows).1 hrow).1
        have hnot := List.find?_eq_none.1 hfound row hmem
        simp [hactive, ← hsame, hendpoint] at hnot
    unfold Control.dispatch
    rw [hnone]
    rfl
  | some row =>
    have hmem := List.mem_of_find?_eq_some hfound
    have hrow : rowOf c.rows row.id = some row := (rowOf_eq_some hs.rows).2 ⟨hmem, rfl⟩
    have hspec : row.isActive = true ∧ row.endpoint = normalizeEndpoint endpoint := by
      simpa using List.find?_some hfound
    obtain ⟨hactive, hendpoint⟩ := hspec
    have hserver : c.registry.serversById row.id = some row.runtime := by
      rw [(hs.right row.id).1, hrow]
      simp [Option.filter, hactive]
    have hid : c.registry.serverIdsByEndpoint (normalizeEndpoint endpoint) = some row.id :=
      (hs.consistent.endpoints _ _).2
        ⟨row.runtime, hserver, (hs.rows.endpoint_runtime hrow).trans hendpoint⟩
    have hat : c.serverAt endpoint = some row.id := by
      unfold Control.serverAt
      rw [hid]
      simp only [if_neg (hs.rows.named row hmem), hserver, Option.map_some]
    unfold Control.dispatch
    rw [hat]
    simp only [loadApis_eq_ok ((hs.right row.id).2 row hrow hactive), Option.bind_some]

/-- The test of `_find_matching_api_route`. -/
def routeMatches (method path : String) (queryParams headers : Dict String String)
    (bodyJson : Json) (bodyRaw : String) (route : MockApiRoute) : Bool :=
  route.method = upper (strip method) && pathMatches route path &&
    mapMatches route.params queryParams false &&
    mapMatches route.headers (lowerKeys headers) true && bodyMatches route bodyJson bodyRaw

instance : Std.Total MockApiRoute.le where
  total a b := by
    unfold MockApiRoute.le
    rcases lt_trichotomy a.priority b.priority with hlt | heq | hgt
    · exact .inl (.inl hlt)
    · rcases lt_trichotomy a.order b.order with hlt | heq' | hgt
      · exact .inl (.inr ⟨heq, .inl hlt⟩)
      · rcases le_total a.id b.id with hle | hle
        · exact .inl (.inr ⟨heq, .inr ⟨heq', hle⟩⟩)
        · exact .inr (.inr ⟨heq.symm, .inr ⟨heq'.symm, hle⟩⟩)
      · exact .inr (.inr ⟨heq.symm, .inl hgt⟩)
    · exact .inr (.inl hgt)

instance : IsTrans MockApiRoute MockApiRoute.le where
  trans a b c hab hbc := by
    unfold MockApiRoute.le at *
    rcases hab with hab | ⟨hab, hab'⟩ <;> rcases hbc with hbc | ⟨hbc, hbc'⟩
    · exact .inl (hab.trans hbc)
    · exact .inl (hbc ▸ hab)
    · exact .inl (hab ▸ hbc)
    · refine .inr ⟨hab.trans hbc, ?_⟩
      rcases hab' with hab' | ⟨hab', hid⟩ <;> rcases hbc' with hbc' | ⟨hbc', hid'⟩
      · exact .inl (hab'.trans hbc')
      · exact .inl (hbc' ▸ hab')
      · exact .inl (hab' ▸ hbc')
      · exact .inr ⟨hab'.trans hbc', hid.trans hid'⟩

/-- What is found first in a sorted list comes before all else that could be found. -/
theorem find?_least {α : Type*} {r : α → α → Prop} [Std.Refl r] {p : α → Bool} {xs : List α}
    {x : α} (hsorted : xs.Pairwise r) (hx : xs.find? p = some x) :
    ∀ y ∈ xs, p y = true → r x y := by
  obtain ⟨-, before, after, rfl, hbefore⟩ := List.find?_eq_some_iff_append.1 hx
  intro y hy hmatches
  rcases List.mem_append.1 hy with hy | hy
  · have hnot := hbefore y hy
    rw [hmatches] at hnot
    cases hnot
  · rcases List.mem_cons.1 hy with rfl | hy
    · exact Std.Refl.refl y
    · exact List.rel_of_pairwise_cons (List.pairwise_append.1 hsorted).2.1 hy

/-- The route that a request takes, of the rows of a server. -/
theorem findMatchingApiRoute_loadRoutes (apis : List MockServerApiEntity) (method path : String)
    (queryParams headers : Dict String String) (bodyJson : Json) (bodyRaw : String) :
    match findMatchingApiRoute (loadRoutes apis) method path queryParams headers bodyJson
      bodyRaw with
    | none => ∀ api ∈ apis,
        routeMatches method path queryParams headers bodyJson bodyRaw (loadRoute api) = false
    | some route =>
      (∃ api ∈ apis, loadRoute api = route) ∧
        routeMatches method path queryParams headers bodyJson bodyRaw route = true ∧
        ∀ api ∈ apis,
          routeMatches method path queryParams headers bodyJson bodyRaw (loadRoute api) = true →
            route.le (loadRoute api) := by
  have hmem {route : MockApiRoute} :
      route ∈ loadRoutes apis ↔ ∃ api ∈ apis, loadRoute api = route := by
    rw [loadRoutes, (List.perm_insertionSort _ _).mem_iff, List.mem_map]
  have hfind : findMatchingApiRoute (loadRoutes apis) method path queryParams headers bodyJson
      bodyRaw = (loadRoutes apis).find?
        (routeMatches method path queryParams headers bodyJson bodyRaw) := rfl
  rw [hfind]
  split
  · rename_i hnone
    intro api hapi
    simpa using List.find?_eq_none.1 hnone _ (hmem.2 ⟨api, hapi, rfl⟩)
  · rename_i route hsome
    have hsorted : (loadRoutes apis).Pairwise MockApiRoute.le := List.pairwise_insertionSort _ _
    refine ⟨hmem.1 (List.mem_of_find?_eq_some hsome), List.find?_some hsome, ?_⟩
    intro api hapi hmatches
    exact find?_least hsorted hsome _ (hmem.2 ⟨api, hapi, rfl⟩) hmatches

end MockServer
end QualityFlow
