/-
# Updating an item

`update_entity` of `app/_alembic/services/update_entity.py`, through which
`update_test_in_suite_api` and `convert_test_to_custom_api` of
`app/elaborations/api/test_suites_api.py` write an item.

The merge is that of all services: it writes the columns it is given, and leaves alone
those it is given nothing for.
-/

import QualityFlow.Suite.Store

namespace QualityFlow
namespace Suite

open Py Command

/-! ### The merge -/

/-- `update_entity`, on a row by its columns. -/
def updateEntity (entity : Dict String Json) (kwargs : List (String × Json)) : Dict String Json :=
  kwargs.foldl (fun entity kv =>
    if entity.has kv.1 = true ∧ kv.2 ≠ .null then entity.set kv.1 kv.2 else entity) entity

theorem get?_updateEntity_of_not_mem {entity : Dict String Json} {kwargs : List (String × Json)}
    {key : String} (h : key ∉ Dict.keys kwargs) :
    (updateEntity entity kwargs).get? key = entity.get? key := by
  induction kwargs generalizing entity with
  | nil => rfl
  | cons kv kwargs ih =>
    simp only [Dict.keys, List.map_cons, List.mem_cons, not_or] at h
    rw [updateEntity, List.foldl_cons]
    refine (ih h.2).trans ?_
    split_ifs
    · exact Dict.get?_set_of_ne (Ne.symm h.1) _
    · rfl

/-- A column that is given is written, if it is given something. -/
theorem get?_updateEntity {entity : Dict String Json} {kwargs : List (String × Json)}
    (hkeys : (Dict.keys kwargs).Nodup) (hcolumns : ∀ kv ∈ kwargs, entity.has kv.1 = true)
    {kv : String × Json} (hkv : kv ∈ kwargs) :
    (updateEntity entity kwargs).get? kv.1
      = if kv.2 = .null then entity.get? kv.1 else some kv.2 := by
  induction kwargs generalizing entity with
  | nil => simp at hkv
  | cons kv₀ kwargs ih =>
    obtain ⟨hnew, hrest⟩ := List.nodup_cons.1 hkeys
    obtain ⟨hhas, hcolumns⟩ := List.forall_mem_cons.1 hcolumns
    rw [updateEntity, List.foldl_cons]
    rcases List.mem_cons.1 hkv with rfl | hlater
    · refine (get?_updateEntity_of_not_mem hnew).trans ?_
      by_cases hnull : kv.2 = .null
      · rw [if_neg fun h => h.2 hnull, if_pos hnull]
      · rw [if_pos ⟨hhas, hnull⟩, if_neg hnull, Dict.get?_set_self]
    · have hne : kv₀.1 ≠ kv.1 := by
        intro heq
        exact hnew (List.mem_map.2 ⟨kv, hlater, heq.symm⟩)
      by_cases hwrite : entity.has kv₀.1 = true ∧ kv₀.2 ≠ .null
      · rw [if_pos hwrite]
        have hcolumns' : ∀ kv ∈ kwargs, (entity.set kv₀.1 kv₀.2).has kv.1 = true := by
          intro kv' hkv'
          rw [Dict.has, Dict.get?_set]
          split_ifs
          · rfl
          · exact hcolumns kv' hkv'
        refine (ih hrest hcolumns' hlater).trans ?_
        rw [Dict.get?_set_of_ne hne]
      · rw [if_neg hwrite]
        exact ih hrest hcolumns hlater

/-- **A merge leaves a row with what it is given just where the columns it is given nothing
for had nothing.** -/
theorem updateEntity_replaces_iff {entity : Dict String Json} {kwargs : List (String × Json)}
    (hkeys : (Dict.keys kwargs).Nodup) (hcolumns : ∀ kv ∈ kwargs, entity.has kv.1 = true) :
    (∀ kv ∈ kwargs, (updateEntity entity kwargs).get? kv.1 = some kv.2)
      ↔ ∀ kv ∈ kwargs, kv.2 = .null → entity.get? kv.1 = some .null := by
  refine forall₂_congr fun kv hkv => ?_
  rw [get?_updateEntity hkeys hcolumns hkv]
  split_ifs with hnull
  · rw [hnull]
    simp
  · simp [hnull]

/-! ### Items with all their columns -/

/-- `SuiteItemRole`. -/
inductive SuiteItemRole where
  | test
  | setup
  | teardown
deriving DecidableEq

def SuiteItemRole.value : SuiteItemRole → String
  | .test => "test"
  | .setup => "setup"
  | .teardown => "teardown"

def SuiteItemKind.value : SuiteItemKind → String
  | .test => "test"
  | .hook => "hook"

def HookPhase.value : HookPhase → String
  | .beforeAll => "before-all"
  | .beforeEach => "before-each"
  | .afterEach => "after-each"
  | .afterAll => "after-all"

def TemplateKind.value : TemplateKind → String
  | .custom => "custom"
  | .sendVerify => "send_verify"
  | .mockAssert => "mock_assert"

/-- The columns of an item that no run reads. -/
structure ItemFlags where
  role : SuiteItemRole
  dataDriven : Bool
  datasetId : Option Token

/-- A stored item, by its columns. -/
def columns (item : SuiteItemEntity) (flags : ItemFlags) : Dict String Json :=
  [("id", .str item.id), ("test_suite_id", .str item.testSuiteId), ("kind", .str item.kind.value),
   ("hook_phase", .ofOption (item.hookPhase.map HookPhase.value)),
   ("description", .str item.description), ("sources_json", .arr (item.sourcesJson.map .obj)),
   ("position", .int item.position), ("on_failure", .str item.onFailure),
   ("role", .str flags.role.value), ("template_kind", .str item.templateKind.value),
   ("template_config", dumpOption Json.obj item.templateConfig),
   ("data_driven", .bool flags.dataDriven),
   ("dataset_id", .ofOption (flags.datasetId.map Token.val))]

/-- `CreateSuiteItemDto` with the fields that no run reads. -/
structure SuiteItemDto extends CreateSuiteItemDto where
  flags : ItemFlags
  datasetId_isSome : flags.dataDriven = true → flags.datasetId.isSome

/-- `_build_suite_item_update_payload`. -/
def buildSuiteItemUpdatePayload (dto : SuiteItemDto) : List (String × Json) :=
  [("kind", .str dto.kind.value), ("hook_phase", .ofOption (dto.hookPhase.map HookPhase.value)),
   ("description", .str dto.description), ("sources_json", .arr (dto.sourceDicts.map .obj)),
   ("on_failure", .str dto.onFailure.value), ("role", .str dto.flags.role.value),
   ("template_kind", .str dto.templateKind.value),
   ("template_config", dumpOption Json.obj dto.templateConfig),
   ("data_driven", .bool dto.flags.dataDriven),
   ("dataset_id", .ofOption (dto.flags.datasetId.map Token.val))]

/-- What `convert_test_to_custom_api` hands to the merge. -/
def convertPayload : List (String × Json) :=
  [("template_kind", .str TemplateKind.custom.value), ("template_config", .null)]

/-- The flags after an update. -/
def updateFlags (dto : SuiteItemDto) (flags : ItemFlags) : ItemFlags where
  role := dto.flags.role
  dataDriven := dto.flags.dataDriven
  datasetId := dto.flags.datasetId <|> flags.datasetId

/-- The merge of an update, on the columns. -/
theorem columns_update (dto : SuiteItemDto) (item : SuiteItemEntity) (flags : ItemFlags) :
    columns (updateSuiteItemEntity dto.toCreateSuiteItemDto item) (updateFlags dto flags)
      = updateEntity (columns item flags) (buildSuiteItemUpdatePayload dto) := by
  cases hphase : dto.hookPhase <;> cases hconfig : dto.templateConfig <;>
    cases hdataset : dto.flags.datasetId <;>
    simp [columns, updateEntity, buildSuiteItemUpdatePayload, updateSuiteItemEntity, updateFlags,
      Dict.has, Dict.set, hphase, hconfig, hdataset, dumpOption, Json.ofOption]

theorem columns_convert (item : SuiteItemEntity) (flags : ItemFlags) :
    columns { item with templateKind := .custom } flags
      = updateEntity (columns item flags) convertPayload := by
  simp [columns, updateEntity, convertPayload, Dict.has, Dict.set]

/-! ### The two requests -/

/-- The tables, with the flags of the items by their ids. -/
structure ItemStore where
  store : Store
  flags : String → ItemFlags

/-- The requests that write an item. -/
inductive ItemRequest where
  | update (dto : SuiteItemDto)
  | convert

/-- What a request hands to the merge. -/
def ItemRequest.payload : ItemRequest → List (String × Json)
  | .update dto => buildSuiteItemUpdatePayload dto
  | .convert => convertPayload

/-- `update_test_in_suite_api` and `convert_test_to_custom_api`. -/
def ItemRequest.apply (db : Database) (suiteId itemId : String) (s : ItemStore) :
    ItemRequest → Except String ItemStore
  | .update dto => do
    let store ← updateTestInSuite db suiteId itemId dto.toCreateSuiteItemDto s.store
    return { store, flags := fun id =>
      if id = itemId then updateFlags dto (s.flags id) else s.flags id }
  | .convert => do
    let store ← convertTestToCustom db suiteId itemId s.store
    return { s with store }

/-- The item of an id, by its columns. -/
def readItem (s : ItemStore) (suiteId itemId : String) : Except String (Dict String Json) := do
  let item ← getItem s.store suiteId itemId
  return columns item (s.flags item.id)

/-! ### What a request leaves -/

theorem insertSuiteItemOperations_items {db : Database} {itemId : String}
    {commands : List CreateSuiteItemCommandDto} {store store' : Store}
    (h : insertSuiteItemOperations db itemId commands store = .ok store') :
    store'.items = store.items := by
  rw [insertSuiteItemOperations_eq] at h
  split at h
  · rw [← Except.ok.inj h]
    rfl
  · simp at h

theorem rebuildSuiteConstantDefinitions_items {db : Database} {suiteId : String}
    {store store' : Store} (h : rebuildSuiteConstantDefinitions db suiteId store = .ok store') :
    store'.items = store.items := by
  obtain ⟨plan, -, hpersist⟩ := bind_eq_ok.1 h
  unfold persistDefinitionEntities at hpersist
  split at hpersist
  · rw [← Except.ok.inj hpersist]
    rfl
  · simp at hpersist

theorem getItem_eq_ok {store : Store} {suiteId itemId : String} {item : SuiteItemEntity} :
    getItem store suiteId itemId = .ok item
      ↔ (store.items.find? fun item => item.id = itemId ∧ item.testSuiteId = suiteId)
          = some item := by
  unfold getItem
  split
  · rename_i found hfound
    rw [hfound, Except.ok.injEq, Option.some.injEq]
  · rename_i hnone
    rw [hnone]
    simp

/-- An item is found after the items of its id have been changed, unless in their ids. -/
theorem getItem_map {store store' : Store} {suiteId itemId : String} {item : SuiteItemEntity}
    {f : SuiteItemEntity → SuiteItemEntity} (hid : ∀ item, (f item).id = item.id)
    (hsuite : ∀ item, (f item).testSuiteId = item.testSuiteId)
    (hitems : store'.items = store.items.map fun item => if item.id = itemId then f item else item)
    (h : getItem store suiteId itemId = .ok item) :
    getItem store' suiteId itemId = .ok (f item) := by
  have hfound := getItem_eq_ok.1 h
  have hitem : item.id = itemId := by
    have := List.find?_some hfound
    simp only [decide_eq_true_eq] at this
    exact this.1
  have hsame : ((fun item : SuiteItemEntity => decide (item.id = itemId ∧
      item.testSuiteId = suiteId)) ∘ fun item => if item.id = itemId then f item else item)
        = fun item => decide (item.id = itemId ∧ item.testSuiteId = suiteId) := by
    funext item
    rw [Function.comp_apply]
    split_ifs
    · rw [hid, hsuite]
    · rfl
  rw [getItem_eq_ok, hitems, List.find?_map, hsame, hfound, Option.map_some, if_pos hitem]

theorem updateTestInSuite_items {db : Database} {suiteId itemId : String}
    {dto : CreateSuiteItemDto} {store store' : Store}
    (h : updateTestInSuite db suiteId itemId dto store = .ok store') :
    store'.items = store.items.map fun item =>
      if item.id = itemId then updateSuiteItemEntity dto item else item := by
  obtain ⟨commands, -, h⟩ := bind_eq_ok.1 h
  obtain ⟨item, -, h⟩ := bind_eq_ok.1 h
  obtain ⟨inserted, hinsert, hrebuild⟩ := bind_eq_ok.1 h
  rw [rebuildSuiteConstantDefinitions_items hrebuild, insertSuiteItemOperations_items hinsert]
  rfl

theorem convertTestToCustom_items {db : Database} {suiteId itemId : String}
    {store store' : Store} {item : SuiteItemEntity}
    (hitem : getItem store suiteId itemId = .ok item) (hkind : item.templateKind ≠ .custom)
    (h : convertTestToCustom db suiteId itemId store = .ok store') :
    store'.items = store.items.map fun item =>
      if item.id = itemId then { item with templateKind := .custom } else item := by
  unfold convertTestToCustom at h
  rw [hitem, ok_bind, if_neg hkind] at h
  obtain ⟨commands, -, h⟩ := bind_eq_ok.1 h
  obtain ⟨inserted, hinsert, hrebuild⟩ := bind_eq_ok.1 h
  rw [rebuildSuiteConstantDefinitions_items hrebuild]
  simp only [insertSuiteItemOperations_items hinsert, deleteBySuiteItemId]

/-- **A request that writes an item writes it by the merge of its payload.** -/
theorem ItemRequest.readItem_apply {db : Database} {suiteId itemId : String} {s s' : ItemStore}
    {request : ItemRequest} {row : Dict String Json}
    (h : request.apply db suiteId itemId s = .ok s')
    (hrow : readItem s suiteId itemId = .ok row)
    (htemplated : request = .convert → row.get? "template_kind" ≠ some (.str "custom")) :
    readItem s' suiteId itemId = .ok (updateEntity row request.payload) := by
  obtain ⟨item, hitem, hrow⟩ := bind_eq_ok.1 hrow
  obtain rfl := Except.ok.inj hrow
  have hid : item.id = itemId := by
    have := List.find?_some (getItem_eq_ok.1 hitem)
    simp only [decide_eq_true_eq] at this
    exact this.1
  cases request with
  | update dto =>
    obtain ⟨store, hstore, hret⟩ := bind_eq_ok.1 h
    obtain rfl := Except.ok.inj hret
    have hafter : getItem store suiteId itemId
        = .ok (updateSuiteItemEntity dto.toCreateSuiteItemDto item) :=
      getItem_map (fun _ => rfl) (fun _ => rfl) (updateTestInSuite_items hstore) hitem
    have hflags : (if item.id = itemId then updateFlags dto (s.flags item.id)
        else s.flags item.id) = updateFlags dto (s.flags item.id) := if_pos hid
    have hread : readItem { store, flags := fun id =>
        if id = itemId then updateFlags dto (s.flags id) else s.flags id } suiteId itemId
          = .ok (columns (updateSuiteItemEntity dto.toCreateSuiteItemDto item)
              (if item.id = itemId then updateFlags dto (s.flags item.id)
                else s.flags item.id)) := by
      rw [readItem, hafter, ok_bind, pure_eq_ok]
      rfl
    rw [hread, hflags, columns_update]
    rfl
  | convert =>
    obtain ⟨store, hstore, hret⟩ := bind_eq_ok.1 h
    obtain rfl := Except.ok.inj hret
    have hkind : item.templateKind ≠ .custom := by
      intro hcustom
      refine htemplated rfl ?_
      simp [columns, hcustom, TemplateKind.value]
    have hitems := convertTestToCustom_items hitem hkind hstore
    have hafter : getItem store suiteId itemId = .ok { item with templateKind := .custom } :=
      getItem_map (f := fun item => { item with templateKind := .custom }) (fun _ => rfl)
        (fun _ => rfl) hitems hitem
    rw [readItem, hafter, ok_bind, pure_eq_ok, columns_convert]
    rfl

/-- The columns of an item. -/
def columnNames : List String :=
  ["id", "test_suite_id", "kind", "hook_phase", "description", "sources_json", "position",
   "on_failure", "role", "template_kind", "template_config", "data_driven", "dataset_id"]

theorem keys_columns (item : SuiteItemEntity) (flags : ItemFlags) :
    Dict.keys (columns item flags) = columnNames := by
  simp only [columns, Dict.keys, columnNames, List.map_cons, List.map_nil]

/-- The columns that a request writes. -/
def ItemRequest.columnNames : ItemRequest → List String
  | .update _ =>
    ["kind", "hook_phase", "description", "sources_json", "on_failure", "role", "template_kind",
     "template_config", "data_driven", "dataset_id"]
  | .convert => ["template_kind", "template_config"]

theorem ItemRequest.keys_payload (request : ItemRequest) :
    Dict.keys request.payload = request.columnNames := by
  cases request with
  | update dto =>
    simp only [payload, buildSuiteItemUpdatePayload, Dict.keys, ItemRequest.columnNames,
      List.map_cons, List.map_nil]
  | convert =>
    simp only [payload, convertPayload, Dict.keys, ItemRequest.columnNames, List.map_cons,
      List.map_nil]

theorem ItemRequest.nodup_payload (request : ItemRequest) : (Dict.keys request.payload).Nodup := by
  rw [request.keys_payload]
  cases request with
  | update dto =>
    simp only [ItemRequest.columnNames]
    decide
  | convert => decide

/-- What a request writes are columns of an item. -/
theorem ItemRequest.has_of_mem_payload {request : ItemRequest} {item : SuiteItemEntity}
    {flags : ItemFlags} {kv : String × Json} (h : kv ∈ request.payload) :
    (columns item flags).has kv.1 = true := by
  have hkey : kv.1 ∈ request.columnNames := by
    rw [← request.keys_payload]
    exact List.mem_map_of_mem h
  have hsub : ∀ name ∈ request.columnNames, name ∈ Suite.columnNames := by
    cases request with
    | update dto =>
      simp only [ItemRequest.columnNames]
      decide
    | convert => decide
  rw [Dict.has_iff, keys_columns]
  exact hsub kv.1 hkey

/-- **An item is replaced by what a request gives for it, just where the columns that the
request sets to null were null before.** -/
theorem itemReplaced_iff {db : Database} {suiteId itemId : String} {s s' : ItemStore}
    {request : ItemRequest} {row : Dict String Json}
    (h : request.apply db suiteId itemId s = .ok s')
    (hrow : readItem s suiteId itemId = .ok row)
    (htemplated : request = .convert → row.get? "template_kind" ≠ some (.str "custom")) :
    (∃ row', readItem s' suiteId itemId = .ok row' ∧
        ∀ kv ∈ request.payload, row'.get? kv.1 = some kv.2)
      ↔ ∀ kv ∈ request.payload, kv.2 = .null → row.get? kv.1 = some .null := by
  have hafter := request.readItem_apply h hrow htemplated
  have hcolumns : ∀ kv ∈ request.payload, row.has kv.1 = true := by
    obtain ⟨item, -, hrow⟩ := bind_eq_ok.1 hrow
    rw [← Except.ok.inj hrow]
    exact fun kv hkv => ItemRequest.has_of_mem_payload hkv
  rw [← updateEntity_replaces_iff request.nodup_payload hcolumns]
  constructor
  · rintro ⟨row', hrow', hreplaced⟩
    rw [hafter] at hrow'
    rwa [Except.ok.inj hrow']
  · intro hreplaced
    exact ⟨_, hafter, hreplaced⟩

/-! ### A data set that stays -/

/-- An item without commands and sources. -/
def storedItem : SuiteItemEntity where
  id := "item"
  testSuiteId := "suite"
  kind := .test
  hookPhase := none
  description := "orders"
  sourcesJson := []
  position := 1
  onFailure := "ABORT"
  templateKind := .custom
  templateConfig := none

/-- A suite with that item, and the data set of the item. -/
def plainStore (datasetId : Option Token) : ItemStore where
  store := { Store.empty with
    suites := [{ id := "suite", description := "orders" }]
    items := [storedItem] }
  flags _ := { role := .test, dataDriven := false, datasetId }

/-- An update of that item, with no data set. -/
def plainDto : SuiteItemDto where
  kind := .test
  hookPhase := none
  description := "orders"
  onFailure := .abort
  sources := []
  commands := []
  templateKind := .custom
  templateConfig := none
  hookPhase_isSome := hookPhase_isSome_test
  sources_nodup := List.nodup_nil
  flags := { role := .test, dataDriven := false, datasetId := none }
  datasetId_isSome := by simp

/-- The update goes through. -/
theorem apply_plain (datasetId : Option Token) :
    ∃ s', (ItemRequest.update plainDto).apply listDatabase "suite" "item" (plainStore datasetId)
      = .ok s' :=
  ⟨_, rfl⟩

/-- **An item keeps its data set through an update that has none.** -/
theorem dataset_kept :
    ∃ s', (ItemRequest.update plainDto).apply listDatabase "suite" "item"
        (plainStore (some ⟨"rows", by decide, by decide⟩)) = .ok s' ∧
      ("dataset_id", .null) ∈ (ItemRequest.update plainDto).payload ∧
      ∃ row', readItem s' "suite" "item" = .ok row' ∧
        row'.get? "dataset_id" = some (.str "rows") := by
  obtain ⟨s', hs'⟩ := apply_plain (some ⟨"rows", by decide, by decide⟩)
  have hrow : readItem (plainStore (some ⟨"rows", by decide, by decide⟩)) "suite" "item"
      = .ok (columns storedItem
          { role := .test, dataDriven := false,
            datasetId := some ⟨"rows", by decide, by decide⟩ }) := rfl
  have hafter := ItemRequest.readItem_apply hs' hrow (by simp)
  refine ⟨s', hs', by simp [ItemRequest.payload, buildSuiteItemUpdatePayload, plainDto,
    Json.ofOption], _, hafter, ?_⟩
  decide +kernel

/-- An item without a data set is replaced by what the update gives for it. -/
theorem itemReplaced_iff_plain :
    ∃ s', (ItemRequest.update plainDto).apply listDatabase "suite" "item" (plainStore none) = .ok s' ∧
      ((∃ row', readItem s' "suite" "item" = .ok row' ∧
          ∀ kv ∈ (ItemRequest.update plainDto).payload, row'.get? kv.1 = some kv.2)
        ↔ ∀ kv ∈ (ItemRequest.update plainDto).payload, kv.2 = .null →
          (columns storedItem { role := .test, dataDriven := false, datasetId := none }).get? kv.1
            = some .null) ∧
      ∃ row', readItem s' "suite" "item" = .ok row' ∧
        ∀ kv ∈ (ItemRequest.update plainDto).payload, row'.get? kv.1 = some kv.2 := by
  obtain ⟨s', hs'⟩ := apply_plain none
  have hrow : readItem (plainStore none) "suite" "item"
      = .ok (columns storedItem { role := .test, dataDriven := false, datasetId := none }) := rfl
  have hreplaced := itemReplaced_iff hs' hrow (by simp)
  refine ⟨s', hs', hreplaced, hreplaced.2 ?_⟩
  decide +kernel

end Suite
end QualityFlow
