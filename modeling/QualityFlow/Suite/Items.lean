/-
# Suite items and their sources

`app/elaborations/models/dtos/test_suite_dto.py`, the entities of
`app/_alembic/models/suite_item_entity.py` and `suite_item_command_entity.py`, and
`build_visible_sources_for_suite_item` of
`app/elaborations/services/suite_source_registry.py`.

A suite has tests and up to four hooks.  An item sees its own sources and those of
the hooks that run before it; two of them with one code are an error, which the
run meets only when the item is about to start.
-/

import QualityFlow.Command.Codec

namespace QualityFlow
namespace Suite

open Py Command

/-! ### Kinds, phases and sections -/

inductive SuiteItemKind where
  | test
  | hook
deriving DecidableEq

inductive HookPhase where
  | beforeAll
  | beforeEach
  | afterEach
  | afterAll
deriving DecidableEq

/-- `for phase in HookPhase`. -/
def HookPhase.all : List HookPhase := [.beforeAll, .beforeEach, .afterEach, .afterAll]

inductive OnFailure where
  | continueRun
  | abort
deriving DecidableEq

def OnFailure.value : OnFailure → String
  | .continueRun => "CONTINUE"
  | .abort => "ABORT"

inductive TemplateKind where
  | custom
  | sendVerify
  | mockAssert
deriving DecidableEq

/-- The section a command is planned and run in. -/
inductive SectionType where
  | test
  | beforeAll
  | beforeEach
  | afterEach
  | afterAll
  | mockPreResponse
  | mockPostResponse
  | mockQueue
deriving DecidableEq

def SectionType.value : SectionType → String
  | .test => "test"
  | .beforeAll => "beforeAll"
  | .beforeEach => "beforeEach"
  | .afterEach => "afterEach"
  | .afterAll => "afterAll"
  | .mockPreResponse => "mock.preResponse"
  | .mockPostResponse => "mock.postResponse"
  | .mockQueue => "mock.queue"

/-- The section of a hook. -/
def HookPhase.section : HookPhase → SectionType
  | .beforeAll => .beforeAll
  | .beforeEach => .beforeEach
  | .afterEach => .afterEach
  | .afterAll => .afterAll

/-! ### Requests -/

/-- `SuiteSourceTypes`. -/
inductive SuiteSource where
  | jsonArray (sourceCode jsonArrayId : Token)
  | dataset (sourceCode datasetId : Token) (perimeter : List (String × Json))
      (parameterBindings sourceOrigin : Option (List (String × Json)))

namespace SuiteSource

def sourceCode : SuiteSource → Token
  | .jsonArray c _ => c
  | .dataset c _ _ _ _ => c

def modelDump : SuiteSource → List (String × Json)
  | .jsonArray c i =>
    [("sourceCode", .str c.val), ("sourceType", .str "jsonArray"), ("jsonArrayId", .str i.val)]
  | .dataset c i perimeter bindings origin =>
    [("sourceCode", .str c.val), ("sourceType", .str "dataset"), ("datasetId", .str i.val),
     ("perimeter", .obj perimeter), ("parameterBindings", dumpOption Json.obj bindings),
     ("sourceOrigin", dumpOption Json.obj origin)]

/-- The code under which a dumped source is visible. -/
@[simp] theorem token_sourceCode (s : SuiteSource) :
    (Json.field s.modelDump "sourceCode").token = s.sourceCode.val := by
  cases s <;> simp [modelDump, Json.field, sourceCode, Token.strip_val]

end SuiteSource

/-- `CreateSuiteItemCommandDto`. -/
structure CreateSuiteItemCommandDto where
  order : ℤ
  description : String
  cfg : Option ConfigurationCommandDto

/-- `CreateSuiteItemDto`: only a hook has a phase, and no source code occurs twice. -/
structure CreateSuiteItemDto where
  kind : SuiteItemKind
  hookPhase : Option HookPhase
  description : String
  onFailure : OnFailure
  sources : List SuiteSource
  commands : List CreateSuiteItemCommandDto
  templateKind : TemplateKind
  templateConfig : Option (List (String × Json))
  hookPhase_isSome : hookPhase.isSome ↔ kind = .hook
  sources_nodup : (sources.map SuiteSource.sourceCode).Nodup

/-- A test has no phase. -/
theorem hookPhase_isSome_test : (none : Option HookPhase).isSome ↔ SuiteItemKind.test = .hook := by
  simp

/-- `CreateTestSuiteDto`. -/
structure CreateTestSuiteDto where
  description : String
  tests : List CreateSuiteItemDto
  hooks : List CreateSuiteItemDto

/-! ### Rows -/

/-- `SuiteItemEntity`. -/
structure SuiteItemEntity where
  id : String
  testSuiteId : String
  kind : SuiteItemKind
  hookPhase : Option HookPhase
  description : String
  sourcesJson : List (List (String × Json))
  position : ℤ
  onFailure : String
  templateKind : TemplateKind
  templateConfig : Option (List (String × Json))

/-- `SuiteItemOperationEntity`. -/
structure SuiteItemOperationEntity where
  id : String
  suiteItemId : String
  order : ℤ
  description : String
  commandCode : String
  commandType : String
  configurationJson : List (String × Json)

/-! ### Visible sources -/

/-- `_section_type_for_item`. -/
def sectionTypeForItem (kind : SuiteItemKind) (hookPhase : Option HookPhase) : SectionType :=
  match kind, hookPhase with
  | .test, _ => .test
  | .hook, some phase => phase.section
  | .hook, none => .test

/-- The section of a stored item. -/
def SuiteItemEntity.section (item : SuiteItemEntity) : SectionType :=
  sectionTypeForItem item.kind item.hookPhase

/-- `_source_dicts`. -/
def sourceDicts (item : Option SuiteItemEntity) : List (List (String × Json)) :=
  (item.map SuiteItemEntity.sourcesJson).getD []

/-- `_add_sources`. -/
def addSources (target : Dict String (List (String × Json))) (owner : String) :
    List (List (String × Json)) → Except String (Dict String (List (String × Json)))
  | [] => .ok target
  | source :: sources =>
    let sourceCode := (Json.field source "sourceCode").token
    if sourceCode = "" then addSources target owner sources
    else if target.has sourceCode then
      .error s!"Source '{sourceCode}' is visible from multiple sections ({owner})."
    else addSources (target.set sourceCode source) owner sources

/-- `build_visible_sources_for_suite_item`, on the sources of a request or of rows. -/
def buildVisible (sectionType : SectionType)
    (beforeAll beforeEach current : List (List (String × Json))) :
    Except String (Dict String (List (String × Json))) := do
  let visible ←
    if sectionType = .beforeEach ∨ sectionType = .test ∨ sectionType = .afterAll then
      addSources [] "beforeAll" beforeAll
    else pure []
  let visible ←
    if sectionType = .test ∨ sectionType = .afterEach then
      addSources visible "beforeEach" beforeEach
    else pure visible
  addSources visible sectionType.value current

/-- `build_visible_sources_for_suite_item` on rows. -/
def buildVisibleSources (beforeAll beforeEach : Option SuiteItemEntity)
    (current : SuiteItemEntity) : Except String (Dict String (List (String × Json))) :=
  buildVisible current.section (sourceDicts beforeAll) (sourceDicts beforeEach)
    (sourceDicts (some current))

/-- The codes under which some sources are visible. -/
def sourceCodes (sources : List (List (String × Json))) : List String :=
  (sources.map fun s => (Json.field s "sourceCode").token).filter (· ≠ "")

/-- Adding sources succeeds where no code is met twice, and makes their codes
visible. -/
theorem addSources_eq_ok (target : Dict String (List (String × Json))) (owner : String)
    {sources : List (List (String × Json))} (h : (target.keys ++ sourceCodes sources).Nodup) :
    ∃ visible, addSources target owner sources = .ok visible ∧
      visible.keys = target.keys ++ sourceCodes sources := by
  induction sources generalizing target with
  | nil => exact ⟨target, rfl, by simp [sourceCodes]⟩
  | cons source sources ih =>
    rcases eq_or_ne (Json.field source "sourceCode").token "" with hcode | hcode
    · have hcodes : sourceCodes (source :: sources) = sourceCodes sources := by
        simp [sourceCodes, hcode]
      rw [hcodes] at h ⊢
      simp only [addSources, hcode, if_true]
      exact ih target h
    · have hcodes : sourceCodes (source :: sources)
          = (Json.field source "sourceCode").token :: sourceCodes sources := by
        simp [sourceCodes, hcode]
      rw [hcodes] at h ⊢
      have hnew : (Json.field source "sourceCode").token ∉ target.keys := by
        intro hmem
        rw [List.nodup_append] at h
        exact h.2.2 _ hmem _ List.mem_cons_self rfl
      have hhas : target.has (Json.field source "sourceCode").token = false := by
        rw [Bool.eq_false_iff, Ne, Dict.has_iff]
        exact hnew
      have hkeys : (target.set (Json.field source "sourceCode").token source).keys
          = target.keys ++ [(Json.field source "sourceCode").token] := by
        rw [Dict.set_of_not_mem hnew, Dict.keys, List.map_append]
        rfl
      obtain ⟨visible, hvisible, hvkeys⟩ := ih (target.set _ source) (by
        rw [hkeys, List.append_assoc]
        exact h)
      refine ⟨visible, ?_, ?_⟩
      · simp only [addSources, hcode, if_false, hhas]
        exact hvisible
      · rw [hvkeys, hkeys, List.append_assoc]
        rfl

/-- Adding sources fails where a code is met twice. -/
theorem nodup_of_addSources {target visible : Dict String (List (String × Json))} {owner : String}
    {sources : List (List (String × Json))} (htarget : target.keys.Nodup)
    (h : addSources target owner sources = .ok visible) :
    (target.keys ++ sourceCodes sources).Nodup := by
  induction sources generalizing target with
  | nil => simpa [sourceCodes] using htarget
  | cons source sources ih =>
    rcases eq_or_ne (Json.field source "sourceCode").token "" with hcode | hcode
    · have hcodes : sourceCodes (source :: sources) = sourceCodes sources := by
        simp [sourceCodes, hcode]
      rw [hcodes]
      simp only [addSources, hcode, if_true] at h
      exact ih htarget h
    · have hcodes : sourceCodes (source :: sources)
          = (Json.field source "sourceCode").token :: sourceCodes sources := by
        simp [sourceCodes, hcode]
      simp only [addSources, hcode, if_false] at h
      split at h
      · simp at h
      · rename_i hhas
        have hnew : (Json.field source "sourceCode").token ∉ target.keys := by
          rwa [← Dict.has_iff]
        have hkeys : (target.set (Json.field source "sourceCode").token source).keys
            = target.keys ++ [(Json.field source "sourceCode").token] := by
          rw [Dict.set_of_not_mem hnew, Dict.keys, List.map_append]
          rfl
        have hrest := ih (Dict.nodup_keys_set htarget _ source) h
        rw [hkeys, List.append_assoc] at hrest
        rw [hcodes]
        exact hrest

/-- The codes that are visible after sources have been added. -/
theorem keys_of_addSources {target visible : Dict String (List (String × Json))} {owner : String}
    {sources : List (List (String × Json))} (htarget : target.keys.Nodup)
    (h : addSources target owner sources = .ok visible) :
    visible.keys = target.keys ++ sourceCodes sources := by
  obtain ⟨visible', hvisible, hkeys⟩ := addSources_eq_ok target owner
    (nodup_of_addSources htarget h)
  rw [h] at hvisible
  obtain rfl := Except.ok.inj hvisible
  exact hkeys

/-- The sources of the hooks that an item of a section sees. -/
def inheritedSources (beforeAll beforeEach : Option SuiteItemEntity) (sectionType : SectionType) :
    List (List (String × Json)) × List (List (String × Json)) :=
  (if sectionType = .beforeEach ∨ sectionType = .test ∨ sectionType = .afterAll then
      sourceDicts beforeAll else [],
    if sectionType = .test ∨ sectionType = .afterEach then sourceDicts beforeEach else [])

/-- The codes an item sees, section by section. -/
def visibleCodes (beforeAll beforeEach : Option SuiteItemEntity) (current : SuiteItemEntity) :
    List String :=
  let inherited := inheritedSources beforeAll beforeEach current.section
  sourceCodes inherited.1 ++ sourceCodes inherited.2 ++ sourceCodes (sourceDicts (some current))

theorem buildVisibleSources_eq (beforeAll beforeEach : Option SuiteItemEntity)
    (current : SuiteItemEntity) :
    buildVisibleSources beforeAll beforeEach current = (do
      let inherited := inheritedSources beforeAll beforeEach current.section
      let visible ← addSources [] "beforeAll" inherited.1
      let visible ← addSources visible "beforeEach" inherited.2
      addSources visible current.section.value (sourceDicts (some current))) := by
  unfold buildVisibleSources buildVisible inheritedSources
  cases current.section <;> simp [addSources]

/-- **The visible sources of an item can be built just where no code is met twice.** -/
theorem buildVisibleSources_isOk (beforeAll beforeEach : Option SuiteItemEntity)
    (current : SuiteItemEntity) :
    (∃ visible, buildVisibleSources beforeAll beforeEach current = .ok visible)
      ↔ (visibleCodes beforeAll beforeEach current).Nodup := by
  rw [buildVisibleSources_eq, visibleCodes]
  simp only [bind_eq_ok]
  generalize inheritedSources beforeAll beforeEach current.section = inherited
  constructor
  · rintro ⟨visible, first, hfirst, second, hsecond, hlast⟩
    have hnil : (Dict.keys ([] : Dict String (List (String × Json)))).Nodup := List.nodup_nil
    have hkeys₁ := keys_of_addSources hnil hfirst
    have hnodup₁ := nodup_of_addSources hnil hfirst
    rw [← hkeys₁] at hnodup₁
    have hkeys₂ := keys_of_addSources hnodup₁ hsecond
    have hnodup₂ := nodup_of_addSources hnodup₁ hsecond
    rw [← hkeys₂] at hnodup₂
    have hnodup := nodup_of_addSources hnodup₂ hlast
    rwa [hkeys₂, hkeys₁] at hnodup
  · intro hnodup
    have hnodup₂ := (List.nodup_append.1 hnodup).1
    have hnodup₁ := (List.nodup_append.1 hnodup₂).1
    obtain ⟨first, hfirst, hkeys₁⟩ := addSources_eq_ok [] "beforeAll" hnodup₁
    obtain ⟨second, hsecond, hkeys₂⟩ := addSources_eq_ok first "beforeEach"
      (by rw [hkeys₁]; exact hnodup₂)
    obtain ⟨last, hlast, -⟩ := addSources_eq_ok second current.section.value
      (by rw [hkeys₂, hkeys₁]; exact hnodup)
    exact ⟨last, first, hfirst, second, hsecond, hlast⟩

end Suite
end QualityFlow
