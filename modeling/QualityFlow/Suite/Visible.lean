/-
# Whether the sources of a command are visible

`validate_suite_sources_graph` and `build_visible_sources_for_suite_item` of
`app/elaborations/services/suite_source_registry.py`, under the requests that store a suite
and the runs of it.

The validation looks at the references of a command and not at the leaves of its HTTP
inputs, and of several hooks of a phase it takes the last, where the first is stored.
Where the sections of an item are the same to both, what is left to ask is that the leaves
name sources that are declared.
-/

import QualityFlow.Suite.Asked
import QualityFlow.Suite.Stored

namespace QualityFlow
namespace Suite

open Py Command
open Asks (mayAsk_bind)

/-! ### Sources by code -/

/-- The source of a code, among some sources. -/
def sourceIn (sources : List (List (String × Json))) (sourceCode : String) :
    Option (List (String × Json)) :=
  sources.find? fun source => (Json.field source "sourceCode").token = sourceCode

theorem sourceIn_cons (source : List (String × Json)) (sources : List (List (String × Json)))
    (sourceCode : String) :
    sourceIn (source :: sources) sourceCode
      = if (Json.field source "sourceCode").token = sourceCode then some source
        else sourceIn sources sourceCode := by
  unfold sourceIn
  rw [List.find?_cons]
  by_cases h : (Json.field source "sourceCode").token = sourceCode <;> simp [h]

theorem sourceIn_append (xs ys : List (List (String × Json))) (sourceCode : String) :
    sourceIn (xs ++ ys) sourceCode = (sourceIn xs sourceCode).or (sourceIn ys sourceCode) :=
  List.find?_append

/-- The sources that an item of a section sees, of the hooks before it and of its own. -/
def seenIn (sectionType : SectionType) (beforeAll beforeEach current : List (List (String × Json))) :
    List (List (String × Json)) :=
  (if sectionType = .beforeEach ∨ sectionType = .test ∨ sectionType = .afterAll then beforeAll
    else []) ++
  (if sectionType = .test ∨ sectionType = .afterEach then beforeEach else []) ++ current

/-- Adding sources puts each under its code. -/
theorem get?_of_addSources {target visible : Dict String (List (String × Json))} {owner : String}
    {sources : List (List (String × Json))} (h : addSources target owner sources = .ok visible)
    {sourceCode : String} (hcode : sourceCode ≠ "") :
    visible.get? sourceCode = (target.get? sourceCode).or (sourceIn sources sourceCode) := by
  induction sources generalizing target with
  | nil =>
    obtain rfl := Except.ok.inj h
    simp [sourceIn]
  | cons source sources ih =>
    simp only [addSources] at h
    split_ifs at h with hblank hhas
    · have hne : (Json.field source "sourceCode").token ≠ sourceCode := by
        rw [hblank]
        exact hcode.symm
      rw [ih h, sourceIn_cons, if_neg hne]
    · rw [ih h, Dict.get?_set, sourceIn_cons]
      by_cases heq : (Json.field source "sourceCode").token = sourceCode
      · have hnone : target.get? sourceCode = none := by
          rw [← heq, ← Option.not_isSome_iff_eq_none, ← Dict.mem_keys_iff, ← Dict.has_iff]
          exact hhas
        rw [if_pos heq, if_pos heq, hnone]
        rfl
      · rw [if_neg heq, if_neg heq]

theorem get?_blank_of_addSources {target visible : Dict String (List (String × Json))}
    {owner : String} {sources : List (List (String × Json))}
    (h : addSources target owner sources = .ok visible) : visible.get? "" = target.get? "" := by
  induction sources generalizing target with
  | nil =>
    obtain rfl := Except.ok.inj h
    rfl
  | cons source sources ih =>
    simp only [addSources] at h
    split_ifs at h with hblank hhas
    · exact ih h
    · rw [ih h, Dict.get?_set, if_neg hblank]

theorem buildVisible_eq (sectionType : SectionType)
    (beforeAll beforeEach current : List (List (String × Json))) :
    buildVisible sectionType beforeAll beforeEach current = (do
      let visible ← addSources [] "beforeAll" (if sectionType = .beforeEach ∨ sectionType = .test ∨
        sectionType = .afterAll then beforeAll else [])
      let visible ← addSources visible "beforeEach" (if sectionType = .test ∨
        sectionType = .afterEach then beforeEach else [])
      addSources visible sectionType.value current) := by
  cases sectionType <;> simp [buildVisible, addSources]

/-- **The sources that an item sees, by their codes.** -/
theorem get?_of_buildVisible {sectionType : SectionType}
    {beforeAll beforeEach current : List (List (String × Json))}
    {visible : Dict String (List (String × Json))}
    (h : buildVisible sectionType beforeAll beforeEach current = .ok visible) (sourceCode : String) :
    visible.get? sourceCode = if sourceCode = "" then none
      else sourceIn (seenIn sectionType beforeAll beforeEach current) sourceCode := by
  rw [buildVisible_eq] at h
  obtain ⟨first, hfirst, h⟩ := bind_eq_ok.1 h
  obtain ⟨second, hsecond, hlast⟩ := bind_eq_ok.1 h
  split_ifs with hcode
  · rw [hcode, get?_blank_of_addSources hlast, get?_blank_of_addSources hsecond,
      get?_blank_of_addSources hfirst, Dict.get?_nil]
  · rw [get?_of_addSources hlast hcode, get?_of_addSources hsecond hcode,
      get?_of_addSources hfirst hcode, Dict.get?_nil, seenIn, sourceIn_append, sourceIn_append,
      Option.none_or]

theorem sourceCodes_append (xs ys : List (List (String × Json))) :
    sourceCodes (xs ++ ys) = sourceCodes xs ++ sourceCodes ys := by
  simp [sourceCodes]

theorem visibleCodes_eq (beforeAll beforeEach : Option SuiteItemEntity) (row : SuiteItemEntity) :
    visibleCodes beforeAll beforeEach row = sourceCodes (seenIn row.section
      (sourceDicts beforeAll) (sourceDicts beforeEach) row.sourcesJson) := by
  rw [seenIn, sourceCodes_append, sourceCodes_append]
  rfl

/-! ### The sources of a request -/

/-- The sources of a hook, where there is one. -/
def hookSources (hook : Option CreateSuiteItemDto) : List (List (String × Json)) :=
  (hook.map CreateSuiteItemDto.sourceDicts).getD []

namespace CreateTestSuiteDto

variable (dto : CreateTestSuiteDto)

/-- The sources that an item sees when it runs. -/
def runSources (item : CreateSuiteItemDto) : List (List (String × Json)) :=
  seenIn (sectionTypeForItem item.kind item.hookPhase) (hookSources (dto.runHook .beforeAll))
    (hookSources (dto.runHook .beforeEach)) item.sourceDicts

/-- The sources that the validation lets an item see. -/
def seenSources (item : CreateSuiteItemDto) : List (List (String × Json)) :=
  seenIn (sectionTypeForItem item.kind item.hookPhase) (hookSources (dto.hookByPhase .beforeAll))
    (hookSources (dto.hookByPhase .beforeEach)) item.sourceDicts

/-- What `validate_suite_sources_graph` builds for the item of a row. -/
def validatedSources (row : SuiteItemEntity) :
    Except String (Dict String (List (String × Json))) :=
  buildVisible row.section (hookSources (dto.hookByPhase .beforeAll))
    (hookSources (dto.hookByPhase .beforeEach)) row.sourcesJson

/-- What the validation of the sources leaves open, for the items that a run goes through:
that no code is declared twice in the sections that are stored, that a source which a
command looks up is the same to the run and to the validation, and that the sources at the
leaves of an HTTP command are declared. -/
structure SourcesAgree : Prop where
  distinct : ∀ item ∈ dto.executed, (sourceCodes (dto.runSources item)).Nodup
  alike : ∀ item ∈ dto.executed, ∀ command ∈ item.commands, ∀ cfg, command.Reads cfg →
    ∀ sourceCode, CanLookUp (sourceIn (dto.runSources item)) item.executionScope cfg sourceCode →
      sourceIn (dto.runSources item) sourceCode = sourceIn (dto.seenSources item) sourceCode
  declared : ∀ item ∈ dto.executed, ∀ command ∈ item.commands, ∀ cfg, command.Reads cfg →
    ∀ sourceCode : Token, .source sourceCode ∈ commandNodes cfg →
      CanLookUp (sourceIn (dto.runSources item)) item.executionScope cfg sourceCode.val →
        ∃ source, sourceIn (dto.runSources item) sourceCode.val = some source

end CreateTestSuiteDto

/-- Every source that a run of a stored suite can look up is visible there, as the
validation saw it, and the visible sources are built wherever a run goes. -/
def SourcesFound (db : Database) (store : Store) (suiteId : String) (dto : CreateTestSuiteDto) :
    Prop :=
  ∀ target suite, loadSuite db store suiteId target = .ok suite → ∀ row ∈ suite.planned,
    ∃ visible seen, buildVisibleSources suite.beforeAll suite.beforeEach row = .ok visible ∧
      dto.validatedSources row = .ok seen ∧
      ∀ op ∈ getAllBySuiteItemId db store row.id, ∀ cfg,
        convertToConfigCommandType op.configurationJson = .ok cfg → ∀ scope,
          resolveSuiteItemScope row = some scope → ∀ sourceCode,
            CanLookUp visible.get? scope cfg sourceCode →
              ∃ source, visible.get? sourceCode = some source ∧ seen.get? sourceCode = some source

/-! ### What the validation checks -/

theorem mem_items_of_stored {dto : CreateTestSuiteDto} {item : CreateSuiteItemDto}
    (h : item ∈ dto.stored) : item ∈ dto.hooks ++ dto.tests := by
  obtain ⟨⟨item, position⟩, hmem, rfl⟩ := List.mem_map.1 h
  rcases List.mem_append.1 hmem with hhook | htest
  · obtain ⟨phase, -, hfind⟩ := List.mem_filterMap.1 hhook
    obtain ⟨hook, hfound, heq⟩ := Option.map_eq_some_iff.1 hfind
    obtain ⟨rfl, -⟩ := Prod.mk.inj heq
    exact List.mem_append_left _ (List.mem_of_find?_eq_some hfound)
  · obtain ⟨i, hi, heq⟩ := List.mem_mapIdx.1 htest
    obtain ⟨rfl, -⟩ := Prod.mk.inj heq
    exact List.mem_append_right _ (List.getElem_mem hi)

theorem mem_stored_of_runHook {dto : CreateTestSuiteDto} {phase : HookPhase}
    {item : CreateSuiteItemDto} (h : item ∈ (dto.runHook phase).toList) : item ∈ dto.stored := by
  rw [Option.mem_toList] at h
  exact List.mem_of_mem_filter (List.mem_of_head? h)

theorem mem_stored_of_executed {dto : CreateTestSuiteDto} {item : CreateSuiteItemDto}
    (h : item ∈ dto.executed) : item ∈ dto.stored := by
  simp only [CreateTestSuiteDto.executed, List.mem_append, List.mem_flatMap, List.mem_cons] at h
  rcases h with (hitem | ⟨test, htest, hitem | rfl | hitem⟩) | hitem
  · exact mem_stored_of_runHook hitem
  · exact mem_stored_of_runHook hitem
  · exact List.mem_of_mem_filter htest
  · exact mem_stored_of_runHook hitem
  · exact mem_stored_of_runHook hitem

theorem visible_of_checkSourceVisible {visible : Dict String (List (String × Json))}
    {commandCode : String} {sourceCode : Token}
    (h : checkSourceVisible visible commandCode (some (.source sourceCode)) = .ok ()) :
    ∃ source, visible.get? sourceCode.val = some source := by
  simp only [checkSourceVisible] at h
  split_ifs at h with hhas
  rw [Dict.has_iff, Dict.mem_keys_iff, Option.isSome_iff_exists] at hhas
  exact hhas

theorem visible_of_checkSourceType {visible : Dict String (List (String × Json))}
    {commandCode : String} {sourceCode : Token}
    (h : checkSourceType visible commandCode (some (.source sourceCode)) = .ok ()) :
    ∃ source, visible.get? sourceCode.val = some source := by
  unfold checkSourceType at h
  cases hget : visible.get? sourceCode.val with
  | none => simp [hget] at h
  | some source => exact ⟨source, rfl⟩

/-- The validation of a command finds the sources of its references. -/
theorem visible_of_validateCommandSources {visible : Dict String (List (String × Json))}
    {command : CreateSuiteItemCommandDto} {cfg : ConfigurationCommandDto} (hread : command.Reads cfg)
    (h : validateCommandSources visible command = .ok ()) {sourceCode : Token}
    (href : .source sourceCode ∈ commandRefs cfg) :
    ∃ source, visible.get? sourceCode.val = some source := by
  rw [CreateSuiteItemCommandDto.Reads] at hread
  rw [validateCommandSources, hread, ok_bind] at h
  obtain ⟨⟨⟩, hinput, h⟩ := bind_eq_ok.1 h
  obtain ⟨⟨⟩, hactual, hexpected⟩ := bind_eq_ok.1 h
  simp only [commandRefs, List.mem_append, Option.mem_toList] at href
  rcases href with (href | href) | href
  · rw [href] at hinput
    exact visible_of_checkSourceType hinput
  · rw [href] at hactual
    exact visible_of_checkSourceVisible hactual
  · rw [href] at hexpected
    exact visible_of_checkSourceType hexpected

/-- What an accepted suite has been checked for. -/
theorem validated_of_accepted {newId : ℕ → String} {dto : CreateTestSuiteDto}
    (h : validateSuiteConstantGraph newId dto = .ok ()) {item : CreateSuiteItemDto}
    (hitem : item ∈ dto.hooks ++ dto.tests) :
    ∃ seen, buildVisible (sectionTypeForItem item.kind item.hookPhase)
        (hookSources (dto.hookByPhase .beforeAll)) (hookSources (dto.hookByPhase .beforeEach))
        item.sourceDicts = .ok seen ∧
      ∀ command ∈ item.commands, validateCommandSources seen command = .ok () := by
  obtain ⟨⟨⟩, hsources, -⟩ := bind_eq_ok.1 h
  have hvalid := forM_eq_ok.1 hsources item hitem
  obtain ⟨seen, hseen, hcommands⟩ := bind_eq_ok.1 hvalid
  exact ⟨seen, hseen, forM_eq_ok.1 hcommands⟩

/-! ### The sources of a run -/

theorem token_ne_of_mem_sourceDicts {item : CreateSuiteItemDto} {source : List (String × Json)}
    (h : source ∈ item.sourceDicts) : (Json.field source "sourceCode").token ≠ "" := by
  obtain ⟨s, -, rfl⟩ := List.mem_map.1 h
  rw [SuiteSource.token_sourceCode]
  exact s.sourceCode.ne_empty

theorem token_ne_of_mem_hookSources {hook : Option CreateSuiteItemDto}
    {source : List (String × Json)} (h : source ∈ hookSources hook) :
    (Json.field source "sourceCode").token ≠ "" := by
  cases hook with
  | none => simp [hookSources] at h
  | some item => exact token_ne_of_mem_sourceDicts h

/-- No source of a request has a blank code. -/
theorem sourceIn_blank {sectionType : SectionType} {beforeAll beforeEach : Option CreateSuiteItemDto}
    {item : CreateSuiteItemDto} : sourceIn (seenIn sectionType (hookSources beforeAll)
      (hookSources beforeEach) item.sourceDicts) "" = none := by
  rw [sourceIn, List.find?_eq_none]
  intro source hsource
  simp only [seenIn, List.mem_append] at hsource
  simp only [decide_eq_true_eq]
  rcases hsource with (hsource | hsource) | hsource
  · split_ifs at hsource
    · exact token_ne_of_mem_hookSources hsource
    · simp at hsource
  · split_ifs at hsource
    · exact token_ne_of_mem_hookSources hsource
    · simp at hsource
  · exact token_ne_of_mem_sourceDicts hsource

theorem get?_eq_sourceIn {sectionType : SectionType}
    {beforeAll beforeEach : Option CreateSuiteItemDto} {item : CreateSuiteItemDto}
    {visible : Dict String (List (String × Json))}
    (h : buildVisible sectionType (hookSources beforeAll) (hookSources beforeEach)
      item.sourceDicts = .ok visible) :
    visible.get? = sourceIn (seenIn sectionType (hookSources beforeAll) (hookSources beforeEach)
      item.sourceDicts) := by
  funext sourceCode
  rw [get?_of_buildVisible h]
  split_ifs with hblank
  · rw [hblank, sourceIn_blank]
  · rfl

section

variable {db : Database} {store : Store} {suiteId : String} {dto : CreateTestSuiteDto}

theorem sourceDicts_of_rel {item : Option CreateSuiteItemDto} {row : Option SuiteItemEntity}
    (h : Option.Rel (Stores db store suiteId) item row) : sourceDicts row = hookSources item := by
  cases h with
  | none => rfl
  | some hstores => exact hstores.kind.2.2

theorem Stores.section_eq {item : CreateSuiteItemDto} {row : SuiteItemEntity}
    (h : Stores db store suiteId item row) :
    row.section = sectionTypeForItem item.kind item.hookPhase := by
  obtain ⟨hkind, hphase, -⟩ := h.kind
  rw [SuiteItemEntity.section, hkind, hphase]

theorem Stores.scope_eq {item : CreateSuiteItemDto} {row : SuiteItemEntity}
    (h : Stores db store suiteId item row) :
    resolveSuiteItemScope row = some item.executionScope := by
  obtain ⟨position, hstored⟩ := h
  rw [hstored.row]
  exact resolveSuiteItemScope_build item row.id suiteId position

/-- What a run builds for a row are the sources that its item sees when it runs. -/
theorem LoadedAs.buildVisibleSources_eq {suite : LoadedSuite}
    (h : LoadedAs db store suiteId dto suite) {item : CreateSuiteItemDto} {row : SuiteItemEntity}
    (hstores : Stores db store suiteId item row) :
    buildVisibleSources suite.beforeAll suite.beforeEach row
        = buildVisible (sectionTypeForItem item.kind item.hookPhase)
          (hookSources (dto.runHook .beforeAll)) (hookSources (dto.runHook .beforeEach))
          item.sourceDicts ∧
      visibleCodes suite.beforeAll suite.beforeEach row = sourceCodes (dto.runSources item) := by
  rw [visibleCodes_eq, buildVisibleSources, sourceDicts_of_rel h.beforeAll,
    sourceDicts_of_rel h.beforeEach, hstores.section_eq, hstores.kind.2.2]
  refine ⟨?_, rfl⟩
  rw [sourceDicts, Option.map_some, Option.getD_some, hstores.kind.2.2]

theorem validatedSources_eq {item : CreateSuiteItemDto} {row : SuiteItemEntity}
    (hstores : Stores db store suiteId item row) :
    dto.validatedSources row = buildVisible (sectionTypeForItem item.kind item.hookPhase)
      (hookSources (dto.hookByPhase .beforeAll)) (hookSources (dto.hookByPhase .beforeEach))
      item.sourceDicts := by
  rw [CreateTestSuiteDto.validatedSources, hstores.section_eq, hstores.kind.2.2]

end

section

variable {db : Database} {requests : List Request} {request : Request} {suiteId : String}
  {dto : CreateTestSuiteDto} {store : Store}

/-- A run of all tests goes through a row of each item, and finds the sources that its commands
can look up. -/
theorem lookups_of_sourcesFound
    (hsuite : request.suite? db (Store.empty.run db requests) = some (suiteId, dto))
    (happly : request.apply db (Store.empty.run db requests) = .ok store)
    (hfound : SourcesFound db store suiteId dto) (hloadable : dto.Loadable)
    {item : CreateSuiteItemDto} (hexecuted : item ∈ dto.executed) :
    (sourceCodes (dto.runSources item)).Nodup ∧
      ∀ command ∈ item.commands, ∀ cfg, command.Reads cfg → ∀ sourceCode,
        CanLookUp (sourceIn (dto.runSources item)) item.executionScope cfg sourceCode →
          ∃ source, sourceIn (dto.runSources item) sourceCode = some source ∧
            sourceIn (dto.seenSources item) sourceCode = some source := by
  have hdrawn := (Store.Drawn.empty db).run requests
  obtain ⟨-, hentity, hrows⟩ := storedRows_of_apply hdrawn hsuite happly
  obtain ⟨suite, hload, htests⟩ := loadSuite_isOk hrows hentity hloadable
  have hloaded := loadedAs_of_loadSuite hrows hload
  obtain ⟨row, hrow, hstores⟩ := hloaded.executed
    (fun test htest => by rw [htests]; exact (mem_getAllTestsBySuiteId hrows).2 test htest)
    item hexecuted
  obtain ⟨visible, seen, hvisible, hseen, hlookups⟩ := hfound "" suite hload row hrow
  obtain ⟨hbuild, hcodes⟩ := hloaded.buildVisibleSources_eq hstores
  have hdistinct := (buildVisibleSources_isOk _ _ row).1 ⟨visible, hvisible⟩
  rw [hcodes] at hdistinct
  rw [hbuild] at hvisible
  rw [validatedSources_eq hstores] at hseen
  have hget : visible.get? = sourceIn (dto.runSources item) := get?_eq_sourceIn hvisible
  have hgetSeen : seen.get? = sourceIn (dto.seenSources item) := get?_eq_sourceIn hseen
  refine ⟨hdistinct, fun command hcommand cfg hread sourceCode hcan => ?_⟩
  obtain ⟨op, hop, hjson⟩ := hstores.commands.2 command hcommand
  have hconvert : convertToConfigCommandType op.configurationJson = .ok cfg := by
    rw [hjson]
    exact hread
  have hlookup := hlookups op hop cfg hconvert item.executionScope hstores.scope_eq sourceCode
  rw [hget, hgetSeen] at hlookup
  exact hlookup hcan

end

/-- **The sources that a run can look up are found just where the sections agree and the leaves
of HTTP commands name declared sources**, for every suite that is accepted and stored over any
history of requests. -/
theorem sourcesFound_iff {db : Database} {requests : List Request} {request : Request}
    {suiteId : String} {dto : CreateTestSuiteDto} {store : Store}
    (hsuite : request.suite? db (Store.empty.run db requests) = some (suiteId, dto))
    (happly : request.apply db (Store.empty.run db requests) = .ok store) :
    SourcesFound db store suiteId dto ↔ (dto.Loadable → dto.SourcesAgree) := by
  have hdrawn := (Store.Drawn.empty db).run requests
  obtain ⟨hvalid, hentity, hrows⟩ := storedRows_of_apply hdrawn hsuite happly
  constructor
  · intro hfound hloadable
    refine ⟨fun item hexecuted => ?_, fun item hexecuted command hcommand cfg hread code hcan => ?_,
      fun item hexecuted command hcommand cfg hread code _ hcan => ?_⟩
    · exact (lookups_of_sourcesFound hsuite happly hfound hloadable hexecuted).1
    · obtain ⟨-, hlookups⟩ := lookups_of_sourcesFound hsuite happly hfound hloadable hexecuted
      obtain ⟨source, hrun, hvalidated⟩ := hlookups command hcommand cfg hread code hcan
      rw [hrun, hvalidated]
    · obtain ⟨-, hlookups⟩ := lookups_of_sourcesFound hsuite happly hfound hloadable hexecuted
      obtain ⟨source, hrun, -⟩ := hlookups command hcommand cfg hread code.val hcan
      exact ⟨source, hrun⟩
  · intro hagree target suite hload row hrow
    have hloaded := loadedAs_of_loadSuite hrows hload
    obtain ⟨hdistinct, halike, hdeclared⟩ := hagree hloaded.loadable
    obtain ⟨item, hexecuted, hstores⟩ := hloaded.planned row hrow
    obtain ⟨hbuild, hcodes⟩ := hloaded.buildVisibleSources_eq hstores
    obtain ⟨visible, hvisible⟩ := (buildVisibleSources_isOk suite.beforeAll suite.beforeEach row).2
      (by rw [hcodes]; exact hdistinct item hexecuted)
    obtain ⟨seen, hseen, hcommands⟩ := validated_of_accepted hvalid
      (mem_items_of_stored (mem_stored_of_executed hexecuted))
    have hget : visible.get? = sourceIn (dto.runSources item) := by
      rw [hbuild] at hvisible
      exact get?_eq_sourceIn hvisible
    have hgetSeen : seen.get? = sourceIn (dto.seenSources item) := get?_eq_sourceIn hseen
    refine ⟨visible, seen, hvisible, by rw [validatedSources_eq hstores, hseen], ?_⟩
    intro op hop cfg hread scope hscope sourceCode hcan
    obtain ⟨command, hcommand, hjson⟩ := hstores.commands.1 op hop
    rw [hjson] at hread
    rw [hstores.scope_eq] at hscope
    obtain rfl := Option.some.inj hscope
    rw [hget] at hcan
    have hsame := halike item hexecuted command hcommand cfg hread sourceCode hcan
    rw [hget, hgetSeen, ← hsame]
    -- a leaf of a request names a declared source; a reference has been checked
    suffices h : ∃ source, sourceIn (dto.runSources item) sourceCode = some source by
      obtain ⟨source, hsource⟩ := h
      exact ⟨source, hsource, hsource⟩
    obtain ⟨data, hask⟩ := hcan.2
    rcases source_of_mayAsk hask with ⟨token, hnode, rfl⟩ | ⟨token, href, rfl⟩
    · exact hdeclared item hexecuted command hcommand cfg hread token hnode hcan
    · rw [hsame, ← hgetSeen]
      exact visible_of_validateCommandSources hread (hcommands command hcommand) href

/-! ### A request that reads a source -/

theorem strip_orders : strip "orders" = "orders" := by decide

theorem orders_ne : "orders" ≠ "" := by decide

/-- A source of a code. -/
def orders : Token := ⟨"orders", strip_orders, orders_ne⟩

/-- The fields of a request whose path takes a source. -/
def ordersRequest : ReadApiConfigurationCommandDto where
  keys := ⟨"readApi", .action, by decide, by decide⟩
  url := ⟨"http://shop/\x7borders\x7d", by decide, by decide⟩
  queryParams := none
  headers := none
  pathParams := some ⟨[("orders", .source orders)], by simp⟩
  authorization := none
  timeoutSeconds := some .default
  resultConstant := none
  bodyType := .json

/-- A test that makes the request, with some sources of its own. -/
def requestTest (sources : List SuiteSource)
    (sources_nodup : (sources.map SuiteSource.sourceCode).Nodup) : CreateSuiteItemDto :=
  plainItem none sources sources_nodup (.readApi ordersRequest)

/-- A suite of one test. -/
def oneTest (test : CreateSuiteItemDto) : CreateTestSuiteDto where
  description := "orders"
  tests := [test]
  hooks := []

/-- The request looks its source up. -/
theorem canLookUp_orders (visible : String → Option (List (String × Json))) :
    CanLookUp visible .test (.readApi ordersRequest) "orders" := by
  refine ⟨⟨_, rfl⟩, .null, ?_⟩
  have hlookup : (resolveSourcePayload orders.val).MayAsk (Possible visible) (.source "orders") := by
    rw [resolveSourcePayload, orders.strip_val]
    exact .here _
  have hparams : (resolvePathParamsAndUrl ordersRequest.url.val ordersRequest.pathParams).MayAsk
      (Possible visible) (.source "orders") := by
    refine mayAsk_bind.2 (.inl ?_)
    rw [List.mapM_cons]
    exact mayAsk_bind.2 (.inl (mayAsk_bind.2 (.inl (mayAsk_bind.2 (.inl hlookup)))))
  exact mayAsk_bind.2 (.inl (mayAsk_bind.2 (.inl hparams)))

/-- Where the test declares the source, a run finds it. -/
theorem sourcesFound_iff_declared : ∃ store,
    insertTestSuite listDatabase (oneTest (requestTest [.jsonArray orders orders] (by simp)))
        Store.empty = .ok store ∧
      SourcesFound listDatabase store "0"
        (oneTest (requestTest [.jsonArray orders orders] (by simp))) := by
  set dto := oneTest (requestTest [.jsonArray orders orders] (by simp)) with hdto
  have hok : (insertTestSuite listDatabase dto Store.empty).isOk = true := by
    decide +kernel
  obtain ⟨store, hstore⟩ : ∃ store, insertTestSuite listDatabase dto Store.empty = .ok store := by
    cases h : insertTestSuite listDatabase dto Store.empty with
    | ok store => exact ⟨store, rfl⟩
    | error e => simp [h, Except.isOk, Except.toBool] at hok
  have hexecuted : dto.executed = [requestTest [.jsonArray orders orders] (by simp)] := rfl
  have hsources (item : CreateSuiteItemDto) : dto.runSources item = dto.seenSources item := rfl
  have hown : ∃ source, sourceIn (dto.runSources (requestTest [.jsonArray orders orders] (by simp)))
      "orders" = some source := ⟨_, rfl⟩
  have hrequest : Request.suite? listDatabase (Store.empty.run listDatabase []) (.insertSuite dto)
      = some ("0", dto) := rfl
  refine ⟨store, hstore, (sourcesFound_iff hrequest hstore).2 fun _ => ⟨?_, ?_, ?_⟩⟩
  · rw [hexecuted]
    decide +kernel
  · intro item _ command _ cfg _ sourceCode _
    rw [hsources]
  · intro item hitem command hcommand cfg hread sourceCode hleaf _
    rw [hexecuted, List.mem_singleton] at hitem
    subst hitem
    obtain rfl := List.mem_singleton.1 hcommand
    obtain rfl : cfg = .readApi ordersRequest := by
      have hconvert := convert_readApi ordersRequest rfl
      rw [CreateSuiteItemCommandDto.Reads] at hread
      exact (Except.ok.inj (hconvert.symm.trans hread)).symm
    obtain rfl : sourceCode = orders := by
      simpa [commandNodes, requestNodes, kvNodes, ordersRequest, authNodes] using hleaf
    exact hown

/-- **A source is not always found**: a request that reads one is accepted and stored without
it. -/
theorem orders_not_found : ¬ ∀ (db : Database) (requests : List Request) (request : Request)
    (suiteId : String) (dto : CreateTestSuiteDto) (store : Store),
    request.suite? db (Store.empty.run db requests) = some (suiteId, dto) →
      request.apply db (Store.empty.run db requests) = .ok store →
        SourcesFound db store suiteId dto := by
  intro hfound
  set dto := oneTest (requestTest [] List.nodup_nil) with hdto
  have hok : (insertTestSuite listDatabase dto Store.empty).isOk = true := by
    decide +kernel
  obtain ⟨store, hstore⟩ : ∃ store, insertTestSuite listDatabase dto Store.empty = .ok store := by
    cases h : insertTestSuite listDatabase dto Store.empty with
    | ok store => exact ⟨store, rfl⟩
    | error e => simp [h, Except.isOk, Except.toBool] at hok
  have hrequest : Request.suite? listDatabase (Store.empty.run listDatabase []) (.insertSuite dto)
      = some ("0", dto) := rfl
  have hstored := hfound listDatabase [] (.insertSuite dto) "0" dto store hrequest hstore
  have hexecuted : requestTest [] List.nodup_nil ∈ dto.executed := List.mem_singleton_self _
  have hloadable : dto.Loadable := by
    intro phase
    cases phase <;> decide
  obtain ⟨-, hlookups⟩ := lookups_of_sourcesFound hrequest hstore hstored hloadable hexecuted
  -- the test declares no source
  obtain ⟨source, hsource, -⟩ := hlookups _ (List.mem_singleton_self _) (.readApi ordersRequest)
    (convert_readApi ordersRequest rfl) "orders" (canLookUp_orders _)
  have hnone : sourceIn (dto.runSources (requestTest [] List.nodup_nil)) "orders" = none := rfl
  rw [hnone] at hsource
  cases hsource

end Suite
end QualityFlow
