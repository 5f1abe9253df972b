/-
# When a run is closed

`_execute` in `app/elaborations/services/test_suites/test_suite_executor_thread.py`,
and the requests of `app/elaborations/api/test_suites_api.py` that a suite comes from.

A failure inside an item is caught there.  The visible sources of an item are built
before its handler is entered, so a source code that is met twice leaves the whole
run: nothing is stored, the closing hook is not reached, and the event that closes
the run is not published.  A request for a whole suite is checked for such codes; a
request for one test is not.  A run whose context cannot be written in the end is lost
the same way, after its closing hook.
-/

import QualityFlow.Suite.Store

namespace QualityFlow
namespace Suite

open Py Command

section

variable {σ τ ρ : Type}

/-- A run that has been closed: its execution row is stored with a terminal status and
a finish time, the hook after all tests has been started, and the closing event has
been published once. -/
structure RunResult.Closed (suite : LoadedSuite) (result : RunResult σ ρ) : Prop where
  stored : ∃ row, result.execution = some row ∧ row.status ≠ .running ∧ row.finished = true
  afterAll : ∀ hook ∈ suite.afterAll, ∃ rowId position,
    ExecutionEvent.itemStarted rowId hook position ∈ result.events
  published : result.events.countP closes = 1

/-- An executor under which nothing fails, over a context that is empty. -/
def successExecutor : ItemExecutor Unit Unit Unit where
  execute _ _ _ _ := ((), .ok ())
  newLocals _ := ((), ())
  resetLocal _ := ()
  serializeRunContext _ := some (.dict [])
  takesJson _ := true

theorem successExecutor_contextStored (suite : LoadedSuite) :
    ContextStored suite successExecutor () :=
  fun _ _ => ⟨.dict [], rfl, by simp [JsonUtils.PyObject.leaves, JsonUtils.PyObject.leavesItems],
    fun _ _ => rfl⟩

/-- An item that was run had its visible sources built. -/
theorem isOk_of_runItem {suite : LoadedSuite} {exec : ItemExecutor σ τ ρ} {s : RunState σ ρ}
    {item : SuiteItemEntity} {locals : τ} {x : RunState σ ρ × Except String ρ}
    (h : runItem suite exec s item locals = .ok x) :
    ∃ v, buildVisibleSources suite.beforeAll suite.beforeEach item = .ok v := by
  unfold runItem at h
  cases hv : buildVisibleSources suite.beforeAll suite.beforeEach item with
  | ok visible => exact ⟨visible, rfl⟩
  | error e => simp [hv] at h

theorem isOk_of_runHook {suite : LoadedSuite} {exec : ItemExecutor σ τ ρ} {s : RunState σ ρ}
    {hook : Option SuiteItemEntity} {locals : τ} {x : RunState σ ρ × Bool}
    (h : runHook suite exec s hook locals = .ok x) :
    ∀ item ∈ hook.toList, ∃ v,
      buildVisibleSources suite.beforeAll suite.beforeEach item = .ok v := by
  intro item hitem
  obtain rfl : hook = some item := by simpa using hitem
  obtain ⟨y, hy, -⟩ := bind_eq_ok.1 h
  exact isOk_of_runItem hy

theorem successExecutor_runItem {suite : LoadedSuite} {s s' : RunState Unit Unit}
    {item : SuiteItemEntity} {outcome : Except String Unit}
    (h : runItem suite successExecutor s item () = .ok (s', outcome)) :
    outcome = .ok () ∧ s'.anyError = s.anyError := by
  unfold runItem at h
  cases hv : buildVisibleSources suite.beforeAll suite.beforeEach item with
  | error e => simp [hv] at h
  | ok visible =>
    rw [hv] at h
    obtain ⟨rfl, rfl⟩ := Prod.mk.inj (Except.ok.inj h)
    exact ⟨rfl, rfl⟩

/-- Where nothing fails, a round that is left without an exception had the sources of
all its items built, and no test ends the run. -/
theorem successExecutor_runRound {suite : LoadedSuite} {s s' : RunState Unit Unit}
    {test : SuiteItemEntity} {testFailed : Bool}
    (h : runRound suite successExecutor s test = .ok (s', testFailed)) :
    testFailed = false ∧ ∀ item ∈ suite.round test,
      ∃ v, buildVisibleSources suite.beforeAll suite.beforeEach item = .ok v := by
  have hhook : ∀ {s s' : RunState Unit Unit} {hook : Option SuiteItemEntity} {hookFailed : Bool},
      runHook suite successExecutor s hook () = .ok (s', hookFailed) → hookFailed = false := by
    intro s s' hook hookFailed hrun
    cases hook with
    | none => exact (Prod.mk.inj (Except.ok.inj hrun)).2.symm
    | some item =>
      obtain ⟨⟨s₁, outcome⟩, hitem, hret⟩ := bind_eq_ok.1 hrun
      rw [(successExecutor_runItem hitem).1] at hret
      exact (Prod.mk.inj (Except.ok.inj hret)).2.symm
  obtain ⟨⟨s₁, beforeFailed⟩, hbefore, h⟩ := bind_eq_ok.1 h
  obtain ⟨⟨s₂, middleFailed⟩, hmiddle, h⟩ := bind_eq_ok.1 h
  obtain ⟨⟨s₃, afterFailed⟩, hafter, h⟩ := bind_eq_ok.1 h
  obtain ⟨⟨s₄, outcome⟩, htest, hret⟩ := bind_eq_ok.1 hmiddle
  have hmiddleFailed : middleFailed = false := by
    rw [(successExecutor_runItem htest).1] at hret
    exact (Prod.mk.inj (Except.ok.inj hret)).2.symm
  refine ⟨?_, ?_⟩
  · rw [← (Prod.mk.inj (Except.ok.inj h)).2]
    simp [hhook hbefore, hmiddleFailed, hhook hafter]
  · intro item hitem
    rcases List.mem_append.1 hitem with hitem | hitem
    · exact isOk_of_runHook hbefore item hitem
    rcases List.mem_cons.1 hitem with rfl | hitem
    · exact isOk_of_runItem htest
    · exact isOk_of_runHook hafter item hitem

theorem successExecutor_runTests {suite : LoadedSuite} {s s' : RunState Unit Unit}
    {tests : List SuiteItemEntity} (h : runTests suite successExecutor s tests = .ok s') :
    ∀ item ∈ tests.flatMap suite.round,
      ∃ v, buildVisibleSources suite.beforeAll suite.beforeEach item = .ok v := by
  induction tests generalizing s with
  | nil => simp
  | cons test tests ih =>
    obtain ⟨⟨s₁, testFailed⟩, hround, hrest⟩ := bind_eq_ok.1 h
    obtain ⟨rfl, hitems⟩ := successExecutor_runRound hround
    intro item hitem
    rcases List.mem_append.1 (List.flatMap_cons ▸ hitem) with hitem | hitem
    · exact hitems item hitem
    · exact ih hrest item hitem

/-- Where nothing fails, every planned item is met. -/
theorem successExecutor_runItems {suite : LoadedSuite} {s' : RunState Unit Unit}
    (h : runItems suite successExecutor () = .ok s') :
    ∀ item ∈ suite.planned,
      ∃ v, buildVisibleSources suite.beforeAll suite.beforeEach item = .ok v := by
  obtain ⟨s₁, hopen, h⟩ := bind_eq_ok.1 h
  obtain ⟨s₂, hrun, hclose⟩ := bind_eq_ok.1 h
  have hopening : s₁.anyError = false ∧ ∀ item ∈ suite.beforeAll.toList,
      ∃ v, buildVisibleSources suite.beforeAll suite.beforeEach item = .ok v := by
    unfold runBeforeAll at hopen
    cases hhook : suite.beforeAll with
    | none =>
      rw [hhook] at hopen
      obtain rfl := Except.ok.inj hopen
      exact ⟨rfl, by simp⟩
    | some hook =>
      simp only [hhook] at hopen
      obtain ⟨⟨s₃, outcome⟩, hitem, hret⟩ := bind_eq_ok.1 hopen
      obtain ⟨rfl, hany⟩ := successExecutor_runItem hitem
      obtain rfl := Except.ok.inj hret
      refine ⟨hany, fun item hmem => ?_⟩
      obtain rfl : item = hook := by simpa using hmem
      rw [← hhook]
      exact isOk_of_runItem hitem
  intro item hitem
  rcases List.mem_append.1 hitem with hitem | hitem
  rcases List.mem_append.1 hitem with hitem | hitem
  · exact hopening.2 item hitem
  · rw [runAllTests, if_neg (by simp [hopening.1])] at hrun
    exact successExecutor_runTests hrun item hitem
  · unfold runAfterAll at hclose
    cases hhook : suite.afterAll with
    | none => simp [hhook] at hitem
    | some hook =>
      obtain rfl : item = hook := by simpa [hhook] using hitem
      simp only [hhook] at hclose
      obtain ⟨x, hx, -⟩ := bind_eq_ok.1 hclose
      exact isOk_of_runItem hx

/-- The hook after all tests is announced where a run comes to its end. -/
theorem afterAll_started {suite : LoadedSuite} {exec : ItemExecutor σ τ ρ} {s s' : RunState σ ρ}
    (h : runAfterAll suite exec s = .ok s') : ∀ hook ∈ suite.afterAll, ∃ rowId position,
      ExecutionEvent.itemStarted rowId hook position ∈ s'.events := by
  intro hook hhook
  unfold runAfterAll at h
  simp only [Option.mem_def.1 hhook] at h
  obtain ⟨⟨s₁, outcome⟩, hrun, hret⟩ := bind_eq_ok.1 h
  obtain rfl := Except.ok.inj hret
  unfold runItem at hrun
  split at hrun
  · simp at hrun
  · obtain ⟨rfl, -⟩ := Prod.mk.inj (Except.ok.inj hrun)
    exact ⟨s.rows.length, s.executionPosition + 1, by simp⟩

/-- **A run is closed whatever its items do just where no source code is met twice by
an item it plans, as far as its context can be written.**  The sources are built outside
the handler of an item, and the context is written outside of it as well: where one of the
two raises, the whole run is left and its transaction is rolled back.  So no run is closed
whose context cannot be written. -/
theorem execute_closed_iff (suite : LoadedSuite) :
    ((∀ (σ τ ρ : Type) (exec : ItemExecutor σ τ ρ) (ctx : σ), ContextStored suite exec ctx →
        (execute suite exec ctx).Closed suite)
      ↔ ∀ item ∈ suite.planned,
          (visibleCodes suite.beforeAll suite.beforeEach item).Nodup) ∧
    ∀ (σ τ ρ : Type) (exec : ItemExecutor σ τ ρ) (ctx : σ),
      (execute suite exec ctx).Closed suite → ContextStored suite exec ctx := by
  refine ⟨⟨?_, ?_⟩, ?_⟩
  · intro hclosed item hitem
    rw [← buildVisibleSources_isOk]
    obtain ⟨row, hrow, -⟩ :=
      (hclosed Unit Unit Unit successExecutor () (successExecutor_contextStored suite)).stored
    obtain ⟨s, -, hrun, -⟩ := exists_of_stored hrow
    exact successExecutor_runItems hrun item hitem
  · intro hnodup σ τ ρ exec ctx hstored
    obtain ⟨s, trace, hrun, -, hinv⟩ := runItems_inv suite exec ctx fun item hitem =>
      (buildVisibleSources_isOk _ _ _).2 (hnodup item hitem)
    obtain ⟨s₁, -, hrest⟩ := bind_eq_ok.1 (show runItems suite exec ctx = .ok s from hrun)
    obtain ⟨s₂, -, hclose⟩ := bind_eq_ok.1 hrest
    obtain ⟨text, htext⟩ := (exists_resultJson exec s.ctx).2 (hstored s hrun)
    rw [execute_of_runItems hrun, htext]
    refine ⟨⟨_, rfl, ?_, rfl⟩, ?_, ?_⟩
    · change (if s.anyError then ExecutionStatus.error else .success) ≠ .running
      split <;> simp
    · intro hook hhook
      obtain ⟨rowId, position, hstarted⟩ := afterAll_started hclose hook hhook
      exact ⟨rowId, position, List.mem_append_left _ hstarted⟩
    · change (s.events ++ _).countP closes = 1
      rw [List.countP_append, hinv.notClosed]
      rfl
  · intro σ τ ρ exec ctx hclosed s hrun
    obtain ⟨row, hrow, -⟩ := hclosed.stored
    obtain ⟨s', text, hrun', htext⟩ := exists_of_stored hrow
    obtain rfl := Except.ok.inj (hrun.symm.trans hrun')
    exact (exists_resultJson exec s.ctx).1 ⟨text, htext⟩

end

/-! ### A suite that is not closed -/

theorem strip_sourceCode : strip "orders" = "orders" := by decide

theorem sourceCode_ne : "orders" ≠ "" := by decide

/-- A source without parameters. -/
def ordersSource (id : Token) : SuiteSource :=
  .jsonArray ⟨"orders", strip_sourceCode, sourceCode_ne⟩ id

/-- An item that has one source and no commands. -/
def ordersItem (kind : SuiteItemKind) (hookPhase : Option HookPhase)
    (h : hookPhase.isSome ↔ kind = .hook) (id : Token) : CreateSuiteItemDto where
  kind := kind
  hookPhase := hookPhase
  description := "orders"
  onFailure := .abort
  sources := [ordersSource id]
  commands := []
  templateKind := .custom
  templateConfig := none
  hookPhase_isSome := h
  sources_nodup := by simp

/-- A suite whose only item is a hook with a source. -/
def ordersSuite : CreateTestSuiteDto where
  description := "orders"
  tests := []
  hooks := [ordersItem .hook (some .beforeEach) (by simp) ⟨"array-1", by decide, by decide⟩]

/-- A test with a source of the same code. -/
def ordersTest : CreateSuiteItemDto :=
  ordersItem .test none hookPhase_isSome_test ⟨"array-2", by decide, by decide⟩

/-- A suite is created with a source in the hook before each test, and a test with a
source of the same code is added to it: every run of it is left at that test. -/
theorem ordersSuite_not_closed : ∃ (store store' : Store) (suite : LoadedSuite),
    insertTestSuite listDatabase ordersSuite Store.empty = .ok store ∧
      addTestToSuite listDatabase "0" ordersTest store = .ok store' ∧
      loadSuite listDatabase store' "0" "" = .ok suite ∧
      ¬ (execute suite successExecutor ()).Closed suite := by
  refine ⟨_, _, _, rfl, rfl, rfl, ?_⟩
  rintro ⟨⟨row, hrow, -⟩, -, -⟩
  have hnone : (none : Option TestSuiteExecutionEntity) = some row := hrow
  simp at hnone

end Suite
end QualityFlow
