/-
# Declarations that are honoured

`_planned_declarations` of
`app/elaborations/services/constants/command_constant_definition_registry.py` says of each
command which constants it declares, and the executors of
`app/elaborations/services/operations/` write them, each in its own place.

A command that returns has written each constant it declares, with three exceptions.  A
`saveTable` and an `exportDataset` return early where their input has no rows.  A
`receiveQueue` and a `queryDatabase` never look at their result constant: they write where
their target points, and only a target at the very place of the constant helps.
-/

import QualityFlow.Constants.Planner
import QualityFlow.Suite.Recorded

namespace QualityFlow
namespace Suite

open Py Command Constants Assert
open Context (contextTarget)

namespace World

variable {outside : Outside} {w w₁ w' : World} {α β : Type} {path : String}

/-- A path has been written since, at its place in the context. -/
def Wrote (w w' : World) (path : String) : Prop :=
  ∃ p v, (⟨.write p v, .ok ()⟩ : (a : Action) × a.Answer) ∈ w.doneSince w' ∧
    contextTarget p = contextTarget path

/-- What two computations write, one after the other. -/
theorem wrote_iff {x : Acting α} {y : Acting β} {r : Except String α} {r' : Except String β}
    (hx : w.run outside x = (w₁, r)) (hy : w₁.run outside y = (w', r')) :
    w.Wrote w' path ↔ w.Wrote w₁ path ∨ w₁.Wrote w' path := by
  unfold Wrote
  simp only [doneSince_append (record_of_run hx) (record_of_run hy), List.mem_append,
    or_and_right, exists_or]

/-- An action that does not write at the place of a path. -/
def Apart (path : String) (a : Action) : Prop :=
  ∀ p v, a = .write p v → contextTarget p ≠ contextTarget path

/-- A computation whose writes all are elsewhere has not written a path. -/
theorem not_wrote {x : Acting α} {r : Except String α} (h : x.Only (Apart path))
    (hrun : w.run outside x = (w', r)) : ¬ w.Wrote w' path := by
  rintro ⟨p, v, hmem, htarget⟩
  exact forall_doneSince h hrun _ hmem p v rfl htarget

/-- A write that returns. -/
theorem wrote_write {value : Json} (h : w.run outside (write path value) = (w', .ok ())) :
    w.Wrote w' path := by
  unfold write at h
  rw [run_act, Prod.mk.injEq] at h
  obtain ⟨rfl, hanswer⟩ := h
  refine ⟨path, value, ?_, rfl⟩
  rw [doneSince_answer, List.mem_singleton, ← hanswer]

/-- Questions are no writes. -/
theorem apart_read (q : Question) : Apart path (.read q) := by
  intro p v h
  simp at h

end World

theorem only_writeTarget {path : String} {target : Option TargetPath} {rows : List Json}
    (h : ∀ t ∈ target, contextTarget t.path ≠ contextTarget path) :
    (writeTarget target rows).Only (World.Apart path) := by
  cases target with
  | none => exact .done ()
  | some t =>
    refine only_act (h := rfl) fun p v hp => ?_
    cases hp
    exact h t rfl

/-! ### The result constants -/

/-- The place of a declaration in the context. -/
def declaredPath (d : PlannedDefinition) : String :=
  "$." ++ d.contextScope.value ++ ".constants." ++ d.name

/-- The definition of a result constant is found, under its name and in the scope of
results. -/
def Outside.Knows (outside : Outside) (r : ResultConstantDto) : Prop :=
  ∀ w, ∃ d : CommandConstantDefinitionEntity,
    outside w (.read (.definition r.definitionId.val)) = some d ∧
      d.contextScope = .resultScope ∧ d.name = r.name.val

/-- A computation that has written a path wherever it returns. -/
def Writes (outside : Outside) (path : String) {α : Type} (x : Acting α) : Prop :=
  ∀ (w w' : World) (a : α), w.run outside x = (w', .ok a) → w.Wrote w' path

section

variable {outside : Outside} {w w' : World} {path : String} {α β : Type}

theorem writes_raised (e : String) : Writes outside path (.raised e : Acting α) := by
  intro w w' a h
  simp [World.run] at h

theorem writes_write (value : Json) : Writes outside path (write path value) :=
  fun _ _ _ => World.wrote_write

theorem Writes.bind {x : Acting α} (h : Writes outside path x) (f : α → Acting β) :
    Writes outside path (x >>= f) := by
  intro w w' b hrun
  obtain ⟨w₁, a, hx, hf⟩ := World.run_bind_eq_ok.1 hrun
  exact (World.wrote_iff hx hf).2 (.inl (h w w₁ a hx))

theorem writes_bind (x : Acting α) {f : α → Acting β} (h : ∀ a, Writes outside path (f a)) :
    Writes outside path (x >>= f) := by
  intro w w' b hrun
  obtain ⟨w₁, a, hx, hf⟩ := World.run_bind_eq_ok.1 hrun
  exact (World.wrote_iff hx hf).2 (.inr (h a w₁ w' b hf))

theorem run_resolveDefinitionPath {definitionId : String} {d : CommandConstantDefinitionEntity}
    (h : outside w (.read (.definition definitionId)) = some d) :
    (w.run outside (reading (resolveDefinitionPath definitionId))).2
      = .ok (d, s!"$.{d.contextScope.value}.constants.{d.name}") := by
  have hanswer : (w.answer outside (.read (.definition definitionId))).2 = some d := h
  unfold World.run reading resolveDefinitionPath
  rw [Asks.within, Asks.handle_bind, Asks.handle_question, hanswer]
  rfl

variable {r : ResultConstantDto}

theorem writes_writeResultConstant (hknows : outside.Knows r) (value : Json) :
    Writes outside (constantPath .resultScope r.name) (writeResultConstant (some r) value) := by
  intro w w' a hrun
  obtain ⟨d, hfound, hscope, hname⟩ := hknows w
  obtain ⟨w₁, found, hread, hwrite⟩ := World.run_bind_eq_ok.1 hrun
  have hresolve := run_resolveDefinitionPath hfound
  rw [hread, Except.ok.injEq] at hresolve
  subst hresolve
  have hpath : s!"$.{d.contextScope.value}.constants.{d.name}"
      = constantPath .resultScope r.name := by
    simp only [toString, constantPath, hscope, hname]
  rw [← hpath]
  exact (World.wrote_iff hread hwrite).2 (.inr (writes_write value w₁ w' a hwrite))

end

/-! ### The executors -/

/-- The rows that a command reads as its input. -/
def inputRows (outside : Outside) (w : World) (data : Json) (inputRef : InputRefDto) :
    List Row :=
  match (w.run outside (reading (resolveInputReference (some inputRef) data))).2 with
  | .ok (inputData, _) => coerceRows inputData
  | .error _ => []

/-- What it takes that the result constant of a command is written. -/
def Honoured (outside : Outside) (w : World) (data : Json) (r : ResultConstantDto) :
    ConfigurationCommandDto → Prop
  | .saveTable c => inputRows outside w data c.inputRef ≠ []
  | .exportDataset c => inputRows outside w data c.inputRef ≠ []
  | .receiveQueue c =>
    ∃ t ∈ c.target, contextTarget t.path = contextTarget (constantPath .resultScope r.name)
  | .queryDatabase c =>
    ∃ t ∈ c.target, contextTarget t.path = contextTarget (constantPath .resultScope r.name)
  | _ => True

section

variable {outside : Outside} {w w' : World} {r : ResultConstantDto} {data : Json}
  {result : ExecutionResultDto} {path : String}

theorem writes_executeHttp {fields : HttpRequestFields} {method : String} {body : Option HttpBody}
    (hresult : fields.resultConstant = some r) (hknows : outside.Knows r) :
    Writes outside (constantPath .resultScope r.name) (executeHttp fields method body data) := by
  refine writes_bind _ fun kwargs => ?_
  dsimp only
  split
  · exact writes_raised _
  refine writes_bind _ fun answer => ?_
  cases answer with
  | timeout after => exact writes_raised _
  | exception text => exact writes_raised _
  | response response =>
    rw [hresult]
    exact (writes_writeResultConstant hknows _).bind _

theorem writes_executeSendMessageQueue {c : SendMessageQueueConfigurationCommandDto}
    (hresult : c.resultConstant = some r) (hknows : outside.Knows r) :
    Writes outside (constantPath .resultScope r.name) (executeSendMessageQueue c data) := by
  refine writes_bind _ fun code => writes_bind _ fun input => writes_bind _ fun msg =>
    writes_bind _ fun _ => ?_
  rw [hresult]
  exact (writes_writeResultConstant hknows _).bind _

theorem writes_executeRunSuite {c : RunSuiteConfigurationCommandDto}
    (hresult : c.resultConstant = some r) (hknows : outside.Knows r) :
    Writes outside (constantPath .resultScope r.name) (executeRunSuite c data) := by
  refine writes_bind _ fun constants => writes_bind _ fun executionId => ?_
  rw [hresult]
  exact (writes_writeResultConstant hknows _).bind _

/-- What is read before the rows are looked at. -/
theorem inputRows_eq {inputRef : InputRefDto} {w₁ : World} {input : Json × String}
    (h : w.run outside (reading (resolveInputReference (some inputRef) data)) = (w₁, .ok input)) :
    inputRows outside w data inputRef = coerceRows input.1 := by
  unfold inputRows
  rw [h]

theorem wrote_executeSaveTable_iff {c : SaveTableConfigurationCommandDto}
    (hresult : c.resultConstant = some r) (hknows : outside.Knows r)
    (hrun : w.run outside (executeSaveTable c data) = (w', .ok result)) :
    w.Wrote w' (constantPath .resultScope r.name) ↔ inputRows outside w data c.inputRef ≠ [] := by
  obtain ⟨w₁, input, hread, hrest⟩ := World.run_bind_eq_ok.1 hrun
  rw [inputRows_eq hread]
  dsimp only at hrest
  split at hrest
  · rename_i hrows
    obtain ⟨rfl, -⟩ := World.run_pure_eq_ok.1 hrest
    have hapart : ¬ w.Wrote w₁ (constantPath .resultScope r.name) :=
      World.not_wrote (only_reading World.apart_read _) hread
    exact iff_of_false hapart (by simpa using hrows)
  · rename_i hrows
    refine iff_of_true ((World.wrote_iff hread hrest).2 (.inr ?_)) hrows
    refine writes_bind _ (fun _ => writes_bind _ fun _ => ?_) w₁ w' result hrest
    rw [hresult]
    exact (writes_writeResultConstant hknows _).bind _

theorem wrote_executeExportDataset_iff {c : ExportDatasetConfigurationCommandDto}
    (hresult : c.resultConstant = some r) (hknows : outside.Knows r)
    (hrun : w.run outside (executeExportDataset c data) = (w', .ok result)) :
    w.Wrote w' (constantPath .resultScope r.name) ↔ inputRows outside w data c.inputRef ≠ [] := by
  obtain ⟨w₁, input, hread, hrest⟩ := World.run_bind_eq_ok.1 hrun
  rw [inputRows_eq hread]
  dsimp only at hrest
  split at hrest
  · simp [World.run] at hrest
  split at hrest
  · simp [World.run] at hrest
  obtain ⟨w₂, dbSchema, hconnection, hrest'⟩ := World.run_bind_eq_ok.1 hrest
  split at hrest'
  · rename_i hrows
    obtain ⟨rfl, -⟩ := World.run_pure_eq_ok.1 hrest'
    let asked : Acting String := reading (resolveInputReference (some c.inputRef) data) >>= fun _ =>
      act (.connection (strip (c.connectionId.getD ""))) rfl
    have honly : asked.Only (World.Apart (constantPath .resultScope r.name)) :=
      (only_reading World.apart_read _).bind fun _ => only_act fun p v h => by simp at h
    have hasked : w.run outside asked = (w₂, .ok dbSchema) :=
      World.run_bind_eq_ok.2 ⟨w₁, input, hread, hconnection⟩
    exact iff_of_false (World.not_wrote honly hasked) (by simpa using hrows)
  · rename_i hrows
    have hwrote : w₂.Wrote w' (constantPath .resultScope r.name) := by
      refine writes_bind _ (fun _ => writes_bind _ fun _ => ?_) w₂ w' result hrest'
      rw [hresult]
      exact (writes_writeResultConstant hknows _).bind _
    have hlater := (World.wrote_iff hconnection hrest').2 (.inr hwrote)
    exact iff_of_true ((World.wrote_iff hread hrest).2 (.inr hlater)) hrows

/-- A target is written, or nothing is. -/
theorem wrote_writeTarget_iff {target : Option TargetPath} {rows : List Json}
    (hrun : w.run outside (writeTarget target rows) = (w', .ok ())) :
    w.Wrote w' path ↔ ∃ t ∈ target, contextTarget t.path = contextTarget path := by
  by_cases h : ∃ t ∈ target, contextTarget t.path = contextTarget path
  · refine iff_of_true ?_ h
    obtain ⟨t, ht, hplace⟩ := h
    cases ht
    obtain ⟨p, v, hmem, htarget⟩ := World.wrote_write hrun
    exact ⟨p, v, hmem, htarget.trans hplace⟩
  · refine iff_of_false (World.not_wrote (only_writeTarget ?_) hrun) h
    intro t ht hplace
    exact h ⟨t, ht, hplace⟩

theorem wrote_executeQueryDatabase_iff {c : QueryDatabaseConfigurationCommandDto}
    (hrun : w.run outside (executeQueryDatabase c) = (w', .ok result)) :
    w.Wrote w' path ↔ ∃ t ∈ c.target, contextTarget t.path = contextTarget path := by
  obtain ⟨w₁, connection, hconnection, hrest⟩ := World.run_bind_eq_ok.1 hrun
  obtain ⟨w₂, rows, hquery, hrest'⟩ := World.run_bind_eq_ok.1 hrest
  obtain ⟨w₃, written, htarget, hpure⟩ := World.run_bind_eq_ok.1 hrest'
  obtain ⟨rfl, -⟩ := World.run_pure_eq_ok.1 hpure
  have hconnection' : ¬ w.Wrote w₁ path :=
    World.not_wrote (only_act fun p v h => by simp at h) hconnection
  have hquery' : ¬ w₁.Wrote w₂ path :=
    World.not_wrote (only_act fun p v h => by simp at h) hquery
  rw [World.wrote_iff hconnection hrest, World.wrote_iff hquery hrest',
    wrote_writeTarget_iff htarget]
  simp [hconnection', hquery']

theorem wrote_executeReceiveQueue_iff {library : Library} {c : ReceiveQueueConfigurationCommandDto}
    (hrun : w.run outside (executeReceiveQueue library c) = (w', .ok result)) :
    w.Wrote w' path ↔ ∃ t ∈ c.target, contextTarget t.path = contextTarget path := by
  obtain ⟨w₁, code, hqueue, hrest⟩ := World.run_bind_eq_ok.1 hrun
  obtain ⟨w₂, receive, hpolls, hrest'⟩ := World.run_bind_eq_ok.1 hrest
  dsimp only at hrest'
  split at hrest'
  · simp [World.run] at hrest'
  obtain ⟨w₃, rows, hrows, hrest''⟩ := World.run_bind_eq_ok.1 hrest'
  obtain ⟨w₄, written, htarget, hpure⟩ := World.run_bind_eq_ok.1 hrest''
  obtain ⟨rfl, -⟩ := World.run_pure_eq_ok.1 hpure
  have hqueue' : ¬ w.Wrote w₁ path :=
    World.not_wrote (only_act fun p v h => by simp at h) hqueue
  have hpolls' : ¬ w₁.Wrote w₂ path :=
    World.not_wrote (Asks.only_question fun p v h => by simp at h) hpolls
  have hrows' : ¬ w₂.Wrote w₃ path := World.not_wrote (Asks.only_ofExcept _) hrows
  rw [World.wrote_iff hqueue hrest, World.wrote_iff hpolls hrest', World.wrote_iff hrows hrest'',
    wrote_writeTarget_iff htarget]
  simp [hqueue', hpolls', hrows']

/-! ### The declarations of a command -/

/-- The result constant of a command that returns has been written where that is honoured. -/
theorem wrote_resultConstant_iff {library : Library} {operationId : String}
    {cfg : ConfigurationCommandDto} (hresult : resultConstant? cfg = some r)
    (hknows : outside.Knows r)
    (hrun : w.run outside (executeOperation library operationId data cfg) = (w', .ok result)) :
    w.Wrote w' (constantPath .resultScope r.name) ↔ Honoured outside w data r cfg := by
  cases cfg with
  | readApi c => exact iff_of_true (writes_executeHttp hresult hknows w w' result hrun) trivial
  | writeApi c => exact iff_of_true (writes_executeHttp hresult hknows w w' result hrun) trivial
  | sendMessageQueue c =>
    exact iff_of_true (writes_executeSendMessageQueue hresult hknows w w' result hrun) trivial
  | runSuite c => exact iff_of_true (writes_executeRunSuite hresult hknows w w' result hrun) trivial
  | saveTable c => exact wrote_executeSaveTable_iff hresult hknows hrun
  | exportDataset c => exact wrote_executeExportDataset_iff hresult hknows hrun
  | receiveQueue c => exact wrote_executeReceiveQueue_iff hrun
  | queryDatabase c => exact wrote_executeQueryDatabase_iff hrun
  | setVariable c => simp [resultConstant?] at hresult
  | deleteVariable c => simp [resultConstant?] at hresult
  | sleep c => simp [resultConstant?] at hresult
  | dropTable c => simp [resultConstant?] at hresult
  | cleanTable c => simp [resultConstant?] at hresult
  | dropDataset c => simp [resultConstant?] at hresult
  | cleanDataset c => simp [resultConstant?] at hresult
  | assert c => simp [resultConstant?] at hresult

/-- **A command that returns has written every constant that the planner says it declares,
except a result constant that its executor passes over**: that of a `saveTable` or an
`exportDataset` without rows, and that of a `receiveQueue` or a `queryDatabase` whose target
is not the constant's own place. -/
theorem declarations_written_iff (library : Library) (outside : Outside) (w w' : World)
    (operationId commandId : String) (commandOrder : ℤ) (sectionType : SectionType) (data : Json)
    (cfg : ConfigurationCommandDto) (result : ExecutionResultDto)
    (hknows : ∀ r ∈ resultConstant? cfg, outside.Knows r)
    (hrun : w.run outside (executeOperation library operationId data cfg) = (w', .ok result)) :
    (∀ d ∈ plannedDeclarations cfg commandId commandOrder sectionType, w.Wrote w' (declaredPath d))
      ↔ ∀ r ∈ resultConstant? cfg, Honoured outside w data r cfg := by
  cases hresult : resultConstant? cfg with
  | some r =>
    have hnot : ∀ c, cfg ≠ .setVariable c := by
      rintro c rfl
      simp [resultConstant?] at hresult
    have hplanned : (plannedDeclarations cfg commandId commandOrder sectionType).map declaredPath
        = [constantPath .resultScope r.name] := by
      unfold plannedDeclarations
      rw [hresult]
      split
      · rename_i c
        exact absurd rfl (hnot c)
      · rfl
    rw [← List.forall_mem_map (P := fun path => w.Wrote w' path), hplanned]
    simpa using wrote_resultConstant_iff hresult (hknows r hresult) hrun
  | none =>
    refine iff_of_true (fun d hd => ?_) (by simp)
    unfold plannedDeclarations at hd
    rw [hresult] at hd
    split at hd
    · rename_i c
      rw [List.mem_append, List.mem_singleton] at hd
      obtain rfl : d = _ := hd.resolve_right (by simp)
      have hwrites : Writes outside (constantPath c.context c.name) (executeSetVariable c) :=
        writes_bind _ fun value => (writes_write value).bind _
      exact hwrites w w' result hrun
    · simp at hd

end

/-- An outside that knows some definitions and answers every query with no rows. -/
def Outside.quiet (definition : String → Option CommandConstantDefinitionEntity) : Outside
  | _, .read (.definition definitionId) => definition definitionId
  | _, .read (.constant _ _) | _, .read (.dynamic _) | _, .read (.rows _ _) => .ok .null
  | _, .read (.source _) | _, .read (.jsonArray _) => none
  | _, .read (.dataset _) | _, .read (.queue _) => .ok ()
  | _, .read (.clock _) => .null
  | _, .read (.post _ _) => .notJson
  | _, .write _ _ | _, .remove _ | _, .sleep _ | _, .publish _ _ | _, .statement _ _ _
  | _, .deleteDataset _ => .ok ()
  | _, .appendArtifact _ => ()
  | _, .request _ _ _ _ => .exception "no route"
  | _, .queue _ | _, .connection _ | _, .saveDataset _ _ _ | _, .startSuite _ _ => .ok ""
  | _, .payloads _ _ _ | _, .query _ _ => .ok []
  | _, .polls _ => fun _ _ => .ok []
  | _, .datasetTable _ => .ok ("", "")

/-- A query that has a result constant and no target returns, and has not written it. -/
theorem declarations_written_query :
    ∃ (library : Library) (outside : Outside) (w w' : World)
      (c : QueryDatabaseConfigurationCommandDto) (result : ExecutionResultDto),
      w.run outside (executeOperation library "c1" .null (.queryDatabase c)) = (w', .ok result) ∧
        ¬ ∀ d ∈ plannedDeclarations (.queryDatabase c) "c1" 1 .test,
          w.Wrote w' (declaredPath d) := by
  let rows : Token := ⟨"rows", by decide, by decide⟩
  let keys : CommandKeys := ⟨"queryDatabase", .action, by decide, by decide⟩
  let c : QueryDatabaseConfigurationCommandDto :=
    { keys, connectionId := rows, query := rows, target := none
      resultConstant := some { definitionId := rows, name := rows, valueType := .json } }
  let d : CommandConstantDefinitionEntity :=
    { id := "rows", ownerType := .suite, suiteId := none, suiteItemId := none
      mockServerApiId := none, mockServerQueueId := none, commandId := "c1", commandOrder := 1
      sectionType := .test, name := "rows", contextScope := .resultScope, valueType := .json
      declaredAtOrder := 1, deletedAtOrder := none }
  let library : Library :=
    { services := ⟨fun _ _ => .ok .null, .ok, fun _ => none, fun _ _ => none⟩
      loads := fun _ => .ok .null }
  let (h, context) := Context.createRunContext [] "run" .null .null
  let w : World := { context, heap := h, record := [] }
  refine ⟨library, .quiet fun _ => some d, w, _, c, _, rfl, ?_⟩
  rw [declarations_written_iff library (.quiet fun _ => some d) w _ "c1" "c1" 1 .test .null
    (.queryDatabase c) _ (fun r hr => fun _ => ⟨d, rfl, rfl, ?_⟩) rfl]
  · intro h
    obtain ⟨t, ht, -⟩ := h _ rfl
    cases ht
  · cases hr
    rfl

end Suite
end QualityFlow
