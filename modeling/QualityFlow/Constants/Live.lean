/-
# The constants that are live

What `plan_definitions_for_commands` returns, against the commands it was given: the map
of the definitions, with what is carried over from before, and the list of those to store.

A definition is in the map from the command that declares it on, and a deletion replaces
it there by a copy.  The list keeps the record the copy was made of.
-/

import QualityFlow.Constants.Planner
import QualityFlow.Py.Lists
import Mathlib.Data.String.Basic

namespace QualityFlow
namespace Constants

open Py Command Suite

/-! ### The commands, read -/

/-- A command whose configuration has been read. -/
structure PlanStep where
  command : CommandInput
  cfg : ConfigurationCommandDto

/-- The order of a command. -/
def PlanStep.order (p : PlanStep) : ℤ := p.command.commandOrder

/-- What a command declares. -/
def PlanStep.declared (p : PlanStep) (sectionType : SectionType) : List PlannedDefinition :=
  plannedDeclarations p.cfg p.command.commandId p.command.commandOrder sectionType

/-- The constant that a command deletes, if it deletes one. -/
def PlanStep.deleted? (p : PlanStep) : Option String := deletedTarget? p.cfg

/-- A command with its configuration, if that can be read. -/
def readCommand (command : CommandInput) : Option PlanStep :=
  (convertToConfigCommandType command.cfg).toOption.map fun cfg => { command, cfg }

/-- The commands of a list, in the order they are planned in. -/
def planSteps (raws : List RawCommand) : List PlanStep :=
  (sortedCommands raws).filterMap readCommand

/-- The state after a command. -/
def PlanState.next (s : PlanState) (sectionType : SectionType) (p : PlanStep) : PlanState :=
  s.step sectionType p.command p.cfg

/-- The state after some commands. -/
def PlanState.after (s : PlanState) (sectionType : SectionType) (steps : List PlanStep) :
    PlanState :=
  steps.foldl (fun s p => s.next sectionType p) s

/-- The state before the first command. -/
def planStart (initialVisible : Dict String PlannedDefinition) : PlanState where
  definitions := carryOverVisibleMap initialVisible
  planned := []

/-- Every command passes its checks in the state before it. -/
def StepsOk (sectionType : SectionType) : PlanState → List PlanStep → Prop
  | _, [] => True
  | s, p :: rest =>
    StepOk sectionType s p.command p.cfg ∧ StepsOk sectionType (s.next sectionType p) rest

section Run

variable {sectionType : SectionType}

@[simp] theorem PlanState.after_nil (s : PlanState) : s.after sectionType [] = s := by
  rw [PlanState.after, List.foldl_nil]

@[simp] theorem PlanState.after_cons (s : PlanState) (p : PlanStep) (steps : List PlanStep) :
    s.after sectionType (p :: steps) = (s.next sectionType p).after sectionType steps := by
  rw [PlanState.after, PlanState.after, List.foldl_cons]

theorem PlanState.after_append (s : PlanState) (steps steps' : List PlanStep) :
    s.after sectionType (steps ++ steps')
      = (s.after sectionType steps).after sectionType steps' := by
  simp only [PlanState.after, List.foldl_append]

theorem stepsOk_append {s : PlanState} {steps steps' : List PlanStep} :
    StepsOk sectionType s (steps ++ steps')
      ↔ StepsOk sectionType s steps ∧ StepsOk sectionType (s.after sectionType steps) steps' := by
  induction steps generalizing s with
  | nil => simp [StepsOk]
  | cons p steps ih =>
    rw [List.cons_append, StepsOk, StepsOk, ih, PlanState.after_cons, and_assoc]

/-- What is checked of a command that stands somewhere in the list. -/
theorem StepsOk.stepOk {s : PlanState} {before after : List PlanStep} {p : PlanStep}
    (h : StepsOk sectionType s (before ++ p :: after)) :
    StepOk sectionType (s.after sectionType before) p.command p.cfg :=
  (stepsOk_append.1 h).2.1

theorem foldlM_planCommand {commands : List CommandInput} {s s' : PlanState}
    (h : commands.foldlM (planCommand sectionType) s = .ok s') :
    StepsOk sectionType s (commands.filterMap readCommand) ∧
      s' = s.after sectionType (commands.filterMap readCommand) := by
  induction commands generalizing s with
  | nil =>
    rw [List.foldlM_nil, pure_eq_ok, Except.ok.injEq] at h
    exact ⟨trivial, by rw [List.filterMap_nil, PlanState.after_nil, h]⟩
  | cons command commands ih =>
    obtain ⟨t, hfirst, hrest⟩ := foldlM_cons_eq_ok.1 h
    obtain ⟨cfg, hread, hok, rfl⟩ := planCommand_eq_ok.1 hfirst
    have hcommand : readCommand command = some { command, cfg } := by
      rw [readCommand, hread, Except.toOption, Option.map_some]
    have hcommands := ih hrest
    rw [List.filterMap_cons_some hcommand, PlanState.after_cons]
    exact ⟨⟨hok, hcommands.1⟩, hcommands.2⟩

/-- **An accepted list of commands is planned command by command.** -/
theorem plan_ok {raws : List RawCommand} {initialVisible : Dict String PlannedDefinition}
    {s : PlanState} (h : planDefinitionsForCommands raws sectionType initialVisible = .ok s) :
    StepsOk sectionType (planStart initialVisible) (planSteps raws) ∧
      s = (planStart initialVisible).after sectionType (planSteps raws) :=
  foldlM_planCommand h

end Run

/-! ### The order of the commands -/

instance : Std.Total CommandInput.le where
  total c c' := by
    unfold CommandInput.le
    rcases lt_trichotomy c.commandOrder c'.commandOrder with h | h | h
    · exact .inl (.inl h)
    · rcases le_total c.commandId c'.commandId with hid | hid
      · exact .inl (.inr ⟨h, hid⟩)
      · exact .inr (.inr ⟨h.symm, hid⟩)
    · exact .inr (.inl h)

instance : IsTrans CommandInput CommandInput.le where
  trans a b c hab hbc := by
    unfold CommandInput.le at *
    rcases hab with hab | ⟨hab, habId⟩
    · rcases hbc with hbc | ⟨hbc, -⟩
      · exact .inl (hab.trans hbc)
      · exact .inl (hbc ▸ hab)
    · rcases hbc with hbc | ⟨hbc, hbcId⟩
      · exact .inl (hab ▸ hbc)
      · exact .inr ⟨hab.trans hbc, habId.trans hbcId⟩

theorem CommandInput.le.order {c c' : CommandInput} (h : c.le c') :
    c.commandOrder ≤ c'.commandOrder := by
  rcases h with h | ⟨h, -⟩
  · omega
  · omega

theorem readCommand_command {command : CommandInput} {p : PlanStep}
    (h : readCommand command = some p) : p.command = command := by
  unfold readCommand at h
  obtain ⟨cfg, -, rfl⟩ := Option.map_eq_some_iff.1 h
  rfl

/-- The commands are planned in the order of their numbers. -/
theorem planSteps_sorted (raws : List RawCommand) :
    (planSteps raws).Pairwise fun p q => p.order ≤ q.order := by
  have hsorted := List.pairwise_insertionSort CommandInput.le
    (raws.mapIdx fun i raw => commandInput (i + 1) raw)
  refine hsorted.filterMap _ ?_
  intro c c' hle p hp q hq
  rw [PlanStep.order, PlanStep.order, readCommand_command hp, readCommand_command hq]
  exact hle.order

/-! ### The entry of one constant -/

section Entry

variable {sectionType : SectionType}

/-- A command that declares the constant. -/
def PlanStep.Declares (p : PlanStep) (sectionType : SectionType) (id : String) : Prop :=
  ∃ d ∈ p.declared sectionType, d.definitionId = id

theorem PlanStep.declared_length (p : PlanStep) : (p.declared sectionType).length ≤ 1 :=
  plannedDeclarations_length _ _ _ _

/-- A command declares one constant at most. -/
theorem PlanStep.declared_eq {p : PlanStep} {d : PlannedDefinition}
    (h : d ∈ p.declared sectionType) : p.declared sectionType = [d] := by
  have hlength : (p.declared sectionType).length ≤ 1 := p.declared_length
  match hdeclared : p.declared sectionType with
  | [] => simp [hdeclared] at h
  | [d'] =>
    rw [hdeclared, List.mem_singleton] at h
    rw [h]
  | _ :: _ :: _ => simp [hdeclared] at hlength

/-- What is declared has the order of the command and is not deleted. -/
theorem PlanStep.of_mem_declared {p : PlanStep} {d : PlannedDefinition}
    (h : d ∈ p.declared sectionType) : d.commandOrder = p.order ∧ d.deletedAtOrder = none := by
  unfold PlanStep.declared plannedDeclarations at h
  rcases List.mem_append.1 h with h | h
  · split at h
    · rw [List.mem_singleton] at h
      rw [h]
      exact ⟨rfl, rfl⟩
    · simp at h
  · obtain ⟨r, -, rfl⟩ := List.mem_map.1 h
    exact ⟨rfl, rfl⟩

/-- A command that deletes a constant declares none. -/
theorem PlanStep.declared_of_deleted {p : PlanStep} {id : String} (h : p.deleted? = some id) :
    p.declared sectionType = [] := by
  unfold PlanStep.deleted? at h
  unfold PlanStep.declared
  cases hcfg : p.cfg <;> rw [hcfg] at h <;> simp [deletedTarget?] at h
  simp [plannedDeclarations, resultConstant?]

theorem PlanState.next_of_declared {s : PlanState} {p : PlanStep} {d : PlannedDefinition}
    (h : d ∈ p.declared sectionType) :
    s.next sectionType p
      = { definitions := s.definitions.set d.definitionId d, planned := s.planned ++ [d] } := by
  have hdeclared := PlanStep.declared_eq h
  have hkeeps : p.deleted? = none := by
    cases hdeleted : p.deleted? with
    | none => rfl
    | some id => simp [PlanStep.declared_of_deleted hdeleted] at h
  unfold PlanStep.deleted? at hkeeps
  unfold PlanStep.declared at hdeclared
  simp only [PlanState.next, PlanState.step, hkeeps, PlanState.declare, hdeclared, List.foldl_cons,
    List.foldl_nil]

theorem PlanState.next_of_deleted {s : PlanState} {p : PlanStep} {id : String}
    (h : p.deleted? = some id) : s.next sectionType p = s.delete id p.order := by
  unfold PlanStep.deleted? at h
  simp only [PlanState.next, PlanState.step, h, PlanStep.order]

theorem PlanState.next_of_neither {s : PlanState} {p : PlanStep} (hdeleted : p.deleted? = none)
    (hdeclared : p.declared sectionType = []) : s.next sectionType p = s := by
  unfold PlanStep.deleted? at hdeleted
  unfold PlanStep.declared at hdeclared
  simp only [PlanState.next, PlanState.step, hdeleted, PlanState.declare, hdeclared,
    List.foldl_nil, List.append_nil]

/-- A deletion writes its order into the entry of the constant, and into no other. -/
theorem PlanState.get?_delete (s : PlanState) (target id : String) (order : ℤ) :
    (s.delete target order).definitions.get? id
      = if target = id then
          (s.definitions.get? id).map fun d => { d with deletedAtOrder := some order }
        else s.definitions.get? id := by
  unfold PlanState.delete
  cases hget : s.definitions.get? target with
  | none =>
    simp only
    split_ifs with hid
    · rw [← hid, hget, Option.map_none]
    · rfl
  | some existing =>
    simp only [Dict.get?_set]
    split_ifs with hid
    · rw [← hid, hget, Option.map_some]
    · rfl

/-- A command that declares the constant writes its entry. -/
theorem PlanState.get?_next_of_declared {s : PlanState} {p : PlanStep} {d : PlannedDefinition}
    (h : d ∈ p.declared sectionType) :
    (s.next sectionType p).definitions.get? d.definitionId = some d := by
  rw [PlanState.next_of_declared h, Dict.get?_set_self]

/-- A command that does not declare the constant leaves its entry or writes a deletion into it. -/
theorem PlanState.get?_next {s : PlanState} {p : PlanStep} {id : String}
    (h : ¬ p.Declares sectionType id) :
    (s.next sectionType p).definitions.get? id
      = if p.deleted? = some id then
          (s.definitions.get? id).map fun d => { d with deletedAtOrder := some p.order }
        else s.definitions.get? id := by
  cases hdeleted : p.deleted? with
  | some target => simp only [PlanState.next_of_deleted hdeleted, PlanState.get?_delete,
      Option.some.injEq]
  | none =>
    rw [if_neg (by simp)]
    match hdeclared : p.declared sectionType with
    | [] => rw [PlanState.next_of_neither hdeleted hdeclared]
    | d :: ds =>
      have hmem : d ∈ p.declared sectionType := by rw [hdeclared]; exact List.mem_cons_self
      have hne : d.definitionId ≠ id := fun hid => h ⟨d, hmem, hid⟩
      rw [PlanState.next_of_declared hmem, Dict.get?_set_of_ne hne]

/-- The entry of a constant after commands none of which declares it. -/
theorem PlanState.get?_after {s : PlanState} {steps : List PlanStep} {id : String}
    {d : PlannedDefinition} (h : ∀ p ∈ steps, ¬ p.Declares sectionType id)
    (hget : s.definitions.get? id = some d) :
    ∃ m, (s.after sectionType steps).definitions.get? id = some { d with deletedAtOrder := m } ∧
      (m = d.deletedAtOrder ∨ ∃ p ∈ steps, p.deleted? = some id ∧ m = some p.order) := by
  induction steps generalizing s d with
  | nil => exact ⟨d.deletedAtOrder, hget, .inl rfl⟩
  | cons p steps ih =>
    obtain ⟨hp, hsteps⟩ := List.forall_mem_cons.1 h
    have hnext := PlanState.get?_next (s := s) hp
    rw [PlanState.after_cons]
    by_cases hdeleted : p.deleted? = some id
    · rw [if_pos hdeleted, hget, Option.map_some] at hnext
      obtain ⟨m, hm, hfrom⟩ := ih hsteps hnext
      refine ⟨m, hm, .inr ?_⟩
      rcases hfrom with rfl | ⟨q, hq, hqdeleted, rfl⟩
      · exact ⟨p, List.mem_cons_self, hdeleted, rfl⟩
      · exact ⟨q, List.mem_cons_of_mem _ hq, hqdeleted, rfl⟩
    · rw [if_neg hdeleted, hget] at hnext
      obtain ⟨m, hm, hfrom⟩ := ih hsteps hnext
      refine ⟨m, hm, hfrom.imp_right ?_⟩
      rintro ⟨q, hq, hqdeleted, rfl⟩
      exact ⟨q, List.mem_cons_of_mem _ hq, hqdeleted, rfl⟩

/-- The list to store is what the commands declare. -/
theorem PlanState.planned_next (s : PlanState) (p : PlanStep) :
    (s.next sectionType p).planned = s.planned ++ p.declared sectionType := by
  cases hdeleted : p.deleted? with
  | some target =>
    rw [PlanState.next_of_deleted hdeleted, PlanStep.declared_of_deleted hdeleted,
      List.append_nil, PlanState.delete]
  | none =>
    cases hdeclared : p.declared sectionType with
    | nil => rw [PlanState.next_of_neither hdeleted hdeclared, List.append_nil]
    | cons d ds =>
      have hmem : d ∈ p.declared sectionType := by rw [hdeclared]; exact List.mem_cons_self
      rw [PlanState.next_of_declared hmem, ← hdeclared, PlanStep.declared_eq hmem]

/-- **The list to store is what the commands declare, in their order.** -/
theorem PlanState.planned_after (s : PlanState) (steps : List PlanStep) :
    (s.after sectionType steps).planned
      = s.planned ++ steps.flatMap fun p => p.declared sectionType := by
  induction steps generalizing s with
  | nil => rw [PlanState.after_nil, List.flatMap_nil, List.append_nil]
  | cons p steps ih =>
    rw [PlanState.after_cons, ih, PlanState.planned_next, List.flatMap_cons, List.append_assoc]

end Entry

/-! ### Deletions and the definitions to store -/

/-- A definition that both of what is returned have. -/
def PlanState.Agrees (s : PlanState) (d : PlannedDefinition) : Prop :=
  d ∈ s.planned ∧ s.definitions.get? d.definitionId = some d

/-- The list to store and the map both have what is declared, with the order of the later
command that deletes it, or with none. -/
def DeletionsStored (sectionType : SectionType) (steps : List PlanStep) (s : PlanState) : Prop :=
  ∀ before p after, steps = before ++ p :: after → ∀ d ∈ p.declared sectionType,
    (∀ q ∈ after, q.deleted? = some d.definitionId →
        s.Agrees { d with deletedAtOrder := some q.order }) ∧
      ((∀ q ∈ after, q.deleted? ≠ some d.definitionId) → s.Agrees d)

/-- No constant is deleted or declared again by a command after the one that declares it. -/
def DeclaredForGood (sectionType : SectionType) (steps : List PlanStep) : Prop :=
  ∀ before p after, steps = before ++ p :: after → ∀ d ∈ p.declared sectionType, ∀ q ∈ after,
    q.deleted? ≠ some d.definitionId ∧ ¬ q.Declares sectionType d.definitionId

section Stored

variable {sectionType : SectionType} {initialVisible : Dict String PlannedDefinition}
  {steps : List PlanStep}

theorem planned_start : (planStart initialVisible).planned = [] := rfl

/-- The records of the list to store have no deletion. -/
theorem deletedAtOrder_of_mem_planned {d : PlannedDefinition}
    (h : d ∈ ((planStart initialVisible).after sectionType steps).planned) :
    d.deletedAtOrder = none := by
  rw [PlanState.planned_after, planned_start, List.nil_append] at h
  obtain ⟨p, -, hd⟩ := List.mem_flatMap.1 h
  exact (PlanStep.of_mem_declared hd).2

/-- The entry of a constant from the command that declares it last on. -/
theorem get?_after_declared {s : PlanState} {before after : List PlanStep} {p : PlanStep}
    {d : PlannedDefinition} (hd : d ∈ p.declared sectionType)
    (hlast : ∀ q ∈ after, ¬ q.Declares sectionType d.definitionId)
    (hkept : ∀ q ∈ after, q.deleted? ≠ some d.definitionId) :
    (s.after sectionType (before ++ p :: after)).definitions.get? d.definitionId = some d := by
  have hwritten := PlanState.get?_next_of_declared (s := s.after sectionType before) hd
  obtain ⟨m, hm, hfrom⟩ := PlanState.get?_after hlast hwritten
  rw [PlanState.after_append, PlanState.after_cons, hm]
  rcases hfrom with rfl | ⟨q, hq, hdeleted, -⟩
  · rfl
  · exact absurd hdeleted (hkept q hq)

/-- A constant that is declared again, before it is deleted, has got another name or scope. -/
theorem slot_ne_of_declared_again {s : PlanState} {before middle after : List PlanStep}
    {p q : PlanStep} {d d' : PlannedDefinition}
    (hok : StepsOk sectionType s (before ++ p :: middle ++ q :: after))
    (hsorted : p.order ≤ q.order) (hd : d ∈ p.declared sectionType)
    (hd' : d' ∈ q.declared sectionType)
    (hlast : ∀ r ∈ middle, ¬ r.Declares sectionType d.definitionId)
    (hkept : ∀ r ∈ middle, r.deleted? ≠ some d.definitionId) :
    ¬ (d.name = d'.name ∧ d.contextScope = d'.contextScope) := by
  have hentry : (s.after sectionType (before ++ p :: middle)).definitions.get? d.definitionId
      = some d := get?_after_declared hd hlast hkept
  have hdeclarable := hok.stepOk.declarations d' hd'
  refine hdeclarable.unused (d.definitionId, d) (List.mem_filter.2 ⟨Dict.mem_of_get? hentry, ?_⟩)
  obtain ⟨horder, hdeleted⟩ := PlanStep.of_mem_declared hd
  have hle : d.commandOrder ≤ q.order := by omega
  rw [decide_eq_true_eq]
  refine ⟨mem_allScopes _, ?_, ?_⟩
  · exact Int.lt_add_one_of_le hle
  · simp [hdeleted]

/-- **The list to store and the map agree just where no constant of the list is deleted
or declared again in it.** -/
theorem deletionsStored_iff {raws : List RawCommand} {s : PlanState}
    (h : planDefinitionsForCommands raws sectionType initialVisible = .ok s) :
    DeletionsStored sectionType (planSteps raws) s
      ↔ DeclaredForGood sectionType (planSteps raws) := by
  obtain ⟨hok, rfl⟩ := plan_ok h
  constructor
  · intro hstored
    -- a deletion would have to show in the list to store
    have hkept : ∀ before p after, planSteps raws = before ++ p :: after →
        ∀ d ∈ p.declared sectionType, ∀ q ∈ after, q.deleted? ≠ some d.definitionId := by
      intro before p after hsteps d hd q hq hdeleted
      have hagrees := (hstored before p after hsteps d hd).1 q hq hdeleted
      have hnone := deletedAtOrder_of_mem_planned hagrees.1
      simp at hnone
    intro before p after hsteps d hd q hq
    refine ⟨hkept before p after hsteps d hd q hq, ?_⟩
    intro hagain
    -- the last command that declares the constant, and the last but one
    obtain ⟨done, last, rest, hlastSplit, ⟨d₂, hd₂, hid₂⟩, hrest⟩ :=
      exists_last (p := fun r => r.Declares sectionType d.definitionId) ⟨q, hq, hagain⟩
    obtain ⟨first, p₁, middle, hfirstSplit, ⟨d₁, hd₁, hid₁⟩, hmiddle⟩ :=
      @exists_last _ (fun r => r.Declares sectionType d.definitionId) (before ++ p :: done)
        ⟨p, by simp, d, hd, rfl⟩
    have hsplit : planSteps raws = first ++ p₁ :: (middle ++ last :: rest) := by
      rw [hsteps, hlastSplit, ← List.cons_append, ← List.append_assoc, hfirstSplit]
      simp
    have hkept₁ := hkept first p₁ _ hsplit d₁ hd₁
    have hagrees := (hstored first p₁ _ hsplit d₁ hd₁).2 hkept₁
    have hle : p₁.order ≤ last.order := by
      have hsorted := planSteps_sorted raws
      rw [hsplit, List.pairwise_append] at hsorted
      exact (List.pairwise_cons.1 hsorted.2.1).1 last (by simp)
    have hsplit' : planSteps raws = first ++ p₁ :: middle ++ last :: rest := by
      rw [hsplit, List.append_assoc, List.cons_append]
    rw [← hid₁] at hmiddle
    rw [← hid₂] at hrest
    rw [hsplit'] at hok hagrees
    have hslot := slot_ne_of_declared_again hok hle hd₁ hd₂ hmiddle
      (fun r hr => hkept₁ r (List.mem_append_left _ hr))
    have hfinal : ((planStart initialVisible).after sectionType
        (first ++ p₁ :: middle ++ last :: rest)).definitions.get? d₂.definitionId = some d₂ := by
      refine get?_after_declared hd₂ hrest fun r hr => ?_
      rw [hid₂, ← hid₁]
      exact hkept₁ r (List.mem_append_right _ (List.mem_cons_of_mem _ hr))
    have hentry := hagrees.2
    rw [hid₁, ← hid₂, hfinal] at hentry
    obtain rfl := Option.some.inj hentry
    exact hslot ⟨rfl, rfl⟩
  · intro hgood before p after hsteps d hd
    have hlater := hgood before p after hsteps d hd
    refine ⟨fun q hq hdeleted => absurd hdeleted (hlater q hq).1, fun _ => ⟨?_, ?_⟩⟩
    · rw [PlanState.planned_after, planned_start, List.nil_append, hsteps]
      exact List.mem_flatMap.2 ⟨p, by simp, hd⟩
    · rw [hsteps]
      exact get?_after_declared hd (fun q hq => (hlater q hq).2) (fun q hq => (hlater q hq).1)

end Stored

/-! ### Two constants in one place -/

/-- Where a constant is kept: its name and its scope. -/
def PlannedDefinition.slot (d : PlannedDefinition) : String × ConstantContext :=
  (d.name, d.contextScope)

/-- The constants in force at an order have places of their own. -/
def SlotsDistinct (definitions : Dict String PlannedDefinition) (order : ℤ) : Prop :=
  ((activeDefinitions definitions allScopes order).map fun kv => kv.2.slot).Nodup

/-- A definition that was carried over and one that a command of negative order declares
have one place, and both are there at order one. -/
structure Overlooked (sectionType : SectionType) (carried : Dict String PlannedDefinition)
    (before : List PlanStep) (p : PlanStep) (after : List PlanStep) (id : String)
    (c d : PlannedDefinition) : Prop where
  carried_eq : carried.get? id = some c
  mem_declared : d ∈ p.declared sectionType
  order_neg : p.order < 0
  slot_eq : c.slot = d.slot
  /-- The first is not declared again, nor deleted before order two. -/
  first_kept : ∀ q ∈ before ++ p :: after, ¬ q.Declares sectionType id ∧
    (q.deleted? = some id → 1 < q.order)
  /-- Nor is the second. -/
  second_kept : ∀ q ∈ after, ¬ q.Declares sectionType d.definitionId ∧
    (q.deleted? = some d.definitionId → 1 < q.order)

section Slots

variable {sectionType : SectionType} {initialVisible : Dict String PlannedDefinition}

/-- What is carried over has order zero and is not deleted. -/
theorem of_get?_carryOver {id : String} {c : PlannedDefinition}
    (h : (carryOverVisibleMap initialVisible).get? id = some c) :
    c.commandOrder = 0 ∧ c.deletedAtOrder = none := by
  obtain ⟨kv, hkv, heq⟩ := List.mem_map.1 (Dict.mem_of_get? h)
  have hlive := (List.mem_filter.1 hkv).2
  obtain ⟨-, rfl⟩ := Prod.mk.inj heq
  exact ⟨rfl, of_decide_eq_true hlive⟩

theorem nodup_keys_carryOver (h : initialVisible.keys.Nodup) :
    (carryOverVisibleMap initialVisible).keys.Nodup := by
  have hkeys : (carryOverVisibleMap initialVisible).keys
      = (initialVisible.filter fun kv => kv.2.deletedAtOrder = none).map Prod.fst := by
    simp only [carryOverVisibleMap, Dict.keys, List.map_map]
    rfl
  rw [hkeys]
  exact (List.filter_sublist.map Prod.fst).nodup h

theorem nodup_keys_next {s : PlanState} (h : s.definitions.keys.Nodup) (p : PlanStep) :
    (s.next sectionType p).definitions.keys.Nodup := by
  cases hdeleted : p.deleted? with
  | some target =>
    rw [PlanState.next_of_deleted hdeleted, PlanState.delete]
    split
    · exact h
    · exact Dict.nodup_keys_set h _ _
  | none =>
    cases hdeclared : p.declared sectionType with
    | nil => rwa [PlanState.next_of_neither hdeleted hdeclared]
    | cons d ds =>
      have hmem : d ∈ p.declared sectionType := by rw [hdeclared]; exact List.mem_cons_self
      rw [PlanState.next_of_declared hmem]
      exact Dict.nodup_keys_set h _ _

theorem nodup_keys_after {s : PlanState} (h : s.definitions.keys.Nodup) (steps : List PlanStep) :
    (s.after sectionType steps).definitions.keys.Nodup := by
  induction steps generalizing s with
  | nil => rwa [PlanState.after_nil]
  | cons p steps ih =>
    rw [PlanState.after_cons]
    exact ih (nodup_keys_next h p)

/-- A command that deletes a constant finds it in force. -/
theorem StepOk.active_of_deleted {s : PlanState} {p : PlanStep} {id : String}
    {d : PlannedDefinition} (h : StepOk sectionType s p.command p.cfg)
    (hkeys : s.definitions.keys.Nodup) (hdeleted : p.deleted? = some id)
    (hget : s.definitions.get? id = some d) :
    d.ActiveAt (readableScopes sectionType) p.order := by
  have href : (RefRole.target, id) ∈ definitionRefs p.cfg := by
    unfold PlanStep.deleted? at hdeleted
    cases hcfg : p.cfg <;> rw [hcfg] at hdeleted <;> simp [deletedTarget?] at hdeleted
    simp [definitionRefs, hdeleted]
  obtain ⟨d', hok⟩ := h.refs _ href
  obtain ⟨hmem, hactive⟩ := mem_of_get?_activeDefinitions hok.visible
  have hget' := Dict.get?_of_mem hkeys hmem
  rw [hget] at hget'
  obtain rfl := Option.some.inj hget'
  exact hactive

/-- Where an entry of the map is from: what it was when it was written, by the last of some
commands or before all of them, and what became of it. -/
structure EntryFrom (sectionType : SectionType) (start : PlanState) (done rest : List PlanStep)
    (id : String) (e d : PlannedDefinition) : Prop where
  written : (start.after sectionType done).definitions.get? id = some e
  live : e.deletedAtOrder = none
  source : done = [] ∨
    ∃ before p, done = before ++ [p] ∧ e ∈ p.declared sectionType ∧ e.definitionId = id
  kept : ∀ q ∈ rest, ¬ q.Declares sectionType id
  deleted : ∀ q ∈ rest, q.deleted? = some id → d.deletedAtOrder = some q.order
  eq : d = { e with deletedAtOrder := d.deletedAtOrder }

theorem EntryFrom.slot_eq {start : PlanState} {done rest : List PlanStep} {id : String}
    {e d : PlannedDefinition} (h : EntryFrom sectionType start done rest id e d) :
    d.slot = e.slot ∧ d.commandOrder = e.commandOrder := by
  rw [h.eq]
  exact ⟨rfl, rfl⟩

/-- Every entry of the map is from somewhere. -/
theorem exists_entryFrom {start : PlanState} {steps : List PlanStep}
    (hlive : ∀ id e, start.definitions.get? id = some e → e.deletedAtOrder = none)
    (hkeys : start.definitions.keys.Nodup) (hok : StepsOk sectionType start steps)
    (hsorted : steps.Pairwise fun p q => p.order ≤ q.order) {id : String} {d : PlannedDefinition}
    (hget : (start.after sectionType steps).definitions.get? id = some d) :
    ∃ done rest e, steps = done ++ rest ∧ EntryFrom sectionType start done rest id e d := by
  induction steps using List.reverseRecOn generalizing d with
  | nil => exact ⟨[], [], d, rfl, hget, hlive id d hget, .inl rfl, by simp, by simp, rfl⟩
  | append_singleton steps p ih =>
    obtain ⟨hokSteps, hokLast, -⟩ := stepsOk_append.1 hok
    have hsortedSteps := (List.pairwise_append.1 hsorted).1
    have hle : ∀ q ∈ steps, q.order ≤ p.order := fun q hq =>
      (List.pairwise_append.1 hsorted).2.2 q hq p (by simp)
    rw [PlanState.after_append, PlanState.after_cons, PlanState.after_nil] at hget
    by_cases hdeclares : p.Declares sectionType id
    · obtain ⟨d', hd', rfl⟩ := hdeclares
      rw [PlanState.get?_next_of_declared hd'] at hget
      obtain rfl := Option.some.inj hget
      refine ⟨steps ++ [p], [], d', by simp, ?_, (PlanStep.of_mem_declared hd').2,
        .inr ⟨steps, p, rfl, hd', rfl⟩, by simp, by simp, rfl⟩
      rw [PlanState.after_append, PlanState.after_cons, PlanState.after_nil,
        PlanState.get?_next_of_declared hd']
    · rw [PlanState.get?_next hdeclares] at hget
      by_cases hdeleted : p.deleted? = some id
      · rw [if_pos hdeleted] at hget
        obtain ⟨d', hget', rfl⟩ := Option.map_eq_some_iff.1 hget
        obtain ⟨done, rest, e, rfl, hentry⟩ := ih hokSteps hsortedSteps hget'
        refine ⟨done, rest ++ [p], e, by simp, hentry.written, hentry.live, hentry.source, ?_, ?_,
          ?_⟩
        · exact List.forall_mem_append.2 ⟨hentry.kept, List.forall_mem_singleton.2 hdeclares⟩
        · intro q hq hqdeleted
          rcases List.mem_append.1 hq with hq | hq
          · -- a constant that has been deleted cannot be deleted again
            have hactive := hokLast.active_of_deleted (nodup_keys_after hkeys _) hdeleted hget'
            have hgone := hentry.deleted q hq hqdeleted
            have hlt := hactive.2.2 q.order (by rw [hgone]; rfl)
            have := hle q (List.mem_append_right _ hq)
            omega
          · rw [List.mem_singleton.1 hq]
        · rw [hentry.eq]
      · rw [if_neg hdeleted] at hget
        obtain ⟨done, rest, e, rfl, hentry⟩ := ih hokSteps hsortedSteps hget
        refine ⟨done, rest ++ [p], e, by simp, hentry.written, hentry.live, hentry.source, ?_, ?_,
          hentry.eq⟩
        · exact List.forall_mem_append.2 ⟨hentry.kept, List.forall_mem_singleton.2 hdeclares⟩
        · intro q hq hqdeleted
          rcases List.mem_append.1 hq with hq | hq
          · exact hentry.deleted q hq hqdeleted
          · rw [List.mem_singleton.1 hq] at hqdeleted
            exact absurd hqdeleted hdeleted

/-- A constant is declared in the place of another only where that one is deleted by then,
or carried over and the command of negative order. -/
theorem EntryFrom.declared_later {start : PlanState} {done middle after : List PlanStep}
    {p : PlanStep} {id : String} {e d d' : PlannedDefinition}
    (h : EntryFrom sectionType start done (middle ++ p :: after) id e d)
    (hok : StepsOk sectionType start (done ++ middle ++ p :: after))
    (hsorted : (done ++ middle ++ p :: after).Pairwise fun p q => p.order ≤ q.order)
    (hd' : d' ∈ p.declared sectionType) (hslot : d.slot = d'.slot) :
    (∃ n ∈ d.deletedAtOrder, n ≤ p.order) ∨ p.order < e.commandOrder := by
  have hkept : ∀ q ∈ middle, ¬ q.Declares sectionType id := fun q hq =>
    h.kept q (List.mem_append_left _ hq)
  obtain ⟨m, hentry, hfrom⟩ := PlanState.get?_after hkept h.written
  rw [← PlanState.after_append] at hentry
  rcases hfrom with rfl | ⟨q, hq, hdeleted, rfl⟩
  · right
    by_contra hle
    have hunused := (hok.stepOk.declarations d' hd').unused _
      (List.mem_filter.2 ⟨Dict.mem_of_get? hentry, ?_⟩)
    · have hslot' : e.slot = d'.slot := by rw [← h.slot_eq.1, hslot]
      obtain ⟨hname, hscope⟩ := Prod.mk.inj hslot'
      exact hunused ⟨hname, hscope⟩
    · rw [decide_eq_true_eq]
      refine ⟨mem_allScopes _, ?_, ?_⟩
      · exact Int.lt_add_one_of_le (not_lt.1 hle)
      · simp [h.live]
  · left
    refine ⟨q.order, ?_, ?_⟩
    · rw [h.deleted q (List.mem_append_left _ hq) hdeleted]
      rfl
    · exact (List.pairwise_append.1 hsorted).2.2 q (List.mem_append_right _ hq) p (by simp)

theorem mem_activeDefinitions {definitions : Dict String PlannedDefinition} {order : ℤ}
    {kv : String × PlannedDefinition} :
    kv ∈ activeDefinitions definitions allScopes order
      ↔ kv ∈ definitions ∧ kv.2.ActiveAt allScopes order := by
  rw [activeDefinitions, List.mem_filter, decide_eq_true_eq]

/-- Two constants in force in one place, one written no later than the other: a command of
negative order has taken the place of what was carried over. -/
theorem overlooked_of_active {steps done middle rest : List PlanStep} {id id' : String}
    {e d e' d' : PlannedDefinition} {order : ℤ}
    (hclear : ((carryOverVisibleMap initialVisible).map fun kv => kv.2.slot).Nodup)
    (hok : StepsOk sectionType (planStart initialVisible) (done ++ middle ++ rest))
    (hsorted : (done ++ middle ++ rest).Pairwise fun p q => p.order ≤ q.order)
    (hsteps : steps = done ++ middle ++ rest)
    (h : EntryFrom sectionType (planStart initialVisible) done (middle ++ rest) id e d)
    (h' : EntryFrom sectionType (planStart initialVisible) (done ++ middle) rest id' e' d')
    (hne : id ≠ id') (hslot : d.slot = d'.slot) (hactive : d.ActiveAt allScopes order)
    (hactive' : d'.ActiveAt allScopes order) :
    ∃ before p after id c d, steps = before ++ p :: after ∧
      Overlooked sectionType (carryOverVisibleMap initialVisible) before p after id c d := by
  have hslots : e.slot = e'.slot := by rw [← h.slot_eq.1, hslot, h'.slot_eq.1]
  rcases h'.source with hnil | ⟨before, p, hdone, he', hid'⟩
  · -- both were carried over
    obtain ⟨rfl, rfl⟩ := List.append_eq_nil_iff.1 hnil
    have hmem := Dict.mem_of_get? h.written
    have hmem' := Dict.mem_of_get? h'.written
    exact absurd (Prod.mk.inj (List.inj_on_of_nodup_map hclear hmem hmem' hslots)).1 hne
  · obtain ⟨horder', -⟩ := PlanStep.of_mem_declared he'
    have horder : p.order < order := by
      have := hactive'.2.1
      rw [h'.slot_eq.2] at this
      omega
    rcases List.eq_nil_or_concat middle with rfl | ⟨middle', q, rfl⟩
    · -- one command would have declared both
      rw [List.append_nil] at hdone
      rcases h.source with rfl | ⟨before₁, p₁, hdone₁, he, hid⟩
      · simp at hdone
      · obtain ⟨-, hp⟩ := List.append_inj' (hdone₁.symm.trans hdone) rfl
        rw [List.singleton_inj] at hp
        subst hp
        rw [PlanStep.declared_eq he', List.mem_singleton] at he
        exact absurd (by rw [← hid, ← hid', he]) hne
    · simp only [List.concat_eq_append] at hok hsorted hsteps h h' hdone
      rw [← List.append_assoc] at hdone
      obtain ⟨rfl, hq⟩ := List.append_inj' hdone rfl
      rw [List.singleton_inj] at hq
      subst hq
      have hassoc : done ++ (middle' ++ [q]) ++ rest = done ++ middle' ++ q :: rest := by simp
      have hassoc' : middle' ++ [q] ++ rest = middle' ++ q :: rest := by simp
      rw [hassoc] at hok hsorted hsteps
      rw [hassoc'] at h
      rcases h.declared_later hok hsorted he' (hslot.trans h'.slot_eq.1) with
        ⟨n, hn, hle⟩ | hlt
      · have := hactive.2.2 n hn
        omega
      · rcases h.source with rfl | ⟨before₁, p₁, rfl, he, -⟩
        · obtain ⟨hzero, -⟩ := of_get?_carryOver h.written
          have hpos : 0 < order := by
            have := hactive.2.1
            rw [h.slot_eq.2, hzero] at this
            exact this
          refine ⟨middle', q, rest, id, e, e', by simpa using hsteps, h.written, he', by omega,
            hslots, ?_, ?_⟩
          · intro r hr
            refine ⟨h.kept r hr, fun hdeleted => ?_⟩
            have := hactive.2.2 r.order (by rw [h.deleted r hr hdeleted]; rfl)
            omega
          · intro r hr
            rw [hid']
            refine ⟨h'.kept r hr, fun hdeleted => ?_⟩
            have := hactive'.2.2 r.order (by rw [h'.deleted r hr hdeleted]; rfl)
            omega
        · obtain ⟨horder₁, -⟩ := PlanStep.of_mem_declared he
          have := (List.pairwise_append.1 hsorted).2.2 p₁ (by simp) q (by simp)
          omega

/-- What is overlooked is in force at order one, in one place. -/
theorem Overlooked.not_slotsDistinct {before after : List PlanStep} {p : PlanStep} {id : String}
    {c d : PlannedDefinition}
    (h : Overlooked sectionType (carryOverVisibleMap initialVisible) before p after id c d) :
    ¬ SlotsDistinct ((planStart initialVisible).after sectionType
      (before ++ p :: after)).definitions 1 := by
  intro hdistinct
  obtain ⟨hzero, hlive⟩ := of_get?_carryOver h.carried_eq
  obtain ⟨horder, hdeclaredLive⟩ := PlanStep.of_mem_declared h.mem_declared
  -- the entry of what was carried over, and that of what is declared
  have hstart : (planStart initialVisible).definitions.get? id = some c := h.carried_eq
  obtain ⟨m, hfirst, hfrom⟩ := PlanState.get?_after (fun q hq => (h.first_kept q hq).1) hstart
  have hwritten : (((planStart initialVisible).after sectionType before).next sectionType
      p).definitions.get? d.definitionId = some d := PlanState.get?_next_of_declared h.mem_declared
  obtain ⟨m', hsecond, hfrom'⟩ :=
    PlanState.get?_after (fun q hq => (h.second_kept q hq).1) hwritten
  rw [← PlanState.after_cons, ← PlanState.after_append] at hsecond
  have hm : ∀ n ∈ m, 1 < n := by
    rcases hfrom with rfl | ⟨q, hq, hdeleted, rfl⟩
    · simp [hlive]
    · rintro n ⟨⟩
      exact (h.first_kept q hq).2 hdeleted
  have hm' : ∀ n ∈ m', 1 < n := by
    rcases hfrom' with rfl | ⟨q, hq, hdeleted, rfl⟩
    · simp [hdeclaredLive]
    · rintro n ⟨⟩
      exact (h.second_kept q hq).2 hdeleted
  have hmem := mem_activeDefinitions.2 ⟨Dict.mem_of_get? hfirst, mem_allScopes _, by
    simp only
    omega, hm⟩
  have hneg := h.order_neg
  have hmem' := mem_activeDefinitions.2 ⟨Dict.mem_of_get? hsecond, mem_allScopes _, by
    simp only
    omega, hm'⟩
  have hitems := List.inj_on_of_nodup_map hdistinct hmem hmem' h.slot_eq
  exact (h.first_kept p (by simp)).1 ⟨d, h.mem_declared, (Prod.mk.inj hitems).1.symm⟩

/-- **No two constants in force share a name and a scope, just where no command of negative
order takes the place of a constant that was carried over.** -/
theorem slotsDistinct_iff {raws : List RawCommand} {s : PlanState}
    (hkeys : initialVisible.keys.Nodup)
    (hclear : ((carryOverVisibleMap initialVisible).map fun kv => kv.2.slot).Nodup)
    (h : planDefinitionsForCommands raws sectionType initialVisible = .ok s) :
    (∀ order, SlotsDistinct s.definitions order)
      ↔ ∀ before p after id c d, planSteps raws = before ++ p :: after →
          ¬ Overlooked sectionType (carryOverVisibleMap initialVisible) before p after id c d := by
  obtain ⟨hok, rfl⟩ := plan_ok h
  have hsorted := planSteps_sorted raws
  constructor
  · intro hdistinct before p after id c d hsteps hoverlooked
    rw [hsteps] at hdistinct
    exact hoverlooked.not_slotsDistinct (hdistinct 1)
  · intro hnone order
    have hstart : (planStart initialVisible).definitions.keys.Nodup := nodup_keys_carryOver hkeys
    have hnodup : ((planStart initialVisible).after sectionType
        (planSteps raws)).definitions.keys.Nodup := nodup_keys_after hstart _
    have hitems : ((planStart initialVisible).after sectionType
        (planSteps raws)).definitions.Nodup := List.Nodup.of_map _ hnodup
    refine List.Nodup.map_on ?_ (hitems.filter _)
    rintro ⟨id, d⟩ hmem ⟨id', d'⟩ hmem' hslot
    obtain ⟨hmem, hactive⟩ := mem_activeDefinitions.1 hmem
    obtain ⟨hmem', hactive'⟩ := mem_activeDefinitions.1 hmem'
    have hget := Dict.get?_of_mem hnodup hmem
    have hget' := Dict.get?_of_mem hnodup hmem'
    by_cases hne : id = id'
    · subst hne
      rw [hget] at hget'
      rw [Option.some.inj hget']
    · exfalso
      have hlive : ∀ id e, (planStart initialVisible).definitions.get? id = some e →
          e.deletedAtOrder = none := fun id e hid => (of_get?_carryOver hid).2
      obtain ⟨done, rest, e, hsplit, hentry⟩ := exists_entryFrom hlive hstart hok hsorted hget
      obtain ⟨done', rest', e', hsplit', hentry'⟩ := exists_entryFrom hlive hstart hok hsorted hget'
      rcases List.append_eq_append_iff.1 (hsplit.symm.trans hsplit') with
        ⟨middle, rfl, rfl⟩ | ⟨middle, rfl, rfl⟩
      · rw [hsplit'] at hok hsorted
        obtain ⟨before, p, after, id₁, c, d₁, hsteps, hoverlooked⟩ :=
          overlooked_of_active hclear hok hsorted hsplit' hentry hentry' hne hslot hactive hactive'
        exact hnone before p after id₁ c d₁ hsteps hoverlooked
      · rw [hsplit] at hok hsorted
        obtain ⟨before, p, after, id₁, c, d₁, hsteps, hoverlooked⟩ :=
          overlooked_of_active hclear hok hsorted hsplit hentry' hentry (Ne.symm hne) hslot.symm
            hactive' hactive
        exact hnone before p after id₁ c d₁ hsteps hoverlooked

end Slots

/-! ### A constant set and deleted -/

/-- A command that sets a local constant. -/
def setLocal (id name : String) (order : ℤ) : RawCommand where
  id := id
  order := order
  cfg := [("commandCode", .str "setVariable"), ("definitionId", .str id), ("name", .str name),
    ("context", .str "local"), ("value", .str "10")]

/-- A command that deletes a constant. -/
def deleteConstant (id : String) (order : ℤ) : RawCommand where
  id := "delete " ++ id
  order := order
  cfg := [("commandCode", .str "deleteVariable"),
    ("targetRuntimeValueRef", .obj [("definitionId", .str id)])]

/-- The definition of a local constant. -/
def localDefinition (id name : String) (order : ℤ) : PlannedDefinition where
  definitionId := id
  commandId := id
  commandOrder := order
  sectionType := .test
  name := name
  contextScope := .localScope
  valueType := .value
  deletedAtOrder := none

/-- What the planner looks at in a command, besides its references. -/
def PlanStep.view (sectionType : SectionType) (p : PlanStep) :
    ℤ × Option String × List PlannedDefinition :=
  (p.order, p.deleted?, p.declared sectionType)

/-- **A constant that is set and then deleted is stored without its deletion.** -/
theorem deletion_not_stored :
    planDefinitionsForCommands [setLocal "total" "total" 1, deleteConstant "total" 2] .test []
        = .ok { definitions := [("total", { localDefinition "total" "total" 1 with
                  deletedAtOrder := some 2 })]
                planned := [localDefinition "total" "total" 1] } ∧
      ¬ DeletionsStored .test
        (planSteps [setLocal "total" "total" 1, deleteConstant "total" 2])
        { definitions := [("total", { localDefinition "total" "total" 1 with
            deletedAtOrder := some 2 })]
          planned := [localDefinition "total" "total" 1] } := by
  refine ⟨by decide +kernel, ?_⟩
  intro hstored
  have hview : (planSteps [setLocal "total" "total" 1, deleteConstant "total" 2]).map
      (PlanStep.view .test)
        = [(1, none, [localDefinition "total" "total" 1]), (2, some "total", [])] := by
    decide +kernel
  obtain ⟨p, rest, hsteps, hp, hrest⟩ := List.map_eq_cons_iff.1 hview
  obtain ⟨q, rest', rfl, hq, -⟩ := List.map_eq_cons_iff.1 hrest
  obtain ⟨-, hdeclared⟩ := Prod.mk.inj (Prod.mk.inj hp).2
  obtain ⟨horder, hdeleted⟩ := Prod.mk.inj hq
  have hagrees := (hstored [] p (q :: rest') hsteps (localDefinition "total" "total" 1)
    (by rw [hdeclared]; exact List.mem_cons_self)).1 q List.mem_cons_self
    (Prod.mk.inj hdeleted).1
  have hplanned := List.mem_singleton.1 hagrees.1
  simp [localDefinition] at hplanned

/-- A constant that was visible before is deleted, and another one is set. -/
theorem deletionsStored_iff_total :
    DeletionsStored .test (planSteps [setLocal "sum" "sum" 1, deleteConstant "total" 2])
        { definitions := [("total", { localDefinition "total" "total" 0 with
            deletedAtOrder := some 2 }), ("sum", localDefinition "sum" "sum" 1)]
          planned := [localDefinition "sum" "sum" 1] }
      ↔ DeclaredForGood .test
          (planSteps [setLocal "sum" "sum" 1, deleteConstant "total" 2]) := by
  have hplan : planDefinitionsForCommands [setLocal "sum" "sum" 1, deleteConstant "total" 2] .test
      [("total", localDefinition "total" "total" 1)]
        = .ok { definitions := [("total", { localDefinition "total" "total" 0 with
                  deletedAtOrder := some 2 }), ("sum", localDefinition "sum" "sum" 1)]
                planned := [localDefinition "sum" "sum" 1] } := by
    decide +kernel
  exact deletionsStored_iff hplan

/-- **A command of negative order takes the place of a constant that was carried over.** -/
theorem slot_taken_twice :
    planDefinitionsForCommands [setLocal "again" "total" (-1)] .test
        [("total", localDefinition "total" "total" 1)]
      = .ok { definitions := [("total", localDefinition "total" "total" 0),
                ("again", localDefinition "again" "total" (-1))]
              planned := [localDefinition "again" "total" (-1)] } ∧
      ((carryOverVisibleMap [("total", localDefinition "total" "total" 1)]).map
        fun kv => kv.2.slot).Nodup ∧
      ¬ SlotsDistinct [("total", localDefinition "total" "total" 0),
        ("again", localDefinition "again" "total" (-1))] 1 := by
  refine ⟨by decide +kernel, by decide, ?_⟩
  unfold SlotsDistinct
  decide +kernel

theorem slotsDistinct_iff_sum :
    (∀ order, SlotsDistinct [("total", localDefinition "total" "total" 0),
        ("sum", localDefinition "sum" "sum" 1)] order)
      ↔ ∀ before p after id c d, planSteps [setLocal "sum" "sum" 1] = before ++ p :: after →
          ¬ Overlooked .test (carryOverVisibleMap [("total", localDefinition "total" "total" 1)])
            before p after id c d := by
  have hplan : planDefinitionsForCommands [setLocal "sum" "sum" 1] .test
      [("total", localDefinition "total" "total" 1)]
        = .ok { definitions := [("total", localDefinition "total" "total" 0),
                  ("sum", localDefinition "sum" "sum" 1)]
                planned := [localDefinition "sum" "sum" 1] } := by
    decide +kernel
  exact slotsDistinct_iff (by decide) (by decide) hplan

end Constants
end QualityFlow
