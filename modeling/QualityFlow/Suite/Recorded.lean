/-
# The record of what was done

What the computations of executors ask and do is recorded, action by action.  The record only
grows, what two computations do comes one after the other in it, and where every action that a
computation can come to has a property, those it has come to have it.
-/

import QualityFlow.Suite.Acting
import QualityFlow.Suite.Execute

namespace QualityFlow
namespace Suite

open Py Command Assert

namespace World

variable {outside : Outside} {w w₁ w' : World} {α β : Type}

theorem run_bind_eq_ok {x : Acting α} {f : α → Acting β} {b : β} :
    w.run outside (x >>= f) = (w', .ok b)
      ↔ ∃ w₁ a, w.run outside x = (w₁, .ok a) ∧ w₁.run outside (f a) = (w', .ok b) :=
  Asks.handle_bind_eq_ok

theorem run_pure_eq_ok {a b : α} :
    w.run outside (pure a) = (w', .ok b) ↔ w = w' ∧ a = b := by
  show ((w, Except.ok a) : World × Except String α) = _ ↔ _
  simp

/-- **What is kept at each action that a computation can come to, the computation keeps.** -/
theorem keeps_run {P : Action → Prop} {I : World → Prop} {x : Acting α} {r : Except String α}
    (h : x.Only P) (hanswer : ∀ s a, P a → I s → I (answer outside s a).1) (hw : I w)
    (hrun : w.run outside x = (w', r)) : I w' := by
  have hkeeps := h.keeps hanswer hw
  rwa [show (x.handle (answer outside) w).1 = w' from congrArg Prod.fst hrun] at hkeeps

/-- What has been asked and done stays in the record. -/
theorem record_of_run {x : Acting α} {r : Except String α} (h : w.run outside x = (w', r)) :
    w.record <+: w'.record :=
  keeps_run (I := fun s => w.record <+: s.record) (Asks.only_true x)
    (fun _ _ _ hs => hs.trans (List.prefix_append _ _)) List.prefix_rfl h

/-- What has been asked and done since. -/
def doneSince (w w' : World) : List ((a : Action) × a.Answer) := w'.record.drop w.record.length

theorem doneSince_self : w.doneSince w = [] := List.drop_length

/-- **What is done in two parts of a run comes one after the other.** -/
theorem doneSince_append (h₁ : w.record <+: w₁.record) (h₂ : w₁.record <+: w'.record) :
    w.doneSince w' = w.doneSince w₁ ++ w₁.doneSince w' := by
  obtain ⟨first, hfirst⟩ := h₁
  obtain ⟨second, hsecond⟩ := h₂
  unfold doneSince
  rw [← hsecond, ← hfirst, List.append_assoc, List.drop_left, List.drop_left,
    ← List.append_assoc, List.drop_left]

theorem record_answer (outside : Outside) (w : World) (a : Action) :
    (w.answer outside a).1.record = w.record ++ [⟨a, (w.answer outside a).2⟩] := rfl

theorem doneSince_answer (outside : Outside) (w : World) (a : Action) :
    w.doneSince (w.answer outside a).1 = [⟨a, (w.answer outside a).2⟩] := by
  rw [doneSince, record_answer, List.drop_left]

/-- **Where every action that a computation can come to has a property, so have those it has
come to.** -/
theorem forall_doneSince {P : Action → Prop} {x : Acting α} {r : Except String α} (h : x.Only P)
    (hrun : w.run outside x = (w', r)) : ∀ e ∈ w.doneSince w', P e.1 := by
  have hstep (s : World) (a : Action) (ha : P a)
      (hs : w.record <+: s.record ∧ ∀ e ∈ w.doneSince s, P e.1) :
      w.record <+: (s.answer outside a).1.record ∧
        ∀ e ∈ w.doneSince (s.answer outside a).1, P e.1 := by
    rw [doneSince, record_answer]
    refine ⟨hs.1.trans (List.prefix_append _ _), ?_⟩
    rw [List.drop_append_of_le_length hs.1.length_le, List.forall_mem_append]
    exact ⟨hs.2, by simpa using ha⟩
  exact (keeps_run h hstep ⟨List.prefix_rfl, by simp [doneSince_self]⟩ hrun).2

/-- An action that may raise. -/
theorem run_act (outside : Outside) (w : World) (a : Action) (h : a.Answer = Except String α) :
    w.run outside (act a h) = ((w.answer outside a).1, h ▸ (w.answer outside a).2) := by
  unfold run act
  rw [Asks.handle_ask, Asks.handle_ofExcept]

end World

/-! ### Only questions -/

section

variable {α : Type} {P : Action → Prop}

theorem only_reading (h : ∀ q, P (.read q)) (x : Reading α) : (reading x).Only P :=
  Asks.Only.within (fun q _ => Asks.only_question (h q)) (Asks.only_true x)

theorem only_act {a : Action} {h : a.Answer = Except String α} (ha : P a) : (act a h).Only P :=
  .ask ha fun _ => Asks.only_ofExcept _

end

/-! ### The commands of an item -/

/-- The executors on the context of a run; publishing an event leaves that as it is. -/
def Library.executors (library : Library) (outside : Outside)
    (published : World → CommandFinished → Except String Unit) : Executors World where
  executeOperation w operationId cfg data :=
    w.run outside (executeOperation library operationId data cfg)
  publishResult w event := (w, published w event)
  publishError w _ := w

/-- The commands of an item are run one after the other until one raises; one that is refused
by the policy has done nothing. -/
inductive Performed (library : Library) (outside : Outside) :
    World → List ConfigurationCommandDto → World → Bool → Prop where
  | done (w : World) : Performed library outside w [] w true
  | refused (w : World) (cfg : ConfigurationCommandDto) (cfgs : List ConfigurationCommandDto) :
      Performed library outside w (cfg :: cfgs) w false
  | raised {w w' : World} {operationId : String} {data : Json} {cfg : ConfigurationCommandDto}
      {r : Except String ExecutionResultDto}
      (run : w.run outside (executeOperation library operationId data cfg) = (w', r))
      (cfgs : List ConfigurationCommandDto) : Performed library outside w (cfg :: cfgs) w' false
  | returned {w w₁ w' : World} {operationId : String} {data : Json} {cfg : ConfigurationCommandDto}
      {cfgs : List ConfigurationCommandDto} {result : ExecutionResultDto} {all : Bool}
      (run : w.run outside (executeOperation library operationId data cfg) = (w₁, .ok result))
      (rest : Performed library outside w₁ cfgs w' all) :
      Performed library outside w (cfg :: cfgs) w' all

section

variable {library : Library} {outside : Outside}
  {published : World → CommandFinished → Except String Unit} {ids : ExecutionIds}
  {scope : Option ExecutionScope}

/-- Publishing leaves the context of the run as it is. -/
theorem publishFailure_library (w : World) (op : StoredOperation) (family : Option CommandType)
    (message : String) :
    publishFailure (library.executors outside published) ids scope w op family message = w := by
  unfold publishFailure
  split <;> rfl

theorem publishSuccess_library (w : World) (op : StoredOperation) (contract : OperationContract)
    (result : ExecutionResultDto) :
    ∃ r, publishSuccess (library.executors outside published) ids scope w op contract result
      = (w, r) := by
  unfold publishSuccess
  split
  · exact ⟨_, rfl⟩
  · exact ⟨_, rfl⟩

/-- One command: refused, or run. -/
theorem executeOne_library {s s' : ExecutionState World} {op : StoredOperation} {data : Json}
    {cfg : ConfigurationCommandDto} {r : Except String ExecutionResultDto}
    (hread : convertToConfigCommandType op.cfgJson = .ok cfg)
    (h : executeOne (library.executors outside published) ids scope s op data = (s', r)) :
    s'.env = s.env ∧ (∃ e, r = .error e) ∨
      ∃ r', s.env.run outside (executeOperation library op.id data cfg) = (s'.env, r') ∧
        ∀ result, r = .ok result → r' = .ok result := by
  unfold executeOne at h
  simp only [hread, runCommand] at h
  cases hpolicy : validateOperationPolicy cfg scope with
  | error e =>
    simp only [hpolicy, closeFailed, publishFailure_library, Prod.mk.injEq] at h
    obtain ⟨rfl, rfl⟩ := h
    exact .inl ⟨rfl, e, rfl⟩
  | ok contract =>
    refine .inr ?_
    have hrun : (library.executors outside published).executeOperation s.env op.id cfg data
        = s.env.run outside (executeOperation library op.id data cfg) := rfl
    rw [hpolicy] at h
    simp only [hrun] at h
    generalize s.env.run outside (executeOperation library op.id data cfg) = done at h ⊢
    obtain ⟨w, r'⟩ := done
    cases r' with
    | error e =>
      simp only [closeFailed, publishFailure_library, Prod.mk.injEq] at h
      obtain ⟨rfl, rfl⟩ := h
      exact ⟨_, rfl, fun result hresult => by cases hresult⟩
    | ok result =>
      obtain ⟨published', hpublished⟩ : ∃ r, publishSuccess (library.executors outside published)
          ids scope w op contract result = (w, r) := publishSuccess_library w op contract result
      simp only [hpublished] at h
      cases published' with
      | error e =>
        simp only [closeFailed, publishFailure_library, Prod.mk.injEq] at h
        obtain ⟨rfl, rfl⟩ := h
        exact ⟨_, rfl, fun result hresult => by cases hresult⟩
      | ok u =>
        simp only [Prod.mk.injEq] at h
        obtain ⟨rfl, rfl⟩ := h
        exact ⟨_, rfl, fun _ hresult => hresult⟩

theorem Performed.record {w w' : World} {cfgs : List ConfigurationCommandDto} {all : Bool}
    (h : Performed library outside w cfgs w' all) : w.record <+: w'.record := by
  induction h with
  | done w => exact List.prefix_rfl
  | refused w cfg cfgs => exact List.prefix_rfl
  | raised run cfgs => exact World.record_of_run run
  | returned run rest ih => exact (World.record_of_run run).trans ih

/-- **The commands that `execute_operations` runs.** -/
theorem performed_executeOperations {s s' : ExecutionState World}
    {operations : List StoredOperation} {cfgs : List ConfigurationCommandDto} {data : Json}
    {r : Except String ExecutionResultDto}
    (hread : List.Forall₂ (fun op cfg => convertToConfigCommandType op.cfgJson = .ok cfg)
      operations cfgs)
    (h : executeOperations (library.executors outside published) ids scope s operations data
      = (s', r)) :
    ∃ all, Performed library outside s.env cfgs s'.env all ∧
      ∀ result, r = .ok result → all = true := by
  unfold executeOperations at h
  generalize ({ data, result := [] } : ExecutionResultDto) = sofar at h
  induction hread generalizing s sofar with
  | nil =>
    simp only [executeFrom, Prod.mk.injEq] at h
    obtain ⟨rfl, rfl⟩ := h
    exact ⟨true, .done _, fun _ _ => rfl⟩
  | @cons op cfg operations cfgs hop hread ih =>
    rw [executeFrom] at h
    cases hone : executeOne (library.executors outside published) ids scope s op sofar.data with
    | mk s₁ r₁ =>
      rw [hone] at h
      cases r₁ with
      | error e =>
        simp only [Prod.mk.injEq] at h
        obtain ⟨rfl, rfl⟩ := h
        refine ⟨false, ?_, fun result hresult => by cases hresult⟩
        rcases executeOne_library hop hone with ⟨henv, -⟩ | ⟨r', hrun, -⟩
        · rw [henv]
          exact .refused _ _ _
        · exact .raised hrun _
      | ok new =>
        obtain ⟨all, hrest, hall⟩ := ih _ h
        refine ⟨all, ?_, hall⟩
        rcases executeOne_library hop hone with ⟨-, e, he⟩ | ⟨r', hrun, hreturned⟩
        · cases he
        · rw [hreturned new rfl] at hrun
          exact .returned hrun hrest

end

end Suite
end QualityFlow
