/-
# The steps of a run

Whatever a run has done so far, it has gone on by steps of four kinds: an item was executed,
progress was published, a variable of `_execute` was set, or a local context was made or
thrown away.  A property that every step keeps holds wherever the run ends.
-/

import Mathlib.Logic.Relation
import QualityFlow.Suite.Run

namespace QualityFlow
namespace Suite

open Py Command

variable {σ τ ρ : Type}

/-- One step of the run of a suite. -/
inductive RunStep (suite : LoadedSuite) (exec : ItemExecutor σ τ ρ) :
    RunState σ ρ → RunState σ ρ → Prop
  | item (s : RunState σ ρ) (item : SuiteItemEntity) (locals : τ)
      (visible : Dict String (List (String × Json))) (hitem : item ∈ suite.planned) :
      RunStep suite exec s (executeItem exec s item locals visible).1
  | progress (s : RunState σ ρ) (executedTests : ℕ) :
      RunStep suite exec s { s with
        executedTests
        events := s.events ++ [.suiteProgress executedTests suite.tests.length] }
  | assign (s : RunState σ ρ) (executionPosition : ℕ) (anyError : Bool)
      (firstErrorMessage : String) :
      RunStep suite exec s { s with executionPosition, anyError, firstErrorMessage }
  | newLocals (s : RunState σ ρ) : RunStep suite exec s { s with ctx := (exec.newLocals s.ctx).1 }
  | resetLocal (s : RunState σ ρ) : RunStep suite exec s { s with ctx := exec.resetLocal s.ctx }

/-- The steps of a run, one after the other. -/
def RunSteps (suite : LoadedSuite) (exec : ItemExecutor σ τ ρ) :
    RunState σ ρ → RunState σ ρ → Prop :=
  Relation.ReflTransGen (RunStep suite exec)

namespace RunSteps

variable {suite : LoadedSuite} {exec : ItemExecutor σ τ ρ} {s s' : RunState σ ρ}

/-- A property that every step keeps is kept by the run. -/
theorem keeps {P : RunState σ ρ → Prop} (h : RunSteps suite exec s s')
    (hstep : ∀ {a b}, RunStep suite exec a b → P a → P b) (hs : P s) : P s' := by
  induction h with
  | refl => exact hs
  | tail _ hlast ih => exact hstep hlast ih

theorem noteOutcome (outcome : Except String ρ) :
    RunSteps suite exec s (Suite.noteOutcome s outcome) := by
  cases outcome with
  | ok r => exact .refl
  | error e => exact .single (.assign s s.executionPosition true _)

theorem runItem {item : SuiteItemEntity} {locals : τ} {outcome : Except String ρ}
    (hitem : item ∈ suite.planned)
    (h : Suite.runItem suite exec s item locals = .ok (s', outcome)) :
    RunSteps suite exec s s' := by
  unfold Suite.runItem at h
  split at h
  · cases h
  · rename_i visible _
    obtain ⟨rfl, -⟩ := Prod.mk.inj (Except.ok.inj h)
    have hassign : RunStep suite exec s { s with executionPosition := s.executionPosition + 1 } :=
      .assign s (s.executionPosition + 1) s.anyError s.firstErrorMessage
    exact (Relation.ReflTransGen.single hassign).tail (.item _ item locals visible hitem)

theorem runHook {hook : Option SuiteItemEntity} {locals : τ} {failed : Bool}
    (hhook : ∀ item ∈ hook, item ∈ suite.planned)
    (h : Suite.runHook suite exec s hook locals = .ok (s', failed)) :
    RunSteps suite exec s s' := by
  cases hook with
  | none =>
    obtain ⟨rfl, -⟩ := Prod.mk.inj (Except.ok.inj h)
    exact .refl
  | some item =>
    obtain ⟨⟨s₁, outcome⟩, hrun, h⟩ := bind_eq_ok.1 h
    obtain ⟨rfl, -⟩ := Prod.mk.inj (Except.ok.inj h)
    have hitem := runItem (hhook item rfl) hrun
    exact hitem.trans (noteOutcome outcome)

theorem runTest {test : SuiteItemEntity} {locals : τ} {failed : Bool}
    (htest : test ∈ suite.planned)
    (h : Suite.runTest suite exec s test locals = .ok (s', failed)) :
    RunSteps suite exec s s' := by
  obtain ⟨⟨s₁, outcome⟩, hrun, h⟩ := bind_eq_ok.1 h
  obtain ⟨rfl, -⟩ := Prod.mk.inj (Except.ok.inj h)
  have hitem := (runItem htest hrun).tail (.progress s₁ (s₁.executedTests + 1))
  exact hitem.trans (noteOutcome outcome)

theorem runRound {test : SuiteItemEntity} {failed : Bool}
    (hround : ∀ item ∈ suite.round test, item ∈ suite.planned)
    (h : Suite.runRound suite exec s test = .ok (s', failed)) : RunSteps suite exec s s' := by
  obtain ⟨⟨s₁, beforeFailed⟩, hbefore, h⟩ := bind_eq_ok.1 h
  obtain ⟨⟨s₂, testFailed⟩, htest, h⟩ := bind_eq_ok.1 h
  obtain ⟨⟨s₃, afterFailed⟩, hafter, h⟩ := bind_eq_ok.1 h
  obtain ⟨rfl, -⟩ := Prod.mk.inj (Except.ok.inj h)
  have hlocals : RunSteps suite exec s { s with ctx := (exec.newLocals s.ctx).1 } :=
    .single (.newLocals s)
  have h₁ := runHook (fun item hitem => hround item (by simp_all [LoadedSuite.round])) hbefore
  have h₂ := runTest (hround test (by simp [LoadedSuite.round])) htest
  have h₃ := runHook (fun item hitem => hround item (by simp_all [LoadedSuite.round])) hafter
  exact ((hlocals.trans (h₁.trans h₂)).trans h₃).tail (.resetLocal s₃)

theorem runTests {tests : List SuiteItemEntity}
    (htests : ∀ item ∈ tests.flatMap suite.round, item ∈ suite.planned)
    (h : Suite.runTests suite exec s tests = .ok s') : RunSteps suite exec s s' := by
  induction tests generalizing s with
  | nil =>
    obtain rfl := Except.ok.inj h
    exact .refl
  | cons test tests ih =>
    obtain ⟨⟨s₁, testFailed⟩, hround, h⟩ := bind_eq_ok.1 h
    have hfirst := runRound (fun item hitem => htests item (by simp [hitem])) hround
    dsimp only at h
    split at h
    · obtain rfl := Except.ok.inj h
      exact hfirst
    · refine hfirst.trans (ih (fun item hitem => htests item ?_) h)
      rw [List.flatMap_cons]
      exact List.mem_append_right _ hitem

theorem runBeforeAll (h : Suite.runBeforeAll suite exec s = .ok s') :
    RunSteps suite exec s s' := by
  unfold Suite.runBeforeAll at h
  split at h
  · obtain rfl := Except.ok.inj h
    exact .refl
  · rename_i hook hhook
    obtain ⟨⟨s₁, outcome⟩, hrun, h⟩ := bind_eq_ok.1 h
    have hlocals : RunSteps suite exec s { s with ctx := (exec.newLocals s.ctx).1 } :=
      .single (.newLocals s)
    have hitem := runItem (by simp [LoadedSuite.planned, hhook]) hrun
    dsimp only at h
    split at h
    · obtain rfl := Except.ok.inj h
      exact hlocals.trans hitem
    · obtain rfl := Except.ok.inj h
      exact (hlocals.trans hitem).tail (.assign s₁ s₁.executionPosition true _)

theorem runAfterAll (h : Suite.runAfterAll suite exec s = .ok s') : RunSteps suite exec s s' := by
  unfold Suite.runAfterAll at h
  split at h
  · obtain rfl := Except.ok.inj h
    exact .refl
  · rename_i hook hhook
    obtain ⟨⟨s₁, outcome⟩, hrun, h⟩ := bind_eq_ok.1 h
    obtain rfl := Except.ok.inj h
    have hlocals : RunSteps suite exec s { s with ctx := (exec.newLocals s.ctx).1 } :=
      .single (.newLocals s)
    have hitem := runItem (by simp [LoadedSuite.planned, hhook]) hrun
    exact (hlocals.trans hitem).trans (noteOutcome outcome)

/-- **A run that ends has gone there by steps.** -/
theorem runItems {ctx : σ} (h : Suite.runItems suite exec ctx = .ok s) :
    RunSteps suite exec (startState suite ctx) s := by
  obtain ⟨s₁, hbefore, h⟩ := bind_eq_ok.1 h
  obtain ⟨s₂, htests, hafter⟩ := bind_eq_ok.1 h
  have hall : RunSteps suite exec s₁ s₂ := by
    unfold runAllTests at htests
    split at htests
    · obtain rfl := Except.ok.inj htests
      exact .refl
    · refine runTests (fun item hitem => ?_) htests
      exact List.mem_append_left _ (List.mem_append_right _ hitem)
  exact ((runBeforeAll hbefore).trans hall).trans (runAfterAll hafter)

end RunSteps

end Suite
end QualityFlow
