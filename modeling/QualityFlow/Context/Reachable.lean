/-
# What holds of every context

A context is made at the start of a run, goes through its steps, and may be handed on
and made again on the way (`Reachable`).  Two facts hold of it ever after: its scopes
are dictionaries, since no operation turns one object into another kind, and every
reference in its heap leads to an object of the heap (`Linked` to itself).
-/

import QualityFlow.Context.Serialize
import QualityFlow.Py.Grows

namespace QualityFlow
namespace Context

open Py Suite

/-- The states of a run: after its start, after a step, and after its context was handed on. -/
inductive Reachable : RunState → Prop where
  | start (runId : String) (event initialVars : Json) :
      Reachable (.start runId event initialVars)
  | step {s : RunState} (hs : Reachable s) (a : Step) : Reachable (s.step a)
  | restored {s : RunState} (hs : Reachable s) : Reachable s.restored

theorem context_restored (s : RunState) :
    s.restored.context = (deserializeRunContext s.heap (serializeRunContext s.context)).2 := by
  rw [RunState.restored]

theorem heap_restored (s : RunState) :
    s.restored.heap = (deserializeRunContext s.heap (serializeRunContext s.context)).1 := by
  rw [RunState.restored]

/-! ### Dictionaries stay dictionaries -/

/-- What was a dictionary still is one. -/
def DictsKept (h h' : Heap) : Prop := ∀ v, h.IsDict v → h'.IsDict v

namespace DictsKept

variable {h h₁ h' : Heap} {c : RunContext}

theorem refl (h : Heap) : DictsKept h h := fun _ hv => hv

theorem trans (h₁₂ : DictsKept h h₁) (h₂₃ : DictsKept h₁ h') : DictsKept h h' :=
  fun v hv => h₂₃ v (h₁₂ v hv)

theorem of_isPrefix (hpre : h <+: h') : DictsKept h h' := fun _ hv => hv.of_isPrefix hpre

theorem alloc (h : Heap) (o : Obj) : DictsKept h (h.alloc o).1 :=
  of_isPrefix (List.prefix_append _ _)

theorem setItem (h : Heap) (l : ℕ) (key : Key) (w : Val) : DictsKept h (h.setItem l key w) :=
  fun _ hv => hv.set l key w

theorem ensureListSize (l n : ℕ) (h : Heap) : DictsKept h (ensureListSize l n h) := by
  induction n generalizing h with
  | zero => exact refl h
  | succ n ih =>
    have happend : DictsKept (h.alloc (.dict [])).1 ((h.alloc (.dict [])).1.append l (.ref h.length)) :=
      fun _ hv => (Heap.Grows.append _ l _).isDict hv
    exact ((alloc h _).trans happend).trans (ih _)

theorem openSlot {v : Val} {key : Key} {l : ℕ} (hopen : openSlot h v key = .ok (h₁, l)) :
    DictsKept h h₁ := by
  obtain ⟨-, ⟨rfl, -⟩ | ⟨xs, i, -, -, rfl⟩⟩ := openSlot_eq_ok hopen
  · exact refl _
  · exact ensureListSize _ _ _

theorem assignNestedValue (value : Val) (h : Heap) (v : Val) (tokens : List String) :
    DictsKept h (assignNestedValue value h v tokens).1 := by
  induction tokens generalizing h v with
  | nil => exact refl h
  | cons token rest ih =>
    rw [Context.assignNestedValue]
    cases toKey token with
    | error e => exact refl h
    | ok key =>
      simp only
      cases hopen : Context.openSlot h v key with
      | error e => exact refl h
      | ok slot =>
        obtain ⟨h₂, l⟩ := slot
        have hslot : DictsKept h h₂ := openSlot hopen
        simp only
        cases rest.head?.map toKey with
        | none => exact hslot.trans (setItem _ _ _ _)
        | some next =>
          cases next with
          | error e => exact hslot
          | ok nextKey =>
            simp only
            split_ifs
            · exact hslot.trans (((alloc _ _).trans (setItem _ _ _ _)).trans (ih _ _))
            · exact hslot.trans (ih _ _)

theorem removeNestedValue (h : Heap) (v : Val) (tokens : List String) :
    DictsKept h (removeNestedValue h v tokens).1 := by
  induction tokens generalizing v with
  | nil => exact refl h
  | cons token rest ih =>
    rw [Context.removeNestedValue]
    cases toKey token with
    | error e => exact refl h
    | ok key =>
      simp only
      split
      · split_ifs
        · exact fun _ hv => hv.erase _ _
        · exact ih _
      · exact refl h

theorem targetFromRoot (c : RunContext) (h : Heap) (root : ContextRoot) :
    DictsKept h (targetFromRoot c h root).1 := by
  have hnew : DictsKept h ((h.alloc (.dict [])).1.setItem c.resultScope (.name "commands")
      (.ref (h.alloc (.dict [])).2)) := (alloc h _).trans (setItem _ _ _ _)
  cases root with
  | response =>
    simp only [Context.targetFromRoot]
    split
    · split_ifs
      · exact refl h
      · exact hnew
    · exact hnew
  | _ => exact refl h

/-- An assignment to a scope itself puts the items of a dictionary there. -/
theorem assignRoot (h : Heap) (target : ℕ) (value : Val) :
    DictsKept h (assignRoot h target value).1 := by
  unfold Context.assignRoot
  split_ifs with hvalue
  · have hclear : DictsKept h (h.modify target fun _ => .dict []) :=
      fun _ hv => hv.modify fun _ => ⟨[], rfl⟩
    obtain ⟨d, hd⟩ := hclear _ (Heap.isDict_iff.1 hvalue)
    simp only [hd]
    exact hclear.trans fun _ hv => hv.modify fun _ => ⟨d, rfl⟩
  · exact refl h

theorem writeContextPath (c : RunContext) (h : Heap) (path : String) (value : Val) :
    DictsKept h (writeContextPath c h path value).1 := by
  unfold Context.writeContextPath
  split
  · exact refl h
  · exact refl h
  · split
    · exact refl h
    · simp only
      split_ifs
      · exact (targetFromRoot c h _).trans (assignRoot _ _ _)
      · exact (targetFromRoot c h _).trans (assignNestedValue _ _ _ _)

theorem removeContextPath (c : RunContext) (h : Heap) (path : String) :
    DictsKept h (removeContextPath c h path).1 := by
  unfold Context.removeContextPath
  split
  · exact refl h
  · exact refl h
  · split
    · exact refl h
    · exact (targetFromRoot c h _).trans (removeNestedValue _ _ _)

theorem perform (c : RunContext) (h : Heap) (call : Call) : DictsKept h (perform c h call).1 := by
  have hmake := of_isPrefix (prefix_make c h call.value)
  unfold Context.perform
  generalize make c h call.value = made at hmake ⊢
  obtain ⟨h₁, r⟩ := made
  cases r with
  | error e => exact hmake
  | ok v =>
    cases call with
    | write path value => exact hmake.trans (writeContextPath _ _ _ _)
    | remove path => exact hmake.trans (removeContextPath _ _ _)
    | setVar key value scope =>
      simp only [setContextVar]
      split
      · exact hmake
      · exact hmake.trans (writeContextPath _ _ _ _)

theorem dictOrNew (h : Heap) (v : Val) : DictsKept h (h.dictOrNew v).1 :=
  of_isPrefix (prefix_dictOrNew h v)

end DictsKept

/-- No step of a run turns a dictionary into something else. -/
theorem dictsKept_step (s : RunState) (a : Step) : DictsKept s.heap (s.step a).heap := by
  cases a with
  | newLocalContext => exact .alloc _ _
  | enter kind =>
    simp only [RunState.step]
    split
    · exact .setItem _ _ _ _
    · exact .refl _
  | call call => exact .perform _ _ _
  | exit =>
    simp only [RunState.step]
    split
    · exact .refl _
    · exact (DictsKept.dictOrNew _ _).trans (.setItem _ _ _ _)
  | resetLocalContext => exact (DictsKept.alloc _ _).trans (.setItem _ _ _ _)

/-- A step leaves the scopes where they are. -/
theorem scope_step (s : RunState) (a : Step) (root : ContextRoot) :
    (s.step a).context.scope root = s.context.scope root := by
  cases a with
  | exit =>
    simp only [RunState.step]
    split <;> cases root <;> rfl
  | _ => cases root <;> rfl

/-- The scopes are dictionaries. -/
def ScopesAreDicts (c : RunContext) (h : Heap) : Prop := ∀ root, h.IsDict (.ref (c.scope root))

theorem scopesAreDicts_create (h : Heap) (runId : String) (event vars : Val) :
    ScopesAreDicts (createRunContext h runId event vars).2
      (createRunContext h runId event vars).1 := by
  unfold createRunContext
  generalize h.dictOrNew event = x
  obtain ⟨h₁, event⟩ := x
  simp only
  generalize h₁.dictOrNew vars = x
  obtain ⟨h₂, vars⟩ := x
  intro root
  cases root <;> simp [RunContext.scope, Heap.IsDict, Heap.obj?, Heap.alloc]

theorem Restored.scopesAreDicts {h h' : Heap} {c c' : RunContext} (hr : Restored h c h' c') :
    ScopesAreDicts c' h' := by
  obtain ⟨-, ⟨_, _, _, hE, -⟩, ⟨_, hG, -⟩, ⟨_, hL, -⟩, hresult, -⟩ := hr
  intro root
  cases root with
  | runEnvelope => exact ⟨_, hE⟩
  | globalScope => exact ⟨_, hG⟩
  | localScope => exact ⟨_, hL⟩
  | result => exact hresult
  | response => exact hresult

/-- **The scopes of a context are dictionaries**, whatever was done to it. -/
theorem Reachable.scopesAreDicts {s : RunState} (hs : Reachable s) :
    ScopesAreDicts s.context s.heap := by
  induction hs with
  | start runId event initialVars =>
    exact scopesAreDicts_create _ runId _ _
  | step hs a ih =>
    intro root
    rw [scope_step]
    exact dictsKept_step _ a _ (ih root)
  | restored hs ih =>
    rw [context_restored, heap_restored]
    exact (restored_deserialize _ _).scopesAreDicts

/-! ### A context that was handed on is related to itself -/

section

variable {ρ : ℕ → ℕ → Prop} {h : Heap} {v : Val} {l : ℕ}

theorem sim_dictAt (s : Sim hideNone ρ h h) (hv : ValRel ρ v v) :
    ∃ ρ', ρ ≤ ρ' ∧ Sim hideNone ρ' (h.dictAt v).1 (h.dictAt v).1 ∧
      ρ' (h.dictAt v).2 (h.dictAt v).2 := by
  have hnew := sim_alloc s (objRel_dict (dictRel_nil (ρ := ρ)))
  cases v with
  | ref l =>
    simp only [Heap.dictAt]
    split_ifs
    · exact ⟨ρ, le_rfl, s, hv.of_ref⟩
    · exact hnew
  | _ => exact hnew

theorem sim_takeConstants (s : Sim hideNone ρ h h) (hv : ValRel ρ v v) (hl : ρ l l) :
    ∃ ρ', ρ ≤ ρ' ∧ Sim hideNone ρ' (takeConstants h v l) (takeConstants h v l) := by
  obtain ⟨ρ₁, hle₁, s₁, hpayload⟩ := sim_dictAt s hv
  obtain ⟨ρ₂, hle₂, s₂, hconstants⟩ := sim_dictAt s₁ (field_self s₁ hpayload "constants")
  exact ⟨ρ₂, hle₁.trans hle₂, s₂.setItem (hle₂ _ _ (hle₁ _ _ hl)) _ (.ref hconstants)⟩

theorem sim_resultOrNew (s : Sim hideNone ρ h h) (hl : ρ l l) :
    ∃ ρ', ρ ≤ ρ' ∧ Sim hideNone ρ' (resultOrNew h l).1 (resultOrNew h l).1 ∧
      ρ' (resultOrNew h l).2 (resultOrNew h l).2 := by
  unfold resultOrNew
  split_ifs
  · exact ⟨ρ, le_rfl, s, hl⟩
  · obtain ⟨ρ₁, hle₁, s₁, hartifacts⟩ := sim_alloc s (objRel_dict dictRel_nil)
    obtain ⟨ρ₂, hle₂, s₂, hcommands⟩ := sim_alloc s₁ (objRel_dict dictRel_nil)
    obtain ⟨ρ₃, hle₃, s₃, hresults⟩ := sim_alloc s₂ (objRel_dict dictRel_nil)
    obtain ⟨ρ₄, hle₄, s₄, hnew⟩ := sim_alloc s₃ (objRel_dict
      (dictRel_cons "artifacts" (.ref (hle₃ _ _ (hle₂ _ _ hartifacts)))
        (dictRel_cons "commands" (.ref (hle₃ _ _ hcommands))
          (dictRel_cons "constants" (.ref hresults) dictRel_nil))))
    exact ⟨ρ₄, hle₁.trans (hle₂.trans (hle₃.trans hle₄)), s₄, hnew⟩

/-- A context that is made again is related to itself, as the one before it was. -/
theorem sim_deserialize {c : RunContext} (s : Sim hideNone ρ h h) (hc : Rooted ρ c) :
    ∃ ρ', ρ ≤ ρ' ∧
      Sim hideNone ρ' (deserializeRunContext h (serializeRunContext c)).1
        (deserializeRunContext h (serializeRunContext c)).1 ∧
      Rooted ρ' (deserializeRunContext h (serializeRunContext c)).2 := by
  unfold deserializeRunContext serializeRunContext
  dsimp only
  obtain ⟨ρ₁, hle₁, s₁, henvelope⟩ := sim_dictAt s (.ref hc.runEnvelope)
  generalize h.dictAt (.ref c.runEnvelope) = x at s₁ henvelope ⊢
  obtain ⟨h₁, envelope⟩ := x
  dsimp only at s₁ henvelope ⊢
  obtain ⟨ρ₂, hle₂, s₂, hvars⟩ := sim_dictAt s₁ (field_self s₁ henvelope "constants")
  generalize h₁.dictAt (h₁.field envelope "constants") = x at s₂ hvars ⊢
  obtain ⟨h₂, vars⟩ := x
  dsimp only at s₂ hvars ⊢
  obtain ⟨ρ₃, hle₃, s₃, hevent⟩ :=
    sim_dictAt s₂ (field_self s₂ (hle₂ _ _ henvelope) "event")
  generalize h₂.dictAt (h₂.field envelope "event") = x at s₃ hevent ⊢
  obtain ⟨h₃, event⟩ := x
  dsimp only at s₃ hevent ⊢
  have hle₁₃ := hle₁.trans (hle₂.trans hle₃)
  generalize strip (Heap.str _ _) = id
  obtain ⟨ρ₄, hle₄, s₄, hc₄⟩ := sim_createRunContext id s₃ (.ref hevent) (.ref (hle₃ _ _ hvars))
  generalize createRunContext h₃ id (.ref event) (.ref vars) = x at s₄ hc₄ ⊢
  obtain ⟨h₄, c₄⟩ := x
  dsimp only at s₄ hc₄ ⊢
  have hle₁₄ := hle₁₃.trans hle₄
  obtain ⟨ρ₅, hle₅, s₅⟩ := sim_takeConstants s₄ (.ref (hle₁₄ _ _ hc.globalScope)) hc₄.globalScope
  generalize takeConstants h₄ (.ref c.globalScope) c₄.globalScope = h₅ at s₅ ⊢
  obtain ⟨ρ₆, hle₆, s₆⟩ := sim_takeConstants s₅ (.ref (hle₅ _ _ (hle₁₄ _ _ hc.localScope)))
    (hle₅ _ _ hc₄.localScope)
  generalize takeConstants h₅ (.ref c.localScope) c₄.localScope = h₆ at s₆ ⊢
  have hle₄₆ := hle₅.trans hle₆
  obtain ⟨ρ₇, hle₇, s₇, hpayload⟩ :=
    sim_dictAt s₆ (.ref ((hle₁₄.trans hle₄₆) _ _ hc.resultScope))
  generalize h₆.dictAt (.ref c.resultScope) = x at s₇ hpayload ⊢
  obtain ⟨h₇, payload⟩ := x
  dsimp only at s₇ hpayload ⊢
  obtain ⟨ρ₈, hle₈, s₈, hresult⟩ := sim_resultOrNew s₇ hpayload
  have hle₄₈ := hle₄₆.trans (hle₇.trans hle₈)
  have hc₈ := hc₄.mono hle₄₈
  exact ⟨ρ₈, hle₁₄.trans hle₄₈, s₈,
    ⟨hc₈.runEnvelope, hc₈.globalScope, hc₈.localScope, hresult⟩⟩

end

/-- The global and the local scope are two dictionaries in a new context. -/
theorem distinct_createRunContext (h : Heap) (runId : String) (event vars : Val) :
    (createRunContext h runId event vars).2.globalScope
      ≠ (createRunContext h runId event vars).2.localScope := by
  unfold createRunContext
  generalize h.dictOrNew event = x
  obtain ⟨h₁, event⟩ := x
  simp only
  generalize h₁.dictOrNew vars = x
  obtain ⟨h₂, vars⟩ := x
  simp only [Heap.alloc, List.length_append, List.length_singleton]
  omega

theorem distinct_deserialize (h : Heap) (c : RunContext) :
    (deserializeRunContext h (serializeRunContext c)).2.globalScope
      ≠ (deserializeRunContext h (serializeRunContext c)).2.localScope := by
  unfold deserializeRunContext
  dsimp only
  generalize strip (Heap.str _ _) = id
  exact distinct_createRunContext _ id _ _

/-- **Every reference of a context leads to an object of its heap**: the context is related to
itself. -/
theorem Reachable.linked {s : RunState} (hs : Reachable s) : ∃ ρ, Linked ρ s s := by
  induction hs with
  | start runId event initialVars => exact linked_start runId event initialVars
  | step hs a ih =>
    obtain ⟨ρ, hs⟩ := ih
    exact hs.step a
  | restored hs ih =>
    rename_i s
    obtain ⟨ρ, hs⟩ := ih
    obtain ⟨ρ', hle, hsim, hrooted⟩ := sim_deserialize hs.sim hs.rooted
    refine ⟨ρ', rfl, ?_, ?_, ?_, ?_, ?_⟩
    · rw [context_restored]
      exact distinct_deserialize _ _
    · rw [heap_restored]
      exact hsim
    · rw [context_restored]
      exact hrooted
    · rw [RunState.restored]
      exact previousRel_mono hle hs.previous
    · rw [RunState.restored]
      exact optionRel_mono hle hs.localContext

/-- A context is the same as itself, also when more objects are made. -/
theorem Reachable.same_scope {s : RunState} (hs : Reachable s) {h : Heap} (hpre : s.heap <+: h) :
    Same (buildRunContextScope s.context h).1 (.ref (buildRunContextScope s.context h).2)
      (buildRunContextScope s.context h).1 (.ref (buildRunContextScope s.context h).2) := by
  obtain ⟨ρ, hlinked⟩ := hs.linked
  have hsim : Sim hideNone ρ h h := (sim_isPrefix (sim_isPrefix hlinked.sim hpre).symm hpre).symm
  obtain ⟨ρ', -, hsim', hscope⟩ :=
    sim_buildRunContextScope hsim hlinked.rooted (openFields_none s.context)
  exact ⟨ρ', hsim'.agree, .ref hscope⟩

end Context
end QualityFlow
