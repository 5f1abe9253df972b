/-
# The tests of a run and its context

What a run does to its context: the calls that its commands make, and around them
`bind_suite_item_context` and `reset_local_context`, as `_execute` of
`app/elaborations/services/test_suites/test_suite_executor_thread.py` uses them.

A test gets a new dictionary for its local constants, which is taken out again after
each item and after the test.  Everything else below the local scope is as the test
left it, so two runs that write there differently can be told apart in a later test.
They cannot where what differs is written below the local constants and into no object
that can be reached without going through them (`isolated_of_harmless`).
-/

import QualityFlow.Context.Simulation
import QualityFlow.Py.Same

namespace QualityFlow
namespace Context

open Py Suite

/-! ### The calls of commands -/

/-- A value that a command writes: one it made itself, or what a reference leads to. -/
inductive Source where
  | json (x : Json)
  | reference (expression : String)

/-- A call on the context. -/
inductive Call where
  | write (path : String) (value : Source)
  | remove (path : String)
  | setVar (key : String) (value : Source) (scope : String)

namespace Call

def value : Call → Source
  | .write _ value | .setVar _ value _ => value
  | .remove _ => .json .null

/-- The path a call is about. -/
def path (kind : SuiteItemKind) : Call → Except String String
  | .write path _ | .remove path => .ok path
  | .setVar key _ scope => contextVarPath kind key scope

/-- The call is on a path rooted at the local scope. -/
def IsLocal (kind : SuiteItemKind) (call : Call) : Prop :=
  ∃ path tokens, call.path kind = .ok path ∧
    contextTarget path = .ok (some (.localScope, tokens))

end Call

/-- `resolve_dynamic_value` for a text: a reference that leads nowhere is kept as it is. -/
def make (c : RunContext) (h : Heap) : Source → Heap × Except String Val
  | .json x =>
    let (h, v) := h.ofJson x
    (h, .ok v)
  | .reference expression =>
    let (h, r) := resolveIn c h expression
    (h, r.map fun v? => v?.getD (.str expression))

/-- A command makes its value and calls the context with it. -/
def perform (c : RunContext) (h : Heap) (call : Call) : Heap × Except String Unit :=
  match make c h call.value with
  | (h, .error e) => (h, .error e)
  | (h, .ok v) =>
    match call with
    | .write path _ => writeContextPath c h path v
    | .remove path => removeContextPath c h path
    | .setVar key _ scope => setContextVar c h key v scope

/-! ### The steps of a run -/

/-- What `bind_suite_item_context` keeps for its end. -/
structure Previous where
  kind : SuiteItemKind
  localVars : Val

/-- A run between two steps. -/
structure RunState where
  heap : Heap
  context : RunContext
  previous : Option Previous
  localContext : Option Val

/-- What happens to the context in a run. -/
inductive Step where
  | newLocalContext
  | enter (kind : SuiteItemKind)
  | call (call : Call)
  | exit
  | resetLocalContext

namespace RunState

/-- The context is made. -/
def start (runId : String) (event initialVars : Json) : RunState :=
  let (h, event) := Heap.ofJson [] event
  let (h, initialVars) := h.ofJson initialVars
  let (h, context) := createRunContext h runId event initialVars
  { heap := h, context, previous := none, localContext := none }

/-- One step; `localContext` goes out of use with its test. -/
def step (s : RunState) : Step → RunState
  | .newLocalContext =>
    let (h, l) := s.heap.alloc (.dict [])
    { s with heap := h, localContext := some (.ref l) }
  | .enter kind =>
    { s with
      heap := match s.localContext with
        | some localVars => s.heap.setItem s.context.localScope (.name "constants") localVars
        | none => s.heap
      context := { s.context with currentItemKind := kind }
      previous := some
        { kind := s.context.currentItemKind
          localVars := s.heap.field s.context.localScope "constants" } }
  | .call call => { s with heap := (perform s.context s.heap call).1 }
  | .exit =>
    match s.previous with
    | none => s
    | some previous =>
      let (h, localVars) := s.heap.dictOrNew previous.localVars
      { s with
        heap := h.setItem s.context.localScope (.name "constants") localVars
        context := { s.context with currentItemKind := previous.kind }
        previous := none }
  | .resetLocalContext =>
    let (h, l) := s.heap.alloc (.dict [])
    { s with
      heap := h.setItem s.context.localScope (.name "constants") (.ref l)
      localContext := none }

def run (s : RunState) (steps : List Step) : RunState := steps.foldl step s

/-- What a reference leads to. -/
def resolve (s : RunState) (expression : String) : Heap × Except String (Option Val) :=
  resolveIn s.context s.heap expression

end RunState

/-- An item of a suite: its kind, and the calls its commands make. -/
structure Item where
  kind : SuiteItemKind
  calls : List Call

def Item.steps (item : Item) : List Step := .enter item.kind :: (item.calls.map .call ++ [.exit])

/-- A test with the hooks around it. -/
structure TestRun where
  items : List Item

def TestRun.steps (test : TestRun) : List Step :=
  .newLocalContext :: (test.items.flatMap Item.steps ++ [.resetLocalContext])

/-- A run of a suite, as far as its context is concerned. -/
structure SuiteRun where
  runId : String
  event : Json
  initialVars : Json
  beforeAll : Option Item
  tests : List TestRun

namespace SuiteRun

def start (r : SuiteRun) : RunState := .start r.runId r.event r.initialVars

/-- The steps of the hook before all tests. -/
def opening (r : SuiteRun) : List Step :=
  match r.beforeAll with
  | some item => .newLocalContext :: item.steps
  | none => []

/-- The run after its first `i` tests and some steps of the next. -/
def stateAt (r : SuiteRun) (i : ℕ) (steps : List Step) : RunState :=
  r.start.run (r.opening ++ (r.tests.take i).flatMap TestRun.steps ++ steps)

end SuiteRun

/-! ### Runs that differ locally -/

/-- Two lists of calls that differ in calls on the local scope only. -/
inductive CallsDiffer (kind : SuiteItemKind) : List Call → List Call → Prop where
  | nil : CallsDiffer kind [] []
  | same {calls calls' : List Call} (call : Call) (h : CallsDiffer kind calls calls') :
      CallsDiffer kind (call :: calls) (call :: calls')
  | left {calls calls' : List Call} {call : Call} (hlocal : call.IsLocal kind)
      (h : CallsDiffer kind calls calls') : CallsDiffer kind (call :: calls) calls'
  | right {calls calls' : List Call} {call : Call} (hlocal : call.IsLocal kind)
      (h : CallsDiffer kind calls calls') : CallsDiffer kind calls (call :: calls')

/-- Two items of one kind whose calls differ locally. -/
def Item.Differs (item item' : Item) : Prop :=
  item.kind = item'.kind ∧ CallsDiffer item.kind item.calls item'.calls

/-- Two runs of a test with its hooks that differ locally. -/
def TestRun.Differs (test test' : TestRun) : Prop := List.Forall₂ Item.Differs test.items test'.items

/-- Two references lead to values that no walk tells apart, to nothing, or raise alike. -/
def SameOutcome (a b : Heap × Except String (Option Val)) : Prop :=
  ExceptRel (Option.Rel fun v w => Same a.1 v b.1 w) a.2 b.2

/-! ### Calls that do no harm -/

/-- The local constants. -/
def hideLocal (l : ℕ) : ℕ → String → Prop := fun a k => a = l ∧ k = "constants"

/-- The dictionaries of the scopes. -/
def scopeRefs (c : RunContext) : Val → Prop := fun v => ∃ root, v = .ref (c.scope root)

/-- The local constants, and what can be reached through them only. -/
def localOnly (c : RunContext) (h : Heap) (l : ℕ) (key : Key) : Prop :=
  (l = c.localScope ∧ key = .name "constants") ∨
    ¬ Reach (hideLocal c.localScope) h (scopeRefs c) l

/-- A call on the local scope that stays with the local constants: it does not assign to
the scope itself, and it goes into no object that can be reached in another way. -/
def Confined (c : RunContext) (h : Heap) (call : Call) : Prop :=
  ∀ path tokens, call.path c.currentItemKind = .ok path →
    contextTarget path = .ok (some (.localScope, tokens)) →
    (tokens = [] → ∃ path, call = .remove path) ∧
      OnPath (localOnly c (make c h call.value).1) (make c h call.value).1 (.ref c.localScope) tokens

/-- A call that does not go through hidden items, neither for its value nor on its path. -/
structure Clear (hide : ℕ → String → Prop) (c : RunContext) (h : Heap) (call : Call) : Prop where
  value : ∀ expression, call.value = .reference expression →
    ShownRef hide (buildRunContextScope c h).1 (buildRunContextScope c h).2 expression
  walk : ∀ path v, call.path c.currentItemKind = .ok path → (make c h call.value).2 = .ok v →
    WalkShown hide c (make c h call.value).1 path v

/-- A call on the local scope stays with the local constants, and another call keeps out of
them. -/
structure Harmless (c : RunContext) (h : Heap) (call : Call) : Prop where
  confined : call.IsLocal c.currentItemKind → Confined c h call
  clear : ¬ call.IsLocal c.currentItemKind → Clear (hideLocal c.localScope) c h call

/-- Every call of some steps is harmless in the state it is made in. -/
def RunState.Harmless (s : RunState) : List Step → Prop
  | [] => True
  | step :: steps =>
    (∀ call, step = .call call → Context.Harmless s.context s.heap call) ∧
      (s.step step).Harmless steps

/-! ### The same call on both sides -/

section

variable {hide : ℕ → String → Prop} {ρ : ℕ → ℕ → Prop} {h h' : Heap} {c : RunContext}

theorem sim_make {source : Source} (s : Sim hide ρ h h') (hc : Rooted ρ c)
    (hopen : OpenFields hide c)
    (hshown : ∀ expression, source = .reference expression →
      ShownRef hide (buildRunContextScope c h).1 (buildRunContextScope c h).2 expression) :
    ∃ ρ', ρ ≤ ρ' ∧ Sim hide ρ' (make c h source).1 (make c h' source).1 ∧
      ExceptRel (ValRel ρ') (make c h source).2 (make c h' source).2 := by
  cases source with
  | json x =>
    obtain ⟨ρ', hle, s', hv⟩ := sim_ofJson x s
    exact ⟨ρ', hle, s', .ok hv⟩
  | reference expression =>
    obtain ⟨ρ', hle, s', hscope⟩ := sim_buildRunContextScope s hc hopen
    refine ⟨ρ', hle, s', ?_⟩
    have href := agree_resolveRef s'.agree hscope (hshown expression rfl)
    unfold make resolveIn
    simp only
    generalize resolveRef (buildRunContextScope c h).1 _ expression = r at href ⊢
    generalize resolveRef (buildRunContextScope c h').1 _ expression = r' at href ⊢
    cases href with
    | error e => exact .error e
    | ok hv =>
      cases hv with
      | none => exact .ok (.str expression)
      | some hv => exact .ok hv

/-- **The same call on both sides keeps them related**, where it does not go through hidden
items. -/
theorem sim_perform {call : Call} (s : Sim hide ρ h h') (hc : Rooted ρ c)
    (hopen : OpenFields hide c) (hclear : Clear hide c h call) :
    ∃ ρ', ρ ≤ ρ' ∧ Sim hide ρ' (perform c h call).1 (perform c h' call).1 := by
  obtain ⟨ρ₁, hle₁, s₁, hmade⟩ := sim_make s hc hopen hclear.value
  have hwalk := hclear.walk
  unfold perform
  generalize make c h call.value = made at s₁ hmade hwalk ⊢
  generalize make c h' call.value = made' at s₁ hmade ⊢
  obtain ⟨h₁, r⟩ := made
  obtain ⟨h₁', r'⟩ := made'
  cases hmade with
  | error e => exact ⟨ρ₁, hle₁, s₁⟩
  | ok hv =>
    rename_i v v'
    have hc₁ := hc.mono hle₁
    cases call with
    | write path value =>
      obtain ⟨ρ₂, hle₂, s₂, -⟩ := sim_writeContextPath s₁ hc₁ hopen hv (hwalk path v rfl rfl)
      exact ⟨ρ₂, hle₁.trans hle₂, s₂⟩
    | remove path =>
      have hshown := hwalk path v rfl rfl
      obtain ⟨ρ₂, hle₂, s₂, -⟩ := sim_removeContextPath s₁ hc₁ hopen
        ⟨hshown.walk, fun _ _ a k hnull => by simp at hnull⟩
      exact ⟨ρ₂, hle₁.trans hle₂, s₂⟩
    | setVar key value scope =>
      simp only [setContextVar]
      cases hpath : contextVarPath c.currentItemKind key scope with
      | error e => exact ⟨ρ₁, hle₁, s₁⟩
      | ok path =>
        obtain ⟨ρ₂, hle₂, s₂, -⟩ := sim_writeContextPath s₁ hc₁ hopen hv (hwalk path v hpath rfl)
        exact ⟨ρ₂, hle₁.trans hle₂, s₂⟩

/-- Where nothing is hidden, every call is clear. -/
theorem clear_of_forall (hhide : ∀ l k, ¬ hide l k) (c : RunContext) (h : Heap) (call : Call) :
    Clear hide c h call :=
  ⟨fun _ _ => ⟨fun _ _ => shownParts_of_forall hhide _ _ _⟩, fun _ _ _ _ =>
    ⟨fun _ _ _ => onPath_of_forall (fun l _ k _ => hhide l k) _ _ _, fun _ _ a k _ => hhide a k⟩⟩

end

/-! ### A call on one side -/

section

variable {ρ : ℕ → ℕ → Prop} {h h' : Heap} {c : RunContext}

/-- Making a value changes no object. -/
theorem prefix_make (c : RunContext) (h : Heap) (source : Source) : h <+: (make c h source).1 := by
  cases source with
  | json x => exact prefix_ofJson x h
  | reference expression =>
    exact ((prefix_dictOrNew h _).trans (prefix_dictOrNew _ _)).trans (List.prefix_append _ _)

/-- A call on the local scope changes what its walk meets. -/
theorem perform_framed {call : Call} (hlocal : call.IsLocal c.currentItemKind)
    (hconfined : Confined c h call)
    (hfresh : ∀ m, (make c h call.value).1.length ≤ m →
      ∀ key, localOnly c (make c h call.value).1 m key) :
    Framed (localOnly c (make c h call.value).1) (make c h call.value).1 (perform c h call).1 := by
  obtain ⟨path, tokens, hpath, htarget⟩ := hlocal
  obtain ⟨hroot, hwalk⟩ := hconfined path tokens hpath htarget
  have hcheck : checkMutable c .localScope = .ok () := by simp [checkMutable]
  unfold perform
  generalize make c h call.value = made at hwalk hfresh ⊢
  obtain ⟨h₁, r⟩ := made
  cases r with
  | error e => exact .refl _ h₁
  | ok v =>
    have hwrite (hne : tokens ≠ []) :
        Framed (localOnly c h₁) h₁ (writeContextPath c h₁ path v).1 := by
      simp only [writeContextPath, htarget, hcheck, targetFromRoot, RunContext.scope, if_neg hne]
      exact assignNestedValue_framed hwalk hfresh
    cases call with
    | write path' value =>
      obtain rfl := Except.ok.inj hpath
      exact hwrite fun hnil => by simpa using hroot hnil
    | remove path' =>
      obtain rfl := Except.ok.inj hpath
      simp only [removeContextPath, htarget, hcheck, targetFromRoot, RunContext.scope]
      exact removeNestedValue_framed hwalk
    | setVar key value scope =>
      have hpath : contextVarPath c.currentItemKind key scope = .ok path := hpath
      simp only [setContextVar, hpath]
      exact hwrite fun hnil => by simpa using hroot hnil

/-- What can be reached on the left is related to something on the right. -/
theorem related_of_reach {hide : ℕ → String → Prop} (s : Sim hide ρ h h') (hc : Rooted ρ c) {l : ℕ}
    (hreach : Reach hide h (scopeRefs c) l) : ∃ m, ρ l m := by
  induction hreach with
  | root hl =>
    obtain ⟨root, hl⟩ := hl
    obtain rfl := Val.ref.inj hl
    cases root with
    | runEnvelope => exact ⟨_, hc.runEnvelope⟩
    | globalScope => exact ⟨_, hc.globalScope⟩
    | localScope => exact ⟨_, hc.localScope⟩
    | result => exact ⟨_, hc.resultScope⟩
    | response => exact ⟨_, hc.resultScope⟩
  | item hl ho hkey hm ih =>
    obtain ⟨m, hlm⟩ := ih
    obtain ⟨o, o', ho', -, hrel⟩ := s.agree _ _ hlm
    obtain rfl := Option.some.inj (ho.symm.trans ho')
    have hitem := hrel.get? hkey
    rw [hm] at hitem
    rcases optionRel_cases hitem with ⟨hnone, -⟩ | ⟨v, w, hv, -, hrel⟩
    · exact absurd hnone (by simp)
    · obtain rfl := Option.some.inj hv
      cases hrel with
      | scalar hv => exact absurd rfl (hv _)
      | ref hab => exact ⟨_, hab⟩

theorem Rooted.restrict (hc : Rooted ρ c) (hide : ℕ → String → Prop) (h : Heap) :
    Rooted (fun l m => ρ l m ∧ Reach hide h (scopeRefs c) l) c :=
  ⟨⟨hc.runEnvelope, .root ⟨.runEnvelope, rfl⟩⟩, ⟨hc.globalScope, .root ⟨.globalScope, rfl⟩⟩,
    ⟨hc.localScope, .root ⟨.localScope, rfl⟩⟩, ⟨hc.resultScope, .root ⟨.result, rfl⟩⟩⟩

/-- Objects that are made on one side change nothing. -/
theorem sim_isPrefix {hide : ℕ → String → Prop} (s : Sim hide ρ h h') {h₂ : Heap} (hpre : h <+: h₂) :
    Sim hide ρ h₂ h' := by
  obtain ⟨hlen, hkept⟩ := Framed.of_isPrefix (P := fun _ _ => False) hpre
  refine s.frame hlen fun l m o _ ho => ?_
  obtain ⟨o', ho', hk⟩ := hkept l o ho (by simp)
  exact ⟨o', ho', hk.mono fun _ hf => hf.elim⟩

/-- A hidden item is set on one side. -/
theorem sim_setHidden {hide : ℕ → String → Prop} (s : Sim hide ρ h h') {a : ℕ} {k : String}
    (hk : hide a k) (v : Val) : Sim hide ρ (h.setItem a (.name k) v) h' := by
  have hframed : Framed (fun l key => l = a ∧ key = .name k) h (h.setItem a (.name k) v) :=
    .setItem ⟨rfl, rfl⟩ v
  refine s.frame hframed.length fun l m o _ ho => ?_
  obtain ⟨o', ho', hkept⟩ := hframed.kept l o ho (by simp)
  refine ⟨o', ho', hkept.mono ?_⟩
  rintro k' ⟨rfl, hk'⟩
  obtain rfl := Key.name.inj hk'
  exact hk

/-- **A confined call on one side keeps them related**, but for objects that only the local
constants lead to. -/
theorem sim_confined {call : Call} (s : Sim (hideLocal c.localScope) ρ h h') (hc : Rooted ρ c)
    (hlocal : call.IsLocal c.currentItemKind) (hconfined : Confined c h call) :
    ∃ ρ', Sim (hideLocal c.localScope) ρ' (perform c h call).1 h' ∧ Rooted ρ' c := by
  have s₁ := sim_isPrefix s (prefix_make c h call.value)
  refine ⟨_, ?_, hc.restrict (hideLocal c.localScope) (make c h call.value).1⟩
  have hframed := perform_framed hlocal hconfined fun m hm key => by
    refine .inr fun hreach => ?_
    obtain ⟨m', hmm'⟩ := related_of_reach s₁ hc hreach
    exact absurd (s₁.lt_left hmm') (by omega)
  refine (s₁.restrict (scopeRefs c)).frame hframed.length ?_
  rintro l m o ⟨-, hreach⟩ ho
  obtain ⟨o₂, ho₂, hkept⟩ := hframed.kept l o ho (by
    rintro i (⟨-, hname⟩ | hno)
    · exact absurd hname (by simp)
    · exact hno hreach)
  refine ⟨o₂, ho₂, hkept.mono ?_⟩
  rintro k (⟨rfl, hname⟩ | hno)
  · exact ⟨rfl, Key.name.inj hname⟩
  · exact absurd hreach hno

end

/-! ### Two runs with the same steps -/

/-- Nothing is hidden. -/
def hideNone : ℕ → String → Prop := fun _ _ => False

/-- Two states that no reference tells apart. -/
structure Linked (ρ : ℕ → ℕ → Prop) (s s' : RunState) : Prop where
  context : s.context = s'.context
  distinct : s.context.globalScope ≠ s.context.localScope
  sim : Sim hideNone ρ s.heap s'.heap
  rooted : Rooted ρ s.context
  previous : Option.Rel (fun p p' : Previous => p.kind = p'.kind ∧ ValRel ρ p.localVars p'.localVars)
    s.previous s'.previous
  localContext : Option.Rel (ValRel ρ) s.localContext s'.localContext

section

variable {ρ : ℕ → ℕ → Prop} {s s' : RunState}

theorem previousRel_mono {ρ' : ℕ → ℕ → Prop} {a b : Option Previous} (hle : ρ ≤ ρ')
    (h : Option.Rel (fun p p' : Previous => p.kind = p'.kind ∧ ValRel ρ p.localVars p'.localVars)
      a b) :
    Option.Rel (fun p p' : Previous => p.kind = p'.kind ∧ ValRel ρ' p.localVars p'.localVars)
      a b := by
  cases h with
  | none => exact .none
  | some h => exact .some ⟨h.1, h.2.mono hle⟩

theorem openFields_none (c : RunContext) : OpenFields hideNone c := ⟨id, id⟩

theorem Linked.newLocalContext (hs : Linked ρ s s') :
    ∃ ρ', Linked ρ' (s.step .newLocalContext) (s'.step .newLocalContext) := by
  obtain ⟨ρ', hle, hsim, hnew⟩ := sim_alloc hs.sim (objRel_dict (dictRel_nil (ρ := ρ)))
  exact ⟨ρ', hs.context, hs.distinct, hsim, hs.rooted.mono hle, previousRel_mono hle hs.previous,
    .some (.ref hnew)⟩

theorem Linked.enter (hs : Linked ρ s s') (kind : SuiteItemKind) :
    Linked ρ (s.step (.enter kind)) (s'.step (.enter kind)) := by
  obtain ⟨h, c, p, v⟩ := s
  obtain ⟨h', c', p', v'⟩ := s'
  obtain ⟨hcontext, hdistinct, hsim, hc, hprevious, hlocal⟩ := hs
  obtain rfl : c = c' := hcontext
  have hfield : ValRel ρ (h.field c.localScope "constants") (h'.field c.localScope "constants") :=
    sim_field hsim hc.localScope id
  refine ⟨rfl, hdistinct, ?_, ⟨hc.runEnvelope, hc.globalScope, hc.localScope, hc.resultScope⟩,
    .some ⟨rfl, hfield⟩, hlocal⟩
  cases hlocal with
  | none => exact hsim
  | some hv => exact hsim.setItem hc.localScope _ hv

theorem Linked.call (hs : Linked ρ s s') (call : Call) :
    ∃ ρ', Linked ρ' (s.step (.call call)) (s'.step (.call call)) := by
  obtain ⟨h, c, p, v⟩ := s
  obtain ⟨h', c', p', v'⟩ := s'
  obtain ⟨hcontext, hdistinct, hsim, hc, hprevious, hlocal⟩ := hs
  obtain rfl : c = c' := hcontext
  obtain ⟨ρ', hle, hsim'⟩ := sim_perform hsim hc (openFields_none c)
    (clear_of_forall (fun _ _ => id) c h call)
  exact ⟨ρ', rfl, hdistinct, hsim', hc.mono hle, previousRel_mono hle hprevious,
    optionRel_mono hle hlocal⟩

theorem Linked.exit (hs : Linked ρ s s') : ∃ ρ', Linked ρ' (s.step .exit) (s'.step .exit) := by
  obtain ⟨h, c, p, v⟩ := s
  obtain ⟨h', c', p', v'⟩ := s'
  obtain ⟨hcontext, hdistinct, hsim, hc, hprevious, hlocal⟩ := hs
  obtain rfl : c = c' := hcontext
  cases hprevious with
  | none => exact ⟨ρ, rfl, hdistinct, hsim, hc, .none, hlocal⟩
  | some hp =>
    rename_i p p'
    obtain ⟨hkind, hvars⟩ := hp
    obtain ⟨ρ', hle, hsim', hv⟩ := sim_dictOrNew hsim hvars
    have hc' := hc.mono hle
    refine ⟨ρ', ?_, hdistinct, hsim'.setItem hc'.localScope _ hv,
      ⟨hc'.runEnvelope, hc'.globalScope, hc'.localScope, hc'.resultScope⟩, .none,
      optionRel_mono hle hlocal⟩
    simp only [RunState.step, hkind]

theorem Linked.resetLocalContext (hs : Linked ρ s s') :
    ∃ ρ', Linked ρ' (s.step .resetLocalContext) (s'.step .resetLocalContext) := by
  obtain ⟨h, c, p, v⟩ := s
  obtain ⟨h', c', p', v'⟩ := s'
  obtain ⟨hcontext, hdistinct, hsim, hc, hprevious, hlocal⟩ := hs
  obtain rfl : c = c' := hcontext
  obtain ⟨ρ', hle, hsim', hnew⟩ := sim_alloc hsim (objRel_dict (dictRel_nil (ρ := ρ)))
  have hc' := hc.mono hle
  exact ⟨ρ', rfl, hdistinct, hsim'.setItem hc'.localScope _ (.ref hnew), hc',
    previousRel_mono hle hprevious, .none⟩

/-- **The same step keeps two states linked.** -/
theorem Linked.step (hs : Linked ρ s s') (a : Step) : ∃ ρ', Linked ρ' (s.step a) (s'.step a) := by
  cases a with
  | newLocalContext => exact hs.newLocalContext
  | enter kind => exact ⟨ρ, hs.enter kind⟩
  | call call => exact hs.call call
  | exit => exact hs.exit
  | resetLocalContext => exact hs.resetLocalContext

theorem Linked.run (hs : Linked ρ s s') (steps : List Step) :
    ∃ ρ', Linked ρ' (s.run steps) (s'.run steps) := by
  induction steps generalizing ρ s s' with
  | nil => exact ⟨ρ, hs⟩
  | cons a steps ih =>
    obtain ⟨ρ', hs'⟩ := hs.step a
    exact ih hs'

/-- **References are resolved alike in linked states.** -/
theorem Linked.sameOutcome (hs : Linked ρ s s') (expression : String) :
    SameOutcome (s.resolve expression) (s'.resolve expression) := by
  obtain ⟨h, c, p, v⟩ := s
  obtain ⟨h', c', p', v'⟩ := s'
  obtain ⟨hcontext, hdistinct, hsim, hc, hprevious, hlocal⟩ := hs
  obtain rfl : c = c' := hcontext
  obtain ⟨ρ', hle, hsim', hscope⟩ := sim_buildRunContextScope hsim hc (openFields_none c)
  have href : ExceptRel (Option.Rel (ValRel ρ')) (resolveRef _ _ expression)
      (resolveRef _ _ expression) := agree_resolveRef hsim'.agree hscope
    ⟨fun _ _ => shownParts_of_forall (fun _ _ => id) _ _ _⟩
  unfold RunState.resolve resolveIn SameOutcome
  simp only
  generalize resolveRef (buildRunContextScope c h).1 _ expression = r at href ⊢
  generalize resolveRef (buildRunContextScope c h').1 _ expression = r' at href ⊢
  cases href with
  | error e => exact .error e
  | ok hv =>
    cases hv with
    | none => exact .ok .none
    | some hv => exact .ok (.some ⟨ρ', hsim'.agree, hv⟩)

end

/-! ### Two runs that differ locally, side by side -/

/-- Two states that are linked but for the local constants. -/
structure Parted (ρ : ℕ → ℕ → Prop) (s s' : RunState) : Prop where
  context : s.context = s'.context
  distinct : s.context.globalScope ≠ s.context.localScope
  sim : Sim (hideLocal s.context.localScope) ρ s.heap s'.heap
  rooted : Rooted ρ s.context
  kinds : s.previous.map Previous.kind = s'.previous.map Previous.kind

section

variable {ρ : ℕ → ℕ → Prop} {s s' : RunState} {h h' : Heap} {c : RunContext}

theorem Rooted.symm (hc : Rooted ρ c) : Rooted (fun m l => ρ l m) c :=
  ⟨hc.runEnvelope, hc.globalScope, hc.localScope, hc.resultScope⟩

theorem openFields_local (hne : c.globalScope ≠ c.localScope) :
    OpenFields (hideLocal c.localScope) c :=
  ⟨fun h => hne h.1, fun h => absurd h.2 (by decide)⟩

/-- Hidden items are set on both sides, to whatever it is. -/
theorem sim_setLocal (s : Sim (hideLocal c.localScope) ρ h h') (v v' : Val) :
    Sim (hideLocal c.localScope) ρ (h.setItem c.localScope (.name "constants") v)
      (h'.setItem c.localScope (.name "constants") v') := by
  have hleft := sim_setHidden s (a := c.localScope) ⟨rfl, rfl⟩ v
  exact (sim_setHidden hleft.symm ⟨rfl, rfl⟩ v').symm

/-- What is hidden may be shown where it is related after all. -/
theorem sim_show {hide : ℕ → String → Prop} (s : Sim hide ρ h h')
    (hshow : ∀ l m d d' k, ρ l m → h[l]? = some (.dict d) → h'[m]? = some (.dict d') → hide l k →
      Option.Rel (ValRel ρ) (d.get? k) (d'.get? k)) : Sim hideNone ρ h h' := by
  refine ⟨s.unique, fun l m hlm => ?_, fun _ _ _ _ => Iff.rfl, fun _ _ hf => hf.elim⟩
  obtain ⟨o, o', ho, ho', hrel⟩ := s.agree l m hlm
  refine ⟨o, o', ho, ho', ?_⟩
  cases hrel with
  | dict hd =>
    refine .dict fun k _ => ?_
    by_cases hk : hide l k
    · exact hshow l m _ _ k hlm ho ho' hk
    · exact hd k hk
  | list hl => exact .list hl

theorem Linked.parted (hs : Linked ρ s s') : Parted ρ s s' := by
  have hlocal := hs.rooted.localScope
  refine ⟨hs.context, hs.distinct, ?_, hs.rooted, ?_⟩
  · refine ⟨hs.sim.unique, fun l m hlm => ?_, ?_, ?_⟩
    · obtain ⟨o, o', ho, ho', hrel⟩ := hs.sim.agree l m hlm
      exact ⟨o, o', ho, ho', hrel.hide fun _ hf => hf.elim⟩
    · intro l m k hlm
      constructor
      · rintro ⟨rfl, hk⟩
        exact ⟨hs.sim.unique.2 hlm hlocal, hk⟩
      · rintro ⟨rfl, hk⟩
        exact ⟨hs.sim.unique.1 hlm hlocal, hk⟩
    · rintro l k ⟨rfl, -⟩
      exact ⟨hs.sim.lt_left hlocal, hs.sim.lt_right hlocal⟩
  · have hprevious := hs.previous
    generalize s.previous = p at hprevious ⊢
    generalize s'.previous = p' at hprevious ⊢
    cases hprevious with
    | none => rfl
    | some hp => exact congrArg some hp.1

theorem Parted.newLocalContext (hs : Parted ρ s s') :
    Parted ρ (s.step .newLocalContext) (s'.step .newLocalContext) := by
  have hleft := sim_isPrefix hs.sim (List.prefix_append s.heap [.dict []])
  have hright := (sim_isPrefix hleft.symm (List.prefix_append s'.heap [.dict []])).symm
  exact ⟨hs.context, hs.distinct, hright, hs.rooted, hs.kinds⟩

theorem Parted.enter (hs : Parted ρ s s') (kind : SuiteItemKind) :
    Parted ρ (s.step (.enter kind)) (s'.step (.enter kind)) := by
  obtain ⟨h, c, p, v⟩ := s
  obtain ⟨h', c', p', v'⟩ := s'
  obtain ⟨hcontext, hdistinct, hsim, hc, hkinds⟩ := hs
  obtain rfl : c = c' := hcontext
  refine ⟨rfl, hdistinct, ?_, ⟨hc.runEnvelope, hc.globalScope, hc.localScope, hc.resultScope⟩, rfl⟩
  have hleft (v : Val) := sim_setHidden hsim (a := c.localScope) ⟨rfl, rfl⟩ v
  have hright (v : Val) :=
    (sim_setHidden hsim.symm (a := c.localScope) (k := "constants") ⟨rfl, rfl⟩ v).symm
  cases v with
  | none =>
    cases v' with
    | none => exact hsim
    | some v' => exact hright v'
  | some v =>
    cases v' with
    | none => exact hleft v
    | some v' => exact sim_setLocal hsim v v'

theorem Parted.exit (hs : Parted ρ s s') : Parted ρ (s.step .exit) (s'.step .exit) := by
  obtain ⟨h, c, p, v⟩ := s
  obtain ⟨h', c', p', v'⟩ := s'
  obtain ⟨hcontext, hdistinct, hsim, hc, hkinds⟩ := hs
  obtain rfl : c = c' := hcontext
  cases p with
  | none =>
    cases p' with
    | none => exact ⟨rfl, hdistinct, hsim, hc, rfl⟩
    | some p' => simp at hkinds
  | some p =>
    cases p' with
    | none => simp at hkinds
    | some p' =>
      have hkind : p.kind = p'.kind := Option.some.inj hkinds
      have hleft := sim_isPrefix hsim (prefix_dictOrNew h p.localVars)
      have hright := (sim_isPrefix hleft.symm (prefix_dictOrNew h' p'.localVars)).symm
      refine ⟨?_, hdistinct, sim_setLocal hright _ _,
        ⟨hc.runEnvelope, hc.globalScope, hc.localScope, hc.resultScope⟩, rfl⟩
      simp only [RunState.step, hkind]

/-- A confined call on the left. -/
theorem Parted.callLeft (hs : Parted ρ s s') {call : Call}
    (hlocal : call.IsLocal s.context.currentItemKind) (hconfined : Confined s.context s.heap call) :
    ∃ ρ', Parted ρ' (s.step (.call call)) s' := by
  obtain ⟨ρ', hsim, hc⟩ := sim_confined hs.sim hs.rooted hlocal hconfined
  exact ⟨ρ', hs.context, hs.distinct, hsim, hc, hs.kinds⟩

theorem Parted.symm (hs : Parted ρ s s') : Parted (fun m l => ρ l m) s' s := by
  obtain ⟨hcontext, hdistinct, hsim, hc, hkinds⟩ := hs
  rw [hcontext] at hdistinct hsim hc
  exact ⟨hcontext.symm, hdistinct, hsim.symm, hc.symm, hkinds.symm⟩

/-- A confined call on the right. -/
theorem Parted.callRight (hs : Parted ρ s s') {call : Call}
    (hlocal : call.IsLocal s'.context.currentItemKind)
    (hconfined : Confined s'.context s'.heap call) : ∃ ρ', Parted ρ' s (s'.step (.call call)) := by
  obtain ⟨ρ', hs'⟩ := hs.symm.callLeft hlocal hconfined
  exact ⟨_, hs'.symm⟩

/-- The same call on both sides. -/
theorem Parted.call (hs : Parted ρ s s') {call : Call}
    (hharmless : Harmless s.context s.heap call) (hharmless' : Harmless s'.context s'.heap call) :
    ∃ ρ', Parted ρ' (s.step (.call call)) (s'.step (.call call)) := by
  by_cases hlocal : call.IsLocal s.context.currentItemKind
  · obtain ⟨ρ₁, hs₁⟩ := hs.callLeft hlocal (hharmless.confined hlocal)
    rw [hs.context] at hlocal
    exact hs₁.callRight hlocal (hharmless'.confined hlocal)
  · obtain ⟨h, c, p, v⟩ := s
    obtain ⟨h', c', p', v'⟩ := s'
    obtain ⟨hcontext, hdistinct, hsim, hc, hkinds⟩ := hs
    obtain rfl : c = c' := hcontext
    obtain ⟨ρ', hle, hsim'⟩ := sim_perform hsim hc (openFields_local hdistinct)
      (hharmless.clear hlocal)
    exact ⟨ρ', rfl, hdistinct, hsim', hc.mono hle, hkinds⟩

/-- **Calls that differ locally keep two states parted**, where they are harmless. -/
theorem Parted.calls {kind : SuiteItemKind} {calls calls' : List Call}
    (hdiffer : CallsDiffer kind calls calls') (hs : Parted ρ s s')
    (hkind : s.context.currentItemKind = kind) (hharmless : s.Harmless (calls.map .call))
    (hharmless' : s'.Harmless (calls'.map .call)) :
    ∃ ρ', Parted ρ' (s.run (calls.map .call)) (s'.run (calls'.map .call)) := by
  induction hdiffer generalizing ρ s s' with
  | nil => exact ⟨ρ, hs⟩
  | same call h ih =>
    obtain ⟨ρ₁, hs₁⟩ := hs.call (hharmless.1 call rfl) (hharmless'.1 call rfl)
    exact ih hs₁ hkind hharmless.2 hharmless'.2
  | left hlocal h ih =>
    rw [← hkind] at hlocal
    obtain ⟨ρ₁, hs₁⟩ := hs.callLeft hlocal ((hharmless.1 _ rfl).confined hlocal)
    exact ih hs₁ hkind hharmless.2 hharmless'
  | right hlocal h ih =>
    rw [← hkind, hs.context] at hlocal
    obtain ⟨ρ₁, hs₁⟩ := hs.callRight hlocal ((hharmless'.1 _ rfl).confined hlocal)
    exact ih hs₁ hkind hharmless hharmless'.2

/-- Where the local constants are new on both sides, two states are linked again. -/
theorem Parted.resetLocalContext (hs : Parted ρ s s') (hnone : s.previous = none)
    (hnone' : s'.previous = none) :
    ∃ ρ', Linked ρ' (s.step .resetLocalContext) (s'.step .resetLocalContext) := by
  obtain ⟨h, c, p, v⟩ := s
  obtain ⟨h', c', p', v'⟩ := s'
  obtain ⟨hcontext, hdistinct, hsim, hc, hkinds⟩ := hs
  obtain rfl : c = c' := hcontext
  obtain rfl : p = none := hnone
  obtain rfl : p' = none := hnone'
  obtain ⟨ρ', hle, hsim', hnew⟩ := sim_alloc hsim (objRel_dict (dictRel_nil (ρ := ρ)))
  have hc' := hc.mono hle
  have hset := hsim'.setItem hc'.localScope (.name "constants") (.ref hnew)
  refine ⟨ρ', rfl, hdistinct, sim_show hset ?_, hc', .none, .none⟩
  rintro l m d d' k hlm hd hd' ⟨rfl, rfl⟩
  obtain rfl := hsim'.unique.2 hlm hc'.localScope
  -- the item that was hidden is the new dictionary
  have hget {g : Heap} {d : Dict String Val} {w : Val} (hg : c.localScope < g.length)
      (hd : (g.setItem c.localScope (.name "constants") w)[c.localScope]? = some (.dict d)) :
      d.get? "constants" = some w := by
    rw [Heap.setItem, Heap.modify_self (List.getElem?_eq_getElem hg)] at hd
    cases hobj : g[c.localScope] with
    | dict e =>
      rw [hobj] at hd
      obtain rfl := Obj.dict.inj (Option.some.inj hd)
      exact Dict.get?_set_self ..
    | list xs =>
      rw [hobj] at hd
      exact absurd (Option.some.inj hd) (by simp [Obj.set])
  rw [hget (hsim'.lt_left hlm) hd, hget (hsim'.lt_right hlm) hd']
  exact .some (.ref hnew)

end

/-! ### Whole tests -/

namespace RunState

theorem run_append (s : RunState) (steps steps' : List Step) :
    s.run (steps ++ steps') = (s.run steps).run steps' := List.foldl_append

theorem run_cons (s : RunState) (a : Step) (steps : List Step) :
    s.run (a :: steps) = (s.step a).run steps := rfl

theorem harmless_append {s : RunState} {steps steps' : List Step} :
    s.Harmless (steps ++ steps') ↔ s.Harmless steps ∧ (s.run steps).Harmless steps' := by
  induction steps generalizing s with
  | nil => exact ⟨fun h => ⟨trivial, h⟩, fun h => h.2⟩
  | cons a steps ih => exact (and_congr_right fun _ => ih).trans and_assoc.symm

theorem previous_exit (s : RunState) : (s.step .exit).previous = none := by
  obtain ⟨h, c, p, v⟩ := s
  cases p with
  | none => rfl
  | some p => rfl

/-- An item takes back what it kept. -/
theorem previous_item (s : RunState) (item : Item) : (s.run item.steps).previous = none := by
  rw [Item.steps, run_cons, run_append]
  exact previous_exit _

theorem previous_items {s : RunState} (hs : s.previous = none) (items : List Item) :
    (s.run (items.flatMap Item.steps)).previous = none := by
  induction items generalizing s with
  | nil => exact hs
  | cons item items ih =>
    rw [List.flatMap_cons, run_append]
    exact ih (previous_item s item)

theorem previous_test {s : RunState} (hs : s.previous = none) (test : TestRun) :
    (s.run test.steps).previous = none := by
  rw [TestRun.steps, run_cons, run_append]
  exact previous_items (s := s.step .newLocalContext) hs test.items

theorem previous_tests {s : RunState} (hs : s.previous = none) (tests : List TestRun) :
    (s.run (tests.flatMap TestRun.steps)).previous = none := by
  induction tests generalizing s with
  | nil => exact hs
  | cons test tests ih =>
    rw [List.flatMap_cons, run_append]
    exact ih (previous_test hs test)

end RunState

section

variable {ρ : ℕ → ℕ → Prop} {s s' : RunState}

/-- The calls of an item are made while its kind is the current one. -/
theorem Parted.item {item item' : Item} (hdiffer : item.Differs item') (hs : Parted ρ s s')
    (hharmless : s.Harmless item.steps) (hharmless' : s'.Harmless item'.steps) :
    ∃ ρ', Parted ρ' (s.run item.steps) (s'.run item'.steps) := by
  obtain ⟨kind, calls⟩ := item
  obtain ⟨kind', calls'⟩ := item'
  obtain ⟨hkind, hcalls⟩ := hdiffer
  obtain rfl : kind = kind' := hkind
  have hcalls₁ := (RunState.harmless_append.1 hharmless.2).1
  have hcalls₁' := (RunState.harmless_append.1 hharmless'.2).1
  obtain ⟨ρ₁, hs₁⟩ := (hs.enter kind).calls hcalls rfl hcalls₁ hcalls₁'
  rw [Item.steps, Item.steps, RunState.run_cons, RunState.run_cons, RunState.run_append,
    RunState.run_append]
  exact ⟨ρ₁, hs₁.exit⟩

theorem Parted.items {items items' : List Item} (hdiffer : List.Forall₂ Item.Differs items items')
    (hs : Parted ρ s s') (hharmless : s.Harmless (items.flatMap Item.steps))
    (hharmless' : s'.Harmless (items'.flatMap Item.steps)) :
    ∃ ρ', Parted ρ' (s.run (items.flatMap Item.steps)) (s'.run (items'.flatMap Item.steps)) := by
  induction hdiffer generalizing ρ s s' with
  | nil => exact ⟨ρ, hs⟩
  | cons hitem hitems ih =>
    rw [List.flatMap_cons] at hharmless hharmless'
    obtain ⟨hitem₁, hitems₁⟩ := RunState.harmless_append.1 hharmless
    obtain ⟨hitem₁', hitems₁'⟩ := RunState.harmless_append.1 hharmless'
    obtain ⟨ρ₁, hs₁⟩ := hs.item hitem hitem₁ hitem₁'
    rw [List.flatMap_cons, List.flatMap_cons, RunState.run_append, RunState.run_append]
    exact ih hs₁ hitems₁ hitems₁'

/-- **Two tests that differ locally leave linked states linked**, where their calls are
harmless. -/
theorem Linked.test {test test' : TestRun} (hdiffer : test.Differs test') (hs : Linked ρ s s')
    (hnone : s.previous = none) (hnone' : s'.previous = none) (hharmless : s.Harmless test.steps)
    (hharmless' : s'.Harmless test'.steps) :
    ∃ ρ', Linked ρ' (s.run test.steps) (s'.run test'.steps) := by
  have hitems := (RunState.harmless_append.1 hharmless.2).1
  have hitems' := (RunState.harmless_append.1 hharmless'.2).1
  obtain ⟨ρ₁, hs₁⟩ := hs.parted.newLocalContext.items hdiffer hitems hitems'
  rw [TestRun.steps, TestRun.steps, RunState.run_cons, RunState.run_cons, RunState.run_append,
    RunState.run_append]
  exact hs₁.resetLocalContext (RunState.previous_items (s := s.step .newLocalContext) hnone _)
    (RunState.previous_items (s := s'.step .newLocalContext) hnone' _)

end

/-- The context of a run, as it is made, is linked to itself. -/
theorem linked_start (runId : String) (event initialVars : Json) :
    ∃ ρ, Linked ρ (.start runId event initialVars) (.start runId event initialVars) := by
  have hempty : Sim hideNone (fun _ _ => False) [] [] :=
    ⟨⟨fun _ _ _ h => h.elim, fun _ _ _ h => h.elim⟩, fun _ _ h => h.elim, fun _ _ _ h => h.elim,
      fun _ _ h => h.elim⟩
  obtain ⟨ρ₁, hle₁, s₁, hevent⟩ := sim_ofJson event hempty
  obtain ⟨ρ₂, hle₂, s₂, hvars⟩ := sim_ofJson initialVars s₁
  obtain ⟨ρ₃, hle₃, s₃, hc⟩ := sim_createRunContext runId s₂ (hevent.mono hle₂) hvars
  refine ⟨ρ₃, rfl, ?_, s₃, hc, .none, .none⟩
  simp only [RunState.start, createRunContext, Heap.alloc, List.length_append,
    List.length_singleton]
  omega

namespace SuiteRun

theorem previous_opening (r : SuiteRun) : (r.start.run r.opening).previous = none := by
  unfold opening
  cases r.beforeAll with
  | none => rfl
  | some item => exact RunState.previous_item _ item

theorem previous_stateAt (r : SuiteRun) (i : ℕ) : (r.stateAt i []).previous = none := by
  rw [stateAt, List.append_nil, RunState.run_append]
  exact RunState.previous_tests r.previous_opening _

/-- The state in a later test, from the state before an earlier one. -/
theorem stateAt_later {r : SuiteRun} {i j : ℕ} {test : TestRun} (hi : r.tests[i]? = some test)
    (hij : i < j) (steps : List Step) :
    r.stateAt j steps = ((r.stateAt i []).run test.steps).run
      (((r.tests.take j).drop (i + 1)).flatMap TestRun.steps ++ steps) := by
  have hsplit : r.tests.take j = r.tests.take i ++ test :: (r.tests.take j).drop (i + 1) := by
    have hlt : i < (r.tests.take j).length := by
      have := (List.getElem?_eq_some_iff.1 hi).1
      rw [List.length_take]
      omega
    have hget : (r.tests.take j)[i] = test := by
      rw [List.getElem_take]
      exact (List.getElem?_eq_some_iff.1 hi).2
    conv_lhs => rw [← List.take_append_drop i (r.tests.take j)]
    rw [List.take_take, min_eq_left hij.le, List.drop_eq_getElem_cons hlt, hget]
  simp only [stateAt, List.append_nil, RunState.run_append]
  rw [hsplit, List.flatMap_append, List.flatMap_cons, RunState.run_append, RunState.run_append,
    ← hsplit]

/-- **Two runs that differ locally in a test resolve every reference alike in the later
tests**, where the calls of that test are harmless. -/
theorem isolated_of_harmless {r : SuiteRun} {i j : ℕ} {test test' : TestRun}
    (hi : r.tests[i]? = some test) (hdiffer : test.Differs test')
    (hharmless : (r.stateAt i []).Harmless test.steps)
    (hharmless' : (r.stateAt i []).Harmless test'.steps) (hij : i < j) (steps : List Step)
    (expression : String) :
    SameOutcome ((r.stateAt j steps).resolve expression)
      (({ r with tests := r.tests.set i test' }.stateAt j steps).resolve expression) := by
  have hlt := (List.getElem?_eq_some_iff.1 hi).1
  have hi' : (r.tests.set i test')[i]? = some test' := by
    rw [List.getElem?_set_self hlt]
  have hbefore : ({ r with tests := r.tests.set i test' } : SuiteRun).stateAt i []
      = r.stateAt i [] := by
    simp only [stateAt, List.take_set, List.set_eq_of_length_le, List.length_take_le, start, opening]
  have hbetween : ((r.tests.set i test').take j).drop (i + 1) = (r.tests.take j).drop (i + 1) := by
    rw [List.take_set, List.drop_set, if_pos (by omega)]
  obtain ⟨ρ₀, hstart⟩ := linked_start r.runId r.event r.initialVars
  obtain ⟨ρ₁, hs₁⟩ := hstart.run (r.opening ++ (r.tests.take i).flatMap TestRun.steps ++ [])
  obtain ⟨ρ₂, hs₂⟩ := hs₁.test hdiffer (r.previous_stateAt i) (r.previous_stateAt i) hharmless
    hharmless'
  obtain ⟨ρ₃, hs₃⟩ := hs₂.run (((r.tests.take j).drop (i + 1)).flatMap TestRun.steps ++ steps)
  rw [stateAt_later hi hij, stateAt_later (r := { r with tests := r.tests.set i test' }) hi' hij,
    hbefore, hbetween]
  exact hs₃.sameOutcome expression

end SuiteRun

/-! ### Two tests -/

/-- Every call of some steps returns. -/
def RunState.Accepted (s : RunState) : List Step → Prop
  | [] => True
  | step :: steps =>
    (∀ call, step = .call call → (perform s.context s.heap call).2 = .ok ()) ∧
      (s.step step).Accepted steps

/-- A test of one item. -/
def testOf (calls : List Call) : TestRun := ⟨[⟨.test, calls⟩]⟩

/-- A run of a test with some calls, and of a test that makes none. -/
def twoTests (calls : List Call) : SuiteRun where
  runId := "run"
  event := .obj []
  initialVars := .obj []
  beforeAll := none
  tests := [testOf calls, testOf []]

/-- The new constants of a test, written as a whole. -/
def writeConstants (total : ℤ) : Call := .write "$.local.constants" (.json (.obj [("total", .int total)]))

/-- A field of the local scope that is no constant. -/
def writeEvent : Call := .write "$.local.event.total" (.json (.int 1))

theorem isLocal_writeConstants (total : ℤ) : (writeConstants total).IsLocal .test :=
  ⟨"$.local.constants", ["constants"], rfl, by decide +kernel⟩

theorem isLocal_writeEvent : writeEvent.IsLocal .test :=
  ⟨"$.local.event.total", ["event", "total"], rfl, by decide +kernel⟩

theorem confined_writeConstants (total : ℤ) (c : RunContext) (h : Heap) :
    Confined c h (writeConstants total) := by
  intro path tokens hpath htarget
  obtain rfl := Except.ok.inj hpath
  have htokens : contextTarget "$.local.constants" = .ok (some (.localScope, ["constants"])) := by
    decide +kernel
  have hname : toKey "constants" = .ok (.name "constants") := by decide +kernel
  obtain rfl : ["constants"] = tokens :=
    congrArg Prod.snd (Option.some.inj (Except.ok.inj (htokens.symm.trans htarget)))
  refine ⟨fun h => by simp at h, fun l key hl hkey => ⟨.inl ⟨?_, ?_⟩, fun _ _ => trivial⟩⟩
  · exact (Val.ref.inj hl).symm
  · exact Except.ok.inj (hkey.symm.trans hname)

/-- A test that writes its constants does no harm. -/
theorem harmless_writeConstants (total : ℤ) (s : RunState) :
    s.Harmless (testOf [writeConstants total]).steps := by
  refine ⟨by simp, by simp, ?_, by simp, by simp, trivial⟩
  rintro call hcall
  obtain rfl := Step.call.inj hcall
  exact ⟨fun _ => confined_writeConstants total _ _, fun hno => absurd (isLocal_writeConstants total) hno⟩

/-- The local constants of the first test are gone in the second. -/
theorem isolated_writeConstants :
    SameOutcome
      (((twoTests [writeConstants 1]).stateAt 1 [.newLocalContext, .enter .test]).resolve
        "$.local.constants.total")
      (({ twoTests [writeConstants 1] with
          tests := (twoTests [writeConstants 1]).tests.set 0 (testOf [writeConstants 2]) }.stateAt 1
            [.newLocalContext, .enter .test]).resolve "$.local.constants.total") := by
  have hdiffer : (testOf [writeConstants 1]).Differs (testOf [writeConstants 2]) :=
    .cons ⟨rfl, .left (isLocal_writeConstants 1) (.right (isLocal_writeConstants 2) .nil)⟩ .nil
  exact SuiteRun.isolated_of_harmless rfl hdiffer (harmless_writeConstants 1 _)
    (harmless_writeConstants 2 _) (by decide) _ _

/-- **A later test sees what an earlier one wrote below the local scope:** only the local
constants are taken out. -/
theorem writeEvent_not_isolated :
    ¬ ∀ (r : SuiteRun) (i j : ℕ) (test test' later : TestRun) (steps : List Step)
        (expression : String),
      r.tests[i]? = some test → test.Differs test' → (r.stateAt i []).Accepted test.steps →
      (r.stateAt i []).Accepted test'.steps → i < j → r.tests[j]? = some later →
      steps <+: later.steps →
      SameOutcome ((r.stateAt j steps).resolve expression)
        (({ r with tests := r.tests.set i test' }.stateAt j steps).resolve expression) := by
  intro hisolated
  have hdiffer : (testOf [writeEvent]).Differs (testOf []) :=
    .cons ⟨rfl, .left isLocal_writeEvent .nil⟩ .nil
  have haccepted : ((twoTests [writeEvent]).stateAt 0 []).Accepted (testOf [writeEvent]).steps := by
    refine ⟨by simp, by simp, ?_, by simp, by simp, trivial⟩
    rintro call hcall
    obtain rfl := Step.call.inj hcall
    decide +kernel
  have haccepted' : ((twoTests [writeEvent]).stateAt 0 []).Accepted (testOf []).steps :=
    ⟨by simp, by simp, by simp, by simp, trivial⟩
  have hsame := hisolated (twoTests [writeEvent]) 0 1 (testOf [writeEvent]) (testOf []) (testOf [])
    [.newLocalContext, .enter .test] "$.local.event.total" rfl hdiffer haccepted haccepted'
    (by decide) rfl ⟨[.exit, .resetLocalContext], rfl⟩
  have hleft : (((twoTests [writeEvent]).stateAt 1 [.newLocalContext, .enter .test]).resolve
      "$.local.event.total").2 = .ok (some (.int 1)) := by decide +kernel
  have hright : (({ twoTests [writeEvent] with
      tests := (twoTests [writeEvent]).tests.set 0 (testOf []) }.stateAt 1
        [.newLocalContext, .enter .test]).resolve "$.local.event.total").2 = .ok none := by
    decide +kernel
  unfold SameOutcome at hsame
  rw [hleft, hright] at hsame
  cases hsame with
  | ok hrel => cases hrel

end Context
end QualityFlow
