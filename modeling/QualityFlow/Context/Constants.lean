/-
# The constants of a run as a store

The calls of commands on the paths of constants, and `bind_suite_item_context` and
`reset_local_context` of `app/elaborations/services/suite_runs/run_context.py` around them, as
`_execute` of `app/elaborations/services/test_suites/test_suite_executor_thread.py` uses them.

On these paths the context of a run is a store of constants, one dictionary to a scope, and
the dictionary of the local scope changes with the items of a suite.  The dictionaries are
objects of their own, so that what is done to one is not seen in another.
-/

import QualityFlow.Context.ConstantPath

namespace QualityFlow
namespace Context

open Py Command Suite

/-! ### The store -/

/-- The constants of a run.  Beside the dictionaries of the scopes there may be a local one that
is not in force: that of the test while none of its items runs, and during an item the one that
was in force before. -/
structure ConstantStore where
  kind : SuiteItemKind
  constants : ConstantContext → Dict String Val
  aside : Option (Dict String Val)
  /-- The kind of before, while an item runs. -/
  previous : Option SuiteItemKind

/-- What a run does, where its commands write and remove constants. -/
inductive ConstantStep where
  | newLocalContext
  | enter (kind : SuiteItemKind)
  | write (s : ConstantContext) (n : ConstantName) (value : Source)
  | remove (s : ConstantContext) (n : ConstantName)
  | exit
  | resetLocalContext

/-- The step on the context. -/
def ConstantStep.toStep : ConstantStep → Step
  | .newLocalContext => .newLocalContext
  | .enter kind => .enter kind
  | .write s n value => .call (.write (constantPath s n.toToken) value)
  | .remove s n => .call (.remove (constantPath s n.toToken))
  | .exit => .exit
  | .resetLocalContext => .resetLocalContext

namespace ConstantStore

/-- The constants of one scope are changed, where it may be written. -/
def change (a : ConstantStore) (s : ConstantContext) (f : Dict String Val → Dict String Val) :
    ConstantStore × Except String Unit :=
  match guardScope a.kind s with
  | .error e => (a, .error e)
  | .ok () => ({ a with constants := Function.update a.constants s (f (a.constants s)) }, .ok ())

/-- The local constants and those aside change places. -/
def swap (a : ConstantStore) (kind : SuiteItemKind) (previous : Option SuiteItemKind) :
    ConstantStore where
  kind := kind
  constants := Function.update a.constants .localScope (a.aside.getD [])
  aside := some (a.constants .localScope)
  previous := previous

/-- One step; `made` is what a value comes to. -/
def step (a : ConstantStore) (made : Source → Except String Val) : ConstantStep → ConstantStore
  | .newLocalContext => { a with aside := some [] }
  | .enter kind => a.swap kind (some a.kind)
  | .write s n value =>
    match made value with
    | .error _ => a
    | .ok v => (a.change s fun d => d.set n.val v).1
  | .remove s n => (a.change s fun d => d.erase n.val).1
  | .exit => a.swap (a.previous.getD a.kind) none
  | .resetLocalContext =>
    { a with constants := Function.update a.constants .localScope [], aside := none }

/-- The order in which a run of a suite does things: an item is not entered inside of another,
nor before there is a local context for it. -/
def Allows (a : ConstantStore) : ConstantStep → Prop
  | .newLocalContext | .resetLocalContext => a.previous = none
  | .enter _ => a.previous = none ∧ a.aside ≠ none
  | .exit => a.previous ≠ none
  | .write _ _ _ | .remove _ _ => True

end ConstantStore

/-! ### A context is a store -/

/-- The constants of a store are in dictionaries of their own. -/
structure Stores (place : ConstantContext → ℕ) (beside : Option ℕ) (s : RunState)
    (a : ConstantStore) : Prop where
  kind : s.context.currentItemKind = a.kind
  constants : ∀ sc, ConstantsAt s.context s.heap sc (place sc) (a.constants sc)
  aside : Option.Rel (fun l d => s.heap[l]? = some (.dict d)) beside a.aside
  scopes : ∀ sc sc', s.context.scope (rootOf sc) = s.context.scope (rootOf sc') → sc = sc'
  places : Function.Injective place
  inside : ∀ sc sc', place sc ≠ s.context.scope (rootOf sc')
  apart : ∀ l ∈ beside, ∀ sc, l ≠ place sc ∧ l ≠ s.context.scope (rootOf sc)
  between : a.previous = none → s.localContext = beside.map Val.ref
  during : ∀ kind, a.previous = some kind → s.localContext = some (.ref (place .localScope)) ∧
    ∃ l, beside = some l ∧ s.previous = some { kind, localVars := .ref l }

namespace Stores

variable {place : ConstantContext → ℕ} {beside : Option ℕ} {s : RunState} {a : ConstantStore}

theorem lt_length (hs : Stores place beside s a) (sc : ConstantContext) :
    place sc < s.heap.length :=
  (List.getElem?_eq_some_iff.1 (hs.constants sc).dict).1

/-- Objects made behind those of the store change nothing. -/
theorem of_isPrefix (hs : Stores place beside s a) {h : Heap} (hpre : s.heap <+: h) :
    Stores place beside { s with heap := h } a where
  kind := hs.kind
  constants sc := (hs.constants sc).of_isPrefix hpre
  aside := by
    have haside := hs.aside
    generalize a.aside = d at haside ⊢
    cases haside with
    | none => exact .none
    | some hl => exact .some (Heap.getElem?_of_isPrefix hpre hl)
  scopes := hs.scopes
  places := hs.places
  inside := hs.inside
  apart := hs.apart
  between := hs.between
  during := hs.during

/-- **A change of one dictionary is one of its scope alone.** -/
theorem modify (hs : Stores place beside s a) (sc : ConstantContext) {f : Obj → Obj}
    {g : Dict String Val → Dict String Val} (hf : ∀ d, f (.dict d) = .dict (g d)) :
    Stores place beside { s with heap := s.heap.modify (place sc) f }
      { a with constants := Function.update a.constants sc (g (a.constants sc)) } where
  kind := hs.kind
  constants sc' := by
    have hscope := Heap.modify_of_ne s.heap (hs.inside sc sc') f
    refine (hs.constants sc').congr rfl hscope ?_
    dsimp only
    by_cases heq : sc' = sc
    · subst heq
      rw [Heap.modify_self (hs.constants sc').dict, hf, Function.update_self]
    · have hne : place sc ≠ place sc' := fun h => heq (hs.places h).symm
      rw [Heap.modify_of_ne _ hne, Function.update_of_ne heq]
      exact (hs.constants sc').dict
  aside := by
    have haside := hs.aside
    have hapart := hs.apart
    generalize a.aside = d at haside ⊢
    cases haside with
    | none => exact .none
    | some hl =>
      refine .some ?_
      rw [Heap.modify_of_ne _ (Ne.symm (hapart _ rfl sc).1)]
      exact hl
  scopes := hs.scopes
  places := hs.places
  inside := hs.inside
  apart := hs.apart
  between := hs.between
  during := hs.during

/-- The dictionary that is not in force, with its place. -/
theorem aside_eq (hs : Stores place beside s a) {l : ℕ} (hl : beside = some l) :
    s.heap[l]? = some (.dict (a.aside.getD [])) := by
  have haside := hs.aside
  rw [hl] at haside
  generalize a.aside = d at haside ⊢
  cases haside with
  | some hd => exact hd

/-- The places once the local constants are in another dictionary. -/
theorem places_update (hs : Stores place beside s a) {l : ℕ} (hl : ∀ sc, l ≠ place sc) :
    Function.Injective (Function.update place .localScope l) := by
  intro sc sc' heq
  by_cases h : sc = .localScope
  · by_cases h' : sc' = .localScope
    · rw [h, h']
    · rw [h, Function.update_self, Function.update_of_ne h'] at heq
      exact absurd heq (hl sc')
  · by_cases h' : sc' = .localScope
    · rw [h', Function.update_self, Function.update_of_ne h] at heq
      exact absurd heq.symm (hl sc)
    · rw [Function.update_of_ne h, Function.update_of_ne h'] at heq
      exact hs.places heq

/-- The local constants are in another dictionary from now on. -/
theorem replace (hs : Stores place beside s a) {l : ℕ} {d : Dict String Val} {c : RunContext}
    (hl : s.heap[l]? = some (.dict d)) (hscope : ∀ sc, l ≠ s.context.scope (rootOf sc))
    (hc : c.scope = s.context.scope) (sc : ConstantContext) :
    ConstantsAt c (s.heap.setItem s.context.localScope (.name "constants") (.ref l)) sc
      (Function.update place .localScope l sc) (Function.update a.constants .localScope d sc) := by
  by_cases h : sc = .localScope
  · subst h
    rw [Function.update_self, Function.update_self]
    exact (hs.constants .localScope).replace hl (hscope .localScope) hc
  · have hother : s.context.localScope ≠ s.context.scope (rootOf sc) :=
      fun heq => h (hs.scopes .localScope sc heq).symm
    have hinside : s.context.localScope ≠ place sc := (hs.inside sc .localScope).symm
    rw [Function.update_of_ne h, Function.update_of_ne h]
    exact (hs.constants sc).congr hc (Heap.modify_of_ne _ hother _)
      ((Heap.modify_of_ne _ hinside _).trans (hs.constants sc).dict)

/-- **Where an item is entered or left, the local constants and those aside change places.** -/
theorem swap (hs : Stores place beside s a) {l : ℕ} (hl : beside = some l) {c : RunContext}
    {kind : SuiteItemKind} {previous : Option SuiteItemKind} {localContext : Option Val}
    {before : Option Previous} (hc : c.scope = s.context.scope) (hkind : c.currentItemKind = kind)
    (hbetween : previous = none → localContext = some (.ref (place .localScope)))
    (hduring : ∀ k, previous = some k → localContext = some (.ref l) ∧
      before = some { kind := k, localVars := .ref (place .localScope) }) :
    Stores (Function.update place .localScope l) (some (place .localScope))
      { heap := s.heap.setItem s.context.localScope (.name "constants") (.ref l), context := c
        previous := before, localContext } (a.swap kind previous) where
  kind := hkind
  constants := hs.replace (hs.aside_eq hl) (fun sc => (hs.apart l hl sc).2) hc
  aside := .some ((Heap.modify_of_ne _ (hs.inside .localScope .localScope).symm _).trans
    (hs.constants .localScope).dict)
  scopes := by
    rw [hc]
    exact hs.scopes
  places := hs.places_update fun sc => (hs.apart l hl sc).1
  inside sc sc' := by
    rw [hc]
    by_cases h : sc = .localScope
    · rw [h, Function.update_self]
      exact (hs.apart l hl sc').2
    · rw [Function.update_of_ne h]
      exact hs.inside sc sc'
  apart := by
    rintro m hm sc
    cases hm
    refine ⟨?_, by rw [hc]; exact hs.inside .localScope sc⟩
    by_cases h : sc = .localScope
    · rw [h, Function.update_self]
      exact (hs.apart l hl .localScope).1.symm
    · rw [Function.update_of_ne h]
      exact fun heq => h (hs.places heq).symm
  between h := hbetween h
  during k h := by
    rw [Function.update_self]
    exact ⟨(hduring k h).1, _, rfl, (hduring k h).2⟩

/-- A write or a removal, once its value is made. -/
theorem perform_write (hs : Stores place beside s a) (sc : ConstantContext) (n : ConstantName)
    (value : Source) :
    Stores place beside (s.step (.call (.write (constantPath sc n.toToken) value)))
        (a.step (fun source => (make s.context s.heap source).2) (.write sc n value)) ∧
      (perform s.context s.heap (.write (constantPath sc n.toToken) value)).2
        = (make s.context s.heap value).2.bind fun v => (a.change sc fun d => d.set n.val v).2 := by
  have hpre := prefix_make s.context s.heap value
  unfold RunState.step perform ConstantStore.step ConstantStore.change
  simp only [Call.value]
  generalize make s.context s.heap value = made at hpre ⊢
  obtain ⟨h, v⟩ := made
  have hs' := hs.of_isPrefix hpre
  cases v with
  | error e => exact ⟨hs', rfl⟩
  | ok v =>
    simp only [(hs'.constants sc).writeContextPath_eq n v, hs.kind]
    cases guardScope a.kind sc with
    | error e => exact ⟨hs', rfl⟩
    | ok u =>
      cases u
      exact ⟨hs'.modify sc (g := fun d => d.set n.val v) fun d => rfl, rfl⟩

theorem perform_remove (hs : Stores place beside s a) (sc : ConstantContext) (n : ConstantName) :
    Stores place beside (s.step (.call (.remove (constantPath sc n.toToken))))
        (a.step (fun source => (make s.context s.heap source).2) (.remove sc n)) ∧
      (perform s.context s.heap (.remove (constantPath sc n.toToken))).2
        = (a.change sc fun d => d.erase n.val).2 := by
  have hmake : make s.context s.heap (.json .null) = (s.heap, .ok .null) := rfl
  unfold RunState.step perform ConstantStore.step ConstantStore.change
  simp only [Call.value, hmake, (hs.constants sc).removeContextPath_eq n, hs.kind]
  cases guardScope a.kind sc with
  | error e => exact ⟨hs, rfl⟩
  | ok u =>
    cases u
    refine ⟨?_, rfl⟩
    have hmodify := hs.modify sc (f := fun o => o.erase (.name n.val)) (g := fun d => d.erase n.val)
      fun d => rfl
    by_cases hsome : ((a.constants sc).get? n.val).isSome
    · rw [if_pos hsome]
      exact hmodify
    · have hsame : (a.constants sc).erase n.val = a.constants sc := by
        refine List.filter_eq_self.2 fun kv hkv => ?_
        have hne : kv.1 ≠ n.val := by
          intro heq
          rw [← heq] at hsome
          exact hsome (Dict.mem_keys_iff.1 (List.mem_map_of_mem hkv))
        simpa using hne
      rw [if_neg hsome, hsame, Function.update_eq_self]
      exact hs

/-- A dictionary that is made is apart from those of the store. -/
theorem fresh (hs : Stores place beside s a) (sc : ConstantContext) :
    s.heap.length ≠ place sc ∧ s.heap.length ≠ s.context.scope (rootOf sc) := by
  have hplace := hs.lt_length sc
  obtain ⟨fields, hfields⟩ := (hs.constants sc).scope_isDict
  have hscope := (List.getElem?_eq_some_iff.1 hfields).1
  omega

/-- **One step of the run is one of the store.** -/
theorem step (hs : Stores place beside s a) {st : ConstantStep} (hallows : a.Allows st) :
    ∃ place' beside', Stores place' beside' (s.step st.toStep)
      (a.step (fun source => (make s.context s.heap source).2) st) := by
  cases st with
  | newLocalContext =>
    have hpre : s.heap <+: s.heap ++ [.dict []] := List.prefix_append _ _
    have hs' := hs.of_isPrefix hpre
    refine ⟨place, some s.heap.length, ?_⟩
    exact
      { hs' with
        aside := .some (by simp [ConstantStep.toStep, RunState.step, Heap.alloc])
        apart := by
          rintro l hl sc
          cases hl
          exact hs.fresh sc
        between := fun _ => rfl
        during := fun kind hkind => absurd (hallows.symm.trans hkind) (by simp) }
  | enter kind =>
    obtain ⟨hprevious, haside⟩ := hallows
    obtain ⟨l, hl⟩ : ∃ l, beside = some l := by
      have hrel := hs.aside
      generalize a.aside = d at haside hrel
      cases hrel with
      | none => exact absurd rfl haside
      | some h => exact ⟨_, rfl⟩
    have hlocal : s.localContext = some (.ref l) := by rw [hs.between hprevious, hl]; rfl
    have hfield : s.heap.field s.context.localScope "constants" = .ref (place .localScope) :=
      Heap.field_eq (hs.constants .localScope).slot
    refine ⟨Function.update place .localScope l, some (place .localScope), ?_⟩
    simp only [ConstantStep.toStep, RunState.step, hlocal, ConstantStore.step, hfield, hs.kind]
    refine hs.swap hl ?_ rfl (by simp) ?_
    · funext root
      cases root <;> rfl
    · intro k hk
      cases hk
      exact ⟨rfl, rfl⟩
  | write sc n value => exact ⟨_, _, (hs.perform_write sc n value).1⟩
  | remove sc n => exact ⟨_, _, (hs.perform_remove sc n).1⟩
  | exit =>
    obtain ⟨kind, hkind⟩ := Option.ne_none_iff_exists'.1 hallows
    obtain ⟨hlocal, l, hl, hprevious⟩ := hs.during kind hkind
    have hdict : s.heap.IsDict (.ref l) := ⟨_, hs.aside_eq hl⟩
    refine ⟨Function.update place .localScope l, some (place .localScope), ?_⟩
    simp only [ConstantStep.toStep, RunState.step, hprevious, dictOrNew_eq hdict,
      ConstantStore.step, hkind, Option.getD_some]
    refine hs.swap hl ?_ rfl (fun _ => hlocal) (by simp)
    funext root
    cases root <;> rfl
  | resetLocalContext =>
    have hpre : s.heap <+: s.heap ++ [.dict []] := List.prefix_append _ _
    have hs' := hs.of_isPrefix hpre
    have hnew : (s.heap ++ [Obj.dict []])[s.heap.length]? = some (.dict []) := by simp
    refine ⟨Function.update place .localScope s.heap.length, none, ?_⟩
    exact
      { kind := hs.kind
        constants := hs'.replace hnew (fun sc => (hs.fresh sc).2) rfl
        aside := .none
        scopes := hs.scopes
        places := hs.places_update fun sc => (hs.fresh sc).1
        inside := fun sc sc' => by
          by_cases h : sc = .localScope
          · rw [h, Function.update_self]
            exact (hs.fresh sc').2
          · rw [Function.update_of_ne h]
            exact hs.inside sc sc'
        apart := by simp
        between := fun _ => rfl
        during := fun kind hkind => absurd (hallows.symm.trans hkind) (by simp) }

end Stores

/-! ### Runs -/

/-- The constants that a run is given. -/
def initialConstants (event initialVars : Json) : Dict String Val :=
  match initialVars with
  | .obj constants => (Heap.ofJsonItems (Heap.ofJson [] event).1 constants).2
  | _ => []

/-- The store a run starts with: what it is given is in the run envelope. -/
def ConstantStore.start (constants : Dict String Val) : ConstantStore where
  kind := .hook
  constants := fun
    | .runEnvelope => constants
    | .globalScope | .localScope | .resultScope => []
  aside := none
  previous := none

/-- A run, and the store beside it. -/
inductive ConstantRun : RunState → ConstantStore → Prop where
  | start (runId : String) (event initialVars : Json) :
      ConstantRun (.start runId event initialVars) (.start (initialConstants event initialVars))
  | step {s : RunState} {a : ConstantStore} (run : ConstantRun s a) (st : ConstantStep)
      (allows : a.Allows st) :
      ConstantRun (s.step st.toStep)
        (a.step (fun source => (make s.context s.heap source).2) st)

theorem ofJson_obj (h : Heap) (kvs : List (String × Json)) : h.ofJson (.obj kvs)
    = ((h.ofJsonItems kvs).1 ++ [.dict (h.ofJsonItems kvs).2],
      .ref (h.ofJsonItems kvs).1.length) := by
  rw [Heap.ofJson]
  rfl

theorem ofJson_arr (h : Heap) (xs : List Json) : h.ofJson (.arr xs)
    = ((h.ofJsonList xs).1 ++ [.list (h.ofJsonList xs).2], .ref (h.ofJsonList xs).1.length) := by
  rw [Heap.ofJson]
  rfl

theorem stores_create {h : Heap} {event vars : Val} {d : Dict String Val} (runId : String)
    (hvars : ∀ h' : Heap, h <+: h' →
      ∃ l, (h'.dictOrNew vars).2 = .ref l ∧ (h'.dictOrNew vars).1[l]? = some (.dict d)) :
    ∃ place, Stores place none
      { heap := (createRunContext h runId event vars).1
        context := (createRunContext h runId event vars).2, previous := none, localContext := none }
      (.start d) := by
  have hpre := prefix_dictOrNew h event
  unfold createRunContext
  generalize h.dictOrNew event = x at hpre ⊢
  obtain ⟨h₀, event⟩ := x
  obtain ⟨l, hl, hdict⟩ := hvars h₀ hpre
  dsimp only
  generalize h₀.dictOrNew vars = x at hl hdict ⊢
  obtain ⟨h₁, vars⟩ := x
  subst hl
  have hlt : l < h₁.length := (List.getElem?_eq_some_iff.1 hdict).1
  simp only [Heap.alloc, List.append_assoc, List.cons_append, List.nil_append, List.length_append,
    List.length_cons, List.length_nil]
  refine ⟨fun
    | .runEnvelope => l
    | .globalScope => h₁.length + 1
    | .localScope => h₁.length + 3
    | .resultScope => h₁.length + 7, ?_⟩
  exact
    { kind := rfl
      constants := by
        intro sc
        cases sc
        · exact ⟨by simp [RunContext.scope, rootOf, Heap.item?, Heap.obj?, Obj.get?], by
            rw [List.getElem?_append_left hlt]; exact hdict⟩
        · exact ⟨by simp [RunContext.scope, rootOf, Heap.item?, Heap.obj?, Obj.get?], by
            simp [ConstantStore.start]⟩
        · exact ⟨by simp [RunContext.scope, rootOf, Heap.item?, Heap.obj?, Obj.get?], by
            simp [ConstantStore.start]⟩
        · exact ⟨by simp [RunContext.scope, rootOf, Heap.item?, Heap.obj?, Obj.get?], by
            simp [ConstantStore.start]⟩
      aside := .none
      scopes := by
        intro sc sc' heq
        cases sc <;> cases sc' <;> simp [RunContext.scope, rootOf] at heq ⊢
      places := by
        intro sc sc' heq
        cases sc <;> cases sc' <;> simp at heq ⊢ <;> omega
      inside := by
        intro sc sc'
        cases sc <;> cases sc' <;> simp [RunContext.scope, rootOf] <;> omega
      apart := by simp
      between := fun _ => rfl
      during := by simp [ConstantStore.start] }

/-- **Every state of a run stores its constants apart.** -/
theorem ConstantRun.stores {s : RunState} {a : ConstantStore} (run : ConstantRun s a) :
    ∃ place beside, Stores place beside s a := by
  induction run with
  | start runId event initialVars =>
    have hvars : ∀ h' : Heap, ((Heap.ofJson [] event).1.ofJson initialVars).1 <+: h' →
        ∃ l, (h'.dictOrNew ((Heap.ofJson [] event).1.ofJson initialVars).2).2 = .ref l ∧
          (h'.dictOrNew ((Heap.ofJson [] event).1.ofJson initialVars).2).1[l]?
            = some (.dict (initialConstants event initialVars)) := by
      intro h' hpre
      cases initialVars with
      | obj kvs =>
        have hmade := ofJson_obj (Heap.ofJson [] event).1 kvs
        rw [hmade] at hpre ⊢
        have hdict := Heap.getElem?_of_isPrefix hpre (List.getElem?_concat_length ..)
        have hisDict : h'.IsDict (.ref ((Heap.ofJson [] event).1.ofJsonItems kvs).1.length) :=
          ⟨_, hdict⟩
        rw [dictOrNew_eq hisDict]
        exact ⟨_, rfl, hdict⟩
      | arr xs =>
        have hmade := ofJson_arr (Heap.ofJson [] event).1 xs
        rw [hmade] at hpre ⊢
        have hlist := Heap.getElem?_of_isPrefix hpre (List.getElem?_concat_length ..)
        refine dictOrNew_new ?_
        rintro ⟨d, hd⟩
        rw [Heap.obj?, hlist] at hd
        cases hd
      | _ => exact dictOrNew_new (by simp [Heap.IsDict, Heap.obj?, Heap.ofJson])
    obtain ⟨place, hs⟩ := stores_create runId hvars
    exact ⟨place, none, hs⟩
  | step run st allows ih =>
    obtain ⟨place, beside, hs⟩ := ih
    exact hs.step allows

/-- What a reference to a constant leads to. -/
theorem ConstantRun.resolve_eq {s : RunState} {a : ConstantStore} (run : ConstantRun s a)
    (sc : ConstantContext) (n : ConstantName) :
    (s.resolve (constantPath sc n.toToken)).2 = .ok ((a.constants sc).get? n.val) := by
  obtain ⟨place, beside, hs⟩ := run.stores
  exact ((hs.constants sc).resolveIn_eq n).2

/-- **On the paths of constants the context of a run is a store**: a reference leads to what was
written last in its scope and not removed since, in a local scope by the test that runs; and
a write or a removal is refused where a test writes to the global scope or to the run envelope,
and only there. -/
theorem constants_refine {s : RunState} {a : ConstantStore} (run : ConstantRun s a)
    (sc : ConstantContext) (n : ConstantName) :
    (s.resolve (constantPath sc n.toToken)).2 = .ok ((a.constants sc).get? n.val) ∧
      (∀ value, (perform s.context s.heap (.write (constantPath sc n.toToken) value)).2
        = (make s.context s.heap value).2.bind fun v => (a.change sc fun d => d.set n.val v).2) ∧
      (perform s.context s.heap (.remove (constantPath sc n.toToken))).2
        = (a.change sc fun d => d.erase n.val).2 := by
  obtain ⟨place, beside, hs⟩ := run.stores
  exact ⟨run.resolve_eq sc n, fun value => (hs.perform_write sc n value).2,
    (hs.perform_remove sc n).2⟩

/-! ### The tests of a run -/

/-- A write or a removal. -/
def ConstantStep.IsCall : ConstantStep → Prop
  | .write _ _ _ | .remove _ _ => True
  | .newLocalContext | .enter _ | .exit | .resetLocalContext => False

/-- An item whose commands write and remove constants. -/
structure ConstantItem where
  kind : SuiteItemKind
  calls : List { st : ConstantStep // st.IsCall }

/-- The steps of an item. -/
def ConstantItem.steps (item : ConstantItem) : List ConstantStep :=
  .enter item.kind :: (item.calls.map Subtype.val ++ [.exit])

/-- The steps of a test with the hooks around it. -/
def constantTest (items : List ConstantItem) : List ConstantStep :=
  .newLocalContext :: (items.flatMap ConstantItem.steps ++ [.resetLocalContext])

/-- The scopes that a test may not write are as they were. -/
def ConstantStore.SameShared (a a' : ConstantStore) : Prop :=
  a'.constants .globalScope = a.constants .globalScope ∧
    a'.constants .runEnvelope = a.constants .runEnvelope

theorem ConstantStore.sameShared_change {a : ConstantStore} (h : a.kind = .test)
    (sc : ConstantContext) (f : Dict String Val → Dict String Val) :
    a.SameShared (a.change sc f).1 := by
  unfold ConstantStore.change guardScope ConstantStore.SameShared
  cases sc <;> simp [h]

/-- A call keeps the item that runs, and in a test what a test may not write. -/
theorem ConstantStore.step_call (a : ConstantStore) (made : Source → Except String Val)
    {st : ConstantStep} (hst : st.IsCall) :
    (a.step made st).kind = a.kind ∧ (a.step made st).aside = a.aside ∧
      (a.step made st).previous = a.previous ∧
      (a.kind = .test → a.SameShared (a.step made st)) := by
  have hchange (sc : ConstantContext) (f : Dict String Val → Dict String Val) :
      (a.change sc f).1.kind = a.kind ∧ (a.change sc f).1.aside = a.aside ∧
        (a.change sc f).1.previous = a.previous := by
    unfold ConstantStore.change
    cases guardScope a.kind sc <;> exact ⟨rfl, rfl, rfl⟩
  cases st with
  | write sc n value =>
    simp only [ConstantStore.step]
    cases made value with
    | error e => exact ⟨rfl, rfl, rfl, fun _ => ⟨rfl, rfl⟩⟩
    | ok v =>
      obtain ⟨hkind, haside, hprevious⟩ := hchange sc fun d => d.set n.val v
      exact ⟨hkind, haside, hprevious, fun h => sameShared_change h sc _⟩
  | remove sc n =>
    obtain ⟨hkind, haside, hprevious⟩ := hchange sc fun d => d.erase n.val
    exact ⟨hkind, haside, hprevious, fun h => sameShared_change h sc _⟩
  | newLocalContext => exact hst.elim
  | enter kind => exact hst.elim
  | exit => exact hst.elim
  | resetLocalContext => exact hst.elim

theorem ConstantStore.SameShared.trans {a a' a'' : ConstantStore} (h : a.SameShared a')
    (h' : a'.SameShared a'') : a.SameShared a'' := ⟨h'.1.trans h.1, h'.2.trans h.2⟩

theorem ConstantStore.sameShared_swap (a : ConstantStore) (kind : SuiteItemKind)
    (previous : Option SuiteItemKind) : a.SameShared (a.swap kind previous) := by
  unfold ConstantStore.SameShared ConstantStore.swap
  simp

namespace ConstantRun

variable {s : RunState} {a : ConstantStore}

/-- The calls of an item. -/
theorem calls (run : ConstantRun s a) (calls : List { st : ConstantStep // st.IsCall }) :
    ∃ a', ConstantRun (s.run ((calls.map Subtype.val).map ConstantStep.toStep)) a' ∧
      a'.kind = a.kind ∧ a'.aside = a.aside ∧ a'.previous = a.previous ∧
      (a.kind = .test → a.SameShared a') := by
  induction calls generalizing s a with
  | nil => exact ⟨a, run, rfl, rfl, rfl, fun _ => ⟨rfl, rfl⟩⟩
  | cons call calls ih =>
    have hallows : a.Allows call.val := by
      obtain ⟨st, hst⟩ := call
      cases st <;> trivial
    obtain ⟨hkind, haside, hprevious, hshared⟩ :=
      a.step_call (fun source => (make s.context s.heap source).2) call.property
    obtain ⟨a', run', hkind', haside', hprevious', hshared'⟩ := ih (run.step _ hallows)
    exact ⟨a', run', hkind'.trans hkind, haside'.trans haside, hprevious'.trans hprevious,
      fun h => (hshared h).trans (hshared' (hkind.trans h))⟩

/-- An item leaves the local constants as they were before it. -/
theorem item (run : ConstantRun s a) (hprevious : a.previous = none) (haside : a.aside ≠ none)
    (item : ConstantItem) :
    ∃ a', ConstantRun (s.run (item.steps.map ConstantStep.toStep)) a' ∧ a'.previous = none ∧
      a'.aside ≠ none ∧ (item.kind = .test → a.SameShared a') := by
  have entered := run.step (.enter item.kind) ⟨hprevious, haside⟩
  obtain ⟨a', run', hkind', haside', hprevious', hshared'⟩ := entered.calls item.calls
  have left := run'.step .exit (by
    show a'.previous ≠ none
    rw [hprevious']
    simp [ConstantStore.step, ConstantStore.swap])
  refine ⟨a'.swap (a'.previous.getD a'.kind) none, ?_, rfl, by simp [ConstantStore.swap],
    fun h => ?_⟩
  · rw [ConstantItem.steps, List.map_cons, List.map_append, RunState.run, List.foldl_cons,
      List.foldl_append]
    exact left
  · exact ((a.sameShared_swap _ _).trans (hshared' h)).trans (a'.sameShared_swap _ _)

/-- The items of a test. -/
theorem items (run : ConstantRun s a) (hprevious : a.previous = none) (haside : a.aside ≠ none)
    (items : List ConstantItem) :
    ∃ a', ConstantRun (s.run ((items.flatMap ConstantItem.steps).map ConstantStep.toStep)) a' ∧
      a'.previous = none ∧ ((∀ item ∈ items, item.kind = .test) → a.SameShared a') := by
  induction items generalizing s a with
  | nil => exact ⟨a, run, hprevious, fun _ => ⟨rfl, rfl⟩⟩
  | cons item items ih =>
    obtain ⟨a₁, run₁, hprevious₁, haside₁, hshared₁⟩ := run.item hprevious haside item
    obtain ⟨a₂, run₂, hprevious₂, hshared₂⟩ := ih run₁ hprevious₁ haside₁
    refine ⟨a₂, ?_, hprevious₂, fun h => ?_⟩
    · rw [List.flatMap_cons, List.map_append, RunState.run, List.foldl_append]
      exact run₂
    · rw [List.forall_mem_cons] at h
      exact (hshared₁ h.1).trans (hshared₂ h.2)

/-- A test between two others. -/
theorem test (run : ConstantRun s a) (hprevious : a.previous = none) (items : List ConstantItem) :
    ∃ a', ConstantRun (s.run ((constantTest items).map ConstantStep.toStep)) a' ∧
      a'.previous = none ∧ a'.constants .localScope = [] ∧
      ((∀ item ∈ items, item.kind = .test) → a.SameShared a') := by
  have opened := run.step .newLocalContext hprevious
  obtain ⟨a', run', hprevious', hshared'⟩ :=
    opened.items hprevious (by simp [ConstantStore.step]) items
  have reset := run'.step .resetLocalContext hprevious'
  refine ⟨{ a' with constants := Function.update a'.constants .localScope [], aside := none }, ?_,
    hprevious', by simp, fun h => ?_⟩
  · rw [constantTest, List.map_cons, List.map_append, RunState.run, List.foldl_cons,
      List.foldl_append]
    exact reset
  · obtain ⟨hglobal, henvelope⟩ := hshared' h
    exact ⟨hglobal, henvelope⟩

end ConstantRun

/-- What a test has written to its scope is what it reads there. -/
theorem constants_refine_test :
    ∃ (s : RunState) (a : ConstantStore) (n : ConstantName), ConstantRun s a ∧ n.val = "price" ∧
      (s.resolve (constantPath .localScope n.toToken)).2 = .ok (some (.int 7)) := by
  let n : ConstantName := ⟨⟨"price", by decide, by decide⟩, by simp, by decide⟩
  have start := ConstantRun.start "run" .null .null
  have opened := start.step .newLocalContext rfl
  have entered := opened.step (.enter .test) ⟨rfl, by simp [ConstantStore.step]⟩
  have written := entered.step (.write .localScope n (.json (.int 7))) trivial
  refine ⟨_, _, n, written, rfl, ?_⟩
  rw [(constants_refine written .localScope n).1]
  rfl

/-- **A test leaves no local constant behind, and the shared constants as they were unless one
of its hooks has written them.** -/
theorem test_leaves {s : RunState} {a : ConstantStore} (run : ConstantRun s a)
    (hprevious : a.previous = none) (items : List ConstantItem) (n : ConstantName) :
    ((s.run ((constantTest items).map ConstantStep.toStep)).resolve
        (constantPath .localScope n.toToken)).2 = .ok none ∧
      ((∀ item ∈ items, item.kind = .test) → ∀ sc, sc = .globalScope ∨ sc = .runEnvelope →
        ((s.run ((constantTest items).map ConstantStep.toStep)).resolve
            (constantPath sc n.toToken)).2
          = (s.resolve (constantPath sc n.toToken)).2) := by
  obtain ⟨a', run', hprevious', hlocal, hshared⟩ := run.test hprevious items
  constructor
  · rw [run'.resolve_eq, hlocal]
    rfl
  · intro h sc hsc
    rw [run'.resolve_eq, run.resolve_eq]
    rcases hsc with rfl | rfl
    · rw [(hshared h).1]
    · rw [(hshared h).2]

/-- A test that writes a local constant and would write a shared one, in a run that is given a
constant. -/
theorem test_leaves_price :
    ∃ (s : RunState) (price vat : ConstantName), price.val = "price" ∧ vat.val = "vat" ∧
      (s.resolve (constantPath .localScope price.toToken)).2 = .ok none ∧
      (s.resolve (constantPath .runEnvelope vat.toToken)).2 = .ok (some (.int 22)) := by
  let price : ConstantName := ⟨⟨"price", by decide, by decide⟩, by simp, by decide⟩
  let vat : ConstantName := ⟨⟨"vat", by decide, by decide⟩, by simp, by decide⟩
  let item : ConstantItem :=
    { kind := .test
      calls := [⟨.write .localScope price (.json (.int 7)), trivial⟩,
        ⟨.write .runEnvelope vat (.json (.int 4)), trivial⟩] }
  have start := ConstantRun.start "run" .null (.obj [("vat", .int 22)])
  have hshared := (test_leaves start rfl [item] vat).2 (by simp [item]) .runEnvelope (.inr rfl)
  rw [start.resolve_eq] at hshared
  exact ⟨_, price, vat, rfl, rfl, (test_leaves start rfl [item] price).1, hshared⟩

end Context
end QualityFlow
