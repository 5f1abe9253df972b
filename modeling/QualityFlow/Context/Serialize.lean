/-
# A context that is handed on

`serialize_run_context` and `deserialize_run_context` of
`app/elaborations/services/suite_runs/run_context.py`; the dispatcher of the mock
servers hands the context of a request on to the operations behind the response in
this way.

The payload holds the scopes themselves, and a new context is made from some of their
fields: the event and the constants of the envelope, the constants of the global and
the local scope, and the result scope unless it is empty.  What else a write has put
there, and what it has put in the place of one of these, is lost (`survives_iff`).
-/

import QualityFlow.Context.Isolation

namespace QualityFlow
namespace Context

open Py Suite

/-- The fields of the payload that the context is made from again. -/
structure RunContextPayload where
  runId : Val
  runEnvelope : Val
  globalScope : Val
  localScope : Val
  resultScope : Val

/-- `serialize_run_context`. -/
def serializeRunContext (c : RunContext) : RunContextPayload where
  runId := .str (strip c.runId)
  runEnvelope := .ref c.runEnvelope
  globalScope := .ref c.globalScope
  localScope := .ref c.localScope
  resultScope := .ref c.resultScope

/-- `a or b`. -/
def orVal (h : Heap) (a b : Val) : Val := if h.truthy a then a else b

/-- `result_payload or {"artifacts": {}, "commands": {}, "constants": {}}`. -/
def resultOrNew (h : Heap) (l : ℕ) : Heap × ℕ :=
  if h.truthy (.ref l) then (h, l)
  else
    let (h, artifacts) := h.alloc (.dict [])
    let (h, commands) := h.alloc (.dict [])
    let (h, results) := h.alloc (.dict [])
    h.alloc (.dict
      [("artifacts", .ref artifacts), ("commands", .ref commands), ("constants", .ref results)])

/-- `scope["constants"] = payload.get("constants")`, where those are dictionaries. -/
def takeConstants (h : Heap) (payload : Val) (scope : ℕ) : Heap :=
  let (h, payload) := h.dictAt payload
  let (h, constants) := h.dictAt (h.field payload "constants")
  h.setItem scope (.name "constants") (.ref constants)

/-- `deserialize_run_context`. -/
def deserializeRunContext (h : Heap) (source : RunContextPayload) : Heap × RunContext :=
  let (h, runEnvelope) := h.dictAt source.runEnvelope
  let runId := orVal h source.runId (orVal h (h.field runEnvelope "run_id") (.str ""))
  let (h, initialVars) := h.dictAt (h.field runEnvelope "constants")
  let (h, event) := h.dictAt (h.field runEnvelope "event")
  let (h, context) :=
    createRunContext h (strip (h.str runId)) (.ref event) (.ref initialVars)
  let h := takeConstants h source.globalScope context.globalScope
  let h := takeConstants h source.localScope context.localScope
  let (h, resultPayload) := h.dictAt source.resultScope
  let (h, resultScope) := resultOrNew h resultPayload
  (h, { context with resultScope })

/-- A context after it was handed on. -/
def RunState.restored (s : RunState) : RunState :=
  let (h, c) := deserializeRunContext s.heap (serializeRunContext s.context)
  { s with heap := h, context := c }

/-! ### What is made again -/

section

variable {h : Heap}

/-- A new context behind the objects of before, and its dictionaries. -/
theorem createRunContext_eq (runId : String) {event vars : Val} (hevent : h.IsDict event)
    (hvars : h.IsDict vars) :
    createRunContext h runId event vars =
      (h ++ [.dict [("run_id", .str (strip runId)), ("event", event), ("constants", vars)],
          .dict [], .dict [("runEnvelope", .ref h.length), ("constants", .ref (h.length + 1))],
          .dict [], .dict [("global", .ref (h.length + 2)), ("constants", .ref (h.length + 3))],
          .dict [], .dict [], .dict [],
          .dict [("artifacts", .ref (h.length + 5)), ("commands", .ref (h.length + 6)),
            ("constants", .ref (h.length + 7))]],
        { runId := strip runId, runEnvelope := h.length, globalScope := h.length + 2,
          localScope := h.length + 4, resultScope := h.length + 8, currentItemKind := .hook }) := by
  simp [createRunContext, Heap.dictOrNew, Heap.isDict_iff.2 hevent, Heap.isDict_iff.2 hvars,
    Heap.alloc]

/-- The scope of results is kept, unless it is empty. -/
theorem resultOrNew_spec (l : ℕ) :
    h <+: (resultOrNew h l).1 ∧ (h.IsDict (.ref l) →
      (resultOrNew h l).1.IsDict (.ref (resultOrNew h l).2)) ∧
      (resultOrNew h l).1.truthy (.ref (resultOrNew h l).2) ∧
      (h.truthy (.ref l) → (resultOrNew h l).2 = l) := by
  unfold resultOrNew
  by_cases hl : h.truthy (.ref l) = true
  · rw [if_pos hl]
    exact ⟨List.prefix_rfl, id, hl, fun _ => rfl⟩
  · rw [if_neg hl]
    refine ⟨?_, fun _ => ?_, ?_, fun h => absurd h hl⟩
    · simp [Heap.alloc, List.append_assoc]
    · simp [Heap.alloc, Heap.IsDict, Heap.obj?]
    · simp [Heap.alloc, Heap.truthy]

/-- An entry of the payload that a new context is made from. -/
structure Taken (h : Heap) (l : ℕ) (k : String) (h' : Heap) (m : ℕ) : Prop where
  isDict : h'.IsDict (.ref m)
  eq : h.IsDict (.ref l) → h.IsDict (h.field l k) → h.field l k = .ref m

/-- The id that a new context has: the one of the context, or else the one of its envelope. -/
structure TakenId (h : Heap) (c : RunContext) (id : String) : Prop where
  strip_eq : strip id = id
  own : strip c.runId ≠ "" → id = strip c.runId
  other : strip c.runId = "" → h.IsDict (.ref c.runEnvelope) →
    ∀ s, h.field c.runEnvelope "run_id" = .str s → id = strip s

/-- What a context is after it was handed on. -/
structure Restored (h : Heap) (c : RunContext) (h' : Heap) (c' : RunContext) : Prop where
  pre : h <+: h'
  envelope : ∃ id event vars,
    h'[c'.runEnvelope]? = some
      (.dict [("run_id", .str id), ("event", .ref event), ("constants", .ref vars)]) ∧
    TakenId h c id ∧ Taken h c.runEnvelope "event" h' event ∧
    Taken h c.runEnvelope "constants" h' vars
  globalScope : ∃ globals,
    h'[c'.globalScope]? = some
      (.dict [("runEnvelope", .ref c'.runEnvelope), ("constants", .ref globals)]) ∧
    Taken h c.globalScope "constants" h' globals
  localScope : ∃ locals,
    h'[c'.localScope]? = some
      (.dict [("global", .ref c'.globalScope), ("constants", .ref locals)]) ∧
    Taken h c.localScope "constants" h' locals
  result : h'.IsDict (.ref c'.resultScope) ∧ h'.truthy (.ref c'.resultScope) ∧
    (h.IsDict (.ref c.resultScope) → h.truthy (.ref c.resultScope) →
      c'.resultScope = c.resultScope)

theorem Taken.mono {h' h₂ : Heap} {l m : ℕ} {k : String} (ht : Taken h l k h' m)
    (hdict : h'.IsDict (.ref m) → h₂.IsDict (.ref m)) : Taken h l k h₂ m :=
  ⟨hdict ht.isDict, ht.eq⟩

/-- A field of a scope is taken in a heap with more objects. -/
theorem taken_field {h₂ : Heap} {l e : ℕ} {k : String} (hpre : h <+: h₂)
    (he : h.IsDict (.ref l) → e = l) :
    Taken h l k (h₂.dictAt (h₂.field e k)).1 (h₂.dictAt (h₂.field e k)).2 := by
  refine ⟨Heap.isDict_dictAt _ _, fun hl hk => ?_⟩
  have hfield : h₂.field e k = h.field l k := by
    rw [he hl, Heap.field_of_isPrefix hpre hl]
  have hdict : h₂.IsDict (h₂.field e k) := by
    rw [hfield]
    exact hk.of_isPrefix hpre
  rw [← hfield]
  exact (Heap.dictAt_eq hdict).2

/-- A scope of the payload that is a dictionary is read as it is. -/
theorem dictAt_scope {h₂ : Heap} {l : ℕ} (hpre : h <+: h₂) (hl : h.IsDict (.ref l)) :
    (h₂.dictAt (.ref l)).2 = l :=
  (Val.ref.inj (Heap.dictAt_eq (hl.of_isPrefix hpre)).2).symm

/-- The constants of a scope are taken over into a new one. -/
theorem takeConstants_spec {h₂ : Heap} {l scope : ℕ} {name : String} {v w : Val}
    (hpre : h <+: h₂) (hscope : h.length ≤ scope) (hname : name ≠ "constants")
    (hobj : h₂[scope]? = some (.dict [(name, v), ("constants", w)])) :
    h <+: takeConstants h₂ (.ref l) scope ∧
      (∀ a o, a ≠ scope → h₂[a]? = some o → (takeConstants h₂ (.ref l) scope)[a]? = some o) ∧
      (∀ v, h₂.IsDict v → (takeConstants h₂ (.ref l) scope).IsDict v) ∧
      ∃ m, (takeConstants h₂ (.ref l) scope)[scope]?
          = some (.dict [(name, v), ("constants", .ref m)]) ∧
        Taken h l "constants" (takeConstants h₂ (.ref l) scope) m := by
  have hpre₃ := Heap.prefix_dictAt h₂ (.ref l)
  have heq₃ : h.IsDict (.ref l) → (h₂.dictAt (.ref l)).2 = l := dictAt_scope hpre
  unfold takeConstants
  generalize h₂.dictAt (.ref l) = x at hpre₃ heq₃ ⊢
  obtain ⟨h₃, payload⟩ := x
  have hpre₄ := Heap.prefix_dictAt h₃ (h₃.field payload "constants")
  have htaken : Taken h l "constants" (h₃.dictAt (h₃.field payload "constants")).1
      (h₃.dictAt (h₃.field payload "constants")).2 := taken_field (hpre.trans hpre₃) heq₃
  dsimp only at hpre₃ htaken ⊢
  generalize h₃.dictAt (h₃.field payload "constants") = x at hpre₄ htaken ⊢
  obtain ⟨h₄, constants⟩ := x
  dsimp only at hpre₄ htaken ⊢
  have hpre₂₄ := hpre₃.trans hpre₄
  refine ⟨Heap.prefix_setItem (hpre.trans hpre₂₄) hscope _ _, fun a o ha ho => ?_,
    fun v hv => (hv.of_isPrefix hpre₂₄).setItem _ _ _, constants, ?_,
    htaken.mono fun hdict => hdict.setItem _ _ _⟩
  · rw [Heap.setItem, Heap.modify_of_ne _ (Ne.symm ha)]
    exact Heap.getElem?_of_isPrefix hpre₂₄ ho
  · rw [Heap.setItem, Heap.modify_self (Heap.getElem?_of_isPrefix hpre₂₄ hobj)]
    simp [Obj.set, Dict.set, hname]

/-- The id that is handed on. -/
theorem takenId {h₁ : Heap} (h₃ : Heap) {c : RunContext} {e : ℕ} (hpre : h <+: h₁)
    (he : h.IsDict (.ref c.runEnvelope) → e = c.runEnvelope) :
    TakenId h c (strip (strip (h₃.str
      (orVal h₁ (.str (strip c.runId)) (orVal h₁ (h₁.field e "run_id") (.str "")))))) := by
  refine ⟨by rw [strip_strip, strip_strip], fun hne => ?_, fun hblank hdict s hs => ?_⟩
  · have htruthy : h₁.truthy (.str (strip c.runId)) = true := by simp [Heap.truthy, hne]
    rw [orVal, if_pos htruthy, Heap.str, strip_strip, strip_strip]
  · have hfield : h₁.field e "run_id" = .str s := by
      rw [he hdict, Heap.field_of_isPrefix hpre hdict, hs]
    have hfalsy : ¬ h₁.truthy (.str (strip c.runId)) = true := by simp [Heap.truthy, hblank]
    rw [orVal, if_neg hfalsy, hfield, orVal]
    by_cases hs' : s = ""
    · have hempty : ¬ h₁.truthy (.str s) = true := by simp [Heap.truthy, hs']
      rw [if_neg hempty, hs', Heap.str, strip_strip]
    · have hfull : h₁.truthy (.str s) = true := by simp [Heap.truthy, hs']
      rw [if_pos hfull, Heap.str, strip_strip]

/-- **What a context is after it was handed on**, field by field. -/
theorem restored_deserialize (h : Heap) (c : RunContext) :
    Restored h c (deserializeRunContext h (serializeRunContext c)).1
      (deserializeRunContext h (serializeRunContext c)).2 := by
  have hpre₁ := Heap.prefix_dictAt h (.ref c.runEnvelope)
  have he : h.IsDict (.ref c.runEnvelope) → (h.dictAt (.ref c.runEnvelope)).2 = c.runEnvelope :=
    dictAt_scope List.prefix_rfl
  unfold deserializeRunContext serializeRunContext
  dsimp only
  generalize h.dictAt (.ref c.runEnvelope) = x at hpre₁ he ⊢
  obtain ⟨h₁, e⟩ := x
  dsimp only at hpre₁ he ⊢
  have hpre₂ := hpre₁.trans (Heap.prefix_dictAt h₁ (h₁.field e "constants"))
  have hvars : Taken h c.runEnvelope "constants" (h₁.dictAt (h₁.field e "constants")).1
      (h₁.dictAt (h₁.field e "constants")).2 := taken_field hpre₁ he
  generalize h₁.dictAt (h₁.field e "constants") = x at hpre₂ hvars ⊢
  obtain ⟨h₂, vars⟩ := x
  dsimp only at hpre₂ hvars ⊢
  have hpre₂₃ := Heap.prefix_dictAt h₂ (h₂.field e "event")
  have hevent : Taken h c.runEnvelope "event" (h₂.dictAt (h₂.field e "event")).1
      (h₂.dictAt (h₂.field e "event")).2 := taken_field hpre₂ he
  generalize h₂.dictAt (h₂.field e "event") = x at hpre₂₃ hevent ⊢
  obtain ⟨h₃, event⟩ := x
  dsimp only at hpre₂₃ hevent ⊢
  have hpre₃ := hpre₂.trans hpre₂₃
  have hlength := hpre₃.length_le
  replace hvars := hvars.mono fun hdict => hdict.of_isPrefix hpre₂₃
  have hid := takenId h₃ hpre₁ he
  generalize strip (h₃.str _) = id at hid ⊢
  -- the new context: its dictionaries stand behind the objects of before
  rw [createRunContext_eq id hevent.isDict hvars.isDict]
  dsimp only
  have hpre₃₄ : h₃ <+: h₃ ++ _ := List.prefix_append h₃ [.dict [("run_id", .str (strip id)),
          ("event", .ref event), ("constants", .ref vars)],
      .dict [], .dict [("runEnvelope", .ref h₃.length), ("constants", .ref (h₃.length + 1))],
      .dict [], .dict [("global", .ref (h₃.length + 2)), ("constants", .ref (h₃.length + 3))],
      .dict [], .dict [], .dict [],
      .dict [("artifacts", .ref (h₃.length + 5)), ("commands", .ref (h₃.length + 6)),
        ("constants", .ref (h₃.length + 7))]]
  generalize hh₄ : h₃ ++ _ = h₄ at hpre₃₄ ⊢
  have hE : h₄[h₃.length]? = some (.dict [("run_id", .str (strip id)), ("event", .ref event),
      ("constants", .ref vars)]) := by simp [← hh₄]
  have hG : h₄[h₃.length + 2]? = some (.dict [("runEnvelope", .ref h₃.length),
      ("constants", .ref (h₃.length + 1))]) := by simp [← hh₄]
  have hL : h₄[h₃.length + 4]? = some (.dict [("global", .ref (h₃.length + 2)),
      ("constants", .ref (h₃.length + 3))]) := by simp [← hh₄]
  have hpre₄ := hpre₃.trans hpre₃₄
  -- the constants of the global scope, and of the local one
  obtain ⟨hpre₅, hkept₅, hdict₅, globals, hG₅, hglobals⟩ :=
    takeConstants_spec (l := c.globalScope) hpre₄ (by omega) (by decide) hG
  generalize takeConstants h₄ (.ref c.globalScope) (h₃.length + 2) = h₅
    at hpre₅ hkept₅ hdict₅ hG₅ hglobals ⊢
  obtain ⟨hpre₆, hkept₆, hdict₆, locals, hL₆, hlocals⟩ :=
    takeConstants_spec (l := c.localScope) hpre₅ (by omega) (by decide)
      (hkept₅ _ _ (by omega) hL)
  generalize takeConstants h₅ (.ref c.localScope) (h₃.length + 4) = h₆
    at hpre₆ hkept₆ hdict₆ hL₆ hlocals ⊢
  -- the scope of results
  have hpre₆₇ := Heap.prefix_dictAt h₆ (.ref c.resultScope)
  have hpayload := Heap.isDict_dictAt h₆ (.ref c.resultScope)
  have hr : h.IsDict (.ref c.resultScope) → (h₆.dictAt (.ref c.resultScope)).2 = c.resultScope :=
    dictAt_scope hpre₆
  generalize h₆.dictAt (.ref c.resultScope) = x at hpre₆₇ hpayload hr ⊢
  obtain ⟨h₇, payload⟩ := x
  dsimp only at hpre₆₇ hpayload hr ⊢
  obtain ⟨hpre₇₈, hresult, htruthy, hsame⟩ := resultOrNew_spec (h := h₇) payload
  have hpre₆₈ := hpre₆₇.trans hpre₇₈
  generalize resultOrNew h₇ payload = x at hpre₇₈ hpre₆₈ hresult htruthy hsame ⊢
  obtain ⟨h₈, result⟩ := x
  dsimp only at hpre₇₈ hpre₆₈ hresult htruthy hsame ⊢
  have hne₂ : h₃.length ≠ h₃.length + 2 := by omega
  have hne₄ : h₃.length ≠ h₃.length + 4 := by omega
  have hne₂₄ : h₃.length + 2 ≠ h₃.length + 4 := by omega
  have hdict₈ {v : Val} (hv : h₃.IsDict v) : h₈.IsDict v :=
    (hdict₆ _ (hdict₅ _ (hv.of_isPrefix hpre₃₄))).of_isPrefix hpre₆₈
  refine ⟨hpre₆.trans hpre₆₈, ⟨strip id, event, vars, ?_, hid, hevent.mono hdict₈,
    hvars.mono hdict₈⟩, ⟨globals, ?_, ?_⟩, ⟨locals, ?_, ?_⟩, hresult hpayload, htruthy,
    fun hdict hfull => ?_⟩
  · exact Heap.getElem?_of_isPrefix hpre₆₈ (hkept₆ _ _ hne₄ (hkept₅ _ _ hne₂ hE))
  · exact Heap.getElem?_of_isPrefix hpre₆₈ (hkept₆ _ _ hne₂₄ hG₅)
  · exact hglobals.mono fun hv => (hdict₆ _ hv).of_isPrefix hpre₆₈
  · exact Heap.getElem?_of_isPrefix hpre₆₈ hL₆
  · exact hlocals.mono fun hv => hv.of_isPrefix hpre₆₈
  · have hfull₇ : h₇.truthy (.ref payload) = true := by
      rw [hr hdict]
      obtain ⟨d, hd⟩ := hdict
      have hd : h[c.resultScope]? = some (.dict d) := hd
      have hd₇ : h₇[c.resultScope]? = some (.dict d) :=
        Heap.getElem?_of_isPrefix (hpre₆.trans hpre₆₇) hd
      simp only [Heap.truthy, hd] at hfull
      simpa only [Heap.truthy, hd₇] using hfull
    rw [hsame hfull₇, hr hdict]

end

/-! ### When a context survives -/

/-- The scopes hold what a new context is made from, and nothing else. -/
structure Restorable (c : RunContext) (h : Heap) : Prop where
  envelopeKeys : h.HasKeys c.runEnvelope ["run_id", "event", "constants"]
  runId : ∃ s, h.field c.runEnvelope "run_id" = .str s ∧ strip s = s ∧
    (strip c.runId = "" ∨ s = strip c.runId)
  event : h.IsDict (h.field c.runEnvelope "event")
  constants : h.IsDict (h.field c.runEnvelope "constants")
  globalKeys : h.HasKeys c.globalScope ["runEnvelope", "constants"]
  globalEnvelope : Same h (h.field c.globalScope "runEnvelope") h (.ref c.runEnvelope)
  globalConstants : h.IsDict (h.field c.globalScope "constants")
  localKeys : h.HasKeys c.localScope ["global", "constants"]
  localGlobal : Same h (h.field c.localScope "global") h (.ref c.globalScope)
  localConstants : h.IsDict (h.field c.localScope "constants")
  result : h.IsDict (.ref c.resultScope)
  resultNonempty : h.truthy (.ref c.resultScope)

section

variable {ρ : ℕ → ℕ → Prop} {h h' : Heap} {c c' : RunContext}

theorem dictOrNew_eq {v : Val} (hv : h.IsDict v) : h.dictOrNew v = (h, v) := by
  rw [Heap.dictOrNew, if_pos (Heap.isDict_iff.2 hv)]

/-- What is taken where there is no dictionary is an empty one. -/
theorem dictOrNew_new {v : Val} (hv : ¬ h.IsDict v) :
    ∃ l, (h.dictOrNew v).2 = .ref l ∧ (h.dictOrNew v).1[l]? = some (.dict []) := by
  rw [Heap.dictOrNew, if_neg fun hd => hv (Heap.isDict_iff.1 hd)]
  exact ⟨h.length, rfl, by simp [Heap.alloc]⟩

/-- The dictionary that references are resolved in. -/
theorem buildRunContextScope_spec (c : RunContext) (h : Heap) :
    h <+: (buildRunContextScope c h).1 ∧ ∃ vars response,
      (buildRunContextScope c h).1[(buildRunContextScope c h).2]? = some (.dict
        [("runEnvelope", .ref c.runEnvelope), ("global", .ref c.globalScope),
          ("local", .ref c.localScope), ("result", .ref c.resultScope), ("vars", vars),
          ("response", response)]) ∧
      (h.IsDict (h.field c.globalScope "constants") → vars = h.field c.globalScope "constants") ∧
      (h.IsDict (.ref c.resultScope) →
        (h.IsDict (h.field c.resultScope "commands") →
          response = h.field c.resultScope "commands") ∧
        (¬ h.IsDict (h.field c.resultScope "commands") → h.IsDict (h.field c.globalScope "constants")
          → ∃ l, response = .ref l ∧ (buildRunContextScope c h).1[l]? = some (.dict []))) := by
  have hpre₁ := prefix_dictOrNew h (h.field c.globalScope "constants")
  have hpre₂ := prefix_dictOrNew (h.dictOrNew (h.field c.globalScope "constants")).1
    ((h.dictOrNew (h.field c.globalScope "constants")).1.field c.resultScope "commands")
  have hpre₃ : ((h.dictOrNew (h.field c.globalScope "constants")).1.dictOrNew
      ((h.dictOrNew (h.field c.globalScope "constants")).1.field c.resultScope "commands")).1
        <+: (buildRunContextScope c h).1 := List.prefix_append _ _
  refine ⟨(hpre₁.trans hpre₂).trans hpre₃,
    (h.dictOrNew (h.field c.globalScope "constants")).2,
    ((h.dictOrNew (h.field c.globalScope "constants")).1.dictOrNew
      ((h.dictOrNew (h.field c.globalScope "constants")).1.field c.resultScope "commands")).2,
    by simp [buildRunContextScope, Heap.alloc], fun hdict => by rw [dictOrNew_eq hdict], ?_⟩
  intro hresult
  have hfield := Heap.field_of_isPrefix hpre₁ hresult "commands"
  refine ⟨fun hdict => ?_, fun hno hglobals => ?_⟩
  · rw [hfield, dictOrNew_eq (hdict.of_isPrefix hpre₁)]
  · have hsame : (h.dictOrNew (h.field c.globalScope "constants")).1 = h := by
      rw [dictOrNew_eq hglobals]
    obtain ⟨l, hl, hget⟩ := dictOrNew_new hno
    refine ⟨l, by rw [hsame, hl], Heap.getElem?_of_isPrefix hpre₃ ?_⟩
    rw [hsame]
    exact hget

/-- References are resolved alike as soon as the whole scope is the same: a reference may be
to all of it. -/
theorem sameOutcome_iff_scope :
    (∀ expression, SameOutcome (resolveIn c h expression) (resolveIn c' h' expression)) ↔
      Same (buildRunContextScope c h).1 (.ref (buildRunContextScope c h).2)
        (buildRunContextScope c' h').1 (.ref (buildRunContextScope c' h').2) := by
  constructor
  · intro hsame
    have hroot (h : Heap) (l : ℕ) : resolveRef h l "$" = .ok (some (.ref l)) := by
      have hstrip : strip "$" = "$" := by decide
      rw [resolveRef, hstrip]
      rfl
    have hscope := hsame "$"
    unfold SameOutcome resolveIn at hscope
    simp only [hroot] at hscope
    cases hscope with
    | ok hrel =>
      cases hrel with
      | some hs => exact hs
  · rintro ⟨ρ, hρ, hv⟩ expression
    have href : ExceptRel (Option.Rel (ValRel ρ))
        (resolveRef (buildRunContextScope c h).1 (buildRunContextScope c h).2 expression)
        (resolveRef (buildRunContextScope c' h').1 (buildRunContextScope c' h').2 expression) :=
      agree_resolveRef hρ hv.of_ref ⟨fun _ _ => shownParts_of_forall (fun _ _ => id) _ _ _⟩
    unfold SameOutcome resolveIn
    simp only
    generalize resolveRef (buildRunContextScope c h).1 _ expression = r at href ⊢
    generalize resolveRef (buildRunContextScope c' h').1 _ expression = r' at href ⊢
    cases href with
    | error e => exact .error e
    | ok hv =>
      cases hv with
      | none => exact .ok .none
      | some hv => exact .ok (.some ⟨ρ, hρ, hv⟩)

/-- A field of a scope is related to itself. -/
theorem field_self (s : Sim hideNone ρ h h) {l : ℕ} (hl : ρ l l) (k : String) :
    ValRel ρ (h.field l k) (h.field l k) := sim_field s hl id

/-- A value that was there is the same while others are made. -/
theorem same_self (s : Sim hideNone ρ h h) {v : Val} (hv : ValRel ρ v v) (hpre : h <+: h') :
    Same h v h' v := ⟨ρ, s.agree.append List.prefix_rfl hpre, hv⟩

/-- **A restorable context is the same after it was handed on.** -/
theorem Restored.same (s : Sim hideNone ρ h h) (hc : Rooted ρ c) (hrestored : Restored h c h' c')
    (hr : Restorable c h) :
    Same (buildRunContextScope c h).1 (.ref (buildRunContextScope c h).2)
      (buildRunContextScope c' h').1 (.ref (buildRunContextScope c' h').2) := by
  obtain ⟨hpre, ⟨id, event, vars, hE, hid, hevent, hvars⟩, ⟨globals, hG, hglobals⟩,
    ⟨locals, hL, hlocals⟩, hresult', -, hsame⟩ := hrestored
  have hresult : c'.resultScope = c.resultScope := hsame hr.result hr.resultNonempty
  have hself {l : ℕ} (hl : ρ l l) (k : String) : Same h (h.field l k) h' (h.field l k) :=
    same_self s (field_self s hl k) hpre
  have hrunId : h.field c.runEnvelope "run_id" = .str id := by
    obtain ⟨t, ht, hstrip, hown⟩ := hr.runId
    by_cases hblank : strip c.runId = ""
    · rw [ht, hid.other hblank hr.envelopeKeys.isDict t ht, hstrip]
    · rw [ht, hid.own hblank, hown.resolve_left hblank]
  have hfieldE (k : String) := Heap.field_dict hE k
  have hfieldG (k : String) := Heap.field_dict hG k
  have hfieldL (k : String) := Heap.field_dict hL k
  simp only [Dict.get?_cons, Dict.get?_nil] at hfieldE hfieldG hfieldL
  -- from the envelope, which holds no scope, to the scope that holds them all
  have hsameE : Same h (.ref c.runEnvelope) h' (.ref c'.runEnvelope) := by
    refine same_of_fields hr.envelopeKeys (Heap.hasKeys_dict hE) ?_
    simp only [List.forall_mem_cons, List.not_mem_nil, false_implies, implies_true, and_true]
    refine ⟨?_, ?_, ?_⟩
    · rw [hfieldE, hrunId]
      exact .scalar (by simp)
    · rw [hfieldE, ← hevent.eq hr.envelopeKeys.isDict hr.event]
      exact hself hc.runEnvelope _
    · rw [hfieldE, ← hvars.eq hr.envelopeKeys.isDict hr.constants]
      exact hself hc.runEnvelope _
  have hsameG : Same h (.ref c.globalScope) h' (.ref c'.globalScope) := by
    refine same_of_fields hr.globalKeys (Heap.hasKeys_dict hG) ?_
    simp only [List.forall_mem_cons, List.not_mem_nil, false_implies, implies_true, and_true]
    refine ⟨?_, ?_⟩
    · rw [hfieldG]
      exact hr.globalEnvelope.trans hsameE
    · rw [hfieldG, ← hglobals.eq hr.globalKeys.isDict hr.globalConstants]
      exact hself hc.globalScope _
  have hsameL : Same h (.ref c.localScope) h' (.ref c'.localScope) := by
    refine same_of_fields hr.localKeys (Heap.hasKeys_dict hL) ?_
    simp only [List.forall_mem_cons, List.not_mem_nil, false_implies, implies_true, and_true]
    refine ⟨?_, ?_⟩
    · rw [hfieldL]
      exact hr.localGlobal.trans hsameG
    · rw [hfieldL, ← hlocals.eq hr.localKeys.isDict hr.localConstants]
      exact hself hc.localScope _
  have hsameR : Same h (.ref c.resultScope) h' (.ref c'.resultScope) := by
    rw [hresult]
    exact same_self s (.ref hc.resultScope) hpre
  have hglobals' : h'.field c'.globalScope "constants" = h.field c.globalScope "constants" := by
    rw [hfieldG, hglobals.eq hr.globalKeys.isDict hr.globalConstants]
    simp
  have hcommands : h'.field c'.resultScope "commands" = h.field c.resultScope "commands" := by
    rw [hresult, Heap.field_of_isPrefix hpre hr.result]
  obtain ⟨hpre₁, v, r, hS, hv, hresponse⟩ := buildRunContextScope_spec c h
  obtain ⟨hpre₁', v', r', hS', hv', hresponse'⟩ := buildRunContextScope_spec c' h'
  have hdict' : h'.IsDict (h'.field c'.globalScope "constants") := by
    rw [hglobals']
    exact hr.globalConstants.of_isPrefix hpre
  have hsameVars : Same (buildRunContextScope c h).1 v (buildRunContextScope c' h').1 v' := by
    rw [hv hr.globalConstants, hv' hdict', hglobals']
    exact (hself hc.globalScope _).append hpre₁ hpre₁'
  have hsameResponse :
      Same (buildRunContextScope c h).1 r (buildRunContextScope c' h').1 r' := by
    have hself' := hself hc.resultScope "commands"
    have hiff : h'.IsDict (h'.field c'.resultScope "commands")
        ↔ h.IsDict (h.field c.resultScope "commands") := by
      rw [hcommands, ← Heap.isDict_iff, ← Heap.isDict_iff, hself'.isDict]
    by_cases hdict : h.IsDict (h.field c.resultScope "commands")
    · rw [(hresponse hr.result).1 hdict, (hresponse' hresult').1 (hiff.2 hdict), hcommands]
      exact hself'.append hpre₁ hpre₁'
    · obtain ⟨l, rfl, hl⟩ := (hresponse hr.result).2 hdict hr.globalConstants
      obtain ⟨l', rfl, hl'⟩ := (hresponse' hresult').2 (fun h => hdict (hiff.1 h)) hdict'
      exact same_dict hl hl' fun _ => .none
  have hkeys : (buildRunContextScope c' h').1.HasKeys (buildRunContextScope c' h').2
      ["runEnvelope", "global", "local", "result", "vars", "response"] := Heap.hasKeys_dict hS'
  refine same_of_fields (Heap.hasKeys_dict hS) hkeys ?_
  simp only [Dict.keys, List.map_cons, List.map_nil, List.forall_mem_cons, List.not_mem_nil,
    false_implies, implies_true, and_true, Heap.field_dict hS, Heap.field_dict hS']
  exact ⟨hsameE.append hpre₁ hpre₁', hsameG.append hpre₁ hpre₁', hsameL.append hpre₁ hpre₁',
    hsameR.append hpre₁ hpre₁', hsameVars, hsameResponse⟩

/-- **A context that is the same after it was handed on is restorable.** -/
theorem Restored.restorable (s : Sim hideNone ρ h h) (hc : Rooted ρ c)
    (hrestored : Restored h c h' c')
    (hsame : Same (buildRunContextScope c h).1 (.ref (buildRunContextScope c h).2)
      (buildRunContextScope c' h').1 (.ref (buildRunContextScope c' h').2)) : Restorable c h := by
  obtain ⟨hpre, ⟨id, event, vars, hE, hid, hevent, hvars⟩, ⟨globals, hG, hglobals⟩,
    ⟨locals, hL, hlocals⟩, hresult', hfull', -⟩ := hrestored
  obtain ⟨hpre₁, v, r, hS, -, -⟩ := buildRunContextScope_spec c h
  obtain ⟨hpre₁', v', r', hS', -, -⟩ := buildRunContextScope_spec c' h'
  generalize (buildRunContextScope c h).1 = h₁ at hsame hpre₁ hS
  generalize (buildRunContextScope c h).2 = scope at hsame hS
  generalize (buildRunContextScope c' h').1 = h₁' at hsame hpre₁' hS'
  generalize (buildRunContextScope c' h').2 = scope' at hsame hS'
  have hscope (k : String) := hsame.field k
  simp only [Heap.field_dict hS, Heap.field_dict hS', Dict.get?_cons, Dict.get?_nil] at hscope
  have hsameE : Same h₁ (.ref c.runEnvelope) h₁' (.ref c'.runEnvelope) := by
    simpa using hscope "runEnvelope"
  have hsameG : Same h₁ (.ref c.globalScope) h₁' (.ref c'.globalScope) := by
    simpa using hscope "global"
  have hsameL : Same h₁ (.ref c.localScope) h₁' (.ref c'.localScope) := by
    simpa using hscope "local"
  have hsameR : Same h₁ (.ref c.resultScope) h₁' (.ref c'.resultScope) := by
    simpa using hscope "result"
  -- the objects of before, in the heap of before
  have hE₁ := Heap.getElem?_of_isPrefix hpre₁' hE
  have hG₁ := Heap.getElem?_of_isPrefix hpre₁' hG
  have hL₁ := Heap.getElem?_of_isPrefix hpre₁' hL
  have hold {l : ℕ} (hl : ρ l l) (hdict : h₁.IsDict (.ref l)) : h.IsDict (.ref l) :=
    isDict_of_isPrefix s (.ref hl) hpre₁ hdict
  have hkeys {l l' : ℕ} {names : List String} (hl : ρ l l)
      (hs : Same h₁ (.ref l) h₁' (.ref l')) (hk : h₁'.HasKeys l' names) : h.HasKeys l names := by
    have hk₁ := hs.hasKeys hk
    obtain ⟨d, hd⟩ := hold hl hk₁.isDict
    obtain ⟨d₁, hd₁, hnames⟩ := hk₁
    obtain rfl := Obj.dict.inj (Option.some.inj
      ((Heap.getElem?_of_isPrefix hpre₁ hd).symm.trans hd₁))
    exact ⟨d, hd, hnames⟩
  have hkeysE := hkeys hc.runEnvelope hsameE (Heap.hasKeys_dict hE₁)
  have hkeysG := hkeys hc.globalScope hsameG (Heap.hasKeys_dict hG₁)
  have hkeysL := hkeys hc.localScope hsameL (Heap.hasKeys_dict hL₁)
  have hfieldE (k : String) := hsameE.field k
  have hfieldG (k : String) := hsameG.field k
  have hfieldL (k : String) := hsameL.field k
  simp only [Heap.field_of_isPrefix hpre₁ hkeysE.isDict, Heap.field_dict hE₁, Dict.get?_cons,
    Dict.get?_nil] at hfieldE
  simp only [Heap.field_of_isPrefix hpre₁ hkeysG.isDict, Heap.field_dict hG₁, Dict.get?_cons,
    Dict.get?_nil] at hfieldG
  simp only [Heap.field_of_isPrefix hpre₁ hkeysL.isDict, Heap.field_dict hL₁, Dict.get?_cons,
    Dict.get?_nil] at hfieldL
  have hdict {l m : ℕ} {k : String} (hl : ρ l l) (hs : Same h₁ (h.field l k) h₁' (.ref m))
      (hm : h'.IsDict (.ref m)) : h.IsDict (h.field l k) := by
    refine isDict_of_isPrefix s (field_self s hl k) hpre₁ ?_
    rw [← Heap.isDict_iff, hs.isDict, Heap.isDict_iff]
    exact hm.of_isPrefix hpre₁'
  have hrunId : h.field c.runEnvelope "run_id" = .str id := by
    have hs := hfieldE "run_id"
    exact Same.eq_str (by simpa using hs)
  have hresult : h.IsDict (.ref c.resultScope) := by
    refine hold hc.resultScope ?_
    rw [← Heap.isDict_iff, hsameR.isDict, Heap.isDict_iff]
    exact hresult'.of_isPrefix hpre₁'
  refine ⟨hkeysE, ⟨id, hrunId, hid.strip_eq, ?_⟩, ?_, ?_, hkeysG, ?_, ?_, hkeysL, ?_, ?_, hresult,
    ?_⟩
  · by_cases hblank : strip c.runId = ""
    · exact .inl hblank
    · exact .inr (hid.own hblank)
  · exact hdict hc.runEnvelope (by simpa using hfieldE "event") hevent.isDict
  · exact hdict hc.runEnvelope (by simpa using hfieldE "constants") hvars.isDict
  · have hs : Same h₁ (h.field c.globalScope "runEnvelope") h₁' (.ref c'.runEnvelope) := by
      simpa using hfieldG "runEnvelope"
    exact Same.of_isPrefix s (field_self s hc.globalScope _) (.ref hc.runEnvelope) hpre₁
      (hs.trans hsameE.symm)
  · exact hdict hc.globalScope (by simpa using hfieldG "constants") hglobals.isDict
  · have hs : Same h₁ (h.field c.localScope "global") h₁' (.ref c'.globalScope) := by
      simpa using hfieldL "global"
    exact Same.of_isPrefix s (field_self s hc.localScope _) (.ref hc.globalScope) hpre₁
      (hs.trans hsameG.symm)
  · exact hdict hc.localScope (by simpa using hfieldL "constants") hlocals.isDict
  · -- an empty scope has no keys, and the one that was put in its place has some
    obtain ⟨d, hd⟩ := hresult
    have hd : h[c.resultScope]? = some (.dict d) := hd
    obtain ⟨d', hd'⟩ := hresult'
    have hd' : h'[c'.resultScope]? = some (.dict d') := hd'
    simp only [Heap.truthy, hd'] at hfull'
    simp only [Heap.truthy, hd]
    cases d with
    | cons kv d => rfl
    | nil =>
      cases d' with
      | nil => simp at hfull'
      | cons kv d' =>
        have hitem := hsameR.item? (.name kv.1)
        rw [Heap.item?_dict (Heap.getElem?_of_isPrefix hpre₁ hd),
          Heap.item?_dict (Heap.getElem?_of_isPrefix hpre₁' hd'), Dict.get?_cons, if_pos rfl] at hitem
        cases hitem

end

theorem resolve_restored (s : RunState) (expression : String) :
    s.restored.resolve expression
      = resolveIn (deserializeRunContext s.heap (serializeRunContext s.context)).2
        (deserializeRunContext s.heap (serializeRunContext s.context)).1 expression := by
  rw [RunState.resolve, RunState.restored]

theorem Restored.sameOutcome_iff {ρ : ℕ → ℕ → Prop} {h h' : Heap} {c c' : RunContext}
    (s : Sim hideNone ρ h h) (hc : Rooted ρ c) (hrestored : Restored h c h' c') :
    (∀ expression, SameOutcome (resolveIn c h expression) (resolveIn c' h' expression)) ↔
      Restorable c h := by
  rw [sameOutcome_iff_scope]
  constructor
  · intro hsame
    exact hrestored.restorable s hc hsame
  · intro hr
    exact hrestored.same s hc hr

/-- **A context survives being handed on exactly when it is restorable**: in every run, whatever
its steps, every reference leads to the same afterwards if and only if the scopes hold
what a new context is made from, and nothing else. -/
theorem survives_iff (runId : String) (event initialVars : Json) (steps : List Step) :
    (∀ expression, SameOutcome
        (((RunState.start runId event initialVars).run steps).resolve expression)
        (((RunState.start runId event initialVars).run steps).restored.resolve expression)) ↔
      Restorable ((RunState.start runId event initialVars).run steps).context
        ((RunState.start runId event initialVars).run steps).heap := by
  obtain ⟨ρ₀, hstart⟩ := linked_start runId event initialVars
  obtain ⟨ρ, hs⟩ := hstart.run steps
  have hiff := (restored_deserialize _ _).sameOutcome_iff hs.sim hs.rooted
  simp only [resolve_restored]
  exact hiff

/-- A run of one call. -/
theorem accepted_writeEvent :
    (RunState.start "run" (.obj []) (.obj [])).Accepted [.call writeEvent] := by
  refine ⟨?_, trivial⟩
  rintro call hcall
  obtain rfl := Step.call.inj hcall
  decide +kernel

/-- **A field of the local scope is lost when the context is handed on.** -/
theorem writeEvent_lost :
    ¬ ∀ (runId : String) (event initialVars : Json) (calls : List Call) (expression : String),
      (∀ call ∈ calls, ∀ reference, call.value ≠ .reference reference) →
      (RunState.start runId event initialVars).Accepted (calls.map .call) →
      SameOutcome
        (((RunState.start runId event initialVars).run (calls.map .call)).resolve expression)
        (((RunState.start runId event initialVars).run (calls.map .call)).restored.resolve
          expression) := by
  intro hsurvives
  have hjson : ∀ call ∈ [writeEvent], ∀ reference, call.value ≠ .reference reference := by
    simp [writeEvent, Call.value]
  have hsame := hsurvives "run" (.obj []) (.obj []) [writeEvent] "$.local.event.total" hjson
    accepted_writeEvent
  have hbefore : (((RunState.start "run" (.obj []) (.obj [])).run
      ([writeEvent].map .call)).resolve "$.local.event.total").2 = .ok (some (.int 1)) := by
    decide +kernel
  have hafter : (((RunState.start "run" (.obj []) (.obj [])).run
      ([writeEvent].map .call)).restored.resolve "$.local.event.total").2 = .ok none := by
    decide +kernel
  unfold SameOutcome at hsame
  rw [hbefore, hafter] at hsame
  cases hsame with
  | ok hrel => cases hrel

end Context
end QualityFlow
