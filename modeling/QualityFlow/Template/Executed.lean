/-
# What a generated test does

The commands that the generators of `app/templating/templates/` append, as the executors of
`app/elaborations/services/operations/` run them.

A generated test does to the outside what its configuration says, in that order and each thing
once (`generated_effects`); but it sleeps as many seconds as the configuration says
milliseconds.  What it checks is another matter.  A read writes its rows where its
target points, to a local constant, and passes over its result constant; the check reads the
result constant, which is not there.  So every check compares `None`, whatever the queue or the
database has answered (`generated_compares_nothing`), and a check for existence never passes.
-/

import QualityFlow.Context.ConstantPath
import QualityFlow.Suite.Declared
import QualityFlow.Template.Planned

namespace QualityFlow
namespace Template

open Py Command Suite Assert
open Context (RunContext ConstantsAt ConstantName)

/-! ### What is done to the outside -/

/-- What reaches a queue, a database or the clock. -/
inductive Effect where
  | publish (queueId : String) (messages : List Json)
  | sleep (seconds : ℤ)
  | poll (queueId : String)
  | query (connectionId query : String)

/-- The effect of an action. -/
def effect? : Action → Option Effect
  | .publish queueId messages => some (.publish queueId messages)
  | .sleep seconds => some (.sleep seconds)
  | .polls queueId => some (.poll queueId)
  | .query connectionId query => some (.query connectionId query)
  | _ => none

/-- The effects of a part of a run. -/
def effects (w w' : World) : List Effect := (w.doneSince w').filterMap fun e => effect? e.1

/-- Effects that a generated command may have: whatever the messages are, there is one message
list for each command that sends. -/
def EffectsOf : ConfigurationCommandDto → List Effect → Prop
  | .sendMessageQueue c, es => ∃ messages, es = [.publish c.queueId messages]
  | .sleep c, es => es = [.sleep c.duration]
  | .receiveQueue c, es => es = [.poll c.queueId.val]
  | .queryDatabase c, es => es = [.query c.connectionId.val c.query.val]
  | _, es => es = []

/-- Effects that commands may have, one command after the other. -/
inductive InTurn : List ConfigurationCommandDto → List Effect → Prop where
  | nil : InTurn [] []
  | cons {cfg : ConfigurationCommandDto} {cfgs : List ConfigurationCommandDto}
      {es es' : List Effect} (first : EffectsOf cfg es) (rest : InTurn cfgs es') :
      InTurn (cfg :: cfgs) (es ++ es')

theorem exists_effectsOf (cfg : ConfigurationCommandDto) : ∃ es, EffectsOf cfg es := by
  cases cfg with
  | sendMessageQueue c => exact ⟨_, [], rfl⟩
  | _ => exact ⟨_, rfl⟩

theorem exists_inTurn (cfgs : List ConfigurationCommandDto) : ∃ es, InTurn cfgs es := by
  induction cfgs with
  | nil => exact ⟨[], .nil⟩
  | cons cfg cfgs ih =>
    obtain ⟨es, hes⟩ := exists_effectsOf cfg
    obtain ⟨es', hes'⟩ := ih
    exact ⟨es ++ es', .cons hes hes'⟩

/-- The effects of two parts of a program. -/
theorem InTurn.split {cfgs cfgs' : List ConfigurationCommandDto} {es : List Effect}
    (h : InTurn (cfgs ++ cfgs') es) :
    ∃ first second, InTurn cfgs first ∧ InTurn cfgs' second ∧ es = first ++ second := by
  induction cfgs generalizing es with
  | nil => exact ⟨[], es, .nil, h, rfl⟩
  | cons cfg cfgs ih =>
    rw [List.cons_append] at h
    cases h with
    | @cons _ _ es es' hcfg hrest =>
      obtain ⟨first, second, hfirst, hsecond, rfl⟩ := ih hrest
      exact ⟨es ++ first, second, .cons hcfg hfirst, hsecond, by rw [List.append_assoc]⟩

/-- The messages are what `build_send_message_payloads` has made, between two points of a run,
of what the constant of the payload was read as. -/
def Sends (outside : Outside) (w w' : World) (messages : List Json) : Prop :=
  ∃ (w₁ w₂ : World) (data : Json) (input : Json × String), w.record <+: w₁.record ∧
    w₂.record <+: w'.record ∧
    w₁.run outside (reading (resolveInputReference
      (some (.runtimeValue SendVerify.payloadId)) data)) = (w₂, .ok input) ∧
    outside w₂ (.payloads input.1 input.2 none) = .ok messages

/-- The commands that the generators append: what they write are local constants. -/
def Generated : ConfigurationCommandDto → Prop
  | .setVariable c => c.context = .localScope ∧ ∃ n : ConstantName, c.name = n.toToken
  | .sendMessageQueue c => c.resultConstant = none ∧
      c.inputRef = .runtimeValue SendVerify.payloadId ∧ c.messageTemplate = none
  | .receiveQueue c =>
    ∀ t ∈ c.target, ∃ n : ConstantName, t.path = constantPath .localScope n.toToken
  | .queryDatabase c =>
    ∀ t ∈ c.target, ∃ n : ConstantName, t.path = constantPath .localScope n.toToken
  | .sleep _ | .assert _ => True
  | _ => False

section

variable {library : Library} {outside : Outside} {w w₁ w' : World} {α β : Type}

theorem effects_append (h₁ : w.record <+: w₁.record) (h₂ : w₁.record <+: w'.record) :
    effects w w' = effects w w₁ ++ effects w₁ w' := by
  unfold effects
  rw [World.doneSince_append h₁ h₂, List.filterMap_append]

/-- A computation that does nothing to the outside. -/
theorem effects_silent {x : Acting α} {r : Except String α}
    (h : x.Only fun a => effect? a = none) (hrun : w.run outside x = (w', r)) :
    effects w w' = [] :=
  List.filterMap_eq_nil_iff.2 fun e he => World.forall_doneSince h hrun e he

/-- An effect that comes after a computation which does nothing to the outside. -/
theorem exists_of_mem_effects {x : Acting α} {f : α → Acting β} {r : Except String β}
    (hx : x.Only fun a => effect? a = none) (hrun : w.run outside (x >>= f) = (w', r)) {e : Effect}
    (he : e ∈ effects w w') : ∃ w₁ a, w.run outside x = (w₁, .ok a) ∧
      w₁.run outside (f a) = (w', r) ∧ e ∈ effects w₁ w' := by
  cases hfirst : w.run outside x with
  | mk w₁ r₁ =>
    unfold World.run at hrun hfirst
    rw [Asks.handle_bind, hfirst] at hrun
    cases r₁ with
    | error message =>
      obtain ⟨rfl, rfl⟩ := Prod.mk.inj hrun
      rw [effects_silent hx hfirst] at he
      cases he
    | ok a =>
      refine ⟨w₁, a, rfl, hrun, ?_⟩
      rwa [effects_append (World.record_of_run hfirst) (World.record_of_run hrun),
        effects_silent hx hfirst, List.nil_append] at he

/-- The effects of a run are as expected, as far as it goes. -/
def Follows (outside : Outside) (expected : List Effect → Prop) (x : Acting α) : Prop :=
  ∀ (w w' : World) (r : Except String α), w.run outside x = (w', r) →
    (∃ all, expected all ∧ effects w w' <+: all) ∧ ∀ a, r = .ok a → expected (effects w w')

theorem follows_silent {x : Acting α} (h : x.Only fun a => effect? a = none) :
    Follows outside (· = []) x := by
  intro w w' r hrun
  rw [effects_silent h hrun]
  exact ⟨⟨[], rfl, List.prefix_rfl⟩, fun _ _ => rfl⟩

theorem Follows.after {x : Acting α} {f : α → Acting β} {expected : List Effect → Prop}
    (hx : x.Only fun a => effect? a = none) (hsome : ∃ all, expected all)
    (hf : ∀ a, Follows outside expected (f a)) : Follows outside expected (x >>= f) := by
  intro w w' r hrun
  cases hfirst : w.run outside x with
  | mk w₁ r₁ =>
    unfold World.run at hrun hfirst
    rw [Asks.handle_bind, hfirst] at hrun
    cases r₁ with
    | error e =>
      obtain ⟨rfl, rfl⟩ := Prod.mk.inj hrun
      obtain ⟨all, hall⟩ := hsome
      rw [effects_silent hx hfirst]
      exact ⟨⟨all, hall, List.nil_prefix⟩, fun a ha => by cases ha⟩
    | ok a =>
      rw [effects_append (World.record_of_run hfirst) (World.record_of_run hrun),
        effects_silent hx hfirst, List.nil_append]
      exact hf a w₁ w' r hrun

theorem Follows.before {x : Acting α} {f : α → Acting β} {expected : List Effect → Prop}
    (hx : Follows outside expected x) (hf : ∀ a, (f a).Only fun a => effect? a = none) :
    Follows outside expected (x >>= f) := by
  intro w w' r hrun
  cases hfirst : w.run outside x with
  | mk w₁ r₁ =>
    obtain ⟨hpre, hall⟩ := hx w w₁ r₁ hfirst
    unfold World.run at hrun hfirst
    rw [Asks.handle_bind, hfirst] at hrun
    cases r₁ with
    | error e =>
      obtain ⟨rfl, rfl⟩ := Prod.mk.inj hrun
      exact ⟨hpre, fun a ha => by cases ha⟩
    | ok a =>
      rw [effects_append (World.record_of_run hfirst) (World.record_of_run hrun),
        effects_silent (hf a) hrun, List.append_nil]
      exact ⟨hpre, fun _ _ => hall a rfl⟩

theorem effects_answer {a : Action} {e : Effect} (he : effect? a = some e) :
    effects w (w.answer outside a).1 = [e] := by
  rw [effects, World.doneSince_answer]
  simp [he]

theorem follows_act {a : Action} {h : a.Answer = Except String α} {e : Effect}
    (he : effect? a = some e) : Follows outside (· = [e]) (act a h) := by
  intro w w' r hrun
  rw [World.run_act, Prod.mk.injEq] at hrun
  obtain ⟨rfl, -⟩ := hrun
  rw [effects_answer he]
  exact ⟨⟨[e], rfl, List.prefix_rfl⟩, fun _ _ => rfl⟩

theorem follows_question {a : Action} {e : Effect} (he : effect? a = some e) :
    Follows outside (· = [e]) (Asks.question a : Acting a.Answer) := by
  intro w w' r hrun
  unfold World.run at hrun
  rw [Asks.handle_question, Prod.mk.injEq] at hrun
  obtain ⟨rfl, -⟩ := hrun
  rw [effects_answer he]
  exact ⟨⟨[e], rfl, List.prefix_rfl⟩, fun _ _ => rfl⟩

theorem Follows.mono {x : Acting α} {expected expected' : List Effect → Prop}
    (h : Follows outside expected x) (hle : ∀ es, expected es → expected' es) :
    Follows outside expected' x := by
  intro w w' r hrun
  obtain ⟨⟨all, hall, hpre⟩, hok⟩ := h w w' r hrun
  exact ⟨⟨all, hle all hall, hpre⟩, fun a ha => hle _ (hok a ha)⟩

theorem silent_reading (x : Reading α) : (reading x).Only fun a => effect? a = none :=
  only_reading (fun _ => rfl) x

theorem silent_write (path : String) (value : Json) :
    (write path value).Only fun a => effect? a = none := only_act rfl

theorem silent_artifact (artifact : AssertArtifact) :
    (Asks.question (Action.appendArtifact artifact) : Acting Unit).Only
      fun a => effect? a = none := by
  refine Asks.only_question ?_
  rfl

theorem silent_writeTarget (target : Option TargetPath) (rows : List Json) :
    (writeTarget target rows).Only fun a => effect? a = none := by
  cases target with
  | none => exact .done ()
  | some t => exact silent_write _ _

/-- **A generated command has the effects it is to have.** -/
theorem follows_executeOperation {cfg : ConfigurationCommandDto} (h : Generated cfg)
    (operationId : String) (data : Json) :
    Follows outside (EffectsOf cfg) (executeOperation library operationId data cfg) := by
  cases cfg with
  | setVariable c =>
    refine follows_silent (Asks.Only.bind ?_ fun _ => (silent_write _ _).bind fun _ => .done _)
    unfold loadValue
    split
    · exact .done _
    · exact .done _
    · exact silent_reading _
    · exact .raised _
  | sendMessageQueue c =>
    have hsome : ∃ all, EffectsOf (.sendMessageQueue c) all := ⟨_, [], rfl⟩
    refine .after (only_act rfl) hsome fun code => .after (silent_reading _) hsome fun input =>
      .after (only_act rfl) hsome fun msg => ?_
    refine .mono (.before (follows_act rfl) fun _ => ?_) fun es hes => ⟨msg, hes⟩
    rw [h.1]
    exact .done _
  | sleep c => exact .before (follows_act rfl) fun _ => .done _
  | receiveQueue c =>
    refine .after (only_act rfl) ⟨_, rfl⟩ fun code => .before (follows_question rfl) fun receive => ?_
    dsimp only
    split
    · exact .raised _
    · exact (Asks.only_ofExcept _).bind fun rows => (silent_writeTarget _ _).bind fun _ => .done _
  | queryDatabase c =>
    exact .after (only_act rfl) ⟨_, rfl⟩ fun _ => .before (follows_act rfl) fun rows =>
      (silent_writeTarget _ _).bind fun _ => .done _
  | assert c =>
    refine follows_silent ((silent_reading _).bind fun operands => ?_)
    dsimp only
    split
    · exact (silent_artifact _).bind fun _ => .raised _
    · exact (silent_artifact _).bind fun _ => .done _
  | _ => exact h.elim

/-- The end of a command that sends. -/
theorem follows_publish {c : SendMessageQueueConfigurationCommandDto}
    (hresult : c.resultConstant = none) (code : String) (inputData : Json) (msg : List Json) :
    Follows outside (· = [.publish c.queueId msg]) (do
      act (.publish c.queueId msg) rfl
      writeResultConstant c.resultConstant
        (.obj [("queue_id", .str c.queueId), ("queue_code", .str code),
          ("published", .int msg.length), ("renderedPayloads", .arr msg)])
      return resultOf inputData s!"Published {msg.length} message(s) to queue '{code}'" []) := by
  refine .before (follows_act rfl) fun _ => ?_
  rw [hresult]
  exact .done _

/-- What a generated command has published is made of the payload. -/
theorem sends_executeOperation {cfg : ConfigurationCommandDto} (h : Generated cfg)
    {operationId : String} {data : Json} {r : Except String ExecutionResultDto}
    (hrun : w.run outside (executeOperation library operationId data cfg) = (w', r))
    {queueId : String} {messages : List Json} (he : .publish queueId messages ∈ effects w w') :
    Sends outside w w' messages := by
  obtain ⟨⟨all, hall, hpre⟩, -⟩ := follows_executeOperation h operationId data w w' r hrun
  have hmem := hpre.subset he
  cases cfg with
  | sendMessageQueue c =>
    obtain ⟨hresult, hinput, htemplate⟩ := h
    -- the queue, the payload and the messages come before what is published
    obtain ⟨w₁, code, hcode, hrun, he⟩ := exists_of_mem_effects (only_act rfl) hrun he
    obtain ⟨w₂, input, hread, hrun, he⟩ := exists_of_mem_effects (silent_reading _) hrun he
    obtain ⟨w₃, msg, hpayloads, hrun, he⟩ := exists_of_mem_effects (only_act rfl) hrun he
    obtain ⟨⟨_, rfl, hpre⟩, -⟩ := follows_publish hresult code input.1 msg w₃ w' r hrun
    obtain ⟨-, rfl⟩ : queueId = c.queueId ∧ messages = msg := by
      simpa using hpre.subset he
    have hrecord := (World.record_of_run hpayloads).trans (World.record_of_run hrun)
    rw [World.run_act, Prod.mk.injEq] at hpayloads
    rw [hinput] at hread
    rw [htemplate] at hpayloads
    exact ⟨w₁, w₂, data, input, World.record_of_run hcode, hrecord, hread, hpayloads.2⟩
  | sleep | receiveQueue | queryDatabase | setVariable | assert =>
    rw [show all = _ from hall] at hmem
    simp at hmem
  | _ => exact h.elim

theorem Sends.mono {w₀ w₂ : World} {messages : List Json} (h : Sends outside w w' messages)
    (h₀ : w₀.record <+: w.record) (h₂ : w'.record <+: w₂.record) :
    Sends outside w₀ w₂ messages := by
  obtain ⟨u, u', data, input, hu, hu', hread, hpayloads⟩ := h
  exact ⟨u, u', data, input, h₀.trans hu, hu'.trans h₂, hread, hpayloads⟩

/-- **The commands of an item have the effects they are to have, as far as the item goes.** -/
theorem effects_of_performed {cfgs : List ConfigurationCommandDto} {all : Bool}
    (h : Performed library outside w cfgs w' all) (hgenerated : ∀ cfg ∈ cfgs, Generated cfg) :
    ∃ es, InTurn cfgs es ∧ effects w w' <+: es ∧ (all = true → effects w w' = es) := by
  have hnone (w : World) : effects w w = [] := by
    rw [effects, World.doneSince_self, List.filterMap_nil]
  induction h with
  | done w => exact ⟨[], .nil, by rw [hnone], fun _ => hnone w⟩
  | refused w cfg cfgs =>
    obtain ⟨es, hes⟩ := exists_inTurn (cfg :: cfgs)
    exact ⟨es, hes, by rw [hnone]; exact List.nil_prefix, fun hall => by cases hall⟩
  | @raised w w' operationId data cfg r run cfgs =>
    rw [List.forall_mem_cons] at hgenerated
    obtain ⟨es, hes, hpre⟩ := (follows_executeOperation hgenerated.1 operationId data w w' r run).1
    obtain ⟨es', hes'⟩ := exists_inTurn cfgs
    exact ⟨es ++ es', .cons hes hes', hpre.trans (List.prefix_append _ _), fun hall => by cases hall⟩
  | @returned w w₁ w' operationId data cfg cfgs result all run rest ih =>
    rw [List.forall_mem_cons] at hgenerated
    have hfirst := (follows_executeOperation hgenerated.1 operationId data w w₁ _ run).2 result rfl
    obtain ⟨es, hes, hpre, hall⟩ := ih hgenerated.2
    refine ⟨_, .cons hfirst hes, ?_, fun h => ?_⟩
    · rw [effects_append (World.record_of_run run) rest.record]
      exact (List.prefix_append_right_inj _).2 hpre
    · rw [effects_append (World.record_of_run run) rest.record, hall h]

/-- **What is published is made of the payload, wherever an item ends.** -/
theorem sends_of_performed {cfgs : List ConfigurationCommandDto} {all : Bool}
    (h : Performed library outside w cfgs w' all) (hgenerated : ∀ cfg ∈ cfgs, Generated cfg)
    {queueId : String} {messages : List Json} (he : .publish queueId messages ∈ effects w w') :
    Sends outside w w' messages := by
  induction h with
  | done | refused =>
    rw [effects, World.doneSince_self] at he
    cases he
  | @raised w w' operationId data cfg r run cfgs =>
    exact sends_executeOperation (List.forall_mem_cons.1 hgenerated).1 run he
  | @returned w w₁ w' operationId data cfg cfgs result all run rest ih =>
    rw [List.forall_mem_cons] at hgenerated
    have hrecord := World.record_of_run run
    rw [effects_append hrecord rest.record] at he
    rcases List.mem_append.1 he with hfirst | hrest
    · exact (sends_executeOperation hgenerated.1 run hfirst).mono List.prefix_rfl rest.record
    · exact (ih hgenerated.2 hrest).mono hrecord List.prefix_rfl

end

/-! ### Where the constants are -/

/-- The constants of the results are a dictionary of their own, with nothing in it. -/
structure Idle (c : RunContext) (h : Heap) (l r : ℕ) : Prop where
  localConstants : ∃ d, ConstantsAt c h .localScope l d
  resultConstants : ConstantsAt c h .resultScope r []
  apart : r ≠ l ∧ r ≠ c.localScope ∧ r ≠ c.resultScope ∧ l ≠ c.localScope ∧ l ≠ c.resultScope
  artifacts : h.field c.resultScope "artifacts" ≠ .ref r

namespace Idle

variable {c : RunContext} {h h' : Heap} {l r p : ℕ}

/-- A change elsewhere. -/
theorem congr (hi : Idle c h l r) (hlocal : h'[c.localScope]? = h[c.localScope]?)
    (hresult : h'[c.resultScope]? = h[c.resultScope]?) {d : Dict String Val}
    (hl : h'[l]? = some (.dict d)) (hr : h'[r]? = some (.dict [])) : Idle c h' l r where
  localConstants := by
    obtain ⟨d', hd'⟩ := hi.localConstants
    exact ⟨d, hd'.congr rfl hlocal hl⟩
  resultConstants := hi.resultConstants.congr rfl hresult hr
  apart := hi.apart
  artifacts := by
    have hartifacts := hi.artifacts
    rw [Heap.field, Heap.item?, Heap.obj?] at hartifacts ⊢
    rw [hresult]
    exact hartifacts

theorem of_isPrefix (hi : Idle c h l r) (hpre : h <+: h') : Idle c h' l r := by
  obtain ⟨d, hd⟩ := hi.localConstants
  obtain ⟨fields, hfields⟩ := hd.scope_isDict
  obtain ⟨fields', hfields'⟩ := hi.resultConstants.scope_isDict
  exact hi.congr ((Heap.getElem?_of_isPrefix hpre hfields).trans hfields.symm)
    ((Heap.getElem?_of_isPrefix hpre hfields').trans hfields'.symm)
    (Heap.getElem?_of_isPrefix hpre hd.dict)
    (Heap.getElem?_of_isPrefix hpre hi.resultConstants.dict)

/-- A local constant is set. -/
theorem setLocal (hi : Idle c h l r) (k : String) (v : Val) :
    Idle c (h.setItem l (.name k) v) l r := by
  obtain ⟨d, hd⟩ := hi.localConstants
  obtain ⟨hrl, -, -, hlocal, hresult⟩ := hi.apart
  exact hi.congr (Heap.modify_of_ne _ hlocal _) (Heap.modify_of_ne _ hresult _)
    (d := d.set k v) (Heap.modify_self hd.dict _)
    ((Heap.modify_of_ne _ hrl.symm _).trans hi.resultConstants.dict)

/-- A value is appended to a list. -/
theorem append (hi : Idle c h l r) {items : List Val} (hp : h[p]? = some (.list items)) (v : Val) :
    Idle c (h.append p v) l r := by
  obtain ⟨d, hd⟩ := hi.localConstants
  obtain ⟨fields, hfields⟩ := hd.scope_isDict
  obtain ⟨fields', hfields'⟩ := hi.resultConstants.scope_isDict
  have hne {q : ℕ} {e : Dict String Val} (hq : h[q]? = some (.dict e)) : p ≠ q := by
    rintro rfl
    rw [hp] at hq
    cases hq
  exact hi.congr (Heap.modify_of_ne _ (hne hfields) _) (Heap.modify_of_ne _ (hne hfields') _)
    ((Heap.modify_of_ne _ (hne hd.dict) _).trans hd.dict)
    ((Heap.modify_of_ne _ (hne hi.resultConstants.dict) _).trans hi.resultConstants.dict)

/-- A field is set beside the constants. -/
theorem setField (hi : Idle c h l r) (hp : p ≠ r) {k : String} (hk : k ≠ "constants") {v : Val}
    (hv : v ≠ .ref r) : Idle c (h.setItem p (.name k) v) l r := by
  by_cases hpl : p = l
  · subst hpl
    exact hi.setLocal k v
  obtain ⟨d, hd⟩ := hi.localConstants
  refine ⟨⟨d, hd.setItem hk hpl v⟩, hi.resultConstants.setItem hk hp v, hi.apart, ?_⟩
  obtain ⟨fields, hfields⟩ := hi.resultConstants.scope_isDict
  change h[c.resultScope]? = _ at hfields
  have hartifacts := hi.artifacts
  by_cases heq : p = c.resultScope
  · subst heq
    rw [Heap.field_dict hfields] at hartifacts
    rw [Heap.field_dict (Heap.modify_self hfields _)]
    show ((fields.set k v).get? "artifacts").getD .null ≠ _
    rw [Dict.get?_set]
    split_ifs
    · exact hv
    · exact hartifacts
  · rwa [Heap.field, Heap.item?, Heap.obj?, Heap.setItem, Heap.modify_of_ne _ heq]

/-- An artifact is appended. -/
theorem appendAssertArtifact (hi : Idle c h l r) (v : Val) :
    Idle c (appendAssertArtifact c h v) l r := by
  have hnew {h : Heap} (hi : Idle c h l r) (o : Obj) : h.length ≠ r ∧ Idle c (h ++ [o]) l r := by
    have hlt := (List.getElem?_eq_some_iff.1 hi.resultConstants.dict).1
    exact ⟨by omega, hi.of_isPrefix (List.prefix_append _ _)⟩
  unfold Suite.appendAssertArtifact
  split
  rename_i h₁ artifacts hfirst
  -- the dictionary of the artifacts, which is made where there is none
  have hmade : Idle c h₁ l r ∧ artifacts ≠ .ref r ∧ h₁.IsDict artifacts := by
    split at hfirst
    · rename_i hdict
      obtain ⟨rfl, rfl⟩ := Prod.mk.inj hfirst
      exact ⟨hi, hi.artifacts, Heap.isDict_iff.1 hdict⟩
    · obtain ⟨rfl, rfl⟩ := Prod.mk.inj hfirst
      obtain ⟨hne, hi'⟩ := hnew hi (.dict [])
      have hne' : Val.ref h.length ≠ .ref r := by simpa using hne
      have hdict : (h ++ [Obj.dict []]).IsDict (.ref h.length) := ⟨[], by simp [Heap.obj?]⟩
      exact ⟨hi'.setField hi.apart.2.2.1.symm (by decide) hne', hne', hdict.setItem _ _ _⟩
  obtain ⟨hi₁, hne, hdict⟩ := hmade
  split
  · rename_i p
    split
    · rename_i items hitems
      split
      · rename_i q hq
        rw [hq] at hitems
        exact hi₁.append hitems v
      · exact hi₁
    · obtain ⟨hne', hi₂⟩ := hnew hi₁ (.list [])
      have hi₃ := hi₂.setField (p := p) (k := "asserts") (v := .ref h₁.length) (by simpa using hne)
        (by decide) (by simpa using hne')
      obtain ⟨fields, hfields⟩ := hdict
      have hlt : p < h₁.length := (List.getElem?_eq_some_iff.1 hfields).1
      have hlist : ((h₁ ++ [Obj.list []]).setItem p (.name "asserts") (.ref h₁.length))[h₁.length]?
          = some (.list []) := by
        rw [Heap.setItem, Heap.modify_of_ne _ (by omega)]
        simp
      exact hi₃.append hlist v
  · exact hi₁

end Idle

/-- An action that writes nothing but local constants, and artifacts where that is said. -/
def Harmless (artifacts : Prop) : Action → Prop
  | .write path _ => ∃ n : ConstantName, path = constantPath .localScope n.toToken
  | .remove _ => False
  | .appendArtifact _ => artifacts
  | _ => True

section

variable {library : Library} {outside : Outside} {w w' : World} {l r : ℕ} {α : Type}

/-- The constants of the results of a run. -/
def IdleWorld (l r : ℕ) (w : World) : Prop := Idle w.context w.heap l r

/-- **An action that writes nothing but local constants leaves those of the results alone.** -/
theorem IdleWorld.answer {w : World} {artifacts : Prop} {a : Action} (ha : Harmless artifacts a)
    (hw : IdleWorld l r w) :
    IdleWorld l r (w.answer outside a).1 := by
  unfold IdleWorld at hw ⊢
  show Idle w.context (w.perform outside a).1 l r
  cases a with
  | write path value =>
    obtain ⟨n, rfl⟩ := ha
    have hi := hw.of_isPrefix (prefix_ofJson value w.heap)
    obtain ⟨d, hd⟩ := hi.localConstants
    simp only [World.perform, hd.writeContextPath_eq n]
    exact hi.setLocal n.val _
  | remove path => exact ha.elim
  | appendArtifact artifact =>
    exact (hw.of_isPrefix (prefix_ofJson (artifactJson artifact) w.heap)).appendAssertArtifact _
  | read q =>
    cases q with
    | constant definitionId path =>
      have hpre : w.heap <+: (Context.resolveIn w.context w.heap path).1 :=
        (Context.buildRunContextScope_entries w.context w.heap).1
      simp only [World.perform]
      generalize Context.resolveIn w.context w.heap path = resolved at hpre ⊢
      obtain ⟨h, v⟩ := resolved
      rcases v with e | v
      · exact hw.of_isPrefix hpre
      · cases v <;> exact hw.of_isPrefix hpre
    | _ => exact hw
  | _ => exact hw

section

variable {artifacts : Prop}

theorem harmless_reading (x : Reading α) : (reading x).Only (Harmless artifacts) :=
  only_reading (fun _ => trivial) x

theorem harmless_writeTarget {target : Option TargetPath} {rows : List Json}
    (h : ∀ t ∈ target, ∃ n : ConstantName, t.path = constantPath .localScope n.toToken) :
    (writeTarget target rows).Only (Harmless artifacts) := by
  cases target with
  | none => exact .done ()
  | some t => exact only_act (h := rfl) (h t rfl)

theorem harmless_artifact (artifact : AssertArtifact) :
    (Asks.question (Action.appendArtifact artifact) : Acting Unit).Only (Harmless True) := by
  refine Asks.only_question ?_
  trivial

end

/-- **A generated command writes nothing but local constants**, and an assertion its artifact. -/
theorem harmless_executeOperation {cfg : ConfigurationCommandDto} (h : Generated cfg)
    (operationId : String) (data : Json) :
    (executeOperation library operationId data cfg).Only (Harmless (∃ c, cfg = .assert c)) := by
  cases cfg with
  | setVariable c =>
    obtain ⟨hcontext, n, hn⟩ := h
    refine Asks.Only.bind ?_ fun value => Asks.Only.bind (only_act (h := rfl) ?_) fun _ => .done _
    · unfold loadValue
      split
      · exact .done _
      · exact .done _
      · exact harmless_reading _
      · exact .raised _
    · exact ⟨n, by rw [hcontext, hn]⟩
  | sendMessageQueue c =>
    obtain ⟨hresult, -, -⟩ := h
    refine (only_act trivial).bind fun code => (harmless_reading _).bind fun input =>
      (only_act trivial).bind fun msg => (only_act trivial).bind fun _ => ?_
    rw [hresult]
    exact .done _
  | sleep c => exact (only_act trivial).bind fun _ => .done _
  | receiveQueue c =>
    refine (only_act trivial).bind fun code =>
      Asks.Only.bind (Asks.only_question ?_) fun receive => ?_
    · trivial
    · dsimp only
      split
      · exact .raised _
      · exact (Asks.only_ofExcept _).bind fun rows => (harmless_writeTarget h).bind fun _ => .done _
  | queryDatabase c =>
    exact (only_act trivial).bind fun _ => (only_act trivial).bind fun rows =>
      (harmless_writeTarget h).bind fun _ => .done _
  | assert c =>
    have hassert : (∃ c', ConfigurationCommandDto.assert c = .assert c') = True :=
      eq_true ⟨c, rfl⟩
    rw [hassert]
    refine (harmless_reading _).bind fun operands => ?_
    dsimp only
    split
    · exact (harmless_artifact _).bind fun _ => .raised _
    · exact (harmless_artifact _).bind fun _ => .done _
  | _ => exact h.elim

end

/-! ### What a check compares -/

theorem plain_actualNames {index : ℕ} {c : Char} (hc : c ∈ (actualNames.id index).val.toList) :
    c ≠ '.' ∧ c ≠ '[' ∧ c ≠ ']' := by
  rw [show (actualNames.id index).val = "actual_" ++ toString index from rfl, String.toList_append,
    List.mem_append] at hc
  rcases hc with hc | hc
  · have hplain : ("actual_".toList.all fun c => c != '.' && c != '[' && c != ']') = true := by
      decide
    have hc' := List.all_eq_true.1 hplain c hc
    simpa [and_assoc] using hc'
  · have hdigit := isDigit_of_mem_toString hc
    refine ⟨?_, ?_, ?_⟩
    · rintro rfl
      exact absurd hdigit (by decide)
    · rintro rfl
      exact absurd hdigit (by decide)
    · rintro rfl
      exact absurd hdigit (by decide)

theorem isDigit_actualNames (index : ℕ) : isDigit (actualNames.id index).val = false := by
  have hletter : isDigitChar 'a' = false := by decide
  have hlist : (actualNames.id index).val.toList
      = 'a' :: ("ctual_".toList ++ (toString index).toList) := by
    rw [show (actualNames.id index).val = "actual_" ++ toString index from rfl,
      String.toList_append]
    rfl
  rw [isDigit, hlist, List.all_cons, hletter, Bool.false_and, Bool.and_false]

/-- The name of the constant that an assertion reads. -/
def actualName (index : ℕ) : ConstantName where
  toToken := actualNames.id index
  plain _ := plain_actualNames
  notIndex := isDigit_actualNames index

section

variable {library : Library} {outside : Outside} {w w' : World} {l r' index : ℕ} {α : Type}
  {ids : IdPrefix}

theorem reading_bind {β : Type} (x : Reading α) (f : α → Reading β) :
    reading (x >>= f) = reading x >>= fun a => reading (f a) := Asks.within_bind _ x f

theorem run_reading_pure {a b : α} (h : w.run outside (reading (pure a)) = (w', .ok b)) : a = b :=
  (World.run_pure_eq_ok.1 h).2

/-- The path of the constant that an assertion reads. -/
theorem run_resolvePath {found : CommandConstantDefinitionEntity × String}
    (hknows : outside.Knows (declaredConstant ids index))
    (hrun : w.run outside (reading (resolveDefinitionPath (ids.id index).val)) = (w', .ok found)) :
    found.2 = constantPath .resultScope (actualNames.id index) := by
  obtain ⟨d, hfound, hscope, hname⟩ := hknows w
  have hresolve := run_resolveDefinitionPath hfound
  rw [show (declaredConstant ids index).definitionId = ids.id index from rfl, hrun,
    Except.ok.injEq] at hresolve
  subst hresolve
  simp only [toString, constantPath, hscope, hname, declaredConstant]

/-- What is asked of the context where a path leads nowhere. -/
theorem answer_constant {path : String} (definitionId : String)
    (h : (Context.resolveIn w.context w.heap path).2 = .ok none) :
    (w.answer outside (.read (.constant definitionId path))).2 = .ok (.str path) := by
  rw [World.answer_snd]
  simp only [World.perform]
  generalize Context.resolveIn w.context w.heap path = resolved at h ⊢
  obtain ⟨heap, v⟩ := resolved
  dsimp only at h
  rw [h]

/-- **The constant that an assertion reads is not there**, so its path stays as it is. -/
theorem run_readConstant {x : CommandConstantDefinitionEntity × String × Json}
    (hw : IdleWorld l r' w) (hknows : outside.Knows (declaredConstant ids index))
    (hrun : w.run outside (reading (readConstant (ids.id index).val)) = (w', .ok x)) :
    x.2.2 = .str x.2.1 := by
  unfold readConstant at hrun
  rw [reading_bind] at hrun
  obtain ⟨w₁, found, hpath, hrest⟩ := World.run_bind_eq_ok.1 hrun
  have hplace := run_resolvePath hknows hpath
  have honly : (reading (resolveDefinitionPath (ids.id index).val)).Only (Harmless False) :=
    harmless_reading _
  have hw₁ : IdleWorld l r' w₁ :=
    World.keeps_run honly (fun s a ha hs => hs.answer ha) hw hpath
  obtain ⟨definition, path⟩ := found
  dsimp only at hplace hrest
  rw [reading_bind] at hrest
  obtain ⟨w₂, resolved, hread, hreturn⟩ := World.run_bind_eq_ok.1 hrest
  have hresolved : resolved = .str path := by
    have hnothing : (Context.resolveIn w₁.context w₁.heap path).2 = .ok none := by
      rw [hplace]
      exact (hw₁.resultConstants.resolveIn_eq (actualName index)).2
    have hanswer : (w₁.answer outside (.read (.constant (ids.id index).val path))).2
        = .ok (.str path) := answer_constant _ hnothing
    unfold World.run reading at hread
    rw [Asks.within, Asks.handle_bind, Asks.handle_question, hanswer] at hread
    exact (Except.ok.inj (congrArg Prod.snd hread)).symm
  rw [hresolved] at hreturn
  have hx := run_reading_pure hreturn
  rw [← hx]

/-- The operand that an assertion checks is `None`. -/
theorem run_assertOperands {a : GeneratedAssert} {data : Json} {operands : Json × Json}
    (hw : IdleWorld l r' w) (hknows : outside.Knows (declaredConstant ids a.index))
    (hrun : w.run outside (reading (assertOperands (a.check ids) data)) = (w', .ok operands)) :
    operands.1 = .null := by
  unfold assertOperands at hrun
  rw [reading_bind] at hrun
  obtain ⟨w₁, actual, hactual, hrest⟩ := World.run_bind_eq_ok.1 hrun
  have hnull : actual.1 = .null := by
    have href : resolveInputReference (some (a.check ids).actualRef) data
        = resolveDefinitionInputData (ids.id a.index).val >>= fun resolved =>
          resolveDefinitionPath (ids.id a.index).val >>= fun found =>
            return (resolved, found.1.valueType.text) := rfl
    rw [href, reading_bind] at hactual
    obtain ⟨w₂, resolved, hdata, hpath⟩ := World.run_bind_eq_ok.1 hactual
    rw [reading_bind] at hpath
    obtain ⟨w₃, found, -, hreturn⟩ := World.run_bind_eq_ok.1 hpath
    rw [← run_reading_pure hreturn]
    unfold resolveDefinitionInputData at hdata
    rw [reading_bind] at hdata
    obtain ⟨w₄, x, hconstant, hpure⟩ := World.run_bind_eq_ok.1 hdata
    have hsame := run_readConstant hw hknows hconstant
    obtain ⟨definition, path, resolved'⟩ := x
    dsimp only at hsame hpure
    rw [if_pos hsame] at hpure
    exact (run_reading_pure hpure).symm
  dsimp only at hrest
  rw [reading_bind] at hrest
  obtain ⟨w₂, expected, -, hrest⟩ := World.run_bind_eq_ok.1 hrest
  have hreference : (a.check ids).expectedRef = none := rfl
  rw [hreference] at hrest
  simp only [ne_eq, not_true_eq_false, and_false, if_false] at hrest
  rw [← run_reading_pure hrest]
  exact hnull

/-- What `None` passes: equality to `None`. -/
theorem evaluateAssert_null {services : Services} {a : GeneratedAssert} {data expected : Json}
    (h : evaluateAssert services (a.check ids) data .null expected = .ok ()) :
    a.operator = .equals ∧ expected = .null := by
  have hobject : lower (replaceChar '_' '-' (strip "json-data")) = "json-data" := by decide
  unfold evaluateAssert at h
  cases hoperator : a.operator with
  | present =>
    have htype : (a.check ids).assertType = "not-empty" := by
      simp [AssertConfigurationCommandDto.assertType, GeneratedAssert.check, hoperator,
        Operator.code]
    have hnormal : lower (replaceChar '_' '-' (strip "not-empty")) = "not-empty" := by decide
    have hget : (evaluatorMapping services).get? ("json-data", "not-empty")
        = some evaluateNotEmpty := rfl
    have hdata : (a.check ids).evaluatedObjectType = "json-data" := rfl
    simp only [hdata, htype, hobject, hnormal, hget, evaluateNotEmpty, isEmptyJsonValue] at h
    cases h
  | equals =>
    have htype : (a.check ids).assertType = "equals" := by
      simp [AssertConfigurationCommandDto.assertType, GeneratedAssert.check, hoperator,
        Operator.code]
    have hnormal : lower (replaceChar '_' '-' (strip "equals")) = "equals" := by decide
    have hget : (evaluatorMapping services).get? ("json-data", "equals")
        = some evaluateEquals := rfl
    have hdata : (a.check ids).evaluatedObjectType = "json-data" := rfl
    simp only [hdata, htype, hobject, hnormal, hget, evaluateEquals] at h
    refine ⟨rfl, ?_⟩
    cases expected with
    | null => rfl
    | _ => simp [Json.pyEq] at h

/-- An artifact that compares `None`, and passes it as nothing but `None`. -/
def Vacuous (a : Action) : Prop :=
  ∀ artifact, a = .appendArtifact artifact →
    artifact.actual = .null ∧ (artifact.status = "passed" → artifact.expected = .null)

theorem vacuous_of_harmless {a : Action} (h : Harmless False a) : Vacuous a := by
  rintro artifact rfl
  exact h.elim

/-- An assertion that is run. -/
theorem run_assert {a : GeneratedAssert} {operationId : String} {data : Json}
    {r : Except String ExecutionResultDto} (hw : IdleWorld l r' w)
    (hknows : outside.Knows (declaredConstant ids a.index))
    (hrun : w.run outside (executeOperation library operationId data (.assert (a.check ids)))
      = (w', r)) :
    (∀ e ∈ w.doneSince w', Vacuous e.1) ∧ (∀ result, r = .ok result → a.operator = .equals) := by
  cases hfirst : w.run outside (reading (assertOperands (a.check ids) data)) with
  | mk w₁ r₁ =>
    have hreads : ∀ e ∈ w.doneSince w₁, Vacuous e.1 := fun e he =>
      vacuous_of_harmless (World.forall_doneSince (harmless_reading _) hfirst e he)
    have hoperands : ∀ operands, r₁ = .ok operands → operands.1 = .null := by
      rintro operands rfl
      exact run_assertOperands hw hknows hfirst
    unfold World.run at hrun hfirst
    rw [show executeOperation library operationId data (.assert (a.check ids))
      = executeAssert library operationId (a.check ids) data from rfl, executeAssert,
      Asks.handle_bind, hfirst] at hrun
    cases r₁ with
    | error e =>
      obtain ⟨rfl, rfl⟩ := Prod.mk.inj hrun
      exact ⟨hreads, fun result h => by cases h⟩
    | ok operands =>
      have hnull := hoperands operands rfl
      obtain ⟨actual, expected⟩ := operands
      dsimp only at hnull hrun
      subst hnull
      have hstep (artifact : AssertArtifact) (hartifact : Vacuous (.appendArtifact artifact)) :
          ∀ e ∈ w.doneSince (w₁.answer outside (.appendArtifact artifact)).1, Vacuous e.1 := by
        have hrecord : w₁.record <+: (w₁.answer outside (.appendArtifact artifact)).1.record :=
          List.prefix_append _ _
        rw [World.doneSince_append (World.record_of_run hfirst) hrecord, World.doneSince_answer,
          List.forall_mem_append]
        exact ⟨hreads, by simpa using hartifact⟩
      split at hrun
      · rw [Asks.handle_bind, Asks.handle_question] at hrun
        obtain ⟨rfl, rfl⟩ := Prod.mk.inj hrun
        refine ⟨hstep _ ?_, fun result h => by cases h⟩
        intro artifact h
        cases h
        have hfailed : "failed" ≠ "passed" := by decide
        exact ⟨rfl, fun h => absurd h hfailed⟩
      · rename_i hpassed
        obtain ⟨hoperator, hexpected⟩ := evaluateAssert_null hpassed
        rw [Asks.handle_bind, Asks.handle_question] at hrun
        obtain ⟨rfl, rfl⟩ := Prod.mk.inj hrun
        refine ⟨hstep _ ?_, fun _ _ => hoperator⟩
        intro artifact h
        cases h
        exact ⟨rfl, fun _ => hexpected⟩

end

/-! ### A generated test -/

theorem actualTarget_path (index : ℕ) :
    (actualTarget index).path = constantPath .localScope (actualName index).toToken := by
  have hpre : ("$.local.constants." : String) = "$." ++ "local" ++ ".constants." := by decide
  have hpath : (actualTarget index).path = "$.local.constants." ++ (actualNames.id index).val := rfl
  have hname : (actualName index).toToken = actualNames.id index := rfl
  rw [hpath, hpre, hname]
  rfl

/-- The commands of a generated test: a lead, and the two commands of each assertion. -/
theorem generated_of_lead {lead : List ConfigurationCommandDto} {ids : IdPrefix}
    {asserts : List GeneratedAssert} (hlead : ∀ cfg ∈ lead, Generated cfg) :
    ∀ cfg ∈ lead ++ asserts.flatMap (GeneratedAssert.commands ids), Generated cfg := by
  rw [List.forall_mem_append]
  refine ⟨hlead, fun cfg hcfg => ?_⟩
  obtain ⟨a, -, hcfg⟩ := List.mem_flatMap.1 hcfg
  have htarget : ∀ t ∈ some (actualTarget a.index),
      ∃ n : ConstantName, t.path = constantPath .localScope n.toToken := by
    rintro t ht
    cases ht
    exact ⟨actualName a.index, actualTarget_path a.index⟩
  rcases List.mem_pair.1 hcfg with rfl | rfl
  · unfold ReadSource.command
    cases a.source with
    | queue queueId => exact htarget
    | database connectionId query => exact htarget
  · trivial

section

variable {library : Library} {outside : Outside} {w w' : World} {l r : ℕ}

/-- One command of a generated test. -/
theorem vacuous_of_run {cfg : ConfigurationCommandDto} {operationId : String} {data : Json}
    {res : Except String ExecutionResultDto} (hw : IdleWorld l r w) (hgenerated : Generated cfg)
    (hassert : ∀ c, cfg = .assert c → ∃ (ids : IdPrefix) (a : GeneratedAssert),
      c = a.check ids ∧ outside.Knows (declaredConstant ids a.index))
    (run : w.run outside (executeOperation library operationId data cfg) = (w', res)) :
    IdleWorld l r w' ∧ (∀ e ∈ w.doneSince w', Vacuous e.1) ∧
      ∀ result, res = .ok result → ∀ c, cfg = .assert c → c.code = .jsonEquals := by
  have honly : (executeOperation library operationId data cfg).Only
      (Harmless (∃ c, cfg = .assert c)) := harmless_executeOperation hgenerated operationId data
  refine ⟨World.keeps_run honly (fun s a ha hs => hs.answer ha) hw run, ?_⟩
  by_cases hcfg : ∃ c, cfg = .assert c
  · obtain ⟨c, rfl⟩ := hcfg
    obtain ⟨ids, a, rfl, hknows⟩ := hassert c rfl
    obtain ⟨hvacuous, hequals⟩ := run_assert hw hknows run
    refine ⟨hvacuous, fun result hresult c hc => ?_⟩
    cases hc
    show a.operator.code = _
    rw [hequals result hresult]
    rfl
  · rw [eq_false hcfg] at honly
    exact ⟨fun e he => vacuous_of_harmless (World.forall_doneSince honly run e he),
      fun result hresult c hc => absurd ⟨c, hc⟩ hcfg⟩

/-- **What the checks of a generated test compare is `None`, and what they pass is `None`.** -/
theorem vacuous_of_performed {cfgs : List ConfigurationCommandDto} {all : Bool}
    (h : Performed library outside w cfgs w' all) (hw : IdleWorld l r w)
    (hgenerated : ∀ cfg ∈ cfgs, Generated cfg)
    (hasserts : ∀ c, .assert c ∈ cfgs → ∃ (ids : IdPrefix) (a : GeneratedAssert),
      c = a.check ids ∧ outside.Knows (declaredConstant ids a.index)) :
    (∀ e ∈ w.doneSince w', Vacuous e.1) ∧
      (all = true → ∀ c, .assert c ∈ cfgs → c.code = .jsonEquals) := by
  induction h with
  | done w => exact ⟨by simp [World.doneSince_self], by simp⟩
  | refused w cfg cfgs => exact ⟨by simp [World.doneSince_self], fun h => by cases h⟩
  | @raised w w' operationId data cfg res run cfgs =>
    have hrun := vacuous_of_run hw (hgenerated cfg (List.mem_cons_self ..))
      (fun c hc => hasserts c (hc ▸ List.mem_cons_self ..)) run
    exact ⟨hrun.2.1, fun h => by cases h⟩
  | @returned w w₁ w' operationId data cfg cfgs result all run rest ih =>
    obtain ⟨hw₁, hvacuous, hequals⟩ := vacuous_of_run hw (hgenerated cfg (List.mem_cons_self ..))
      (fun c hc => hasserts c (hc ▸ List.mem_cons_self ..)) run
    obtain ⟨hvacuous', hequals'⟩ := ih hw₁
      (fun cfg' h => hgenerated cfg' (List.mem_cons_of_mem _ h))
      (fun c h => hasserts c (List.mem_cons_of_mem _ h))
    constructor
    · rw [World.doneSince_append (World.record_of_run run) rest.record, List.forall_mem_append]
      exact ⟨hvacuous, hvacuous'⟩
    · intro hall c hc
      rcases List.mem_cons.1 hc with hc | hc
      · exact hequals result rfl c hc.symm
      · exact hequals' hall c hc

end

/-- The commands of a stored item are those of a template, as they are read back. -/
def Stored (operations : List StoredOperation) (commands : List CreateSuiteItemCommandDto) : Prop :=
  List.Forall₂ (fun op (command : CreateSuiteItemCommandDto) =>
      ∃ cfg, command.cfg = some cfg ∧ convertToConfigCommandType op.cfgJson = .ok cfg)
    operations commands

theorem Stored.read {operations : List StoredOperation} {commands : List CreateSuiteItemCommandDto}
    {cfgs : List ConfigurationCommandDto} (h : Stored operations commands)
    (hnumbered : Numbered commands cfgs) :
    List.Forall₂ (fun op cfg => convertToConfigCommandType op.cfgJson = .ok cfg)
      operations cfgs := by
  have hcfgs := hnumbered.cfgs
  clear hnumbered
  induction h generalizing cfgs with
  | nil =>
    obtain rfl : cfgs = [] := by simpa using hcfgs.symm
    exact .nil
  | @cons op command operations commands hop h ih =>
    cases cfgs with
    | nil => cases hcfgs
    | cons cfg cfgs =>
      obtain ⟨cfg', hcfg', hread⟩ := hop
      simp only [List.map_cons, List.cons.injEq] at hcfgs
      rw [hcfg', Option.some.injEq] at hcfgs
      exact .cons (hcfgs.1 ▸ hread) (ih hcfgs.2)

theorem generated_sleepCommands (waitMs : ℤ) : ∀ cfg ∈ sleepCommands waitMs, Generated cfg := by
  unfold sleepCommands
  split
  · simp [Generated]
  · simp

theorem no_check_in_sleepCommands (waitMs : ℤ) : ∀ c, .assert c ∉ sleepCommands waitMs := by
  unfold sleepCommands
  split
  · simp
  · simp

/-- The commands of a `send_verify` before its assertions. -/
def SendVerify.lead (plan : SendVerify.Plan) : List ConfigurationCommandDto :=
  ([.setVariable (payloadVariable plan.payloadValue),
    .sendMessageQueue (sendPayload plan.queueId)] : List ConfigurationCommandDto)
    ++ sleepCommands plan.waitMs

theorem SendVerify.generated_lead (plan : SendVerify.Plan) :
    ∀ cfg ∈ SendVerify.lead plan, Generated cfg := by
  rw [SendVerify.lead, List.forall_mem_append]
  refine ⟨?_, generated_sleepCommands _⟩
  simp only [List.forall_mem_cons, List.not_mem_nil, false_implies, implies_true, and_true]
  let payload : ConstantName := ⟨⟨"payload", by decide, by decide⟩, by simp, by decide⟩
  exact ⟨⟨rfl, payload, rfl⟩, rfl, rfl, rfl⟩

theorem SendVerify.no_check_in_lead (plan : SendVerify.Plan) :
    ∀ c, .assert c ∉ SendVerify.lead plan := by
  intro c hc
  rcases List.mem_append.1 hc with hc | hc
  · simp at hc
  · exact no_check_in_sleepCommands _ c hc

theorem Numbered.exists_command {commands : List CreateSuiteItemCommandDto}
    {cfgs : List ConfigurationCommandDto} {cfg : ConfigurationCommandDto}
    (h : Numbered commands cfgs) (hcfg : cfg ∈ cfgs) :
    ∃ command ∈ commands, command.cfg = some cfg := by
  have hmem : some cfg ∈ commands.map (·.cfg) := by
    rw [h.cfgs]
    exact List.mem_map_of_mem hcfg
  exact List.mem_map.1 hmem

theorem Numbered.mem_cfgs {commands : List CreateSuiteItemCommandDto}
    {cfgs : List ConfigurationCommandDto} {command : CreateSuiteItemCommandDto}
    {cfg : ConfigurationCommandDto} (h : Numbered commands cfgs) (hmem : command ∈ commands)
    (hcfg : command.cfg = some cfg) : cfg ∈ cfgs := by
  have hsome : some cfg ∈ cfgs.map some := by
    rw [← h.cfgs, ← hcfg]
    exact List.mem_map_of_mem hmem
  simpa using hsome

/-- What the two templates have in common: some commands that lead, then the assertions. -/
theorem program_of_generateCommands {kind : TemplateKind} {config : Option (List (String × Json))}
    {commands : List CreateSuiteItemCommandDto}
    (h : Template.generateCommands kind config = .ok commands) :
    ∃ (lead : List ConfigurationCommandDto) (ids : IdPrefix) (asserts : List GeneratedAssert),
      Numbered commands (lead ++ asserts.flatMap (GeneratedAssert.commands ids)) ∧
        (∀ cfg ∈ lead, Generated cfg) ∧ ∀ c, .assert c ∉ lead := by
  cases kind with
  | custom => cases h
  | sendVerify =>
    obtain ⟨plan, -, hnumbered⟩ := SendVerify.generateCommands_eq_ok h
    exact ⟨_, _, _, hnumbered, SendVerify.generated_lead plan, SendVerify.no_check_in_lead plan⟩
  | mockAssert =>
    obtain ⟨plan, -, hnumbered⟩ := MockAssert.generateCommands_eq_ok h
    exact ⟨_, _, _, hnumbered, generated_sleepCommands _, no_check_in_sleepCommands _⟩

/-- **A generated test compares nothing with what it expects.**  Whatever the queues and the
databases answer, each of its checks compares `None`; a check passes only where it expects
`None`, and the test only where none of its checks is one for existence. -/
theorem generated_compares_nothing {kind : TemplateKind} {config : Option (List (String × Json))}
    {commands : List CreateSuiteItemCommandDto}
    (hgenerated : Template.generateCommands kind config = .ok commands)
    {operations : List StoredOperation} (hstored : Stored operations commands) (library : Library)
    (outside : Outside) (published : World → CommandFinished → Except String Unit)
    (ids : ExecutionIds) (scope : Option ExecutionScope) (s : ExecutionState World) (data : Json)
    (hknows : ∀ command ∈ commands, ∀ cfg, command.cfg = some cfg →
      ∀ r ∈ Constants.resultConstant? cfg, outside.Knows r)
    {l r : ℕ} (hidle : IdleWorld l r s.env) :
    let done := executeOperations (library.executors outside published) ids scope s operations data
    (∀ e ∈ s.env.doneSince done.1.env, ∀ artifact, e.1 = .appendArtifact artifact →
        artifact.actual = .null ∧ (artifact.status = "passed" → artifact.expected = .null)) ∧
      ∀ result, done.2 = .ok result → ∀ command ∈ commands, ∀ c,
        command.cfg = some (.assert c) → c.code = .jsonEquals := by
  intro done
  obtain ⟨lead, idPrefix, asserts, hnumbered, hlead, hnone⟩ :=
    program_of_generateCommands hgenerated
  set cfgs := lead ++ asserts.flatMap (GeneratedAssert.commands idPrefix)
  have hasserts : ∀ c, .assert c ∈ cfgs → ∃ (idPrefix : IdPrefix) (a : GeneratedAssert),
      c = a.check idPrefix ∧ outside.Knows (declaredConstant idPrefix a.index) := by
    intro c hc
    obtain ⟨a, ha, hmem⟩ := List.mem_flatMap.1 ((List.mem_append.1 hc).resolve_left (hnone c))
    rcases List.mem_pair.1 hmem with hread | hcheck
    · cases hsource : a.source <;> simp [hsource, ReadSource.command] at hread
    · have hread : a.source.command idPrefix a.index ∈ cfgs :=
        List.mem_append_right _ (List.mem_flatMap.2 ⟨a, ha, List.mem_cons_self ..⟩)
      obtain ⟨command, hcommand, hcfg⟩ := hnumbered.exists_command hread
      have hdeclares : declaredConstant idPrefix a.index
          ∈ Constants.resultConstant? (a.source.command idPrefix a.index) := by
        cases a.source <;> exact rfl
      exact ⟨idPrefix, a, by cases hcheck; rfl, hknows command hcommand _ hcfg _ hdeclares⟩
  have hperformed : ∃ all, Performed library outside s.env cfgs done.1.env all ∧
      ∀ result, done.2 = .ok result → all = true :=
    performed_executeOperations (hstored.read hnumbered) rfl
  obtain ⟨all, hperformed, hall⟩ := hperformed
  obtain ⟨hvacuous, hequals⟩ :=
    vacuous_of_performed hperformed hidle (generated_of_lead hlead) hasserts
  refine ⟨hvacuous, fun result hresult command hmem c hc => ?_⟩
  exact hequals (hall result hresult) c (hnumbered.mem_cfgs hmem hc)

/-! ### What a generated test does -/

/-- The effect of a read. -/
def ReadSource.effect : ReadSource → Effect
  | .queue queueId => .poll queueId.val
  | .database connectionId query => .query connectionId.val query.val

/-- The effect of `wait_ms`: the number of milliseconds is slept as a number of seconds. -/
def sleepEffects (waitMs : ℤ) : List Effect := if 0 < waitMs then [.sleep waitMs] else []

/-- Effects that a generated test of a configuration may have. -/
inductive Performs : TemplateKind → List (String × Json) → List Effect → Prop where
  | sendVerify {config : List (String × Json)} {plan : SendVerify.Plan}
      (describes : plan.Describes config) (messages : List Json) :
      Performs .sendVerify config (.publish plan.queueId.val messages ::
        (sleepEffects plan.waitMs ++ plan.asserts.map fun a => a.source.effect))
  | mockAssert {config : List (String × Json)} {plan : MockAssert.Plan}
      (describes : plan.Describes config) :
      Performs .mockAssert config
        (sleepEffects plan.waitMs ++ plan.asserts.map fun a => a.source.effect)

theorem inTurn_sleepCommands {waitMs : ℤ} {es : List Effect} (h : InTurn (sleepCommands waitMs) es) :
    es = sleepEffects waitMs := by
  unfold sleepCommands at h
  unfold sleepEffects
  split_ifs at h ⊢
  · cases h with
    | cons first rest =>
      cases rest
      rw [show _ = [Effect.sleep waitMs] from first, List.append_nil]
  · cases h
    rfl

theorem inTurn_commands {ids : IdPrefix} {asserts : List GeneratedAssert} {es : List Effect}
    (h : InTurn (asserts.flatMap (GeneratedAssert.commands ids)) es) :
    es = asserts.map fun a => a.source.effect := by
  induction asserts generalizing es with
  | nil =>
    cases h
    rfl
  | cons a asserts ih =>
    rw [List.flatMap_cons] at h
    obtain ⟨first, second, hfirst, hsecond, rfl⟩ := h.split
    rw [ih hsecond, List.map_cons]
    cases hfirst with
    | @cons _ _ read rest hread hrest =>
      cases hrest with
      | cons hcheck hnone =>
        cases hnone
        rw [show _ = [] from hcheck, List.append_nil, List.append_nil]
        have hsource : read = [a.source.effect] := by
          cases hsource : a.source <;> rw [hsource] at hread <;> exact hread
        rw [hsource, List.singleton_append]

/-- The effects of the commands are those of the configuration. -/
theorem performs_of_generateCommands {kind : TemplateKind}
    {config : Option (List (String × Json))} {commands : List CreateSuiteItemCommandDto}
    (h : Template.generateCommands kind config = .ok commands) :
    ∃ cfgs : List ConfigurationCommandDto, Numbered commands cfgs ∧
      (∀ cfg ∈ cfgs, Generated cfg) ∧
        ∀ es, InTurn cfgs es → Performs kind (config.getD []) es := by
  cases kind with
  | custom => cases h
  | sendVerify =>
    obtain ⟨plan, hdescribes, hnumbered⟩ := SendVerify.generateCommands_eq_ok h
    refine ⟨_, hnumbered, generated_of_lead (SendVerify.generated_lead plan), fun es hes => ?_⟩
    obtain ⟨first, reads, hfirst, hreads, rfl⟩ := hes.split
    obtain ⟨send, sleep, hsend, hsleep, rfl⟩ := hfirst.split
    rw [inTurn_sleepCommands hsleep, inTurn_commands hreads]
    cases hsend with
    | cons hpayload hrest =>
      cases hrest with
      | cons hpublish hnone =>
        cases hnone
        obtain ⟨messages, rfl⟩ := hpublish
        rw [show _ = [] from hpayload]
        exact .sendVerify hdescribes messages
  | mockAssert =>
    obtain ⟨plan, hdescribes, hnumbered⟩ := MockAssert.generateCommands_eq_ok h
    refine ⟨_, hnumbered, generated_of_lead (generated_sleepCommands _), fun es hes => ?_⟩
    obtain ⟨sleep, reads, hsleep, hreads, rfl⟩ := hes.split
    rw [inTurn_sleepCommands hsleep, inTurn_commands hreads]
    exact .mockAssert hdescribes

/-- **A generated test does what its configuration says, in that order and each thing once, as
far as it goes; and all of it where it returns.**  What it publishes is what
`build_send_message_payloads` has made of the payload, as its constant was read. -/
theorem generated_effects {kind : TemplateKind} {config : Option (List (String × Json))}
    {commands : List CreateSuiteItemCommandDto}
    (hgenerated : Template.generateCommands kind config = .ok commands)
    {operations : List StoredOperation} (hstored : Stored operations commands) (library : Library)
    (outside : Outside) (published : World → CommandFinished → Except String Unit)
    (ids : ExecutionIds) (scope : Option ExecutionScope) (s : ExecutionState World) (data : Json) :
    let done := executeOperations (library.executors outside published) ids scope s operations data
    (∃ es, Performs kind (config.getD []) es ∧ effects s.env done.1.env <+: es ∧
      ∀ result, done.2 = .ok result → effects s.env done.1.env = es) ∧
    ∀ queueId messages, .publish queueId messages ∈ effects s.env done.1.env →
      Sends outside s.env done.1.env messages := by
  intro done
  obtain ⟨cfgs, hnumbered, hcfgs, hperforms⟩ := performs_of_generateCommands hgenerated
  have hperformed : ∃ all, Performed library outside s.env cfgs done.1.env all ∧
      ∀ result, done.2 = .ok result → all = true :=
    performed_executeOperations (hstored.read hnumbered) rfl
  obtain ⟨all, hperformed, hall⟩ := hperformed
  obtain ⟨es, hes, hpre, hequal⟩ := effects_of_performed hperformed hcfgs
  refine ⟨⟨es, hperforms es hes, hpre, fun result hresult => hequal (hall result hresult)⟩, ?_⟩
  exact fun queueId messages he => sends_of_performed hperformed hcfgs he

/-! ### A run that has just begun -/

/-- What is stored of a command. -/
def storedOperation (cfg : ConfigurationCommandDto) : StoredOperation where
  id := "c1"
  configurationJson := .obj cfg.modelDump
  description := ""
  order := 1

/-- Commands that are read back as themselves are stored as what they are. -/
theorem stored_of_numbered {commands : List CreateSuiteItemCommandDto}
    {cfgs : List ConfigurationCommandDto} (hnumbered : Numbered commands cfgs)
    (hread : ∀ cfg ∈ cfgs, convertToConfigCommandType cfg.modelDump = .ok cfg) :
    Stored (cfgs.map storedOperation) commands := by
  have hcfgs := hnumbered.cfgs
  clear hnumbered
  induction cfgs generalizing commands with
  | nil =>
    obtain rfl : commands = [] := by simpa using hcfgs
    exact .nil
  | cons cfg cfgs ih =>
    cases commands with
    | nil => cases hcfgs
    | cons command commands =>
      simp only [List.map_cons, List.cons.injEq] at hcfgs
      rw [List.forall_mem_cons] at hread
      exact .cons ⟨cfg, hcfgs.1, hread.1⟩ (ih hread.2 hcfgs.2)

/-- The commands of a `mock_assert` are read back as themselves where no operand is blank. -/
theorem MockAssert.convert_commands {plan : MockAssert.Plan}
    (hblank : ∀ a ∈ plan.asserts, isBlank a.expected = false) :
    ∀ cfg ∈ plan.commands, convertToConfigCommandType cfg.modelDump = .ok cfg := by
  intro cfg hcfg
  rcases List.mem_append.1 hcfg with hsleep | hassert
  · unfold sleepCommands at hsleep
    split at hsleep
    · rw [List.mem_singleton.1 hsleep]
      exact convert_sleep _ rfl
    · cases hsleep
  · obtain ⟨a, ha, hcfg⟩ := List.mem_flatMap.1 hassert
    rcases List.mem_pair.1 hcfg with rfl | rfl
    · exact convert_read _ _ _
    · exact convert_check.2 ⟨hblank a ha, rfl⟩

/-- The plan of a `mock_assert` that asks whether a query has rows. -/
theorem describes_mockConfig {plan : MockAssert.Plan} (h : plan.Describes mockConfig) :
    plan.waitMs = 1000 ∧ ∃ a, plan.asserts = [a] ∧ a.operator = .present ∧
      a.source.effect = .query "orders" "select 1" := by
  obtain ⟨specs, hspecs, hall⟩ := h.asserts
  obtain rfl := Except.ok.inj hspecs
  refine ⟨(Except.ok.inj h.waitMs).symm, ?_⟩
  generalize plan.asserts = asserts at hall
  cases hall with
  | cons hfirst hnone =>
    cases hnone
    rename_i a
    obtain ⟨-, hsource, hoperator, -⟩ := hfirst
    refine ⟨a, rfl, ?_, ?_⟩
    · cases hpresent : a.operator with
      | present => rfl
      | equals =>
        rw [hpresent] at hoperator
        cases hoperator
    · cases hread : a.source with
      | queue queueId =>
        rw [hread] at hsource
        exact absurd hsource.1 (by decide)
      | database connectionId query =>
        rw [hread] at hsource
        exact congrArg₂ Effect.query hsource.2.1 hsource.2.2

theorem stored_mockConfig {plan : MockAssert.Plan} {commands : List CreateSuiteItemCommandDto}
    (hdescribes : plan.Describes mockConfig) (hnumbered : Numbered commands plan.commands) :
    Stored (plan.commands.map storedOperation) commands := by
  obtain ⟨-, a, hasserts, hpresent, -⟩ := describes_mockConfig hdescribes
  refine stored_of_numbered hnumbered (MockAssert.convert_commands fun a' ha' => ?_)
  rw [hasserts, List.mem_singleton] at ha'
  rw [ha', a.required.2 hpresent]
  rfl

/-- A run that has just begun. -/
theorem idle_start : ∃ s : ExecutionState World, IdleWorld 5 9 s.env := by
  let x := Context.createRunContext [] "run" .null .null
  refine ⟨⟨⟨x.2, x.1, []⟩, ⟨[], []⟩⟩, ?_⟩
  exact
    { localConstants := ⟨[], rfl, rfl⟩
      resultConstants := ⟨rfl, rfl⟩
      apart := by decide
      artifacts := by decide }

/-- A `mock_assert` that asks whether a query has rows, whatever the outside answers as long as it
knows the constant. -/
theorem generated_compares_nothing_mock : ∃ (commands : List CreateSuiteItemCommandDto)
    (operations : List StoredOperation) (library : Library) (outside : Outside)
    (published : World → CommandFinished → Except String Unit) (ids : ExecutionIds)
    (s : ExecutionState World),
    Template.generateCommands .mockAssert (some mockConfig) = .ok commands ∧
      Stored operations commands ∧ ∀ result, (executeOperations
        (library.executors outside published) ids none s operations .null).2 ≠ .ok result := by
  obtain ⟨commands, hgenerated⟩ : ∃ commands,
    Template.generateCommands .mockAssert (some mockConfig) = .ok commands := ⟨_, rfl⟩
  obtain ⟨plan, hdescribes, hnumbered⟩ := MockAssert.generateCommands_eq_ok hgenerated
  obtain ⟨-, a, hasserts, hpresent, -⟩ := describes_mockConfig hdescribes
  have hstored := stored_mockConfig hdescribes hnumbered
  let d : CommandConstantDefinitionEntity :=
    { id := "d", ownerType := .suite, suiteId := none, suiteItemId := none
      mockServerApiId := none, mockServerQueueId := none, commandId := "c2", commandOrder := 2
      sectionType := .test, name := (actualNames.id a.index).val, contextScope := .resultScope
      valueType := .json, declaredAtOrder := 2, deletedAtOrder := none }
  have hknows : ∀ command ∈ commands, ∀ cfg, command.cfg = some cfg →
      ∀ r ∈ Constants.resultConstant? cfg, (Outside.quiet fun _ => some d).Knows r := by
    intro command hcommand cfg hcfg r hr w
    have hmem := hnumbered.mem_cfgs hcommand hcfg
    rw [MockAssert.Plan.commands, hasserts, List.mem_append, sleepCommands] at hmem
    refine ⟨d, rfl, rfl, ?_⟩
    rcases hmem with hsleep | hassert
    · split at hsleep
      · rw [List.mem_singleton.1 hsleep] at hr
        cases hr
      · cases hsleep
    · rw [List.flatMap_cons, List.flatMap_nil, List.append_nil] at hassert
      rcases List.mem_pair.1 hassert with rfl | rfl
      · cases hsource : a.source <;> rw [hsource] at hr <;> cases hr <;> rfl
      · cases hr
  obtain ⟨s, hidle⟩ := idle_start
  let library : Library :=
    { services := ⟨fun _ _ => .ok .null, .ok, fun _ => none, fun _ _ => none⟩
      loads := fun _ => .ok .null }
  let ids : ExecutionIds := ⟨"", "", "", "", "", "", ""⟩
  refine ⟨commands, _, library, .quiet fun _ => some d, fun _ _ => .ok (), ids, s, hgenerated,
    hstored, fun result hresult => ?_⟩
  have hcheck : .assert (a.check MockAssert.ids) ∈ plan.commands := by
    rw [MockAssert.Plan.commands, hasserts, List.mem_append]
    exact .inr (by simp [GeneratedAssert.commands])
  obtain ⟨command, hcommand, hcfg⟩ := hnumbered.exists_command hcheck
  have hequals := (generated_compares_nothing hgenerated hstored library _ (fun _ _ => .ok ()) ids
    none s .null hknows hidle).2 result hresult command hcommand _ hcfg
  rw [show (a.check MockAssert.ids).code = a.operator.code from rfl, hpresent] at hequals
  cases hequals

/-- A `mock_assert` sleeps a thousand seconds before its query. -/
theorem generated_effects_mock : ∃ (commands : List CreateSuiteItemCommandDto)
    (operations : List StoredOperation) (library : Library) (outside : Outside)
    (published : World → CommandFinished → Except String Unit) (ids : ExecutionIds)
    (s : ExecutionState World),
    Template.generateCommands .mockAssert (some mockConfig) = .ok commands ∧
      Stored operations commands ∧ effects s.env (executeOperations
        (library.executors outside published) ids none s operations .null).1.env
          <+: [.sleep 1000, .query "orders" "select 1"] := by
  obtain ⟨commands, hgenerated⟩ : ∃ commands,
    Template.generateCommands .mockAssert (some mockConfig) = .ok commands := ⟨_, rfl⟩
  obtain ⟨plan, hdescribes, hnumbered⟩ := MockAssert.generateCommands_eq_ok hgenerated
  have hstored := stored_mockConfig hdescribes hnumbered
  obtain ⟨s, -⟩ := idle_start
  let library : Library :=
    { services := ⟨fun _ _ => .ok .null, .ok, fun _ => none, fun _ _ => none⟩
      loads := fun _ => .ok .null }
  let outside : Outside := .quiet fun _ => none
  let ids : ExecutionIds := ⟨"", "", "", "", "", "", ""⟩
  refine ⟨commands, _, library, outside, fun _ _ => .ok (), ids, s, hgenerated, hstored, ?_⟩
  obtain ⟨⟨es, hperforms, hpre, -⟩, -⟩ := generated_effects hgenerated hstored library outside
    (fun _ _ => .ok ()) ids none s .null
  cases hperforms with
  | @mockAssert config plan' hdescribes' =>
    obtain ⟨hwait, a, hasserts, -, hquery⟩ := describes_mockConfig hdescribes'
    rw [hwait, hasserts, List.map_singleton, hquery] at hpre
    exact hpre

end Template
end QualityFlow
