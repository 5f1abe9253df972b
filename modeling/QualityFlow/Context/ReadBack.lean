/-
# Reading what was written

`write_context_path` of `app/elaborations/services/suite_runs/run_context.py`, and then
`resolve_dynamic_value` of the same text in the scope of the context.

The writer and the resolver cut a path each in its own way, start from scopes that each
names in its own way, and walk through objects that may be shared.  A reference finds
what was written, whatever the value, exactly when its own walk comes to the slot of the
write, past no slot that the write changes (`read_back_iff`).
-/

import Mathlib.Data.Fintype.EquivFin
import QualityFlow.Context.Written

namespace QualityFlow
namespace Context

open Py Suite

/-! ### Where a reference goes -/

/-- The keys of a reference. -/
def refKeys (path : String) : Except String (List Key) :=
  List.flatten <$> (splitPath (dropChars 2 (strip path))).mapM refTokens

/-- The scopes that a reference may name. -/
def RunContext.scopeOf? (c : RunContext) (name : String) : Option ℕ :=
  Dict.get? [("runEnvelope", c.runEnvelope), ("global", c.globalScope), ("local", c.localScope),
    ("result", c.resultScope)] name

/-- The fields of scopes that a reference may name, where they are dictionaries. -/
def RunContext.aliasOf? (c : RunContext) (name : String) : Option (ℕ × String) :=
  Dict.get? [("vars", (c.globalScope, "constants")), ("response", (c.resultScope, "commands"))] name

/-- A reference comes to an object with some keys left, past the slot that is changed there. -/
inductive Reads (c : RunContext) (h : Heap) (l : ℕ) (left : List Key) (whole : Prop) :
    List Key → Prop where
  | scope {name : String} {start : ℕ} {rest : List Key} (hscope : c.scopeOf? name = some start)
      (hread : ReadsTo h l left (.ref start) rest) : Reads c h l left whole (.name name :: rest)
  | field {name field : String} {start : ℕ} {rest : List Key}
      (halias : c.aliasOf? name = some (start, field)) (hdict : h.IsDict (h.field start field))
      (hslot : ¬ Changed l left start (.name field))
      (hread : ReadsTo h l left (h.field start field) rest) :
      Reads c h l left whole (.name name :: rest)
  | made {name field : String} {rest : List Key} (halias : c.aliasOf? name = some (l, field))
      (hleft : left = .name field :: rest)
      (hdict : (∃ k more, rest = .name k :: more) ∨ rest = [] ∧ whole) :
      Reads c h l left whole (.name name :: rest)

/-! ### What a write changes -/

/-- The object and the keys in it that a write to a scope puts its value under; commands that
are no dictionary are replaced. -/
def writeSlot (c : RunContext) (h : Heap) (root : ContextRoot) (keys : List Key) :
    Val × List Key :=
  if root = .response ∧ ¬ h.isDict (h.field c.resultScope "commands") then
    (.ref c.resultScope, .name "commands" :: keys)
  else lastThere h (rootVal c h root) keys

/-- The reference of a path comes to the slot that a write to it changes. -/
def ReadsBack (c : RunContext) (h : Heap) (path : String) : Prop :=
  ∃ root tokens keys read l left, contextTarget path = .ok (some (root, tokens)) ∧
    tokens.mapM toKey = .ok keys ∧ refKeys path = .ok read ∧
    writeSlot c h root keys = (.ref l, left) ∧ Reads c h l left (tokens = []) read

/-- `resolve_dynamic_value` of a text gives the value. -/
def Returns (c : RunContext) (h : Heap) (path : String) (value : Val) : Prop :=
  ∃ w, (make c h (.reference path)).2 = .ok w ∧
    Same (make c h (.reference path)).1 w (make c h (.reference path)).1 value

/-! ### The text of a reference -/

/-- A reference is one still after it was stripped. -/
theorem startsWith_strip {path : String} (hpath : startsWith path "$." = true) :
    startsWith (strip path) "$." = true := by
  obtain ⟨cs, hcs⟩ := List.isPrefixOf_iff_prefix.1 hpath
  have hdollar : "$.".toList = ['$', '.'] := rfl
  have hopen : isSpace '$' = false := by decide
  have hdot : isSpace '.' = false := by decide
  rw [startsWith, strip, String.toList_ofList, ← hcs, hdollar, List.cons_append,
    List.dropWhile_cons_of_neg (by simp [hopen]), List.isPrefixOf_iff_prefix, List.rdropWhile,
    List.cons_append, List.nil_append, List.reverse_cons, List.reverse_cons, List.append_assoc,
    List.dropWhile_append]
  split_ifs
  · simp [hdot]
  · simp

theorem resolveRef_eq {path : String} (hpath : startsWith path "$." = true) (h : Heap) (scope : ℕ) :
    resolveRef h scope path
      = resolveParts h (.ref scope) (splitPath (dropChars 2 (strip path))) := by
  have hstrip := startsWith_strip hpath
  have hne : strip path ≠ "$" := by
    intro heq
    rw [heq] at hstrip
    exact absurd hstrip (by decide)
  unfold resolveRef
  simp only [if_neg hne, if_pos hstrip]

/-- The parts of a reference are walked along one after the other. -/
theorem resolveParts_eq_ok {h : Heap} {v w : Val} {parts : List String} :
    resolveParts h v parts = .ok (some w) ↔
      ∃ keys, parts.mapM refTokens = .ok keys ∧ walk h v keys.flatten = some w := by
  induction parts generalizing v with
  | nil =>
    rw [resolveParts, List.mapM_nil, pure_eq_ok]
    constructor
    · intro hw
      exact ⟨[], rfl, Except.ok.inj hw⟩
    · rintro ⟨keys, hkeys, hw⟩
      obtain rfl := Except.ok.inj hkeys
      exact congrArg Except.ok hw
  | cons part parts ih =>
    rw [resolveParts, List.mapM_cons]
    cases htokens : refTokens part with
    | error e => simp
    | ok keys =>
      simp only [ok_bind]
      cases hwalk : walk h v keys with
      | none =>
        constructor
        · intro hw
          exact absurd hw (by simp)
        · rintro ⟨keys', hkeys', hw⟩
          obtain ⟨rest, -, hrest⟩ := bind_eq_ok.1 hkeys'
          obtain rfl := Except.ok.inj hrest
          rw [List.flatten_cons, walk_append, hwalk] at hw
          exact absurd hw (by simp)
      | some x =>
        rw [ih]
        constructor
        · rintro ⟨rest, hrest, hw⟩
          refine ⟨keys :: rest, by rw [hrest]; rfl, ?_⟩
          rw [List.flatten_cons, walk_append, hwalk, Option.bind_some, hw]
        · rintro ⟨keys', hkeys', hw⟩
          obtain ⟨rest, hrest, heq⟩ := bind_eq_ok.1 hkeys'
          obtain rfl := Except.ok.inj heq
          rw [List.flatten_cons, walk_append, hwalk, Option.bind_some] at hw
          exact ⟨rest, hrest, hw⟩

theorem resolveRef_eq_ok {path : String} (hpath : startsWith path "$." = true) {h : Heap}
    {scope : ℕ} {w : Val} :
    resolveRef h scope path = .ok (some w) ↔
      ∃ keys, refKeys path = .ok keys ∧ walk h (.ref scope) keys = some w := by
  rw [resolveRef_eq hpath, resolveParts_eq_ok]
  constructor
  · rintro ⟨keys, hkeys, hw⟩
    exact ⟨keys.flatten, by rw [refKeys, hkeys, map_ok], hw⟩
  · rintro ⟨keys, hkeys, hw⟩
    obtain ⟨parts, hparts, rfl⟩ := map_eq_ok.1 hkeys
    exact ⟨parts, hparts, hw⟩

/-! ### The scope of references -/

/-- A field as it is taken over into the scope of references. -/
def TakenAs (h h' : Heap) (x v : Val) : Prop :=
  h.IsDict x ∧ v = x ∨ ¬ h.IsDict x ∧ ∃ a, v = .ref a ∧ h'[a]? = some (.dict [])

/-- A context whose scopes are dictionaries, in a heap whose references lead to objects. -/
structure Sound (ρ : ℕ → ℕ → Prop) (c : RunContext) (h : Heap) : Prop where
  sim : Sim hideNone ρ h h
  rooted : Rooted ρ c
  dicts : ScopesAreDicts c h

section

variable {ρ : ℕ → ℕ → Prop} {c : RunContext} {h h' : Heap} {l start : ℕ} {left read keys rest : List Key}
  {name field path : String} {v w value : Val} {whole : Prop} {tokens : List String}
  {root : ContextRoot}

theorem takenAs_dictOrNew (h : Heap) (x : Val) :
    TakenAs h (h.dictOrNew x).1 x (h.dictOrNew x).2 := by
  by_cases hx : h.IsDict x
  · exact .inl ⟨hx, by rw [dictOrNew_eq hx]⟩
  · exact .inr ⟨hx, dictOrNew_new hx⟩

theorem TakenAs.of_isPrefix {h₂ : Heap} {x : Val} (ht : TakenAs h h' x v) (hpre : h' <+: h₂) :
    TakenAs h h₂ x v := by
  rcases ht with hx | ⟨hx, a, rfl, ha⟩
  · exact .inl hx
  · exact .inr ⟨hx, a, rfl, Heap.getElem?_of_isPrefix hpre ha⟩

/-- The dictionary that references are resolved in, with what is taken over into it. -/
theorem buildRunContextScope_taken (hs : Sound ρ c h) :
    ∃ vars response,
      (buildRunContextScope c h).1[(buildRunContextScope c h).2]? = some (.dict
        [("runEnvelope", .ref c.runEnvelope), ("global", .ref c.globalScope),
          ("local", .ref c.localScope), ("result", .ref c.resultScope), ("vars", vars),
          ("response", response)]) ∧
      TakenAs h (buildRunContextScope c h).1 (h.field c.globalScope "constants") vars ∧
      TakenAs h (buildRunContextScope c h).1 (h.field c.resultScope "commands") response := by
  have hvars := takenAs_dictOrNew h (h.field c.globalScope "constants")
  have hpre₁ := prefix_dictOrNew h (h.field c.globalScope "constants")
  have hfield := Heap.field_of_isPrefix hpre₁ (hs.dicts .result) "commands"
  have hdict : (h.dictOrNew (h.field c.globalScope "constants")).1.IsDict
      (h.field c.resultScope "commands") ↔ h.IsDict (h.field c.resultScope "commands") :=
    ⟨isDict_of_isPrefix hs.sim (field_self hs.sim hs.rooted.resultScope _) hpre₁,
      fun hd => hd.of_isPrefix hpre₁⟩
  unfold buildRunContextScope
  generalize h.dictOrNew (h.field c.globalScope "constants") = x at hvars hpre₁ hfield hdict ⊢
  obtain ⟨h₁, vars⟩ := x
  simp only at hvars hpre₁ hfield hdict ⊢
  have hresponse := takenAs_dictOrNew h₁ (h₁.field c.resultScope "commands")
  have hpre₂ := prefix_dictOrNew h₁ (h₁.field c.resultScope "commands")
  rw [RunContext.scope] at hfield
  rw [hfield] at hresponse hpre₂ ⊢
  generalize h₁.dictOrNew (h.field c.resultScope "commands") = x at hresponse hpre₂ ⊢
  obtain ⟨h₂, response⟩ := x
  simp only at hresponse hpre₂ ⊢
  have hpre₃ : h₂ <+: (h₂.alloc (.dict [("runEnvelope", .ref c.runEnvelope),
      ("global", .ref c.globalScope), ("local", .ref c.localScope), ("result", .ref c.resultScope),
      ("vars", vars), ("response", response)])).1 := List.prefix_append _ _
  refine ⟨vars, response, by simp [Heap.alloc], hvars.of_isPrefix (hpre₂.trans hpre₃), ?_⟩
  rw [TakenAs, hdict] at hresponse
  exact TakenAs.of_isPrefix hresponse hpre₃

/-- What the scope of references has under a name. -/
inductive Names (c : RunContext) (vars response : Val) : String → Val → Prop where
  | scope {name : String} {start : ℕ} (hscope : c.scopeOf? name = some start) :
      Names c vars response name (.ref start)
  | vars {name : String} (halias : c.aliasOf? name = some (c.globalScope, "constants")) :
      Names c vars response name vars
  | response {name : String} (halias : c.aliasOf? name = some (c.resultScope, "commands")) :
      Names c vars response name response

theorem names_of_get? {vars response : Val}
    (hget : Dict.get? [("runEnvelope", .ref c.runEnvelope), ("global", .ref c.globalScope),
      ("local", .ref c.localScope), ("result", .ref c.resultScope), ("vars", vars),
      ("response", response)] name = some v) : Names c vars response name v := by
  simp only [Dict.get?_cons, Dict.get?_nil] at hget
  split_ifs at hget with h₁ h₂ h₃ h₄ h₅ h₆
  · obtain rfl := Option.some.inj hget
    exact .scope (by rw [← h₁]; rfl)
  · obtain rfl := Option.some.inj hget
    exact .scope (by rw [← h₂]; rfl)
  · obtain rfl := Option.some.inj hget
    exact .scope (by rw [← h₃]; rfl)
  · obtain rfl := Option.some.inj hget
    exact .scope (by rw [← h₄]; rfl)
  · obtain rfl := Option.some.inj hget
    exact .vars (by rw [← h₅]; rfl)
  · obtain rfl := Option.some.inj hget
    exact .response (by rw [← h₆]; rfl)

/-- A walk from the scope of references goes on in one of the scopes. -/
theorem walk_scopeOf (hs : Sound ρ c h) (hscope : c.scopeOf? name = some start) (rest : List Key) :
    walk (buildRunContextScope c h).1 (.ref (buildRunContextScope c h).2) (.name name :: rest)
      = walk (buildRunContextScope c h).1 (.ref start) rest := by
  obtain ⟨vars, response, hS, -, -⟩ := buildRunContextScope_taken hs
  rw [walk_cons, Heap.item?_dict hS]
  simp only [RunContext.scopeOf?, Dict.get?_cons, Dict.get?_nil] at hscope
  split_ifs at hscope with h₁ h₂ h₃ h₄ <;> obtain rfl := Option.some.inj hscope
  · rw [← h₁]
    rfl
  · rw [← h₂]
    rfl
  · rw [← h₃]
    rfl
  · rw [← h₄]
    rfl

/-- Or in one of the fields that it names itself. -/
theorem walk_aliasOf (hs : Sound ρ c h) (halias : c.aliasOf? name = some (start, field))
    (rest : List Key) :
    ∃ v, TakenAs h (buildRunContextScope c h).1 (h.field start field) v ∧
      walk (buildRunContextScope c h).1 (.ref (buildRunContextScope c h).2) (.name name :: rest)
        = walk (buildRunContextScope c h).1 v rest := by
  obtain ⟨vars, response, hS, hvars, hresponse⟩ := buildRunContextScope_taken hs
  rw [walk_cons, Heap.item?_dict hS]
  simp only [RunContext.aliasOf?, Dict.get?_cons, Dict.get?_nil] at halias
  split_ifs at halias with h₁ h₂ <;>
    obtain ⟨rfl, rfl⟩ := Prod.mk.inj (Option.some.inj halias)
  · refine ⟨vars, hvars, ?_⟩
    rw [← h₁]
    rfl
  · refine ⟨response, hresponse, ?_⟩
    rw [← h₂]
    rfl

theorem Sound.inside (hs : Sound ρ c h) : Inside (fun l => ρ l l) h := by
  intro l key m hl hitem
  have hshown : Shown hideNone (.ref l) key := fun _ _ _ _ => id
  have hrel := hs.sim.agree.item? (.ref hl) hshown
  rw [hitem] at hrel
  cases hrel with
  | some hm => exact ⟨hm.of_ref, hs.sim.lt_left hm.of_ref⟩

theorem Sound.within (hs : Sound ρ c h) (hv : ValRel ρ v v) : Within (fun l => ρ l l) h v := by
  rintro l rfl
  exact ⟨hv.of_ref, hs.sim.lt_left hv.of_ref⟩

theorem Rooted.scopeOf (hc : Rooted ρ c) (hscope : c.scopeOf? name = some start) :
    ρ start start := by
  simp only [RunContext.scopeOf?, Dict.get?_cons, Dict.get?_nil] at hscope
  split_ifs at hscope <;> obtain rfl := Option.some.inj hscope
  · exact hc.runEnvelope
  · exact hc.globalScope
  · exact hc.localScope
  · exact hc.resultScope

theorem Rooted.aliasOf (hc : Rooted ρ c) (halias : c.aliasOf? name = some (start, field)) :
    ρ start start := by
  simp only [RunContext.aliasOf?, Dict.get?_cons, Dict.get?_nil] at halias
  split_ifs at halias <;> obtain ⟨rfl, -⟩ := Prod.mk.inj (Option.some.inj halias)
  · exact hc.globalScope
  · exact hc.resultScope

/-- A field that a reference may name is no scope. -/
theorem scopeOf?_of_alias (halias : c.aliasOf? name = some (start, field)) :
    c.scopeOf? name = none := by
  simp only [RunContext.aliasOf?, Dict.get?_cons, Dict.get?_nil] at halias
  split_ifs at halias with h₁ h₂
  · rw [← h₁]
    rfl
  · rw [← h₂]
    rfl

theorem field_cases (halias : c.aliasOf? name = some (start, field)) :
    Key.name field = .name "constants" ∨ Key.name field = .name "commands" := by
  simp only [RunContext.aliasOf?, Dict.get?_cons, Dict.get?_nil] at halias
  split_ifs at halias <;> obtain ⟨-, rfl⟩ := Prod.mk.inj (Option.some.inj halias)
  · exact .inl rfl
  · exact .inr rfl

/-- A walk from a scope ends where it would without the scope of references. -/
theorem walk_scope (hs : Sound ρ c h) (hscope : c.scopeOf? name = some start) :
    walk (buildRunContextScope c h).1 (.ref (buildRunContextScope c h).2) (.name name :: rest)
      = walk h (.ref start) rest := by
  rw [walk_scopeOf hs hscope]
  exact walk_of_isPrefix hs.inside (buildRunContextScope_spec c h).1
    (hs.within (.ref (hs.rooted.scopeOf hscope)))

/-- And so does one from a field that is a dictionary. -/
theorem walk_alias (hs : Sound ρ c h) (halias : c.aliasOf? name = some (start, field))
    (hdict : h.IsDict (h.field start field)) :
    walk (buildRunContextScope c h).1 (.ref (buildRunContextScope c h).2) (.name name :: rest)
      = walk h (h.field start field) rest := by
  obtain ⟨v, htaken, hwalk⟩ := walk_aliasOf hs halias rest
  rcases htaken with ⟨-, rfl⟩ | ⟨hno, -⟩
  · rw [hwalk]
    exact walk_of_isPrefix hs.inside (buildRunContextScope_spec c h).1
      (hs.within (field_self hs.sim (hs.rooted.aliasOf halias) field))
  · exact absurd hdict hno

/-- **Where a walk from the scope of references ends**: in the scope, in a dictionary that was made
for a missing field, or where one from a scope, or from a field that is a dictionary, ends. -/
theorem walk_scope_cases (hs : Sound ρ c h)
    (hwalk : walk (buildRunContextScope c h).1 (.ref (buildRunContextScope c h).2) read = some w) :
    w = .ref (buildRunContextScope c h).2 ∨
      (∃ a, w = .ref a ∧ (buildRunContextScope c h).1[a]? = some (.dict [])) ∨
      ∃ name rest, read = .name name :: rest ∧
        ((∃ start, c.scopeOf? name = some start ∧ walk h (.ref start) rest = some w) ∨
          ∃ start field, c.aliasOf? name = some (start, field) ∧ h.IsDict (h.field start field) ∧
            walk h (h.field start field) rest = some w) := by
  have hfield {name : String} {start : ℕ} {field : String} {rest : List Key}
      (halias : c.aliasOf? name = some (start, field))
      (hw : walk (buildRunContextScope c h).1 (.ref (buildRunContextScope c h).2)
        (.name name :: rest) = some w) :
      (∃ a, w = .ref a ∧ (buildRunContextScope c h).1[a]? = some (.dict [])) ∨
        h.IsDict (h.field start field) ∧ walk h (h.field start field) rest = some w := by
    by_cases hdict : h.IsDict (h.field start field)
    · rw [walk_alias hs halias hdict] at hw
      exact .inr ⟨hdict, hw⟩
    · obtain ⟨v, htaken, heq⟩ := walk_aliasOf hs halias rest
      rcases htaken with ⟨hd, -⟩ | ⟨-, a, rfl, ha⟩
      · exact absurd hd hdict
      · rw [heq] at hw
        cases rest with
        | nil => exact .inl ⟨a, (Option.some.inj hw).symm, ha⟩
        | cons key rest =>
          rw [walk_cons, Heap.item?, Heap.obj?, ha] at hw
          cases key <;> simp [Obj.get?] at hw
  obtain ⟨vars, response, hS, -, -⟩ := buildRunContextScope_taken hs
  cases read with
  | nil => exact .inl (Option.some.inj hwalk).symm
  | cons key rest =>
    cases key with
    | index i =>
      rw [walk_cons, Heap.item?, Heap.obj?, hS] at hwalk
      simp [Obj.get?] at hwalk
    | name name =>
      have hnames := hwalk
      rw [walk_cons, Heap.item?_dict hS] at hnames
      obtain ⟨x, hx, -⟩ := Option.bind_eq_some_iff.1 hnames
      cases names_of_get? hx with
      | scope hscope =>
        rw [walk_scope hs hscope] at hwalk
        exact .inr (.inr ⟨name, rest, rfl, .inl ⟨_, hscope, hwalk⟩⟩)
      | vars halias =>
        rcases hfield halias hwalk with hnew | hold
        · exact .inr (.inl hnew)
        · exact .inr (.inr ⟨name, rest, rfl, .inr ⟨_, _, halias, hold⟩⟩)
      | response halias =>
        rcases hfield halias hwalk with hnew | hold
        · exact .inr (.inl hnew)
        · exact .inr (.inr ⟨name, rest, rfl, .inr ⟨_, _, halias, hold⟩⟩)

/-! ### The reference and the slot -/

section

variable {ι : Type} {P : ℕ → Prop} {after : ι → Heap} {found : ι → Val}
  {Finds : Val → List Key → Prop}

theorem ReadsTo.walk_of_written (hread : ReadsTo h l left v rest)
    (hw : Written P h l left after found Finds) (i : ι) :
    walk (after i) v rest = some (found i) := by
  obtain ⟨ks, rfl, hks⟩ := hread
  rw [walk_append, hks.walk_of_keeps (hw.keeps i), Option.bind_some, hw.reads]

/-- **A reference that comes to the slot of a write finds what was written.** -/
theorem Reads.walk_of_written (hread : Reads c h l left whole read)
    (hw : Written P h l left after found Finds) (i : ι) (hs : Sound ρ c (after i))
    (hdicts : DictsKept h (after i)) (hwhole : whole → (after i).IsDict (found i)) :
    walk (buildRunContextScope c (after i)).1 (.ref (buildRunContextScope c (after i)).2) read
      = some (found i) := by
  cases hread with
  | scope hscope hread =>
    rw [walk_scope hs hscope]
    exact hread.walk_of_written hw i
  | field halias hdict hslot hread =>
    have hfield := Heap.field_eq (hw.keeps i _ _ _ hslot (Heap.item?_of_isDict_field hdict))
    rw [walk_alias hs halias (by rw [hfield]; exact hdicts _ hdict), hfield]
    exact hread.walk_of_written hw i
  | @made name field rest halias hleft hrest =>
    have hreads := hw.reads i
    rw [hleft, walk_cons] at hreads
    obtain ⟨x, hx, hreads⟩ := Option.bind_eq_some_iff.1 hreads
    have hfield := Heap.field_eq hx
    have hdict : (after i).IsDict x := by
      rcases hrest with ⟨k, more, rfl⟩ | ⟨rfl, hall⟩
      · rw [walk_cons] at hreads
        obtain ⟨y, hy, -⟩ := Option.bind_eq_some_iff.1 hreads
        exact fits_of_item? hy
      · obtain rfl := Option.some.inj hreads
        exact hwhole hall
    rw [walk_alias hs halias (by rw [hfield]; exact hdict), hfield, hreads]

/-- Where a reference finds something that is in no dictionary of its own making, it starts in a
scope, or in a field that is a dictionary. -/
theorem walk_scope_forall (i₀ : ι) {w : ι → Val} (hs : ∀ i, ∃ ρ, Sound ρ c (after i))
    (hwalk : ∀ i, walk (buildRunContextScope c (after i)).1
      (.ref (buildRunContextScope c (after i)).2) read = some (w i))
    (hscope : ∀ i, w i ≠ .ref (buildRunContextScope c (after i)).2)
    (hempty : ∀ i a, w i = .ref a → (buildRunContextScope c (after i)).1[a]? ≠ some (.dict [])) :
    ∃ name rest, read = .name name :: rest ∧
      ((∃ start, c.scopeOf? name = some start ∧
          ∀ i, walk (after i) (.ref start) rest = some (w i)) ∨
        ∃ start field, c.aliasOf? name = some (start, field) ∧
          ∀ i, (after i).IsDict ((after i).field start field) ∧
            walk (after i) ((after i).field start field) rest = some (w i)) := by
  have hcases (i : ι) : ∃ name rest, read = .name name :: rest ∧
      ((∃ start, c.scopeOf? name = some start ∧ walk (after i) (.ref start) rest = some (w i)) ∨
        ∃ start field, c.aliasOf? name = some (start, field) ∧
          (after i).IsDict ((after i).field start field) ∧
            walk (after i) ((after i).field start field) rest = some (w i)) := by
    obtain ⟨ρ, hsound⟩ := hs i
    rcases walk_scope_cases hsound (hwalk i) with hw | ⟨a, hw, ha⟩ | hw
    · exact absurd hw (hscope i)
    · exact absurd ha (hempty i a hw)
    · exact hw
  obtain ⟨name, rest, rfl, hfirst⟩ := hcases i₀
  refine ⟨name, rest, rfl, ?_⟩
  have hapart {start start' : ℕ} {field : String} (hscope : c.scopeOf? name = some start)
      (halias : c.aliasOf? name = some (start', field)) : False := by
    rw [scopeOf?_of_alias halias] at hscope
    exact absurd hscope (by simp)
  rcases hfirst with ⟨start, hstart, -⟩ | ⟨start, field, halias, -⟩
  · refine .inl ⟨start, hstart, fun i => ?_⟩
    obtain ⟨name', rest', heq, hi⟩ := hcases i
    obtain ⟨hname, rfl⟩ := List.cons.inj heq
    obtain rfl := Key.name.inj hname
    rcases hi with ⟨start', hstart', hw⟩ | ⟨start', field, halias, -⟩
    · obtain rfl := Option.some.inj (hstart.symm.trans hstart')
      exact hw
    · exact (hapart hstart halias).elim
  · refine .inr ⟨start, field, halias, fun i => ?_⟩
    obtain ⟨name', rest', heq, hi⟩ := hcases i
    obtain ⟨hname, rfl⟩ := List.cons.inj heq
    obtain rfl := Key.name.inj hname
    rcases hi with ⟨start', hstart', -⟩ | ⟨start', field', halias', hw⟩
    · exact (hapart hstart' halias).elim
    · obtain ⟨rfl, rfl⟩ := Prod.mk.inj (Option.some.inj (halias.symm.trans halias'))
      exact hw

theorem not_isDict_of_index {i : ℕ} (hdict : h.IsDict v)
    (hwalk : walk h v (.index i :: rest) = some w) : False := by
  rw [walk_cons] at hwalk
  obtain ⟨x, hx, -⟩ := Option.bind_eq_some_iff.1 hwalk
  obtain ⟨d, hd⟩ := hdict
  obtain ⟨xs, hxs⟩ := fits_of_item? hx
  rw [hd] at hxs
  exact absurd hxs (by simp)

/-- **A reference that finds what was written, in each of some writes, comes to their slot.** -/
theorem Written.reads_of_walk (hw : Written P h l left after found Finds) (i₀ : ι) {w : ι → Val}
    (hfinds : ∀ v path,
      (∀ key ∈ path, key ∈ read ∨ key = .name "constants" ∨ key = .name "commands") →
      (∀ i, walk (after i) v path = some (w i)) → Finds v path)
    (hs : ∀ i, ∃ ρ, Sound ρ c (after i))
    (hwalk : ∀ i, walk (buildRunContextScope c (after i)).1
      (.ref (buildRunContextScope c (after i)).2) read = some (w i))
    (hscope : ∀ i, w i ≠ .ref (buildRunContextScope c (after i)).2)
    (hempty : ∀ i a, w i = .ref a → (buildRunContextScope c (after i)).1[a]? ≠ some (.dict []))
    (hwhole : (after i₀).IsDict (w i₀) → whole) (hroot : left = [] → h.IsDict (.ref l))
    (hstart : ∀ name start, c.scopeOf? name = some start → Within P h (.ref start))
    (hfield : ∀ name start field, c.aliasOf? name = some (start, field) →
      Within P h (.ref start)) : Reads c h l left whole read := by
  obtain ⟨name, rest, rfl, ⟨start, hname, hall⟩ | ⟨start, field, halias, hall⟩⟩ :=
    walk_scope_forall i₀ hs hwalk hscope hempty
  · refine .scope hname (hw.only _ _ (hstart name start hname) (hfinds _ _ ?_ hall))
    exact fun key hkey => .inl (List.mem_cons_of_mem _ hkey)
  · -- the walk as one from the scope that has the field
    have hread : ReadsTo h l left (.ref start) (.name field :: rest) := by
      refine hw.only _ _ (hfield name start field halias) (hfinds _ _ ?_ fun i => ?_)
      · rw [List.forall_mem_cons]
        exact ⟨.inr (field_cases halias), fun key hkey => .inl (List.mem_cons_of_mem _ hkey)⟩
      · rw [walk_cons, Heap.item?_of_isDict_field (hall i).1, Option.bind_some, (hall i).2]
    obtain ⟨hdict₀, hwalk₀⟩ := hall i₀
    obtain ⟨ks, heq, hks⟩ := hread
    cases hks with
    | nil =>
      refine .made halias heq.symm ?_
      cases rest with
      | nil =>
        obtain hw₀ := Option.some.inj hwalk₀
        rw [hw₀] at hdict₀
        exact .inr ⟨rfl, hwhole hdict₀⟩
      | cons key more =>
        cases key with
        | name k => exact .inl ⟨k, more, rfl⟩
        | index j => exact (not_isDict_of_index hdict₀ hwalk₀).elim
    | @cons _ x _ key ks hclear hitem hrest =>
      obtain ⟨rfl, rfl⟩ := List.cons.inj heq
      have hx := Heap.field_eq hitem
      have hx₀ := Heap.field_eq (hw.keeps i₀ _ _ _ (hclear start rfl) hitem)
      have hread : ReadsTo h l left x (ks ++ left) := ⟨ks, rfl, hrest⟩
      refine .field halias ?_ (hclear start rfl) (by rw [hx]; exact hread)
      rw [hx]
      rw [hx₀] at hdict₀ hwalk₀
      -- the first key behind the field tells of what kind it is
      have hkind {key : Key} {more : List Key} (hrest : ks ++ left = key :: more)
          (hfits : Fits h x key) : h.IsDict x := by
        cases key with
        | name k => exact hfits
        | index j =>
          have hwalk₀ : walk (after i₀) x (ks ++ left) = some (w i₀) := hwalk₀
          rw [hrest] at hwalk₀
          exact (not_isDict_of_index hdict₀ hwalk₀).elim
      cases hrest with
      | nil =>
        cases left with
        | nil => exact hroot rfl
        | cons key more => exact hkind rfl (hw.fits key rfl)
      | cons hclear' hitem' hrest' => exact hkind rfl (fits_of_item? hitem')

end

/-! ### What a write puts where -/

section

variable {P : ℕ → Prop} {k₀ : String}

theorem Sound.isDict_rootVal (hs : Sound ρ c h) (hroot : root ≠ .response) :
    h.IsDict (rootVal c h root) := by
  cases root with
  | response => exact absurd rfl hroot
  | _ => exact hs.dicts _

/-- A new dictionary in the place of commands that are none. -/
theorem Sound.branch_commands (hs : Sound ρ c h) :
    Branch h ((h.alloc (.dict [])).1.setItem c.resultScope (.name "commands") (.ref h.length))
      c.resultScope (.name "commands") h.length := by
  have hempty : ∀ key, (Obj.dict []).get? key = none := fun key => by cases key <;> rfl
  exact branch_alloc_setItem hempty (hs.dicts .result) (by simp)

/-- What a write is to a path that another write to it returned for. -/
theorem writeContextPath_eq (htarget : contextTarget path = .ok (some (root, tokens)))
    (hok : (writeContextPath c h path value).2 = .ok ()) {h₁ : Heap} {value₁ : Val} :
    writeContextPath c h₁ path value₁ =
      if tokens = [] then
        assignRoot (targetFromRoot c h₁ root).1 (targetFromRoot c h₁ root).2 value₁
      else assignNestedValue value₁ (targetFromRoot c h₁ root).1
        (.ref (targetFromRoot c h₁ root).2) tokens := by
  rw [writeContextPath, htarget] at hok ⊢
  cases hcheck : checkMutable c root with
  | error e => simp [hcheck] at hok
  | ok _ => simp only [hcheck]

/-- **A write below a scope puts its value at one slot.** -/
theorem written_writeContextPath (hs : Sound ρ c h)
    (htarget : contextTarget path = .ok (some (root, tokens))) (hne : tokens ≠ [])
    (hok : (writeContextPath c h path value).2 = .ok ()) :
    ∃ keys l left, tokens.mapM toKey = .ok keys ∧ writeSlot c h root keys = (.ref l, left) ∧
      left ≠ [] ∧ (∀ value, (writeContextPath c h path value).2 = .ok ()) ∧
      Written (fun a => ρ a a) h l left (fun value => (writeContextPath c h path value).1) id
        (FindsBoth fun value => (writeContextPath c h path value).1) := by
  have hwrite (value : Val) : writeContextPath c h path value = assignNestedValue value
      (targetFromRoot c h root).1 (.ref (targetFromRoot c h root).2) tokens := by
    rw [writeContextPath_eq htarget hok, if_neg hne]
  simp only [hwrite] at hok ⊢
  by_cases hdict : h.IsDict (rootVal c h root)
  · obtain ⟨hheap, hval⟩ := targetFromRoot_of_isDict hdict
    rw [hheap, hval] at hok ⊢
    obtain ⟨keys, l, left, hkeys, -, hlast, hleft, hall, hw⟩ :=
      written_assignNestedValue hs.inside hok
    refine ⟨keys, l, left, hkeys, ?_, hleft, hall, hw⟩
    rw [writeSlot, if_neg, hlast]
    rintro ⟨rfl, hno⟩
    exact hno (Heap.isDict_iff.2 hdict)
  · obtain rfl : root = .response := by
      by_contra hroot
      exact hdict (hs.isDict_rootVal hroot)
    have hb := hs.branch_commands
    rw [targetFromRoot_new hdict] at hok ⊢
    obtain ⟨keys, l, left, hkeys, -, hlast, -, hall, hw⟩ :=
      written_assignNestedValue (hs.inside.of_extends hb.ext) hok
    rw [lastThere_of_empty fun k => hb.ext.new _ k le_rfl] at hlast
    obtain ⟨hl, rfl⟩ := Prod.mk.inj hlast
    obtain rfl := Val.ref.inj hl
    refine ⟨keys, c.resultScope, .name "commands" :: keys, hkeys, ?_, by simp, hall,
      hw.of_branch hb hs.inside⟩
    rw [writeSlot, if_pos ⟨rfl, fun hd => hdict (Heap.isDict_iff.1 hd)⟩]

/-- A walk finds an item under a key that it does not read itself. -/
def FindsItem (h : Heap) (k : String) (v : Val) (path : List Key) : Prop :=
  .name k ∉ path ∧ ∃ x, walk h v path = some x ∧ h.item? x (.name k) = some (.int 1)

/-- An assignment to an object as a whole changes that object only. -/
theorem written_modify {Finds : Val → List Key → Prop} {o : Obj}
    (honly : ∀ v path, Within P h v → Finds v path → ReadsTo h l [] v path) :
    Written P h l [] (fun _ : Unit => h.modify l fun _ => o) (fun _ => .ref l) Finds := by
  refine ⟨by simp, fun _ a key w hne hitem => ?_, fun _ => rfl, honly⟩
  have ha : l ≠ a := fun ha => hne ⟨ha.symm, by simp⟩
  rw [Heap.item?, Heap.obj?, Heap.modify_of_ne h ha]
  exact hitem

/-- A walk that finds an item that only the object has comes to the object. -/
theorem readsTo_of_findsItem {o : Obj} (hin : Inside P h) (hl : l < h.length)
    (hk : ∀ a, P a → a ≠ l → h.item? (.ref a) (.name k₀) = none)
    (ho : ∀ key w, o.get? key = some w → key = .name k₀) (hv : Within P h v)
    (hfinds : FindsItem (h.modify l fun _ => o) k₀ v keys) : ReadsTo h l [] v keys := by
  have hother {a : ℕ} (ha : a ≠ l) (key : Key) :
      Heap.item? (h.modify l fun _ => o) (.ref a) key = h.item? (.ref a) key := by
    rw [Heap.item?, Heap.item?, Heap.obj?, Heap.obj?, Heap.modify_of_ne h (Ne.symm ha)]
  have hkeeps : Keeps (Changed l []) h (h.modify l fun _ => o) := by
    intro a key w hne hitem
    rw [hother fun ha => hne ⟨ha, by simp⟩, hitem]
  obtain ⟨hfresh, x, hx, hitem⟩ := hfinds
  rcases leads_or_meets h (Changed l []) v keys with
    ⟨y, hy⟩ | ⟨ks, a, key, ks', rfl, hks, hmeets⟩ | ⟨ks, y, key, ks', rfl, hks, hclear, hnone⟩
  · obtain rfl := Option.some.inj ((hy.walk_of_keeps hkeeps).symm.trans hx)
    cases y with
    | ref a =>
      by_cases ha : a = l
      · subst ha
        exact ⟨keys, by simp, hy⟩
      · rw [hother ha, hk a (hy.within hin hv a rfl).1 ha] at hitem
        exact absurd hitem (by simp)
    | _ => simp [Heap.item?, Heap.obj?] at hitem
  · -- the object has no item but one, and the walk does not read that
    obtain rfl := hmeets.1
    rw [walk_append, hks.walk_of_keeps hkeeps, Option.bind_some, walk_cons] at hx
    obtain ⟨z, hz, -⟩ := Option.bind_eq_some_iff.1 hx
    rw [Heap.item?, Heap.obj?, Heap.modify_self (List.getElem?_eq_getElem hl),
      Option.bind_some] at hz
    obtain rfl := ho key z hz
    exact absurd (by simp) hfresh
  · rw [walk_append, hks.walk_of_keeps hkeeps, Option.bind_some, walk_cons] at hx
    have hnone' : Heap.item? (h.modify l fun _ => o) y key = none := by
      cases y with
      | ref a => rw [hother fun ha => hclear a rfl ⟨ha, by simp⟩, hnone]
      | _ => rfl
    rw [hnone'] at hx
    exact absurd hx (by simp)

/-- What an assignment to an object as a whole does. -/
theorem assignRoot_eq (hvalue : h.IsDict value) (l : ℕ) :
    ∃ d, assignRoot h l value = (h.modify l fun _ => .dict d, .ok ()) ∧
      Heap.obj? (h.modify l fun _ => .dict d) value = some (.dict d) ∧
      (value ≠ .ref l → h.obj? value = some (.dict d)) := by
  obtain ⟨d, hd⟩ := hvalue
  have hisDict : h.isDict value = true := Heap.isDict_iff.2 ⟨d, hd⟩
  cases value with
  | ref a =>
    have hd : h[a]? = some (.dict d) := hd
    by_cases ha : l = a
    · subst ha
      have hclear : (h.modify l fun _ => Obj.dict [])[l]? = some (.dict []) :=
        Heap.modify_self hd _
      refine ⟨[], ?_, hclear, fun hne => absurd rfl hne⟩
      simp only [assignRoot, hisDict, if_true, Heap.obj?, hclear, List.modify_modify_eq]
      rfl
    · have hother {o : Obj} : (h.modify l fun _ => o)[a]? = some (.dict d) := by
        rw [Heap.modify_of_ne h ha, hd]
      refine ⟨d, ?_, hother, fun _ => hd⟩
      simp only [assignRoot, hisDict, if_true, Heap.obj?, hother, List.modify_modify_eq]
      rfl
  | _ => simp [Heap.obj?] at hd

end

/-! ### Objects that are made before the write -/

section

variable {h₁ : Heap} {source : Source}

theorem Sound.of_isPrefix (hs : Sound ρ c h) (hpre : h <+: h₁) : Sound ρ c h₁ :=
  ⟨(sim_isPrefix (sim_isPrefix hs.sim hpre).symm hpre).symm, hs.rooted,
    fun root => (hs.dicts root).of_isPrefix hpre⟩

/-- A value that is made leads to objects of the heap. -/
theorem Sound.make (hs : Sound ρ c h) (hmake : make c h source = (h₁, .ok value)) :
    h <+: h₁ ∧ ∃ ρ', Sound ρ' c h₁ ∧ ValRel ρ' value value := by
  have hpre := prefix_make c h source
  have hshown : ∀ expression, source = .reference expression →
      ShownRef hideNone (buildRunContextScope c h).1 (buildRunContextScope c h).2 expression :=
    fun _ _ => ⟨fun _ _ => shownParts_of_forall (fun _ _ => id) _ _ _⟩
  obtain ⟨ρ', hle, hsim, hrel⟩ := sim_make hs.sim hs.rooted (openFields_none c) hshown
  rw [hmake] at hpre hsim hrel
  refine ⟨hpre, ρ', ⟨hsim, hs.rooted.mono hle, fun root => (hs.dicts root).of_isPrefix hpre⟩, ?_⟩
  cases hrel with
  | ok hv => exact hv

/-- A write keeps a context sound. -/
theorem Sound.write (hs : Sound ρ c h) (hv : ValRel ρ value value) (path : String) :
    ∃ ρ', ρ ≤ ρ' ∧ Sound ρ' c (writeContextPath c h path value).1 := by
  have hshown : WalkShown hideNone c h path value :=
    ⟨fun _ _ _ => onPath_of_forall (fun _ _ _ _ => id) _ _ _, fun _ _ _ _ _ => id⟩
  obtain ⟨ρ', hle, hsim, -⟩ := sim_writeContextPath hs.sim hs.rooted (openFields_none c) hv hshown
  exact ⟨ρ', hle, hsim, hs.rooted.mono hle, fun root =>
    DictsKept.writeContextPath c h path value _ (hs.dicts root)⟩

theorem Reachable.sound {s : RunState} (hs : Reachable s) : ∃ ρ, Sound ρ s.context s.heap := by
  obtain ⟨ρ, hlinked⟩ := hs.linked
  exact ⟨ρ, hlinked.sim, hlinked.rooted, hs.scopesAreDicts⟩

theorem isDict_iff_of_isPrefix (hs : Sound ρ c h) (hpre : h <+: h₁) (hv : ValRel ρ v v) :
    h₁.IsDict v ↔ h.IsDict v :=
  ⟨isDict_of_isPrefix hs.sim hv hpre, fun hd => hd.of_isPrefix hpre⟩

theorem field_of_alias (hs : Sound ρ c h) (hpre : h <+: h₁)
    (halias : c.aliasOf? name = some (start, field)) : h₁.field start field = h.field start field := by
  refine Heap.field_of_isPrefix hpre ?_ field
  simp only [RunContext.aliasOf?, Dict.get?_cons, Dict.get?_nil] at halias
  split_ifs at halias <;> obtain ⟨rfl, -⟩ := Prod.mk.inj (Option.some.inj halias)
  · exact hs.dicts .globalScope
  · exact hs.dicts .result

theorem readsTo_of_isPrefix (hs : Sound ρ c h) (hpre : h <+: h₁) (hv : ValRel ρ v v) :
    ReadsTo h₁ l left v keys ↔ ReadsTo h l left v keys := by
  constructor
  · rintro ⟨ks, rfl, hks⟩
    exact ⟨ks, rfl, hks.of_isPrefix hs.inside hpre (hs.within hv)⟩
  · rintro ⟨ks, rfl, hks⟩
    exact ⟨ks, rfl, hks.keeps (keeps_of_isPrefix _ hpre)⟩

/-- A reference comes to a slot in a heap with more objects exactly when it did before. -/
theorem reads_of_isPrefix (hs : Sound ρ c h) (hpre : h <+: h₁) :
    Reads c h₁ l left whole read ↔ Reads c h l left whole read := by
  have hself {name field : String} {start : ℕ} (halias : c.aliasOf? name = some (start, field)) :
      ValRel ρ (h.field start field) (h.field start field) :=
    field_self hs.sim (hs.rooted.aliasOf halias) field
  constructor
  · intro hread
    cases hread with
    | scope hscope hread =>
      exact .scope hscope
        ((readsTo_of_isPrefix hs hpre (.ref (hs.rooted.scopeOf hscope))).1 hread)
    | field halias hdict hslot hread =>
      rw [field_of_alias hs hpre halias] at hdict hread
      exact .field halias ((isDict_iff_of_isPrefix hs hpre (hself halias)).1 hdict) hslot
        ((readsTo_of_isPrefix hs hpre (hself halias)).1 hread)
    | made halias hleft hdict => exact .made halias hleft hdict
  · intro hread
    cases hread with
    | scope hscope hread =>
      exact .scope hscope
        ((readsTo_of_isPrefix hs hpre (.ref (hs.rooted.scopeOf hscope))).2 hread)
    | field halias hdict hslot hread =>
      refine .field halias ?_ hslot ?_
      · rw [field_of_alias hs hpre halias]
        exact hdict.of_isPrefix hpre
      · rw [field_of_alias hs hpre halias]
        exact (readsTo_of_isPrefix hs hpre (hself halias)).2 hread
    | made halias hleft hdict => exact .made halias hleft hdict

theorem lastThere_of_isPrefix (hs : Sound ρ c h) (hpre : h <+: h₁) (hv : ValRel ρ v v) :
    lastThere h₁ v keys = lastThere h v keys := by
  induction keys generalizing v with
  | nil => rfl
  | cons key keys ih =>
    cases keys with
    | nil => rfl
    | cons next rest =>
      have hitem := (hs.within hv).item?_of_isPrefix hpre key
      cases hw : h.item? v key with
      | none =>
        rw [lastThere_of_null (by rw [hitem, hw, Option.getD_none]),
          lastThere_of_null (by rw [hw, Option.getD_none])]
      | some w =>
        by_cases hne : w = .null
        · subst hne
          rw [lastThere_of_null (by rw [hitem, hw, Option.getD_some]),
            lastThere_of_null (by rw [hw, Option.getD_some])]
        · have hshown : Shown hideNone v key := fun _ _ _ _ => id
          have hrel := hs.sim.agree.item? hv hshown
          rw [lastThere_of_item (hitem.trans hw) hne, lastThere_of_item hw hne]
          exact ih (optionRel_self hrel hw)

/-- The slot of a write is the same in a heap with more objects. -/
theorem writeSlot_of_isPrefix (hs : Sound ρ c h) (hpre : h <+: h₁) (root : ContextRoot) :
    writeSlot c h₁ root keys = writeSlot c h root keys := by
  have hcommands := Heap.field_of_isPrefix hpre (hs.dicts .result) "commands"
  rw [RunContext.scope] at hcommands
  have hself := field_self hs.sim hs.rooted.resultScope "commands"
  have hdict : h₁.isDict (h.field c.resultScope "commands")
      = h.isDict (h.field c.resultScope "commands") := by
    rw [Bool.eq_iff_iff, Heap.isDict_iff, Heap.isDict_iff]
    exact isDict_iff_of_isPrefix hs hpre hself
  have hroot : rootVal c h₁ root = rootVal c h root := by
    cases root with
    | response => exact hcommands
    | _ => rfl
  have hval : ValRel ρ (rootVal c h root) (rootVal c h root) := by
    cases root with
    | runEnvelope => exact .ref hs.rooted.runEnvelope
    | globalScope => exact .ref hs.rooted.globalScope
    | localScope => exact .ref hs.rooted.localScope
    | result => exact .ref hs.rooted.resultScope
    | response => exact hself
  rw [writeSlot, writeSlot, hcommands, hdict, hroot, lastThere_of_isPrefix hs hpre hval]

end

/-! ### A write to a scope itself -/

/-- A key that only the value has, at the write of the value. -/
structure Fresh (ρ : ℕ → ℕ → Prop) (h : Heap) (value : Val) (k₀ : String) : Prop where
  items : ∀ a, ρ a a → h.item? (.ref a) (.name k₀) = none
  ne : k₀ ≠ "commands"
  only : ∀ key w, h.item? value key = some w → key = .name k₀
  away : ∀ a, ρ a a → value ≠ .ref a

theorem Fresh.only_of_obj? {k₀ : String} {d : Dict String Val} (hfresh : Fresh ρ h value k₀)
    (hd : h.obj? value = some (.dict d)) (key : Key) (w : Val)
    (hget : (Obj.dict d).get? key = some w) : key = .name k₀ := by
  refine hfresh.only key w ?_
  rw [Heap.item?, hd, Option.bind_some, hget]

/-- A value that is a dictionary where a write assigns it was one before. -/
theorem isDict_of_targetFromRoot (hs : Sound ρ c h) (hlt : ∀ a, value = .ref a → a < h.length)
    (hdict : (targetFromRoot c h root).1.IsDict value) : h.IsDict value := by
  by_cases hroot : h.IsDict (rootVal c h root)
  · rwa [(targetFromRoot_of_isDict hroot).1] at hdict
  · obtain rfl : root = .response := by
      by_contra hne
      exact hroot (hs.isDict_rootVal hne)
    rw [targetFromRoot_new hroot] at hdict
    obtain ⟨d, hd⟩ := hdict
    cases value with
    | ref a =>
      by_cases ha : c.resultScope = a
      · subst ha
        exact hs.dicts .result
      · refine ⟨d, ?_⟩
        rw [Heap.obj?, Heap.setItem, Heap.modify_of_ne _ ha, Heap.alloc,
          List.getElem?_append_left (hlt a rfl)] at hd
        exact hd
    | _ => simp [Heap.obj?] at hd

/-- **A write to a scope itself changes that object only.** -/
theorem written_root (hs : Sound ρ c h) (htarget : contextTarget path = .ok (some (root, [])))
    (hlt : ∀ a, value = .ref a → a < h.length)
    (hok : (writeContextPath c h path value).2 = .ok ()) (k₀ : String) :
    ∃ l left t d, writeSlot c h root [] = (.ref l, left) ∧ (left = [] → h.IsDict (.ref l)) ∧
      (writeContextPath c h path value).1[t]? = some (.dict d) ∧
      (writeContextPath c h path value).1.obj? value = some (.dict d) ∧
      ((∀ a, ρ a a → value ≠ .ref a) → h.obj? value = some (.dict d)) ∧
      Written (fun a => ρ a a) h l left (fun _ : Unit => (writeContextPath c h path value).1)
        (fun _ => .ref t)
        (fun v read => Fresh ρ h value k₀ ∧
          FindsItem (writeContextPath c h path value).1 k₀ v read) := by
  have hwrite : writeContextPath c h path value
      = assignRoot (targetFromRoot c h root).1 (targetFromRoot c h root).2 value := by
    rw [writeContextPath_eq htarget hok, if_pos rfl]
  rw [hwrite] at hok ⊢
  have hdict₂ : (targetFromRoot c h root).1.IsDict value := by
    rw [← Heap.isDict_iff]
    unfold assignRoot at hok
    split_ifs at hok with hdict
    exact hdict
  have hdict := isDict_of_targetFromRoot hs hlt hdict₂
  obtain ⟨d, hassign, hvalue, hobj⟩ := assignRoot_eq hdict₂ (targetFromRoot c h root).2
  rw [hassign]
  by_cases hroot : h.IsDict (rootVal c h root)
  · obtain ⟨hheap, hval⟩ := targetFromRoot_of_isDict hroot
    generalize (targetFromRoot c h root).2 = t at hval hassign hvalue hobj ⊢
    rw [hheap] at hassign hvalue hobj ⊢
    have hself : ρ t t := by
      cases root with
      | response =>
        have hfield := field_self hs.sim hs.rooted.resultScope "commands"
        rw [← hval] at hroot
        rw [rootVal] at hval
        rw [← hval] at hfield
        exact hfield.of_ref
      | runEnvelope => exact Val.ref.inj hval ▸ hs.rooted.runEnvelope
      | globalScope => exact Val.ref.inj hval ▸ hs.rooted.globalScope
      | localScope => exact Val.ref.inj hval ▸ hs.rooted.localScope
      | result => exact Val.ref.inj hval ▸ hs.rooted.resultScope
    have htlt := hs.sim.lt_left hself
    refine ⟨t, [], t, d, ?_, fun _ => by rw [hval]; exact hroot,
      Heap.modify_self (List.getElem?_eq_getElem htlt) _, hvalue,
      fun haway => hobj (haway t hself), written_modify ?_⟩
    · rw [writeSlot, if_neg, hval]
      · rfl
      · rintro ⟨rfl, hno⟩
        exact hno (Heap.isDict_iff.2 hroot)
    · rintro v read hv ⟨hfresh, hfinds⟩
      exact readsTo_of_findsItem hs.inside htlt (fun a ha _ => hfresh.items a ha)
        (hfresh.only_of_obj? (hobj (hfresh.away t hself))) hv hfinds
  · obtain rfl : root = .response := by
      by_contra hne
      exact hroot (hs.isDict_rootVal hne)
    have hb := hs.branch_commands
    rw [targetFromRoot_new hroot] at hassign hvalue hobj ⊢
    simp only at hassign hvalue hobj ⊢
    have htlt : h.length < ((h.alloc (.dict [])).1.setItem c.resultScope (.name "commands")
        (.ref h.length)).length := by
      simp [Heap.setItem, Heap.alloc]
    have hkept : (∀ a, ρ a a → value ≠ .ref a) → h.obj? value = some (.dict d) := by
      intro haway
      have hd := hobj fun heq => absurd (hlt _ heq) (lt_irrefl _)
      cases value with
      | ref a =>
        have ha : c.resultScope ≠ a := by
          rintro rfl
          exact haway _ hs.rooted.resultScope rfl
        rw [Heap.obj?, Heap.setItem, Heap.modify_of_ne _ ha, Heap.alloc,
          List.getElem?_append_left (hlt a rfl)] at hd
        exact hd
      | _ => simp [Heap.obj?] at hd
    refine ⟨c.resultScope, [.name "commands"], h.length, d, ?_, by simp,
      Heap.modify_self (List.getElem?_eq_getElem htlt) _, hvalue, hkept, ?_⟩
    · rw [writeSlot, if_pos ⟨rfl, fun hd => hroot (Heap.isDict_iff.1 hd)⟩]
    · refine Written.of_branch (written_modify ?_) hb hs.inside
      rintro v read hv ⟨hfresh, hfinds⟩
      refine readsTo_of_findsItem (hs.inside.of_extends hb.ext) htlt (fun a ha hat => ?_) ?_ hv
        hfinds
      · rcases ha with ha | ha
        · rw [item?_setItem_of_ne fun heq => hfresh.ne (Key.name.inj heq.2)]
          have hempty : ∀ key, (Obj.dict []).get? key = none := fun key => by cases key <;> rfl
          cases hitem : (h.alloc (.dict [])).1.item? (.ref a) (.name k₀) with
          | none => rfl
          | some w =>
            have hold := item?_alloc hempty hitem
            rw [hfresh.items a ha] at hold
            exact absurd hold (by simp)
        · exact hb.ext.new a _ ha
      · exact hfresh.only_of_obj? (hkept hfresh.away)

/-! ### Reading back -/

section

variable {h₁ : Heap} {source : Source}

theorem make_reference (c : RunContext) (h : Heap) (path : String) :
    make c h (.reference path) = ((buildRunContextScope c h).1,
      (resolveRef (buildRunContextScope c h).1 (buildRunContextScope c h).2 path).map
        fun v? => v?.getD (.str path)) := rfl

theorem returns_of_walk (hpath : startsWith path "$." = true) (hread : refKeys path = .ok read)
    (hwalk : walk (buildRunContextScope c h).1 (.ref (buildRunContextScope c h).2) read = some w)
    (hsame : Same (buildRunContextScope c h).1 w (buildRunContextScope c h).1 value) :
    Returns c h path value := by
  refine ⟨w, ?_, ?_⟩
  · rw [make_reference, (resolveRef_eq_ok hpath).2 ⟨read, hread, hwalk⟩]
    rfl
  · rw [make_reference]
    exact hsame

/-- A value that is returned was found, unless it is the text of the reference. -/
theorem walk_of_returns (hpath : startsWith path "$." = true) (hne : value ≠ .str path)
    (hreturns : Returns c h path value) :
    ∃ read w, refKeys path = .ok read ∧
      walk (buildRunContextScope c h).1 (.ref (buildRunContextScope c h).2) read = some w ∧
      Same (buildRunContextScope c h).1 w (buildRunContextScope c h).1 value := by
  obtain ⟨w, hw, hsame⟩ := hreturns
  rw [make_reference] at hw hsame
  cases href : resolveRef (buildRunContextScope c h).1 (buildRunContextScope c h).2 path with
  | error e =>
    rw [href] at hw
    exact absurd hw (by simp [Except.map])
  | ok v? =>
    rw [href] at hw
    cases v? with
    | none =>
      obtain rfl := Except.ok.inj hw
      exact absurd (Same.eq_str hsame.symm) hne
    | some v =>
      obtain rfl := Except.ok.inj hw
      obtain ⟨read, hread, hwalk⟩ := (resolveRef_eq_ok hpath).1 href
      exact ⟨read, v, hread, hwalk, hsame⟩

/-- Two dictionaries with the same items are not told apart. -/
theorem Sound.same_dict (hs : Sound ρ c h) {a t : ℕ} {d : Dict String Val} (ha : ρ a a)
    (hd : h[a]? = some (.dict d)) (ht : h[t]? = some (.dict d)) :
    Same h (.ref t) h (.ref a) := by
  refine Py.same_dict ht hd fun k => ?_
  obtain ⟨o, o', ho, ho', hrel⟩ := hs.sim.agree a a ha
  obtain rfl := Option.some.inj (hd.symm.trans ho)
  obtain rfl := Option.some.inj (hd.symm.trans ho')
  cases hrel with
  | dict hitems =>
    have hk := hitems k id
    generalize d.get? k = x at hk ⊢
    cases hk with
    | none => exact .none
    | some hv => exact .some ⟨ρ, hs.sim.agree, hv⟩

/-- **A reference that comes to the slot of a write returns what was written.** -/
theorem returns_of_readsBack (hs : Sound ρ c h) (hpath : startsWith path "$." = true)
    (hback : ReadsBack c h path) (hmake : make c h source = (h₁, .ok value))
    (hok : (writeContextPath c h₁ path value).2 = .ok ()) :
    Returns c (writeContextPath c h₁ path value).1 path value := by
  obtain ⟨root, tokens, keys, read, l, left, htarget, hkeys, hread, hslot, hreads⟩ := hback
  obtain ⟨hpre, σ, hsound, hvalue⟩ := hs.make hmake
  rw [← writeSlot_of_isPrefix hs hpre] at hslot
  rw [← reads_of_isPrefix hs hpre] at hreads
  obtain ⟨τ, hle, hafter⟩ := hsound.write hvalue path
  have hscope := (buildRunContextScope_spec c (writeContextPath c h₁ path value).1).1
  have hdicts := DictsKept.writeContextPath c h₁ path value
  by_cases htokens : tokens = []
  · subst htokens
    rw [List.mapM_nil, pure_eq_ok] at hkeys
    obtain rfl := Except.ok.inj hkeys
    have hlt := fun a ha => (hsound.within hvalue a ha).2
    obtain ⟨l', left', t, d, hslot', -, ht, hd, -, hw⟩ := written_root hsound htarget hlt hok ""
    obtain ⟨hl, rfl⟩ := Prod.mk.inj (hslot.symm.trans hslot')
    obtain rfl := Val.ref.inj hl
    refine returns_of_walk hpath hread
      (hreads.walk_of_written hw () hafter hdicts fun _ => ⟨d, ht⟩) ?_
    cases value with
    | ref a =>
      exact (hafter.same_dict (hle _ _ hvalue.of_ref) hd ht).append hscope hscope
    | _ => simp [Heap.obj?] at hd
  · obtain ⟨keys', l', left', hkeys', hslot', -, -, hw⟩ :=
      written_writeContextPath hsound htarget htokens hok
    obtain rfl := Except.ok.inj (hkeys.symm.trans hkeys')
    obtain ⟨hl, rfl⟩ := Prod.mk.inj (hslot.symm.trans hslot')
    obtain rfl := Val.ref.inj hl
    refine returns_of_walk hpath hread
      (hreads.walk_of_written hw value hafter hdicts fun hnil => absurd hnil htokens) ?_
    exact ⟨τ, hafter.sim.agree.append hscope hscope, hvalue.mono hle⟩

theorem Written.reindex {ι κ : Type} {P : ℕ → Prop} {after : ι → Heap} {found : ι → Val}
    {Finds : Val → List Key → Prop} (hw : Written P h l left after found Finds) (f : κ → ι) :
    Written P h l left (fun k => after (f k)) (fun k => found (f k)) Finds :=
  ⟨hw.fits, fun k => hw.keeps (f k), fun k => hw.reads (f k), hw.only⟩

/-- **Where a reference returns two numbers that were written, it comes to the slot of the write.** -/
theorem readsBack_of_numbers (hs : Sound ρ c h) (hpath : startsWith path "$." = true)
    (htarget : contextTarget path = .ok (some (root, tokens))) (hne : tokens ≠ [])
    (hok : (writeContextPath c h path (.int 0)).2 = .ok ())
    (hreturns : ∀ n : ℤ, (writeContextPath c h path (.int n)).2 = .ok () →
      Returns c (writeContextPath c h path (.int n)).1 path (.int n)) : ReadsBack c h path := by
  obtain ⟨keys, l, left, hkeys, hslot, hleft, hall, hw⟩ :=
    written_writeContextPath hs htarget hne hok
  have hwalk (n : ℤ) : ∃ read, refKeys path = .ok read ∧
      walk (buildRunContextScope c (writeContextPath c h path (.int n)).1).1
        (.ref (buildRunContextScope c (writeContextPath c h path (.int n)).1).2) read
          = some (.int n) := by
    obtain ⟨read, w, hread, hwalk, hsame⟩ :=
      walk_of_returns hpath (by simp) (hreturns n (hall _))
    obtain rfl := hsame.eq_of_scalar (by simp)
    exact ⟨read, hread, hwalk⟩
  obtain ⟨read, hread, -⟩ := hwalk 0
  have hwalks (n : ℤ) : walk (buildRunContextScope c (writeContextPath c h path (.int n)).1).1
      (.ref (buildRunContextScope c (writeContextPath c h path (.int n)).1).2) read
        = some (.int n) := by
    obtain ⟨read', hread', hn⟩ := hwalk n
    obtain rfl := Except.ok.inj (hread.symm.trans hread')
    exact hn
  refine ⟨root, tokens, keys, read, l, left, htarget, hkeys, hread, hslot, ?_⟩
  refine (hw.reindex Val.int).reads_of_walk 0 (w := Val.int) ?_ ?_ hwalks (by simp) (by simp) ?_ ?_
    ?_ ?_
  · intro v path' _ hnumbers
    exact ⟨hnumbers 0, hnumbers 1⟩
  · intro n
    obtain ⟨ρ', -, hsound⟩ := hs.write (.scalar (by simp) : ValRel ρ (.int n) (.int n)) path
    exact ⟨ρ', hsound⟩
  · rintro ⟨d, hd⟩
    simp [Heap.obj?] at hd
  · exact fun hnil => absurd hnil hleft
  · exact fun name start hscope => hs.within (.ref (hs.rooted.scopeOf hscope))
  · exact fun name start field halias => hs.within (.ref (hs.rooted.aliasOf halias))

theorem exists_fresh (names : List String) : ∃ k, k ∉ names := by
  obtain ⟨k, hk⟩ := Infinite.exists_notMem_finset names.toFinset
  exact ⟨k, by simpa using hk⟩

/-- The keys of the dictionaries of a heap. -/
def heapKeys (h : Heap) : List String :=
  h.flatMap fun
    | .dict d => d.keys
    | .list _ => []

theorem item?_of_not_heapKeys {k : String} (hk : k ∉ heapKeys h) (a : ℕ) :
    h.item? (.ref a) (.name k) = none := by
  cases hitem : h.item? (.ref a) (.name k) with
  | none => rfl
  | some w =>
    obtain ⟨o, ho, hget⟩ := Option.bind_eq_some_iff.1 hitem
    cases o with
    | dict d =>
      refine absurd ?_ hk
      exact List.mem_flatMap.2 ⟨.dict d, List.mem_of_getElem? ho,
        Dict.mem_keys_iff.2 (by rw [show d.get? k = some w from hget]; rfl)⟩
    | list xs => simp [Obj.get?] at hget

/-- The names among some keys. -/
def keyNames (keys : List Key) : List String :=
  keys.filterMap fun
    | .name k => some k
    | .index _ => none

theorem not_mem_of_not_keyNames {k : String} (hk : k ∉ keyNames keys) : Key.name k ∉ keys :=
  fun hmem => hk (List.mem_filterMap.2 ⟨.name k, hmem, rfl⟩)

/-- **Where a reference returns the dictionaries that were written to a scope itself, it comes to the
object.** -/
theorem readsBack_of_dicts (hs : Sound ρ c h) (hpath : startsWith path "$." = true)
    (htarget : contextTarget path = .ok (some (root, [])))
    (hok : ∀ k, (writeContextPath c (h.ofJson (.obj [(k, .int 1)])).1 path
      (h.ofJson (.obj [(k, .int 1)])).2).2 = .ok ())
    (hreturns : ∀ k, Returns c (writeContextPath c (h.ofJson (.obj [(k, .int 1)])).1 path
        (h.ofJson (.obj [(k, .int 1)])).2).1 path (h.ofJson (.obj [(k, .int 1)])).2) :
    ReadsBack c h path := by
  obtain ⟨read, -, hread, -⟩ := walk_of_returns hpath (by simp [Heap.ofJson]) (hreturns "")
  obtain ⟨k, hk⟩ := exists_fresh (heapKeys h ++ keyNames read ++
    ["constants", "commands", "runEnvelope", "global", "local", "result", "vars", "response"])
  simp only [List.mem_append, List.mem_cons, List.not_mem_nil, or_false, not_or] at hk
  obtain ⟨⟨hheap, hnames⟩, hconstants, hcommands, hk₁, hk₂, hk₃, hk₄, hk₅, hk₆⟩ := hk
  have hok := hok k
  obtain ⟨read', w, hread', hwalk, hsame⟩ := walk_of_returns hpath (by simp [Heap.ofJson]) (hreturns k)
  obtain rfl := Except.ok.inj (hread.symm.trans hread')
  have hmade : h.ofJson (.obj [(k, .int 1)]) = (h ++ [.dict [(k, .int 1)]], .ref h.length) := rfl
  have hmake : make c h (.json (.obj [(k, .int 1)]))
      = (h ++ [.dict [(k, .int 1)]], .ok (.ref h.length)) := rfl
  rw [hmade] at hok hwalk hsame
  simp only at hok hwalk hsame
  obtain ⟨hpre, σ, hsound, hvalue⟩ := hs.make hmake
  obtain ⟨τ, -, hafter⟩ := hsound.write hvalue path
  have hs₁ := hs.of_isPrefix hpre
  have haway : ∀ a, ρ a a → Val.ref h.length ≠ .ref a := by
    intro a ha heq
    obtain rfl := Val.ref.inj heq
    exact absurd (hs.sim.lt_left ha) (lt_irrefl _)
  have hobj : (h ++ [Obj.dict [(k, Val.int 1)]])[h.length]? = some (.dict [(k, .int 1)]) := by simp
  obtain ⟨l, left, t, d, hslot, hroot, -, hd, hkept, hw⟩ := written_root hs₁ htarget
    (fun a ha => (hsound.within hvalue a ha).2) hok k
  obtain rfl := Obj.dict.inj (Option.some.inj ((hkept haway).symm.trans hobj))
  -- what the reference found has the item of the value
  have hscope := (buildRunContextScope_spec c (writeContextPath c (h ++ [.dict [(k, .int 1)]]) path
    (.ref h.length)).1).1
  generalize writeContextPath c (h ++ [.dict [(k, .int 1)]]) path (.ref h.length) = r
    at hok hwalk hsame hafter hd hw hscope
  obtain ⟨h₂, res⟩ := r
  simp only at hwalk hsame hafter hd hw hscope
  have hitem : (buildRunContextScope c h₂).1.item? w (.name k) = some (.int 1) := by
    have hrel := hsame.item? (.name k)
    have hd' : h₂[h.length]? = some (.dict [(k, .int 1)]) := hd
    have hvalue' : (buildRunContextScope c h₂).1.item? (.ref h.length) (.name k)
        = some (.int 1) := by
      rw [Heap.item?_of_isPrefix hscope hd', Heap.item?_dict hd', Dict.get?_cons, if_pos rfl]
    rw [hvalue'] at hrel
    cases hx : (buildRunContextScope c h₂).1.item? w (.name k) with
    | none =>
      rw [hx] at hrel
      cases hrel
    | some x =>
      rw [hx] at hrel
      cases hrel with
      | some hs =>
        obtain rfl := hs.eq_of_scalar (by simp)
        rfl
  have hnotScope : w ≠ .ref (buildRunContextScope c h₂).2 := by
    rintro rfl
    obtain ⟨vars, response, hS, -, -⟩ := buildRunContextScope_taken hafter
    rw [Heap.item?_dict hS] at hitem
    simp [Ne.symm hk₁, Ne.symm hk₂, Ne.symm hk₃, Ne.symm hk₄, Ne.symm hk₅, Ne.symm hk₆] at hitem
  have hnotEmpty : ∀ a, w = .ref a → (buildRunContextScope c h₂).1[a]? ≠ some (.dict []) := by
    rintro a rfl ha
    rw [Heap.item?_dict ha, Dict.get?_nil] at hitem
    exact absurd hitem (by simp)
  have hwithin : Within (fun a => τ a a) h₂ w := by
    rcases walk_scope_cases hafter hwalk with hw | ⟨a, hw, ha⟩ |
      ⟨name, rest, -, ⟨start, hname, hw⟩ | ⟨start, field, halias, -, hw⟩⟩
    · exact absurd hw hnotScope
    · exact absurd ha (hnotEmpty a hw)
    · exact (hafter.within (.ref (hafter.rooted.scopeOf hname))).of_walk hafter.inside hw
    · exact (hafter.within (field_self hafter.sim (hafter.rooted.aliasOf halias) field)).of_walk
        hafter.inside hw
  rw [hwithin.item?_of_isPrefix hscope] at hitem
  have hfresh : Fresh ρ (h ++ [.dict [(k, .int 1)]]) (.ref h.length) k := by
    refine ⟨fun a ha => ?_, hcommands, fun key x hx => ?_, haway⟩
    · rw [(hs.within (.ref ha)).item?_of_isPrefix hpre]
      exact item?_of_not_heapKeys hheap a
    · rw [Heap.item?, Heap.obj?, hobj, Option.bind_some] at hx
      cases key with
      | index i => simp [Obj.get?] at hx
      | name k' =>
        rw [Obj.get?, Dict.get?_cons] at hx
        split_ifs at hx with heq
        · rw [heq]
        · simp at hx
  refine ⟨root, [], [], read, l, left, htarget, rfl, hread, ?_, ?_⟩
  · rw [← writeSlot_of_isPrefix hs hpre, hslot]
  · rw [← reads_of_isPrefix hs hpre]
    refine hw.reads_of_walk () (w := fun _ => w) ?_ (fun _ => ⟨τ, hafter⟩) (fun _ => hwalk)
      (fun _ => hnotScope) (fun _ => hnotEmpty) (fun _ => rfl) hroot ?_ ?_
    · intro v path' hkeys hall
      refine ⟨hfresh, fun hmem => ?_, w, hall (), hitem⟩
      rcases hkeys _ hmem with hmem | heq | heq
      · exact not_mem_of_not_keyNames hnames hmem
      · exact hconstants (Key.name.inj heq)
      · exact hcommands (Key.name.inj heq)
    · exact fun name start hname => hs₁.within (.ref (hs.rooted.scopeOf hname))
    · exact fun name start field halias => hs₁.within (.ref (hs.rooted.aliasOf halias))

end

end

/-- A write that returns for one value returns for each number, and for each dictionary where it is
to a scope itself. -/
theorem writes_of_writes {ρ : ℕ → ℕ → Prop} {c : RunContext} {h h₁ : Heap} {path : String}
    {value : Val} {source : Source} {root : ContextRoot} {tokens : List String}
    (hs : Sound ρ c h) (hmake : make c h source = (h₁, .ok value))
    (htarget : contextTarget path = .ok (some (root, tokens)))
    (hok : (writeContextPath c h₁ path value).2 = .ok ()) :
    (tokens ≠ [] → (writeContextPath c h path (.int 0)).2 = .ok ()) ∧
      (tokens = [] → ∀ k, (writeContextPath c (h.ofJson (.obj [(k, .int 1)])).1 path
        (h.ofJson (.obj [(k, .int 1)])).2).2 = .ok ()) := by
  obtain ⟨hpre, σ, hsound, -⟩ := hs.make hmake
  constructor
  · intro hne
    obtain ⟨-, -, -, -, -, -, hall, -⟩ := written_writeContextPath hsound htarget hne hok
    have hsim : Sim hideNone ρ h₁ h := sim_isPrefix hs.sim hpre
    have hshown : WalkShown hideNone c h₁ path (.int 0) :=
      ⟨fun _ _ _ => onPath_of_forall (fun _ _ _ _ => id) _ _ _, fun _ _ _ _ _ => id⟩
    obtain ⟨-, -, -, heq⟩ := sim_writeContextPath hsim hs.rooted (openFields_none c)
      (.scalar (by simp) : ValRel ρ (.int 0) (.int 0)) hshown
    rw [← heq]
    exact hall (.int 0)
  · rintro rfl k
    rw [writeContextPath_eq htarget hok, if_pos rfl]
    have hdict : (h.ofJson (.obj [(k, .int 1)])).1.IsDict (h.ofJson (.obj [(k, .int 1)])).2 := by
      refine ⟨[(k, .int 1)], ?_⟩
      simp [Heap.ofJson, Heap.ofJsonItems, Heap.alloc, Heap.obj?]
    obtain ⟨d, hassign, -⟩ := assignRoot_eq (DictsKept.targetFromRoot c _ root _ hdict)
      (targetFromRoot c (h.ofJson (.obj [(k, .int 1)])).1 root).2
    rw [hassign]

/-- **What was written is returned for every value exactly when the reference comes to the slot of
the write**, in every context that can be reached and for every path that can be written. -/
theorem read_back_iff {s : RunState} (hs : Reachable s) {path : String}
    (hpath : startsWith path "$." = true)
    (hwrites : ∃ source h value, make s.context s.heap source = (h, .ok value) ∧
      (writeContextPath s.context h path value).2 = .ok ()) :
    (∀ source h value, make s.context s.heap source = (h, .ok value) →
        (writeContextPath s.context h path value).2 = .ok () →
        Returns s.context (writeContextPath s.context h path value).1 path value) ↔
      ReadsBack s.context s.heap path := by
  obtain ⟨ρ, hsound⟩ := hs.sound
  constructor
  · intro hreturns
    obtain ⟨source, h, value, hmake, hok⟩ := hwrites
    obtain ⟨root, tokens, htarget⟩ : ∃ root tokens,
        contextTarget path = .ok (some (root, tokens)) := by
      unfold writeContextPath at hok
      cases htarget : contextTarget path with
      | error e => simp [htarget] at hok
      | ok target =>
        cases target with
        | none => simp [htarget] at hok
        | some target => exact ⟨target.1, target.2, rfl⟩
    obtain ⟨hnumber, hdicts⟩ := writes_of_writes hsound hmake htarget hok
    by_cases hne : tokens = []
    · subst hne
      exact readsBack_of_dicts hsound hpath htarget (hdicts rfl) fun k =>
        hreturns (.json (.obj [(k, .int 1)])) _ _ rfl (hdicts rfl k)
    · exact readsBack_of_numbers hsound hpath htarget hne (hnumber hne) fun n hn =>
        hreturns (.json (.int n)) _ _ rfl hn
  · intro hback source h value hmake hok
    exact returns_of_readsBack hsound hpath hback hmake hok

/-- A constant of the local scope whose name is a word is returned. -/
theorem read_back_iff_total :
    Returns freshRun.context
      (writeContextPath freshRun.context freshRun.heap "$.local.constants.total" (.int 1)).1
      "$.local.constants.total" (.int 1) := by
  have hok : (writeContextPath freshRun.context freshRun.heap "$.local.constants.total"
      (.int 1)).2 = .ok () := by
    decide +kernel
  refine (read_back_iff reachable_freshRun (by decide) ⟨.json (.int 1), _, _, rfl, hok⟩).2 ?_
    (.json (.int 1)) _ _ rfl hok
  have htarget : contextTarget "$.local.constants.total"
      = .ok (some (.localScope, ["constants", "total"])) := by
    decide +kernel
  have hread : refKeys "$.local.constants.total"
      = .ok [.name "local", .name "constants", .name "total"] := by
    decide +kernel
  have hslot : writeSlot freshRun.context freshRun.heap .localScope
      [.name "constants", .name "total"] = (.ref 5, [.name "total"]) := by
    decide +kernel
  have hscope : freshRun.context.scopeOf? "local" = some 6 := by
    decide +kernel
  have hitem : freshRun.heap.item? (.ref 6) (.name "constants") = some (.ref 5) := by
    decide +kernel
  refine ⟨_, _, [.name "constants", .name "total"], _, 5, [.name "total"], htarget,
    by decide +kernel, hread, hslot, .scope hscope
      ⟨[.name "constants"], rfl, .cons (fun l hl hchanged => ?_) hitem (.nil _)⟩⟩
  obtain rfl := Val.ref.inj hl
  exact absurd hchanged.1 (by simp)

/-- **What was written is not always returned**: a name with brackets is cut in another way by the
resolver, which raises. -/
theorem price_not_read_back :
    ¬ ∀ (s : RunState) (path : String) (source : Source) (h : Heap) (value : Val), Reachable s →
      startsWith path "$." = true → make s.context s.heap source = (h, .ok value) →
      (writeContextPath s.context h path value).2 = .ok () →
      Returns s.context (writeContextPath s.context h path value).1 path value := by
  intro hreturns
  have hok : (writeContextPath freshRun.context freshRun.heap "$.local.constants.price [eur]"
      (.int 1)).2 = .ok () := by
    decide +kernel
  obtain ⟨w, hw, -⟩ := hreturns freshRun "$.local.constants.price [eur]" (.json (.int 1)) _ _
    reachable_freshRun (by decide) rfl hok
  have hraise : (make freshRun.context (writeContextPath freshRun.context freshRun.heap
      "$.local.constants.price [eur]" (.int 1)).1
        (.reference "$.local.constants.price [eur]")).2.isOk = false := by
    decide +kernel
  rw [hw] at hraise
  exact absurd hraise (by simp [Except.isOk, Except.toBool])

end Context
end QualityFlow
