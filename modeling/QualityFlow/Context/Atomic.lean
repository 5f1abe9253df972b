/-
# Writes that raise

`write_context_path` of `app/elaborations/services/suite_runs/run_context.py`, where it
raises.

A write makes what is missing on its way, and what it made stays when a later segment
raises: a list that was lengthened, a container in the place of a missing item or of
`None`, the commands of the result scope.  No reference can tell a write that raised
from none at all exactly when it raised before it made anything (`write_atomic_iff`).
-/

import QualityFlow.Context.Reachable

namespace QualityFlow
namespace Context

open Py Suite

/-! ### Where a walk gets stuck -/

/-- The object a key is looked up in is of its kind. -/
def Fits (h : Heap) (v : Val) : Key → Prop
  | .index _ => ∃ xs, h.obj? v = some (.list xs)
  | .name _ => h.IsDict v

/-- A walk along the items that are there comes to a segment that raises: it is no key, or
it does not fit the object it is looked up in, or the item it names is in an object that
is there but the next segment is no key. -/
inductive Stuck (h : Heap) : Val → List String → Prop where
  | token {v : Val} {token : String} {rest : List String} (hno : ∀ key, toKey token ≠ .ok key) :
      Stuck h v (token :: rest)
  | object {v : Val} {token : String} {rest : List String} {key : Key}
      (hkey : toKey token = .ok key) (hno : ¬ Fits h v key) : Stuck h v (token :: rest)
  | next {v : Val} {token next : String} {rest : List String} {key : Key}
      (hkey : toKey token = .ok key) (hfits : Fits h v key)
      (hin : ∀ i, key = .index i → (h.item? v key).isSome) (hno : ∀ key, toKey next ≠ .ok key) :
      Stuck h v (token :: next :: rest)
  | item {v w : Val} {token : String} {rest : List String} {key : Key}
      (hkey : toKey token = .ok key) (hitem : h.item? v key = some w) (hne : w ≠ .null)
      (hrest : Stuck h w rest) : Stuck h v (token :: rest)

/-- The object a write starts in, where it is there. -/
def rootVal (c : RunContext) (h : Heap) : ContextRoot → Val
  | .response => h.field c.resultScope "commands"
  | root => .ref (c.scope root)

/-- A write that raises does so before it has made anything: its scope is not one it may
write to, or the object it starts in is there and its walk gets stuck in what is there. -/
def RaisesInPlace (c : RunContext) (h : Heap) (path : String) : Prop :=
  ∀ root tokens, contextTarget path = .ok (some (root, tokens)) → checkMutable c root = .ok () →
    h.IsDict (rootVal c h root) ∧ (tokens ≠ [] → Stuck h (rootVal c h root) tokens)

section

variable {h h' h₁ h₁' : Heap} {v w value : Val} {l : ℕ} {key : Key} {tokens : List String}
  {c : RunContext} {path e : String}

/-! ### A write that raises takes nothing away -/

theorem grows_ensureListSize (l n : ℕ) (h : Heap) : h.Grows (ensureListSize l n h) := by
  induction n generalizing h with
  | zero => exact .refl h
  | succ n ih => exact ((Heap.Grows.alloc h _).trans (.append _ l _)).trans (ih _)

theorem grows_openSlot (hopen : openSlot h v key = .ok (h₁, l)) : h.Grows h₁ := by
  obtain ⟨-, ⟨rfl, -⟩ | ⟨xs, i, -, -, rfl⟩⟩ := openSlot_eq_ok hopen
  · exact .refl _
  · exact grows_ensureListSize _ _ _

/-- An object that is there has a slot for each key that fits it. -/
theorem openSlot_of_fits (hfits : Fits h v key) :
    ∃ h₂ l, openSlot h v key = .ok (h₂, l) ∧ v = .ref l := by
  cases key with
  | index i =>
    obtain ⟨xs, hxs⟩ := hfits
    cases v with
    | ref l => exact ⟨ensureListSize l (i + 1 - xs.length) h, l, by simp [openSlot, hxs], rfl⟩
    | _ => simp [Heap.obj?] at hxs
  | name k =>
    obtain ⟨d, hd⟩ := hfits
    cases v with
    | ref l => exact ⟨h, l, by simp [openSlot, hd], rfl⟩
    | _ => simp [Heap.obj?] at hd

theorem fits_of_openSlot (hopen : openSlot h v key = .ok (h₁, l)) : Fits h v key := by
  obtain ⟨rfl, ⟨-, d, k, hobj, rfl⟩ | ⟨xs, i, hobj, rfl, -⟩⟩ := openSlot_eq_ok hopen
  · exact ⟨d, hobj⟩
  · exact ⟨xs, hobj⟩

theorem fits_of_item? (hitem : h.item? v key = some w) : Fits h v key := by
  obtain ⟨o, ho, hget⟩ := Option.bind_eq_some_iff.1 hitem
  cases key with
  | index i =>
    cases o with
    | list xs => exact ⟨xs, ho⟩
    | dict d => simp [Obj.get?] at hget
  | name k =>
    cases o with
    | dict d => exact ⟨d, ho⟩
    | list xs => simp [Obj.get?] at hget

/-- Nothing is made for a slot that is there. -/
theorem openSlot_of_in (hfits : Fits h v key)
    (hin : ∀ i, key = .index i → (h.item? v key).isSome) :
    ∃ l, v = .ref l ∧ openSlot h v key = .ok (h, l) := by
  obtain ⟨h₂, l, hopen, rfl⟩ := openSlot_of_fits hfits
  refine ⟨l, rfl, ?_⟩
  obtain ⟨-, ⟨rfl, -⟩ | ⟨xs, i, hobj, rfl, rfl⟩⟩ := openSlot_eq_ok hopen
  · exact hopen
  · have hlt : i < xs.length := by
      have hsome := hin i rfl
      rw [Heap.item?, Heap.obj?, hobj] at hsome
      simpa [Obj.get?] using hsome
    rw [Nat.sub_eq_zero_of_le hlt] at hopen
    exact hopen

/-- How an assignment that raises goes on behind an object that is there: it raises at the next
segment, it makes an object for it, or it goes on in the item that is there. -/
theorem assignNestedValue_raises {token : String} {rest : List String}
    (hkey : toKey token = .ok key) (hopen : openSlot h v key = .ok (h₁, l))
    (he : (assignNestedValue value h v (token :: rest)).2 = .error e) :
    ((assignNestedValue value h v (token :: rest)).1 = h₁ ∧
        ∃ next rest', rest = next :: rest' ∧ ∀ key, toKey next ≠ .ok key) ∨
      (∃ o, (h₁.item? (.ref l) key).getD .null = .null ∧
        assignNestedValue value h v (token :: rest) = assignNestedValue value
          ((h₁.alloc o).1.setItem l key (.ref h₁.length)) (.ref h₁.length) rest) ∨
      ∃ w, h₁.item? (.ref l) key = some w ∧ w ≠ .null ∧ rest ≠ [] ∧
        assignNestedValue value h v (token :: rest) = assignNestedValue value h₁ w rest := by
  rw [assignNestedValue, hkey] at he ⊢
  simp only [hopen] at he ⊢
  cases rest with
  | nil => simp at he
  | cons next rest =>
    simp only [List.head?_cons, Option.map_some] at he ⊢
    cases hnext : toKey next with
    | error e => exact .inl ⟨rfl, next, rest, rfl, by simp [hnext]⟩
    | ok nextKey =>
      simp only
      split_ifs with hnull
      · exact .inr (.inl ⟨newContainer nextKey, hnull, rfl⟩)
      · cases hw : h₁.item? (.ref l) key with
        | none => simp [hw] at hnull
        | some w =>
          rw [hw, Option.getD_some] at hnull
          exact .inr (.inr ⟨w, rfl, hnull, List.cons_ne_nil _ _, rfl⟩)

/-- A new object in the place of an item that is missing. -/
theorem grows_alloc_setItem {o : Obj} (hl : l < h.length)
    (hnull : (h.item? (.ref l) key).getD .null = .null) (w : Val) :
    h.Grows ((h.alloc o).1.setItem l key w) := by
  refine (Heap.Grows.alloc h o).trans (.setItem ?_ w)
  have hitem : (h.alloc o).1.item? (.ref l) key = h.item? (.ref l) key :=
    Heap.item?_of_isPrefix (List.prefix_append _ _) (List.getElem?_eq_getElem hl) key
  rw [hitem, hnull]

/-- **An assignment that raises takes nothing away.** -/
theorem grows_assignNestedValue (he : (assignNestedValue value h v tokens).2 = .error e) :
    h.Grows (assignNestedValue value h v tokens).1 := by
  induction tokens generalizing h v with
  | nil => exact .refl h
  | cons token rest ih =>
    cases hkey : toKey token with
    | error e =>
      rw [assignNestedValue, hkey]
      exact .refl h
    | ok key =>
      cases hopen : openSlot h v key with
      | error e =>
        rw [assignNestedValue, hkey]
        simp only [hopen]
        exact .refl h
      | ok slot =>
        obtain ⟨h₂, l⟩ := slot
        have hgrows := grows_openSlot hopen
        rcases assignNestedValue_raises hkey hopen he with
          ⟨heq, -⟩ | ⟨o, hnull, heq⟩ | ⟨w, hw, hne, -, heq⟩
        · rw [heq]
          exact hgrows
        · rw [heq] at he ⊢
          exact hgrows.trans ((grows_alloc_setItem (openSlot_lt hopen) hnull _).trans (ih he))
        · rw [heq] at he ⊢
          exact hgrows.trans (ih he)

/-- A walk that gets stuck in what is there changes nothing. -/
theorem assignNestedValue_of_stuck (hstuck : Stuck h v tokens) (value : Val) :
    (assignNestedValue value h v tokens).1 = h := by
  induction hstuck with
  | @token v token rest hno =>
    rw [assignNestedValue]
    cases hkey : toKey token with
    | error e => rfl
    | ok key => exact absurd hkey (hno key)
  | @object v token rest key hkey hno =>
    rw [assignNestedValue, hkey]
    cases hopen : openSlot h v key with
    | error e => simp [hopen]
    | ok slot => exact absurd (fits_of_openSlot hopen) hno
  | @next v token next rest key hkey hfits hin hno =>
    obtain ⟨l, -, hopen⟩ := openSlot_of_in hfits hin
    rw [assignNestedValue, hkey]
    cases hnext : toKey next with
    | error e => simp [hopen, hnext]
    | ok key => exact absurd hnext (hno key)
  | @item v w token rest key hkey hitem hne hrest ih =>
    obtain ⟨l, rfl, hopen⟩ := openSlot_of_in (fits_of_item? hitem) fun i _ => by simp [hitem]
    rw [assignNestedValue, hkey]
    simp only [hopen]
    cases hnext : rest.head?.map toKey with
    | none =>
      cases hrest <;> simp at hnext
    | some next =>
      cases next with
      | error e => rfl
      | ok nextKey => simpa [hitem, hne] using ih

/-! ### A write that makes something can be told from none -/

/-- An item that was there only afterwards tells two objects apart. -/
theorem not_same_of_new {o : Obj} (hl : h[l]? = some o)
    (hnull : (h.item? (.ref l) key).getD .null = .null) (hpre : h <+: h₁)
    {m : ℕ} (hnew : h₁'.item? (.ref l) key = some (.ref m)) :
    ¬ Same h₁ (.ref l) h₁' (.ref l) := by
  intro hsame
  have hitem := hsame.item? key
  rw [Heap.item?_of_isPrefix hpre hl, hnew] at hitem
  cases hw : h.item? (.ref l) key with
  | none =>
    rw [hw] at hitem
    cases hitem
  | some w =>
    rw [hw] at hitem hnull
    obtain rfl : w = .null := hnull
    cases hitem with
    | some hs =>
      obtain ⟨ρ, -, hv⟩ := hs
      cases hv

/-- The item that was put into a slot that is there. -/
theorem item?_alloc_setItem {o : Obj} (hfits : Fits h (.ref l) key)
    (hin : ∀ i, key = .index i → (h.item? (.ref l) key).isSome) (w : Val) :
    ((h.alloc o).1.setItem l key w).item? (.ref l) key = some w := by
  have hobj {p : Obj} (hp : h[l]? = some p) :
      ((h.alloc o).1.setItem l key w).item? (.ref l) key = (p.set key w).get? key := by
    have hp₁ : (h.alloc o).1[l]? = some p :=
      Heap.getElem?_of_isPrefix (List.prefix_append _ _) hp
    rw [Heap.item?, Heap.obj?, Heap.setItem, Heap.modify_self hp₁, Option.bind_some]
  cases key with
  | name k =>
    obtain ⟨d, hd⟩ := hfits
    rw [hobj hd, Obj.set, Obj.get?, Dict.get?_set, if_pos rfl]
  | index i =>
    obtain ⟨xs, hxs⟩ := hfits
    have hlt : i < xs.length := by simpa [Heap.item?, hxs, Obj.get?] using hin i rfl
    rw [hobj hxs, Obj.set, Obj.get?, List.getElem?_set_self hlt]

/-- The item at the end of a list that was lengthened is a new object. -/
theorem item?_openSlot_new {i : ℕ} (hopen : openSlot h v (.index i) = .ok (h₁, l))
    (hmissing : ¬ (h.item? v (.index i)).isSome) : ∃ m, h₁.item? (.ref l) (.index i) = some (.ref m) := by
  obtain ⟨rfl, ⟨-, d, k, -, hkey⟩ | ⟨xs, j, hobj, hkey, rfl⟩⟩ := openSlot_eq_ok hopen
  · simp at hkey
  · obtain rfl := Key.index.inj hkey
    have hle : xs.length ≤ i := by simpa [Heap.item?, Heap.obj?, hobj, Obj.get?] using hmissing
    obtain ⟨ys, hys, hlen, hall⟩ := ensureListSize_item (n := i + 1 - xs.length) hobj
    have hlt : i - xs.length < ys.length := by omega
    obtain ⟨m, hm, -⟩ := hall _ (List.getElem_mem hlt)
    refine ⟨m, ?_⟩
    rw [Heap.item?, Heap.obj?, hys, Option.bind_some, Obj.get?,
      List.getElem?_append_right (by omega), List.getElem?_eq_getElem hlt, hm]

/-- **An assignment that raises and cannot be told from none got stuck in what is there.** -/
theorem stuck_of_same (hne : tokens ≠ [])
    (he : (assignNestedValue value h v tokens).2 = .error e) (hpre : h <+: h₁)
    (hpre' : (assignNestedValue value h v tokens).1 <+: h₁') (hsame : Same h₁ v h₁' v) :
    Stuck h v tokens := by
  induction tokens generalizing v with
  | nil => exact absurd rfl hne
  | cons token rest ih =>
    cases hkey : toKey token with
    | error e => exact .token fun key => by simp [hkey]
    | ok key =>
      by_cases hfits : Fits h v key
      · obtain ⟨h₂, l, hopen, rfl⟩ := openSlot_of_fits hfits
        have hafter : h₂.Grows h₁' := by
          have hlt := openSlot_lt hopen
          rcases assignNestedValue_raises hkey hopen he with
            ⟨heq, -⟩ | ⟨o, hnull, heq⟩ | ⟨w, hw, hwne, -, heq⟩
          · rw [heq] at hpre'
            exact .of_isPrefix hpre'
          · rw [heq] at he hpre'
            exact ((grows_alloc_setItem hlt hnull _).trans (grows_assignNestedValue he)).trans
              (.of_isPrefix hpre')
          · rw [heq] at he hpre'
            exact (grows_assignNestedValue he).trans (.of_isPrefix hpre')
        by_cases hin : ∀ i, key = .index i → (h.item? (.ref l) key).isSome
        · -- the slot is there: nothing was made for it
          obtain ⟨l', hl', hopen'⟩ := openSlot_of_in hfits hin
          obtain rfl := Val.ref.inj hl'
          obtain ⟨rfl, -⟩ := Prod.mk.inj (Except.ok.inj (hopen.symm.trans hopen'))
          have hlt := openSlot_lt hopen
          rcases assignNestedValue_raises hkey hopen he with
            ⟨-, next, rest', rfl, hno⟩ | ⟨o, hnull, heq⟩ | ⟨w, hw, hwne, hrest, heq⟩
          · exact .next hkey hfits hin hno
          · rw [heq] at he hpre'
            have hset := item?_alloc_setItem (o := o) hfits hin (.ref h₂.length)
            have hnew := ((grows_assignNestedValue he).trans (.of_isPrefix hpre')).item? hset (by simp)
            exact absurd hsame
              (not_same_of_new (List.getElem?_eq_getElem hlt) hnull hpre hnew)
          · rw [heq] at he hpre'
            have hitem := hsame.item? key
            rw [Heap.item?_of_isPrefix hpre (List.getElem?_eq_getElem hlt), hw,
              hafter.item? hw hwne] at hitem
            cases hitem with
            | some hs => exact .item hkey hw hwne (ih hrest he hpre' hs)
        · -- the list was too short
          simp only [not_forall] at hin
          obtain ⟨i, rfl, hmissing⟩ := hin
          obtain ⟨m, hnew⟩ := item?_openSlot_new hopen hmissing
          have hnull : (h.item? (.ref l) (.index i)).getD .null = .null := by
            rw [Option.not_isSome_iff_eq_none.1 hmissing, Option.getD_none]
          obtain ⟨xs, hxs⟩ := hfits
          exact absurd hsame (not_same_of_new hxs hnull hpre (hafter.item? hnew (by simp)))
      · exact .object hkey hfits

/-! ### Writes -/

/-- The object a write starts in is not made where it is there. -/
theorem targetFromRoot_of_isDict {root : ContextRoot} (hroot : h.IsDict (rootVal c h root)) :
    (targetFromRoot c h root).1 = h ∧ .ref (targetFromRoot c h root).2 = rootVal c h root := by
  cases root with
  | response =>
    rw [rootVal] at hroot ⊢
    have hisDict := Heap.isDict_iff.2 hroot
    unfold targetFromRoot
    cases hfield : h.field c.resultScope "commands" with
    | ref l =>
      rw [hfield] at hisDict
      simp [hisDict]
    | _ => simp [hfield, Heap.IsDict, Heap.obj?] at hroot
  | _ => exact ⟨rfl, rfl⟩

/-- Commands that are no dictionary are replaced by a new one. -/
theorem targetFromRoot_new (hno : ¬ h.IsDict (h.field c.resultScope "commands")) :
    targetFromRoot c h .response =
      ((h.alloc (.dict [])).1.setItem c.resultScope (.name "commands") (.ref h.length),
        h.length) := by
  have hisDict : ¬ h.isDict (h.field c.resultScope "commands") = true :=
    fun hdict => hno (Heap.isDict_iff.1 hdict)
  unfold targetFromRoot
  cases hfield : h.field c.resultScope "commands" with
  | ref l =>
    rw [hfield] at hisDict
    simp [hisDict, Heap.alloc]
  | _ => rfl

/-- An assignment to a scope itself that raises changes nothing. -/
theorem assignRoot_raises (he : (assignRoot h l value).2 = .error e) :
    (assignRoot h l value).1 = h := by
  unfold assignRoot at he ⊢
  split_ifs at he ⊢
  · simp only at he
    split at he <;> simp at he
  · rfl

/-- A write that raises in place changes nothing. -/
theorem writeContextPath_inPlace (hin : RaisesInPlace c h path)
    (he : (writeContextPath c h path value).2 = .error e) :
    (writeContextPath c h path value).1 = h := by
  unfold writeContextPath at he ⊢
  cases htarget : contextTarget path with
  | error e => rfl
  | ok target =>
    cases target with
    | none => rfl
    | some target =>
      obtain ⟨root, tokens⟩ := target
      simp only [htarget] at he ⊢
      cases hcheck : checkMutable c root with
      | error e => rfl
      | ok _ =>
        obtain ⟨hdict, hstuck⟩ := hin root tokens htarget hcheck
        obtain ⟨hheap, hval⟩ := targetFromRoot_of_isDict hdict
        simp only [hcheck, hheap, hval] at he ⊢
        split_ifs at he ⊢ with htokens
        · exact assignRoot_raises he
        · exact assignNestedValue_of_stuck (hstuck htokens) value

/-- Where the scope of references is the same, each scope in it is. -/
theorem same_scopes
    (hsame : Same (buildRunContextScope c h).1 (.ref (buildRunContextScope c h).2)
      (buildRunContextScope c h').1 (.ref (buildRunContextScope c h').2)) (root : ContextRoot) :
    Same (buildRunContextScope c h).1 (.ref (c.scope root))
      (buildRunContextScope c h').1 (.ref (c.scope root)) := by
  obtain ⟨-, v, r, hS, -, -⟩ := buildRunContextScope_spec c h
  obtain ⟨-, v', r', hS', -, -⟩ := buildRunContextScope_spec c h'
  have hfield (k : String) := hsame.field k
  simp only [Heap.field_dict hS, Heap.field_dict hS', Dict.get?_cons, Dict.get?_nil] at hfield
  cases root with
  | runEnvelope => simpa [RunContext.scope] using hfield "runEnvelope"
  | globalScope => simpa [RunContext.scope] using hfield "global"
  | localScope => simpa [RunContext.scope] using hfield "local"
  | result => simpa [RunContext.scope] using hfield "result"
  | response => simpa [RunContext.scope] using hfield "result"

end

/-- A write that raises and cannot be told from none raised in place. -/
theorem raisesInPlace_of_same {ρ : ℕ → ℕ → Prop} {h : Heap} {c : RunContext} {path e : String}
    {value : Val} (s : Sim hideNone ρ h h) (hc : Rooted ρ c) (hscopes : ScopesAreDicts c h)
    (he : (writeContextPath c h path value).2 = .error e)
    (hsame : Same (buildRunContextScope c h).1 (.ref (buildRunContextScope c h).2)
      (buildRunContextScope c (writeContextPath c h path value).1).1
      (.ref (buildRunContextScope c (writeContextPath c h path value).1).2)) :
    RaisesInPlace c h path := by
  intro root tokens htarget hcheck
  have hpre := (buildRunContextScope_spec c h).1
  have hpre' := (buildRunContextScope_spec c (writeContextPath c h path value).1).1
  have hroots := same_scopes hsame
  have hcommands := (hroots .response).field "commands"
  have hresult : h.IsDict (.ref c.resultScope) := hscopes .response
  have hresult' := DictsKept.writeContextPath c h path value _ hresult
  rw [RunContext.scope, Heap.field_of_isPrefix hpre hresult, Heap.field_of_isPrefix hpre' hresult']
    at hcommands
  generalize (buildRunContextScope c h).1 = h₁ at hroots hcommands hpre
  generalize (buildRunContextScope c (writeContextPath c h path value).1).1 = h₁'
    at hroots hcommands hpre'
  have hwrite : writeContextPath c h path value =
      if tokens = [] then assignRoot (targetFromRoot c h root).1 (targetFromRoot c h root).2 value
      else assignNestedValue value (targetFromRoot c h root).1
        (.ref (targetFromRoot c h root).2) tokens := by
    rw [writeContextPath, htarget]
    simp only [hcheck]
  have hgrows : (targetFromRoot c h root).1.Grows (writeContextPath c h path value).1 := by
    rw [hwrite] at he ⊢
    split_ifs at he ⊢
    · rw [assignRoot_raises he]
      exact .refl _
    · exact grows_assignNestedValue he
  have hdict : h.IsDict (rootVal c h root) := by
    by_contra hno
    cases root with
    | response =>
      -- the commands that were made can be told from what was in their place
      rw [rootVal] at hno
      rw [targetFromRoot_new hno] at hgrows
      have hnew : (writeContextPath c h path value).1.IsDict (.ref h.length) := by
        refine hgrows.isDict (Heap.IsDict.set ⟨[], ?_⟩ _ _ _)
        simp [Heap.obj?, Heap.alloc]
      have hfits : Fits h (.ref c.resultScope) (.name "commands") := hresult
      have hset := item?_alloc_setItem (o := .dict []) hfits (by simp) (.ref h.length)
      have hfield : (writeContextPath c h path value).1.field c.resultScope "commands"
          = .ref h.length := Heap.field_eq (hgrows.item? hset (by simp))
      rw [hfield] at hcommands
      refine hno (isDict_of_isPrefix s (field_self s hc.resultScope _) hpre ?_)
      rw [← Heap.isDict_iff, hcommands.isDict, Heap.isDict_iff]
      exact hnew.of_isPrefix hpre'
    | _ => exact hno (hscopes _)
  refine ⟨hdict, fun htokens => ?_⟩
  obtain ⟨hheap, hval⟩ := targetFromRoot_of_isDict hdict
  rw [hheap] at hgrows
  rw [hwrite, hheap, hval, if_neg htokens] at he hpre'
  refine stuck_of_same htokens he hpre hpre' ?_
  cases root with
  | response =>
    have hitem := Heap.item?_of_isDict_field hdict
    have hfield := Heap.field_eq (hgrows.item? hitem (Heap.ne_null_of_isDict hdict))
    rw [hfield] at hcommands
    exact hcommands
  | _ => exact hroots _

/-- **A write that raises leaves every reference as it was exactly when it raises in place**, in
every context that can be reached, whatever the path and the value. -/
theorem write_atomic_iff {s : RunState} (hs : Reachable s) {h h' : Heap} (hmade : s.heap <+: h)
    {path e : String} {value : Val}
    (hraise : writeContextPath s.context h path value = (h', .error e)) :
    (∀ expression, SameOutcome (resolveIn s.context h expression)
        (resolveIn s.context h' expression)) ↔
      RaisesInPlace s.context h path := by
  have he : (writeContextPath s.context h path value).2 = .error e := by rw [hraise]
  have hheap : (writeContextPath s.context h path value).1 = h' := by rw [hraise]
  obtain ⟨ρ, hlinked⟩ := hs.linked
  have hsim : Sim hideNone ρ h h := (sim_isPrefix (sim_isPrefix hlinked.sim hmade).symm hmade).symm
  have hscopes : ScopesAreDicts s.context h := fun root =>
    (hs.scopesAreDicts root).of_isPrefix hmade
  rw [sameOutcome_iff_scope, ← hheap]
  constructor
  · intro hsame
    exact raisesInPlace_of_same hsim hlinked.rooted hscopes he hsame
  · intro hin
    rw [writeContextPath_inPlace hin he]
    exact hs.same_scope hmade

/-- The context of a run that nothing was done to yet. -/
def freshRun : RunState := .start "run" (.obj []) (.obj [])

theorem reachable_freshRun : Reachable freshRun := .start _ _ _

/-- A call that raises, as a pair. -/
theorem eq_raised {e : String} {r : Heap × Except String Unit} (he : r.2 = .error e) :
    r = (r.1, .error e) := by
  rw [← he]

/-- A write that finds a text where it looks for an object leaves everything as it was. -/
theorem write_atomic_iff_runId :
    (writeContextPath freshRun.context freshRun.heap "$.runEnvelope.run_id.name" (.int 1)).2
      = .error "Target path expects an object segment." ∧
    ∀ expression, SameOutcome (resolveIn freshRun.context freshRun.heap expression)
      (resolveIn freshRun.context (writeContextPath freshRun.context freshRun.heap
        "$.runEnvelope.run_id.name" (.int 1)).1 expression) := by
  have hraise : (writeContextPath freshRun.context freshRun.heap "$.runEnvelope.run_id.name"
      (.int 1)).2 = .error "Target path expects an object segment." := by
    decide +kernel
  have htarget : contextTarget "$.runEnvelope.run_id.name"
      = .ok (some (.runEnvelope, ["run_id", "name"])) := by
    decide +kernel
  have hiff := write_atomic_iff reachable_freshRun List.prefix_rfl (eq_raised hraise)
  refine ⟨hraise, hiff.2 ?_⟩
  intro root tokens hroot _
  obtain ⟨rfl, rfl⟩ := Prod.mk.inj (Option.some.inj (Except.ok.inj (htarget.symm.trans hroot)))
  have hrunId : toKey "run_id" = .ok (.name "run_id") := by decide +kernel
  have hname : toKey "name" = .ok (.name "name") := by decide +kernel
  have hitem : freshRun.heap.item? (rootVal freshRun.context freshRun.heap .runEnvelope)
      (.name "run_id") = some (.str "run") := by
    decide +kernel
  refine ⟨?_, fun _ => .item hrunId hitem (by simp) (.object hname ?_)⟩
  · rw [← Heap.isDict_iff]
    decide +kernel
  · rw [Fits, ← Heap.isDict_iff]
    decide +kernel

/-- **What a write made before it raised can be seen**: the list that was made for an index whose
item is no list. -/
theorem write_not_atomic :
    ¬ ∀ (s : RunState) (h h' : Heap) (path e : String) (value : Val), Reachable s → s.heap <+: h →
      writeContextPath s.context h path value = (h', .error e) →
      ∀ expression, SameOutcome (resolveIn s.context h expression)
        (resolveIn s.context h' expression) := by
  intro hatomic
  have hraise : (writeContextPath freshRun.context freshRun.heap "$.local.constants.m[0][1]"
      (.int 1)).2 = .error "Target path expects a list segment." := by
    decide +kernel
  have hsame := hatomic freshRun freshRun.heap _ _ _ _ reachable_freshRun List.prefix_rfl
    (eq_raised hraise) "$.local.constants.m"
  have hbefore : (resolveIn freshRun.context freshRun.heap "$.local.constants.m").2
      = .ok none := by
    decide +kernel
  have hafter : (resolveIn freshRun.context (writeContextPath freshRun.context freshRun.heap
      "$.local.constants.m[0][1]" (.int 1)).1 "$.local.constants.m").2
        = .ok (some (.ref 11)) := by
    decide +kernel
  unfold SameOutcome at hsame
  rw [hbefore, hafter] at hsame
  cases hsame with
  | ok hrel => cases hrel

end Context
end QualityFlow
