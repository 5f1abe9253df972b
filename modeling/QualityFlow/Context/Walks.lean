/-
# Walks that keep clear of a slot

A slot is an object and a key in it.  Where only some slots were changed, a walk that
reads none of them leads to the same value afterwards (`Leads.walk_of_keeps`), and every
walk either keeps clear of them, comes to one, or to an item that is missing
(`leads_or_meets`).  Objects that were made and are empty are dead ends: a walk to an
object of before does not go through them (`Leads.of_extends`), and a walk to one of
them ends with the slot it was put in (`Leads.last_of_extends`).
-/

import QualityFlow.Context.Atomic

namespace QualityFlow
namespace Context

open Py

/-- A walk along keys that reads none of the slots of a predicate. -/
inductive Leads (h : Heap) (A : ℕ → Key → Prop) : Val → List Key → Val → Prop where
  | nil (v : Val) : Leads h A v [] v
  | cons {v w x : Val} {key : Key} {keys : List Key} (hclear : ∀ l, v = .ref l → ¬ A l key)
      (hitem : h.item? v key = some w) (hrest : Leads h A w keys x) : Leads h A v (key :: keys) x

/-- The items of some slots are still there. -/
def Keeps (A : ℕ → Key → Prop) (h h' : Heap) : Prop :=
  ∀ l key w, ¬ A l key → h.item? (.ref l) key = some w → h'.item? (.ref l) key = some w

/-- The objects of a predicate refer to objects of it that are there. -/
def Inside (P : ℕ → Prop) (h : Heap) : Prop :=
  ∀ l key m, P l → h.item? (.ref l) key = some (.ref m) → P m ∧ m < h.length

/-- A value refers to an object of a predicate that is there, if to any. -/
def Within (P : ℕ → Prop) (h : Heap) (v : Val) : Prop := ∀ l, v = .ref l → P l ∧ l < h.length

/-- A heap with more objects, which are empty, and more items, which are such objects. -/
structure Extends (h h' : Heap) : Prop where
  length : h.length ≤ h'.length
  old : ∀ l key w, l < h.length → h'.item? (.ref l) key = some w →
    h.item? (.ref l) key = some w ∨ ∃ m, w = .ref m ∧ h.length ≤ m ∧ m < h'.length
  new : ∀ l key, h.length ≤ l → h'.item? (.ref l) key = none

section

variable {h h' h₁ : Heap} {A B : ℕ → Key → Prop} {P : ℕ → Prop} {v w x : Val} {l m : ℕ}
  {key : Key} {keys : List Key}

theorem ref_of_item? (hitem : h.item? v key = some w) : ∃ l, v = .ref l ∧ l < h.length := by
  cases v with
  | ref l =>
    obtain ⟨o, ho, -⟩ := Option.bind_eq_some_iff.1 hitem
    exact ⟨l, rfl, (List.getElem?_eq_some_iff.1 ho).1⟩
  | _ => simp [Heap.item?, Heap.obj?] at hitem

theorem walk_append (h : Heap) (v : Val) (ks ks' : List Key) :
    walk h v (ks ++ ks') = (walk h v ks).bind fun w => walk h w ks' := by
  rw [walk, List.foldlM_append]
  rfl

/-! ### Walks in two heaps -/

/-- A walk that reads no changed slot leads to the same value. -/
theorem Leads.walk_of_keeps (hleads : Leads h A v keys x) (hkeeps : Keeps A h h') :
    Context.walk h' v keys = some x := by
  induction hleads with
  | nil v => rfl
  | cons hclear hitem hrest ih =>
    obtain ⟨l, rfl, -⟩ := ref_of_item? hitem
    rw [walk_cons, hkeeps l _ _ (hclear l rfl) hitem, Option.bind_some, ih]

theorem Leads.keeps (hleads : Leads h A v keys x) (hkeeps : Keeps A h h') :
    Leads h' A v keys x := by
  induction hleads with
  | nil v => exact .nil v
  | cons hclear hitem hrest ih =>
    obtain ⟨l, rfl, -⟩ := ref_of_item? hitem
    exact .cons hclear (hkeeps l _ _ (hclear l rfl) hitem) ih

theorem Leads.anti (hleads : Leads h A v keys x) (hB : ∀ l key, B l key → A l key) :
    Leads h B v keys x := by
  induction hleads with
  | nil v => exact .nil v
  | cons hclear hitem hrest ih =>
    exact .cons (fun l hl hb => hclear l hl (hB l _ hb)) hitem ih

/-- **A walk keeps clear of the slots, or comes to one, or to an item that is missing.** -/
theorem leads_or_meets (h : Heap) (A : ℕ → Key → Prop) (v : Val) (keys : List Key) :
    (∃ x, Leads h A v keys x) ∨
      (∃ ks l key ks', keys = ks ++ key :: ks' ∧ Leads h A v ks (.ref l) ∧ A l key) ∨
      ∃ ks x key ks', keys = ks ++ key :: ks' ∧ Leads h A v ks x ∧
        (∀ l, x = .ref l → ¬ A l key) ∧ h.item? x key = none := by
  induction keys generalizing v with
  | nil => exact .inl ⟨v, .nil v⟩
  | cons key keys ih =>
    by_cases hmeets : ∃ l, v = .ref l ∧ A l key
    · obtain ⟨l, rfl, hA⟩ := hmeets
      exact .inr (.inl ⟨[], l, key, keys, rfl, .nil _, hA⟩)
    · have hclear : ∀ l, v = .ref l → ¬ A l key := fun l hl hA => hmeets ⟨l, hl, hA⟩
      cases hitem : h.item? v key with
      | none => exact .inr (.inr ⟨[], v, key, keys, rfl, .nil v, hclear, hitem⟩)
      | some w =>
        rcases ih w with ⟨x, hx⟩ | ⟨ks, l, k, ks', rfl, hl, hA⟩ | ⟨ks, x, k, ks', rfl, hx, hA, hnone⟩
        · exact .inl ⟨x, .cons hclear hitem hx⟩
        · exact .inr (.inl ⟨key :: ks, l, k, ks', rfl, .cons hclear hitem hl, hA⟩)
        · exact .inr (.inr ⟨key :: ks, x, k, ks', rfl, .cons hclear hitem hx, hA, hnone⟩)

/-! ### Walks among the objects of a predicate -/

theorem Within.item (hv : Within P h v) (hin : Inside P h) (hitem : h.item? v key = some w) :
    Within P h w := by
  rintro m rfl
  obtain ⟨l, rfl, -⟩ := ref_of_item? hitem
  exact hin l key m (hv l rfl).1 hitem

theorem Leads.within (hleads : Leads h A v keys x) (hin : Inside P h) (hv : Within P h v) :
    Within P h x := by
  induction hleads with
  | nil v => exact hv
  | cons hclear hitem hrest ih => exact ih (hv.item hin hitem)

theorem Within.item?_of_isPrefix (hv : Within P h v) (hpre : h <+: h₁) (key : Key) :
    h₁.item? v key = h.item? v key := by
  cases v with
  | ref l => exact Heap.item?_of_isPrefix hpre (List.getElem?_eq_getElem (hv l rfl).2) key
  | _ => rfl

/-- Objects that are made later change no walk. -/
theorem walk_of_isPrefix (hin : Inside P h) (hpre : h <+: h₁) (hv : Within P h v) :
    walk h₁ v keys = walk h v keys := by
  induction keys generalizing v with
  | nil => rfl
  | cons key keys ih =>
    rw [walk_cons, walk_cons, hv.item?_of_isPrefix hpre]
    cases hw : h.item? v key with
    | none => rfl
    | some w => exact ih (hv.item hin hw)

theorem Within.of_walk (hv : Within P h v) (hin : Inside P h) (hwalk : Context.walk h v keys = some x) :
    Within P h x := by
  induction keys generalizing v with
  | nil => exact Option.some.inj hwalk ▸ hv
  | cons key keys ih =>
    rw [walk_cons] at hwalk
    obtain ⟨w, hw, hwalk⟩ := Option.bind_eq_some_iff.1 hwalk
    exact ih (hv.item hin hw) hwalk

/-- A walk in a heap with more objects is one in the heap of before. -/
theorem Leads.of_isPrefix (hin : Inside P h) (hpre : h <+: h₁) (hv : Within P h v)
    (hleads : Leads h₁ A v keys x) : Leads h A v keys x := by
  induction hleads with
  | nil v => exact .nil v
  | cons hclear hitem hrest ih =>
    rw [hv.item?_of_isPrefix hpre] at hitem
    exact .cons hclear hitem (ih (hv.item hin hitem))

theorem keeps_of_isPrefix (A : ℕ → Key → Prop) (hpre : h <+: h₁) : Keeps A h h₁ := by
  intro l key w _ hitem
  obtain ⟨o, ho, hget⟩ := Option.bind_eq_some_iff.1 hitem
  exact Option.bind_eq_some_iff.2 ⟨o, Heap.getElem?_of_isPrefix hpre ho, hget⟩

theorem Extends.refl (h : Heap) : Extends h h := by
  refine ⟨le_rfl, fun _ _ _ _ hw => .inl hw, fun l key hl => ?_⟩
  rw [Heap.item?, Heap.obj?, List.getElem?_eq_none hl, Option.bind_none]

/-- The slots that hold a new object. -/
def Filled (h h' : Heap) (l : ℕ) (key : Key) : Prop :=
  ∃ m, h.length ≤ m ∧ h'.item? (.ref l) key = some (.ref m)

/-- A walk from a new object goes nowhere. -/
theorem Leads.of_new (hext : Extends h h') (hm : h.length ≤ m)
    (hleads : Leads h' A (.ref m) keys x) : keys = [] ∧ x = .ref m := by
  cases hleads with
  | nil => exact ⟨rfl, rfl⟩
  | cons hclear hitem hrest =>
    rw [hext.new m _ hm] at hitem
    exact absurd hitem (by simp)

/-- A walk to an object of before does not go through new ones. -/
theorem Leads.of_extends (hext : Extends h h') (hin : Inside P h) (hv : Within P h v)
    (hl : l < h.length) (hleads : Leads h' A v keys (.ref l)) :
    Leads h (fun a k => A a k ∨ Filled h h' a k) v keys (.ref l) := by
  generalize hx : Val.ref l = x at hleads
  induction hleads with
  | nil v => exact .nil v
  | @cons v w x key keys hclear hitem hrest ih =>
    subst hx
    obtain ⟨a, rfl, -⟩ := ref_of_item? hitem
    obtain ⟨hPa, ha⟩ := hv a rfl
    rcases hext.old a key w ha hitem with hold | ⟨m, rfl, hm, -⟩
    · have hw := hv.item hin hold
      refine .cons ?_ hold (ih hw rfl)
      rintro b hb (hA | ⟨m, hm, hfilled⟩)
      · exact hclear b hb hA
      · obtain rfl := Val.ref.inj hb
        obtain rfl := Option.some.inj (hitem.symm.trans hfilled)
        exact absurd (hw m rfl).2 (by omega)
    · obtain ⟨-, hml⟩ := hrest.of_new hext hm
      obtain rfl := Val.ref.inj hml
      omega

/-- A walk to a new object ends with the slot it was put in. -/
theorem Leads.last_of_extends (hext : Extends h h') (hin : Inside P h) (hv : Within P h v)
    (hm : h.length ≤ m) (hleads : Leads h' A v keys (.ref m)) :
    ∃ ks l key, keys = ks ++ [key] ∧ P l ∧ l < h.length ∧ h'.item? (.ref l) key = some (.ref m) ∧
      Leads h (fun a k => A a k ∨ Filled h h' a k) v ks (.ref l) := by
  generalize hx : Val.ref m = x at hleads
  induction hleads with
  | nil v =>
    subst hx
    exact absurd (hv m rfl).2 (by omega)
  | @cons v w x key keys hclear hitem hrest ih =>
    subst hx
    obtain ⟨a, rfl, -⟩ := ref_of_item? hitem
    obtain ⟨hPa, ha⟩ := hv a rfl
    rcases hext.old a key w ha hitem with hold | ⟨m', rfl, hm', -⟩
    · have hw := hv.item hin hold
      obtain ⟨ks, l, k, rfl, hPl, hl, hslot, hks⟩ := ih hw rfl
      refine ⟨key :: ks, l, k, rfl, hPl, hl, hslot, .cons ?_ hold hks⟩
      rintro b hb (hA | ⟨m', hm', hfilled⟩)
      · exact hclear b hb hA
      · obtain rfl := Val.ref.inj hb
        obtain rfl := Option.some.inj (hitem.symm.trans hfilled)
        exact absurd (hw m' rfl).2 (by omega)
    · obtain ⟨rfl, hml⟩ := hrest.of_new hext hm'
      obtain rfl := Val.ref.inj hml
      exact ⟨[], a, key, rfl, hPa, ha, hitem, .nil _⟩

/-- New objects are inside of what is there. -/
theorem Inside.of_extends (hin : Inside P h) (hext : Extends h h') :
    Inside (fun l => P l ∨ h.length ≤ l) h' := by
  intro l key m hl hitem
  have hlt : l < h.length := by
    by_contra hge
    rw [hext.new l key (not_lt.1 hge)] at hitem
    exact absurd hitem (by simp)
  have hP : P l := hl.resolve_right (by omega)
  have hlength := hext.length
  rcases hext.old l key _ hlt hitem with hold | ⟨m', hm', hge, hlt'⟩
  · obtain ⟨hPm, hm⟩ := hin l key m hP hold
    exact ⟨.inl hPm, by omega⟩
  · obtain rfl := Val.ref.inj hm'
    exact ⟨.inr hge, hlt'⟩

theorem Within.of_extends (hv : Within P h v) (hext : Extends h h') :
    Within (fun l => P l ∨ h.length ≤ l) h' v := by
  intro l hl
  obtain ⟨hP, hlt⟩ := hv l hl
  have hlength := hext.length
  exact ⟨.inl hP, by omega⟩

end

end Context
end QualityFlow
