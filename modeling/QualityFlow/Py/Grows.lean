/-
# Heaps that only grow

A change that makes objects, or puts an item where there was none (or only `None`),
takes nothing away: every object keeps its kind, and every item that it had
(`Grows`).  A walk that led to an object still leads there.  A change of any other
item keeps the kind of every object all the same (`Heap.IsDict.modify`).
-/

import QualityFlow.Py.Same

namespace QualityFlow
namespace Py

/-- An object with the items of another, but for those that are `None`. -/
inductive Obj.Grows : Obj → Obj → Prop where
  | dict {d d' : Dict String Val}
      (h : ∀ k w, d.get? k = some w → w ≠ .null → d'.get? k = some w) : Grows (.dict d) (.dict d')
  | list {xs ys : List Val}
      (h : ∀ (i : ℕ) w, xs[i]? = some w → w ≠ .null → ys[i]? = some w) : Grows (.list xs) (.list ys)

namespace Obj.Grows

variable {o o' o'' : Obj} {key : Key} {w : Val}

theorem refl (o : Obj) : o.Grows o := by
  cases o with
  | dict d => exact .dict fun _ _ hw _ => hw
  | list xs => exact .list fun _ _ hw _ => hw

theorem trans (h₁ : o.Grows o') (h₂ : o'.Grows o'') : o.Grows o'' := by
  cases h₁ with
  | dict hd =>
    cases h₂ with
    | dict hd' => exact .dict fun k w hw hne => hd' k w (hd k w hw hne) hne
  | list hl =>
    cases h₂ with
    | list hl' => exact .list fun i w hw hne => hl' i w (hl i w hw hne) hne

theorem get? (h : o.Grows o') (hw : o.get? key = some w) (hne : w ≠ .null) :
    o'.get? key = some w := by
  cases h with
  | dict hd =>
    cases key with
    | name k => exact hd k w hw hne
    | index i => simp [Obj.get?] at hw
  | list hl =>
    cases key with
    | name k => simp [Obj.get?] at hw
    | index i => exact hl i w hw hne

/-- An item is put where there is none. -/
theorem set (hnull : (o.get? key).getD .null = .null) (w : Val) : o.Grows (o.set key w) := by
  cases o with
  | dict d =>
    cases key with
    | index i => exact .refl _
    | name k =>
      refine .dict fun k' w' hw' hne => ?_
      have hk : k ≠ k' := by
        rintro rfl
        rw [Obj.get?, hw'] at hnull
        exact hne hnull
      rw [Dict.get?_set_of_ne hk, hw']
  | list xs =>
    cases key with
    | name k => exact .refl _
    | index i =>
      refine .list fun j w' hw' hne => ?_
      have hj : i ≠ j := by
        rintro rfl
        rw [Obj.get?, hw'] at hnull
        exact hne hnull
      rw [List.getElem?_set_ne hj, hw']

theorem append (o : Obj) (w : Val) : o.Grows (o.append w) := by
  cases o with
  | dict d => exact .refl _
  | list xs =>
    refine .list fun i w' hw' _ => ?_
    have hi : i < xs.length := (List.getElem?_eq_some_iff.1 hw').1
    rw [List.getElem?_append_left hi, hw']

end Obj.Grows

namespace Heap

/-- Every object is still there, with the items it had. -/
def Grows (h h' : Heap) : Prop :=
  ∀ (l : ℕ) o, h[l]? = some o → ∃ o', h'[l]? = some o' ∧ o.Grows o'

variable {h h' h₁ h₁' : Heap} {l : ℕ} {key : Key} {v w : Val}

namespace Grows

theorem refl (h : Heap) : h.Grows h := fun _ o ho => ⟨o, ho, .refl o⟩

theorem trans (h₁₂ : h.Grows h₁) (h₂₃ : h₁.Grows h') : h.Grows h' := by
  intro l o ho
  obtain ⟨o₁, ho₁, hgrows₁⟩ := h₁₂ l o ho
  obtain ⟨o₂, ho₂, hgrows₂⟩ := h₂₃ l o₁ ho₁
  exact ⟨o₂, ho₂, hgrows₁.trans hgrows₂⟩

theorem of_isPrefix (hpre : h <+: h') : h.Grows h' :=
  fun _ o ho => ⟨o, getElem?_of_isPrefix hpre ho, .refl o⟩

theorem alloc (h : Heap) (o : Obj) : h.Grows (h.alloc o).1 := of_isPrefix (List.prefix_append _ _)

/-- A change of one object that takes nothing away from it. -/
theorem modify {f : Obj → Obj} (hf : ∀ o, h[l]? = some o → o.Grows (f o)) :
    h.Grows (h.modify l f) := by
  intro m o ho
  by_cases hm : l = m
  · subst hm
    exact ⟨f o, modify_self ho f, hf o ho⟩
  · exact ⟨o, by rw [modify_of_ne h hm, ho], .refl o⟩

/-- An item is put where there is none. -/
theorem setItem (hnull : (h.item? (.ref l) key).getD .null = .null) (w : Val) :
    h.Grows (h.setItem l key w) := by
  refine modify fun o ho => .set ?_ w
  rwa [item?, obj?, ho, Option.bind_some] at hnull

theorem append (h : Heap) (l : ℕ) (w : Val) : h.Grows (h.append l w) :=
  modify fun o _ => .append o w

/-- An item that is there stays. -/
theorem item? (hgrows : h.Grows h') (hw : h.item? v key = some w) (hne : w ≠ .null) :
    h'.item? v key = some w := by
  cases v with
  | ref l =>
    obtain ⟨o, ho, hget⟩ := Option.bind_eq_some_iff.1 hw
    obtain ⟨o', ho', hgrows⟩ := hgrows l o ho
    exact Option.bind_eq_some_iff.2 ⟨o', ho', hgrows.get? hget hne⟩
  | _ => simp [Heap.item?, obj?] at hw

theorem isDict (hgrows : h.Grows h') (hv : h.IsDict v) : h'.IsDict v := by
  obtain ⟨d, hd⟩ := hv
  cases v with
  | ref l =>
    obtain ⟨o', ho', hgrows⟩ := hgrows l _ hd
    cases hgrows with
    | dict hd' => exact ⟨_, ho'⟩
  | _ => simp [obj?] at hd

end Grows

/-- The items of an object that is there, in a heap with more objects. -/
theorem item?_of_isPrefix {o : Obj} (hpre : h <+: h₁) (ho : h[l]? = some o) (key : Key) :
    h₁.item? (.ref l) key = h.item? (.ref l) key := by
  rw [item?, item?, obj?, obj?, ho, getElem?_of_isPrefix hpre ho]

theorem field_eq {k : String} (hw : h.item? (.ref l) (.name k) = some w) : h.field l k = w := by
  rw [field, hw, Option.getD_some]

theorem ne_null_of_isDict (hv : h.IsDict v) : v ≠ .null := by
  rintro rfl
  obtain ⟨d, hd⟩ := hv
  simp [obj?] at hd

/-- A field that is a dictionary is there. -/
theorem item?_of_isDict_field {k : String} (hv : h.IsDict (h.field l k)) :
    h.item? (.ref l) (.name k) = some (h.field l k) := by
  have hne := ne_null_of_isDict hv
  unfold field at hne ⊢
  cases hitem : h.item? (.ref l) (.name k) with
  | none => simp [hitem] at hne
  | some w => rfl

/-- A change that keeps dictionaries what they are. -/
theorem IsDict.modify {f : Obj → Obj} (hv : h.IsDict v) (hf : ∀ d, ∃ d', f (.dict d) = .dict d') :
    IsDict (h.modify l f) v := by
  obtain ⟨d, hd⟩ := hv
  cases v with
  | ref m =>
    by_cases hm : l = m
    · subst hm
      obtain ⟨d', hd'⟩ := hf d
      exact ⟨d', by rw [obj?, modify_self hd, hd']⟩
    · exact ⟨d, (modify_of_ne h hm _).trans hd⟩
  | _ => simp [obj?] at hd

theorem IsDict.set (hv : h.IsDict v) (l : ℕ) (key : Key) (w : Val) :
    (h.setItem l key w).IsDict v :=
  hv.modify (f := fun o => o.set key w) fun d => by cases key <;> exact ⟨_, rfl⟩

theorem IsDict.erase (hv : h.IsDict v) (l : ℕ) (key : Key) : (h.eraseItem l key).IsDict v :=
  hv.modify (f := fun o => o.erase key) fun d => by cases key <;> exact ⟨_, rfl⟩

end Heap

end Py
end QualityFlow
