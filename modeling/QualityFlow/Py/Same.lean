/-
# Values that no walk tells apart

Two values, each in a heap, are the same where some relation between the references of
the two heaps, under which the heaps agree, relates them.  The largest such relation is
one itself, so the values are the same as soon as their items are (`same_dict`), and
only then (`Same.item?`).
-/

import Mathlib.Logic.Relation
import QualityFlow.Py.Heap

namespace QualityFlow
namespace Py

/-- Two values, each in a heap, that no walk through items can tell apart. -/
def Same (h : Heap) (v : Val) (h' : Heap) (v' : Val) : Prop :=
  ∃ ρ, Agree (fun _ _ => False) ρ h h' ∧ ValRel ρ v v'

section

variable {ρ σ : ℕ → ℕ → Prop} {h h' h'' : Heap} {v v' v'' : Val}

theorem ValRel.comp (h₁ : ValRel ρ v v') (h₂ : ValRel σ v' v'') :
    ValRel (Relation.Comp ρ σ) v v'' := by
  cases h₁ with
  | scalar hv =>
    cases h₂ with
    | scalar => exact .scalar hv
    | ref => exact absurd rfl (hv _)
  | ref hl =>
    cases h₂ with
    | scalar hv => exact absurd rfl (hv _)
    | ref hm => exact .ref ⟨_, hl, hm⟩

theorem optionRel_comp {a b c : Option Val} (h₁ : Option.Rel (ValRel ρ) a b)
    (h₂ : Option.Rel (ValRel σ) b c) : Option.Rel (ValRel (Relation.Comp ρ σ)) a c := by
  cases h₁ with
  | none =>
    cases h₂
    exact .none
  | some hv =>
    cases h₂ with
    | some hw => exact .some (hv.comp hw)

theorem Agree.comp (s : Agree (fun _ _ => False) ρ h h') (t : Agree (fun _ _ => False) σ h' h'') :
    Agree (fun _ _ => False) (Relation.Comp ρ σ) h h'' := by
  rintro l n ⟨m, hlm, hmn⟩
  obtain ⟨o₁, o₂, ho₁, ho₂, h₁₂⟩ := s l m hlm
  obtain ⟨o₂', o₃, ho₂', ho₃, h₂₃⟩ := t m n hmn
  obtain rfl := Option.some.inj (ho₂.symm.trans ho₂')
  refine ⟨o₁, o₃, ho₁, ho₃, ?_⟩
  cases h₁₂ with
  | dict hd =>
    cases h₂₃ with
    | dict hd' => exact .dict fun k hk => optionRel_comp (hd k hk) (hd' k hk)
  | list hl =>
    cases h₂₃ with
    | list hl' => exact .list fun i => optionRel_comp (hl i) (hl' i)

/-- Objects that are made on either side change nothing. -/
theorem Agree.append (s : Agree (fun _ _ => False) ρ h h') {h₂ h₂' : Heap} (hpre : h <+: h₂)
    (hpre' : h' <+: h₂') : Agree (fun _ _ => False) ρ h₂ h₂' := by
  intro l m hlm
  obtain ⟨o, o', ho, ho', hrel⟩ := s l m hlm
  exact ⟨o, o', Heap.getElem?_of_isPrefix hpre ho, Heap.getElem?_of_isPrefix hpre' ho', hrel⟩

theorem Same.scalar (hv : ∀ l, v ≠ .ref l) : Same h v h' v :=
  ⟨fun _ _ => False, fun _ _ hf => hf.elim, .scalar hv⟩

theorem Same.symm (s : Same h v h' v') : Same h' v' h v := by
  obtain ⟨ρ, hagree, hv⟩ := s
  refine ⟨fun m l => ρ l m, fun m l hlm => ?_, hv.symm⟩
  obtain ⟨o, o', ho, ho', hrel⟩ := hagree l m hlm
  exact ⟨o', o, ho', ho, hrel.symm⟩

theorem Same.trans (s : Same h v h' v') (t : Same h' v' h'' v'') : Same h v h'' v'' := by
  obtain ⟨ρ, hρ, hv⟩ := s
  obtain ⟨σ, hσ, hv'⟩ := t
  exact ⟨_, hρ.comp hσ, hv.comp hv'⟩

theorem Same.append (s : Same h v h' v') {h₂ h₂' : Heap} (hpre : h <+: h₂) (hpre' : h' <+: h₂') :
    Same h₂ v h₂' v' := by
  obtain ⟨ρ, hρ, hv⟩ := s
  exact ⟨ρ, hρ.append hpre hpre', hv⟩

theorem Same.isDict (s : Same h v h' v') : h.isDict v = h'.isDict v' := by
  obtain ⟨ρ, hρ, hv⟩ := s
  exact hρ.isDict hv

/-- The items of two values that no walk tells apart are not told apart either. -/
theorem Same.item? (s : Same h v h' v') (key : Key) :
    Option.Rel (fun w w' => Same h w h' w') (h.item? v key) (h'.item? v' key) := by
  obtain ⟨ρ, hρ, hv⟩ := s
  have hshown : Shown (fun _ _ => False) v key := fun _ _ _ _ => id
  have hitem := hρ.item? hv hshown
  rcases optionRel_cases hitem with ⟨h₁, h₂⟩ | ⟨w, w', h₁, h₂, hw⟩
  · rw [h₁, h₂]
    exact .none
  · rw [h₁, h₂]
    exact .some ⟨ρ, hρ, hw⟩

/-- Values that are not told apart, as a relation of references. -/
def sameRef (h h' : Heap) (l m : ℕ) : Prop := Same h (.ref l) h' (.ref m)

theorem Same.valRel (s : Same h v h' v') : ValRel (sameRef h h') v v' := by
  obtain ⟨ρ, hρ, hv⟩ := s
  cases hv with
  | scalar hv => exact .scalar hv
  | ref hl => exact .ref ⟨ρ, hρ, .ref hl⟩

theorem le_sameRef (s : Agree (fun _ _ => False) ρ h h') : ρ ≤ sameRef h h' :=
  fun _ _ hlm => ⟨ρ, s, .ref hlm⟩

/-- **Two dictionaries whose items no walk tells apart are not told apart.** -/
theorem same_dict {l m : ℕ} {d d' : Dict String Val} (hl : h[l]? = some (.dict d))
    (hm : h'[m]? = some (.dict d'))
    (hitems : ∀ k, Option.Rel (fun w w' => Same h w h' w') (d.get? k) (d'.get? k)) :
    Same h (.ref l) h' (.ref m) := by
  refine ⟨extend (sameRef h h') l m, ?_, .ref (.inr ⟨rfl, rfl⟩)⟩
  rintro a b (⟨ρ, hρ, hab⟩ | ⟨rfl, rfl⟩)
  · cases hab with
    | scalar hv => exact absurd rfl (hv _)
    | ref hab =>
      obtain ⟨o, o', ho, ho', hrel⟩ := hρ a b hab
      exact ⟨o, o', ho, ho', hrel.mono ((le_sameRef hρ).trans (le_extend _ _ _))⟩
  · refine ⟨_, _, hl, hm, .dict fun k _ => ?_⟩
    have hk := hitems k
    generalize d.get? k = x at hk ⊢
    generalize d'.get? k = y at hk ⊢
    cases hk with
    | none => exact .none
    | some hw => exact .some (hw.valRel.mono (le_extend _ _ _))

end

/-! ### Dictionaries that no walk tells apart, field by field -/

/-- A dictionary with exactly these keys. -/
def Heap.HasKeys (h : Heap) (l : ℕ) (names : List String) : Prop :=
  ∃ d, h[l]? = some (.dict d) ∧ ∀ k, (d.get? k).isSome ↔ k ∈ names

section

variable {h h' h₁ h₁' : Heap} {l l' : ℕ} {names : List String} {ρ : ℕ → ℕ → Prop}

theorem Heap.item?_dict {d : Dict String Val} (hl : h[l]? = some (.dict d)) (k : String) :
    h.item? (.ref l) (.name k) = d.get? k := by
  rw [Heap.item?, Heap.obj?, hl]
  rfl

theorem Heap.field_dict {d : Dict String Val} (hl : h[l]? = some (.dict d)) (k : String) :
    h.field l k = (d.get? k).getD .null := by
  rw [Heap.field, Heap.item?_dict hl]

theorem Heap.hasKeys_dict {d : Dict String Val} (hl : h[l]? = some (.dict d)) :
    h.HasKeys l d.keys := ⟨d, hl, fun _ => Dict.mem_keys_iff.symm⟩

theorem Heap.HasKeys.isDict (hk : h.HasKeys l names) : h.IsDict (.ref l) := by
  obtain ⟨d, hd, -⟩ := hk
  exact ⟨d, hd⟩

/-- Two dictionaries with the same keys, whose fields no walk tells apart. -/
theorem same_of_fields (hk : h.HasKeys l names) (hk' : h'.HasKeys l' names)
    (hfields : ∀ k ∈ names, Same h (h.field l k) h' (h'.field l' k)) :
    Same h (.ref l) h' (.ref l') := by
  obtain ⟨d, hd, hnames⟩ := hk
  obtain ⟨d', hd', hnames'⟩ := hk'
  refine same_dict hd hd' fun k => ?_
  by_cases hmem : k ∈ names
  · have hsame := hfields k hmem
    obtain ⟨v, hv⟩ := Option.isSome_iff_exists.1 ((hnames k).2 hmem)
    obtain ⟨v', hv'⟩ := Option.isSome_iff_exists.1 ((hnames' k).2 hmem)
    rw [Heap.field_dict hd, Heap.field_dict hd', hv, hv'] at hsame
    rw [hv, hv']
    exact .some hsame
  · have hnone : d.get? k = none := Option.not_isSome_iff_eq_none.1 fun h => hmem ((hnames k).1 h)
    have hnone' : d'.get? k = none :=
      Option.not_isSome_iff_eq_none.1 fun h => hmem ((hnames' k).1 h)
    rw [hnone, hnone']
    exact .none

/-- What no walk tells apart from a dictionary has the same keys. -/
theorem Same.hasKeys (s : Same h (.ref l) h' (.ref l')) (hk' : h'.HasKeys l' names) :
    h.HasKeys l names := by
  have hdict := s.isDict
  rw [Heap.isDict_iff.2 hk'.isDict, Heap.isDict_iff] at hdict
  obtain ⟨d, hd⟩ := hdict
  obtain ⟨d', hd', hnames'⟩ := hk'
  refine ⟨d, hd, fun k => ?_⟩
  have hitem := s.item? (.name k)
  rw [Heap.item?_dict hd, Heap.item?_dict hd'] at hitem
  rw [← hnames' k]
  generalize d.get? k = x at hitem ⊢
  generalize d'.get? k = y at hitem ⊢
  cases hitem <;> rfl

/-- Fields that are missing together, or that no walk tells apart. -/
theorem Same.field (s : Same h (.ref l) h' (.ref l')) (k : String) :
    Same h (h.field l k) h' (h'.field l' k) := by
  have hitem := s.item? (.name k)
  unfold Heap.field
  generalize h.item? (.ref l) (.name k) = x at hitem ⊢
  generalize h'.item? (.ref l') (.name k) = y at hitem ⊢
  cases hitem with
  | none => exact .scalar (by simp)
  | some hw => exact hw

theorem Same.eq_of_scalar {v v' : Val} (hsame : Same h v h' v') (hv : ∀ l, v' ≠ .ref l) :
    v = v' := by
  obtain ⟨ρ, -, hrel⟩ := hsame
  cases hrel with
  | scalar => rfl
  | ref => exact absurd rfl (hv _)

theorem Same.eq_str {v : Val} {s : String} (hs : Same h v h' (.str s)) : v = .str s := by
  obtain ⟨ρ, -, hv⟩ := hs
  cases hv
  rfl

theorem optionRel_self {x : Option Val} {v : Val} (hx : Option.Rel (ValRel ρ) x x)
    (hv : x = some v) : ValRel ρ v v := by
  subst hv
  cases hx with
  | some hv => exact hv

/-- Objects made later do not tell apart what could not be told apart before. -/
theorem Same.of_isPrefix {v v' : Val} (s : Sim (fun _ _ => False) ρ h h) (hv : ValRel ρ v v)
    (hv' : ValRel ρ v' v') (hpre : h <+: h₁) (hsame : Same h₁ v h₁ v') : Same h v h v' := by
  obtain ⟨σ, hσ, hrel⟩ := hsame
  have hval {w w' : Val} (hw : ValRel ρ w w) (hw' : ValRel ρ w' w') (hrel : ValRel σ w w') :
      ValRel (fun l m => σ l m ∧ ρ l l ∧ ρ m m) w w' := by
    cases hrel with
    | scalar hs => exact .scalar hs
    | ref hlm =>
      cases hw with
      | scalar hs => exact absurd rfl (hs _)
      | ref hl =>
        cases hw' with
        | scalar hs => exact absurd rfl (hs _)
        | ref hm => exact .ref ⟨hlm, hl, hm⟩
  have hopt {x y : Option Val} (hx : Option.Rel (ValRel ρ) x x) (hy : Option.Rel (ValRel ρ) y y)
      (hxy : Option.Rel (ValRel σ) x y) :
      Option.Rel (ValRel fun l m => σ l m ∧ ρ l l ∧ ρ m m) x y := by
    cases hxy with
    | none => exact .none
    | some hw => exact .some (hval (optionRel_self hx rfl) (optionRel_self hy rfl) hw)
  refine ⟨fun l m => σ l m ∧ ρ l l ∧ ρ m m, ?_, hval hv hv' hrel⟩
  rintro l m ⟨hlm, hl, hm⟩
  obtain ⟨o, o', ho, ho', hrel⟩ := hσ l m hlm
  obtain ⟨p, p₂, hp, hp₂, hself⟩ := s.agree l l hl
  obtain ⟨q, q₂, hq, hq₂, hself'⟩ := s.agree m m hm
  obtain rfl := Option.some.inj (hp.symm.trans hp₂)
  obtain rfl := Option.some.inj (hq.symm.trans hq₂)
  obtain rfl := Option.some.inj ((Heap.getElem?_of_isPrefix hpre hp).symm.trans ho)
  obtain rfl := Option.some.inj ((Heap.getElem?_of_isPrefix hpre hq).symm.trans ho')
  refine ⟨p, q, hp, hq, ?_⟩
  cases hrel with
  | dict hd =>
    cases hself with
    | dict hs =>
      cases hself' with
      | dict hs' => exact .dict fun k hk => hopt (hs k id) (hs' k id) (hd k hk)
  | list hd =>
    cases hself with
    | list hs =>
      cases hself' with
      | list hs' => exact .list fun i => hopt (hs i) (hs' i) (hd i)

/-- A value of before that is a dictionary was one before. -/
theorem isDict_of_isPrefix {v : Val} (s : Sim (fun _ _ => False) ρ h h) (hv : ValRel ρ v v) (hpre : h <+: h₁)
    (hdict : h₁.IsDict v) : h.IsDict v := by
  obtain ⟨d, hd⟩ := hdict
  cases hv with
  | scalar hs =>
    cases v with
    | ref l => exact absurd rfl (hs l)
    | _ => simp [Heap.obj?] at hd
  | ref hl =>
    obtain ⟨o, -, ho, -, -⟩ := s.agree _ _ hl
    obtain rfl := Option.some.inj ((Heap.getElem?_of_isPrefix hpre ho).symm.trans hd)
    exact ⟨d, ho⟩

end

end Py
end QualityFlow
