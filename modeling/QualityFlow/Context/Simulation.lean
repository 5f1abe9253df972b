/-
# Two contexts side by side

What the operations on a context do to two heaps that are related: the same call keeps
them related, and a walk that stays clear of the related objects, on one side only,
keeps them too.

`OnPath` says something of each object that a walk along tokens meets, with the key
that is looked up in it.  A walk that makes an object goes on in it, and an object just
made is empty, so what holds of new objects holds from there on.
-/

import QualityFlow.Context.Resolver

namespace QualityFlow
namespace Context

open Py Suite

/-! ### Walks -/

/-- Every object that a walk meets, with its key, satisfies a condition. -/
def OnPath (P : ℕ → Key → Prop) (h : Heap) (v : Val) : List String → Prop
  | [] => True
  | token :: rest => ∀ l key, v = .ref l → toKey token = .ok key →
      P l key ∧ ∀ w, h.item? v key = some w → OnPath P h w rest

section

variable {P Q : ℕ → Key → Prop} {h h₂ : Heap} {v w : Val} {l : ℕ} {key : Key}
  {token : String} {rest : List String}

/-- A walk from an empty object meets that object only. -/
theorem OnPath.of_empty {o : Obj} (ho : h[l]? = some o) (hempty : ∀ key, o.get? key = none)
    (hP : ∀ key, P l key) (tokens : List String) : OnPath P h (.ref l) tokens := by
  cases tokens with
  | nil => trivial
  | cons token rest =>
    rintro m key hm -
    obtain rfl := Val.ref.inj hm
    refine ⟨hP key, fun w hw => ?_⟩
    simp [Heap.item?, Heap.obj?, ho, hempty] at hw

theorem get?_newContainer (key key' : Key) : (newContainer key).get? key' = none := by
  cases key <;> cases key' <;> simp [newContainer, Obj.get?]

theorem length_ensureListSize (l n : ℕ) (h : Heap) :
    (ensureListSize l n h).length = h.length + n := by
  induction n generalizing h with
  | zero => rfl
  | succ n ih =>
    simp only [ensureListSize, ih, Heap.append, Heap.alloc, List.length_modify, List.length_append,
      List.length_singleton]
    omega

/-- Lengthening a list changes no other object. -/
theorem ensureListSize_of_ne {l m : ℕ} (hne : l ≠ m) {n : ℕ} {h : Heap} (hm : m < h.length) :
    (ensureListSize l n h)[m]? = h[m]? := by
  induction n generalizing h with
  | zero => rfl
  | succ n ih =>
    rw [ensureListSize, ih]
    · simp only [Heap.append, Heap.alloc]
      rw [Heap.modify_of_ne _ hne, List.getElem?_append_left hm]
    · simp only [Heap.append, Heap.alloc, List.length_modify, List.length_append]
      omega

/-- The items that lengthening a list adds are new and empty. -/
theorem ensureListSize_item {n : ℕ} {xs : List Val} (hl : h[l]? = some (.list xs)) :
    ∃ ys, (ensureListSize l n h)[l]? = some (.list (xs ++ ys)) ∧ ys.length = n ∧
      ∀ y ∈ ys, ∃ m, y = .ref m ∧ h.length ≤ m ∧ (ensureListSize l n h)[m]? = some (.dict []) := by
  induction n generalizing h xs with
  | zero => exact ⟨[], by simpa [ensureListSize] using hl, rfl, by simp⟩
  | succ n ih =>
    have hlt : l < h.length := (List.getElem?_eq_some_iff.1 hl).1
    have hlist : ((h.alloc (.dict [])).1.append l (.ref h.length))[l]?
        = some (.list (xs ++ [.ref h.length])) := by
      refine Heap.modify_self (o := .list xs) ?_ _
      rw [Heap.alloc, List.getElem?_append_left hlt, hl]
    have hnew : ((h.alloc (.dict [])).1.append l (.ref h.length))[h.length]? = some (.dict []) := by
      rw [Heap.append, Heap.modify_of_ne _ (by omega), Heap.alloc]
      simp
    have hlength : ((h.alloc (.dict [])).1.append l (.ref h.length)).length = h.length + 1 := by
      simp [Heap.append, Heap.alloc]
    obtain ⟨ys, hys, hlen, hall⟩ := ih hlist
    refine ⟨.ref h.length :: ys, ?_, by rw [List.length_cons, hlen], ?_⟩
    · rw [ensureListSize]
      simpa [Heap.alloc] using hys
    · rw [List.forall_mem_cons]
      constructor
      · refine ⟨h.length, rfl, le_rfl, ?_⟩
        rw [ensureListSize, ← hnew]
        exact ensureListSize_of_ne (by omega) (by simp [Heap.append])
      · intro y hy
        obtain ⟨m, rfl, hm, hdict⟩ := hall y hy
        exact ⟨m, rfl, by rw [hlength] at hm; omega, hdict⟩

/-- What `openSlot` does: nothing to a dictionary, and to a list it adds what is missing. -/
theorem openSlot_eq_ok {h₂ : Heap} (hopen : openSlot h v key = .ok (h₂, l)) :
    v = .ref l ∧ ((h₂ = h ∧ ∃ d k, h[l]? = some (.dict d) ∧ key = .name k) ∨
      ∃ xs i, h[l]? = some (.list xs) ∧ key = .index i ∧
        h₂ = ensureListSize l (i + 1 - xs.length) h) := by
  unfold openSlot at hopen
  split at hopen
  · rename_i i l' xs hobj
    obtain ⟨rfl, rfl⟩ := Prod.mk.inj (Except.ok.inj hopen)
    exact ⟨rfl, .inr ⟨xs, i, hobj, rfl, rfl⟩⟩
  · rename_i k l' d hobj
    obtain ⟨rfl, rfl⟩ := Prod.mk.inj (Except.ok.inj hopen)
    exact ⟨rfl, .inl ⟨rfl, d, k, hobj, rfl⟩⟩
  · simp at hopen
  · simp at hopen

theorem openSlot_length {h₂ : Heap} (hopen : openSlot h v key = .ok (h₂, l)) :
    h.length ≤ h₂.length := by
  obtain ⟨-, ⟨rfl, -⟩ | ⟨xs, i, -, -, rfl⟩⟩ := openSlot_eq_ok hopen
  · exact le_rfl
  · rw [length_ensureListSize]
    omega

theorem openSlot_lt {h₂ : Heap} (hopen : openSlot h v key = .ok (h₂, l)) : l < h₂.length := by
  refine lt_of_lt_of_le ?_ (openSlot_length hopen)
  obtain ⟨-, ⟨-, d, k, hobj, -⟩ | ⟨xs, i, hobj, -, -⟩⟩ := openSlot_eq_ok hopen
  · exact (List.getElem?_eq_some_iff.1 hobj).1
  · exact (List.getElem?_eq_some_iff.1 hobj).1

/-- The walk goes on as before, or in an object just made. -/
theorem OnPath.child (hpath : OnPath P h v (token :: rest)) (hkey : toKey token = .ok key)
    (hopen : openSlot h v key = .ok (h₂, l)) (hfresh : ∀ m, h.length ≤ m → ∀ key, P m key)
    (hw : h₂.item? (.ref l) key = some w) : OnPath P h₂ w rest := by
  obtain ⟨rfl, ⟨rfl, -⟩ | ⟨xs, i, hobj, rfl, rfl⟩⟩ := openSlot_eq_ok hopen
  · exact (hpath l key rfl hkey).2 w hw
  · by_cases hi : i < xs.length
    · rw [Nat.sub_eq_zero_of_le hi] at hw ⊢
      exact (hpath l _ rfl hkey).2 w hw
    · obtain ⟨ys, hys, hlen, hall⟩ := ensureListSize_item (n := i + 1 - xs.length) hobj
      rw [Heap.item?, Heap.obj?, hys] at hw
      have hmem : w ∈ ys := by
        simp only [Option.bind_some, Obj.get?] at hw
        rw [List.getElem?_append_right (by omega)] at hw
        exact List.mem_of_getElem? hw
      obtain ⟨m, rfl, hm, hdict⟩ := hall w hmem
      exact .of_empty hdict (fun key => by cases key <;> rfl) (hfresh m hm) _

end

/-! ### What a walk leaves alone -/

/-- Objects that no walk meets are left, and in a dictionary the keys that none looks up. -/
structure Framed (P : ℕ → Key → Prop) (h h' : Heap) : Prop where
  length : h.length ≤ h'.length
  kept : ∀ l o, h[l]? = some o → (∀ i, ¬ P l (.index i)) →
    ∃ o', h'[l]? = some o' ∧ Kept (fun k => P l (.name k)) o o'

namespace Framed

variable {P : ℕ → Key → Prop} {h h₁ h₂ h₃ : Heap} {v w : Val} {l : ℕ} {key : Key}

theorem refl (P : ℕ → Key → Prop) (h : Heap) : Framed P h h :=
  ⟨le_rfl, fun _ o ho _ => ⟨o, ho, .refl o⟩⟩

theorem trans (h₁₂ : Framed P h₁ h₂) (h₂₃ : Framed P h₂ h₃) : Framed P h₁ h₃ := by
  refine ⟨h₁₂.length.trans h₂₃.length, fun l o ho hP => ?_⟩
  obtain ⟨o₂, ho₂, hkept₂⟩ := h₁₂.kept l o ho hP
  obtain ⟨o₃, ho₃, hkept₃⟩ := h₂₃.kept l o₂ ho₂ hP
  exact ⟨o₃, ho₃, hkept₂.trans hkept₃⟩

theorem of_isPrefix (hpre : h <+: h₂) : Framed P h h₂ := by
  obtain ⟨more, rfl⟩ := hpre
  refine ⟨by simp, fun l o ho _ => ⟨o, ?_, .refl o⟩⟩
  rw [List.getElem?_append_left (List.getElem?_eq_some_iff.1 ho).1, ho]

theorem alloc (h : Heap) (o : Obj) : Framed P h (h.alloc o).1 := of_isPrefix ⟨[o], rfl⟩

/-- A change of an object under a key that a walk looks up. -/
theorem modify {f : Obj → Obj} (hP : P l key)
    (hf : ∀ o k, key = .name k → Kept (fun k' => k' = k) o (f o)) : Framed P h (h.modify l f) := by
  refine ⟨by simp, fun m o ho hindex => ?_⟩
  by_cases hm : l = m
  · subst hm
    refine ⟨f o, Heap.modify_self ho f, ?_⟩
    cases key with
    | index i => exact absurd hP (hindex i)
    | name k => exact (hf o k rfl).mono fun k' hk' => hk' ▸ hP
  · exact ⟨o, by rw [Heap.modify_of_ne h hm, ho], .refl o⟩

theorem kept_set (o : Obj) (k : String) (v : Val) :
    Kept (fun k' => k' = k) o (o.set (.name k) v) := by
  cases o with
  | dict d => exact .dict ⟨k, rfl⟩ fun k' hk' => Dict.get?_set_of_ne (Ne.symm hk') v
  | list xs => exact .refl _

theorem kept_erase (o : Obj) (k : String) : Kept (fun k' => k' = k) o (o.erase (.name k)) := by
  cases o with
  | dict d =>
    refine .dict ⟨k, rfl⟩ fun k' hk' => ?_
    rw [Dict.get?_erase, if_neg (Ne.symm hk')]
  | list xs => exact .refl _

theorem setItem (hP : P l key) (v : Val) : Framed P h (h.setItem l key v) :=
  modify hP fun o k hk => hk ▸ kept_set o k v

theorem eraseItem (hP : P l key) : Framed P h (h.eraseItem l key) :=
  modify hP fun o k hk => hk ▸ kept_erase o k

theorem openSlot (hopen : openSlot h v key = .ok (h₂, l)) (hP : P l key) :
    Framed P h h₂ := by
  obtain ⟨rfl, ⟨rfl, -⟩ | ⟨xs, i, hobj, rfl, rfl⟩⟩ := openSlot_eq_ok hopen
  · exact refl P _
  · refine ⟨openSlot_length hopen, fun m o ho hindex => ⟨o, ?_, .refl o⟩⟩
    have hne : l ≠ m := by
      rintro rfl
      exact hindex i hP
    rw [ensureListSize_of_ne hne (List.getElem?_eq_some_iff.1 ho).1, ho]

end Framed

/-- **An assignment changes what its walk meets, and makes new objects.** -/
theorem assignNestedValue_framed {P : ℕ → Key → Prop} {h : Heap} {v value : Val}
    {tokens : List String} (hpath : OnPath P h v tokens)
    (hfresh : ∀ m, h.length ≤ m → ∀ key, P m key) :
    Framed P h (assignNestedValue value h v tokens).1 := by
  induction tokens generalizing h v with
  | nil => exact .refl P h
  | cons token rest ih =>
    rw [assignNestedValue]
    cases hkey : toKey token with
    | error e => exact .refl P h
    | ok key =>
      simp only
      cases hopen : openSlot h v key with
      | error e => exact .refl P h
      | ok slot =>
        obtain ⟨h₂, l⟩ := slot
        have hv := (openSlot_eq_ok hopen).1
        have hP := (hpath l key hv hkey).1
        have hframe : Framed P h h₂ := .openSlot hopen hP
        have hfresh₂ : ∀ m, h₂.length ≤ m → ∀ key, P m key :=
          fun m hm => hfresh m (hframe.length.trans hm)
        simp only
        cases hnext : rest.head?.map toKey with
        | none => exact hframe.trans (.setItem hP value)
        | some next =>
          cases next with
          | error e => exact hframe
          | ok nextKey =>
            simp only
            split
            · -- the item is missing: the walk goes on in a new object
              have hset : Framed P h₂ ((h₂.alloc (newContainer nextKey)).1.setItem l key
                  (.ref h₂.length)) := (Framed.alloc h₂ _).trans (.setItem hP _)
              refine hframe.trans (hset.trans (ih ?_ fun m hm => hfresh₂ m (hset.length.trans hm)))
              refine .of_empty ?_ (get?_newContainer nextKey) (hfresh₂ _ le_rfl) _
              rw [Heap.setItem, Heap.modify_of_ne _ (openSlot_lt hopen).ne]
              simp [Heap.alloc]
            · rename_i hchild
              refine hframe.trans (ih ?_ hfresh₂)
              cases hw : h₂.item? (.ref l) key with
              | none => simp [hw] at hchild
              | some w => exact hpath.child hkey hopen hfresh hw

/-- A removal changes what its walk meets. -/
theorem removeNestedValue_framed {P : ℕ → Key → Prop} {h : Heap} {v : Val}
    {tokens : List String} (hpath : OnPath P h v tokens) :
    Framed P h (removeNestedValue h v tokens).1 := by
  induction tokens generalizing v with
  | nil => exact .refl P h
  | cons token rest ih =>
    rw [removeNestedValue]
    cases hkey : toKey token with
    | error e => exact .refl P h
    | ok key =>
      simp only
      split
      · rename_i l child hchild
        obtain ⟨hP, hitem⟩ := hpath l key rfl hkey
        split_ifs
        · exact .eraseItem hP
        · exact ih (hitem child hchild)
      · exact .refl P h

/-! ### The same call on both sides -/

/-- A key that is looked up is not a hidden one. -/
def ShownKey (hide : ℕ → String → Prop) (l : ℕ) (key : Key) : Prop :=
  ∀ k, key = .name k → ¬ hide l k

section

variable {hide : ℕ → String → Prop} {ρ : ℕ → ℕ → Prop} {h h' : Heap} {v v' value value' : Val}
  {l m : ℕ} {key : Key}

theorem shownKey_fresh (s : Sim hide ρ h h') (hl : h.length ≤ l) (key : Key) :
    ShownKey hide l key := fun k _ hk => absurd (s.bound l k hk).1 (by omega)

theorem objRel_empty (o : Obj) (hempty : ∀ key, o.get? key = none) :
    ObjRel ρ (fun _ => False) o o := by
  cases o with
  | dict d =>
    refine .dict fun k _ => ?_
    have hk := hempty (.name k)
    rw [Obj.get?] at hk
    rw [hk]
    exact .none
  | list xs =>
    refine .list fun i => ?_
    have hi := hempty (.index i)
    rw [Obj.get?] at hi
    rw [hi]
    exact .none

theorem sim_ensureListSize (s : Sim hide ρ h h') (hlm : ρ l m) (n : ℕ) :
    ∃ ρ', ρ ≤ ρ' ∧ Sim hide ρ' (ensureListSize l n h) (ensureListSize m n h') := by
  induction n generalizing ρ h h' with
  | zero => exact ⟨ρ, le_rfl, s⟩
  | succ n ih =>
    have hnew := s.alloc (objRel_empty (.dict []) fun key => by cases key <;> rfl)
    have hfresh : ValRel (extend ρ h.length h'.length) (.ref h.length) (.ref h'.length) :=
      .ref (.inr ⟨rfl, rfl⟩)
    have happend := hnew.append (le_extend _ _ _ _ _ hlm) hfresh
    obtain ⟨ρ', hle, hs⟩ := ih happend (le_extend _ _ _ _ _ hlm)
    exact ⟨ρ', (le_extend _ _ _).trans hle, hs⟩

/-- The objects that a token is looked up in are opened alike. -/
theorem sim_openSlot (s : Sim hide ρ h h') (hv : ValRel ρ v v') (key : Key) :
    (∃ e, openSlot h v key = .error e ∧ openSlot h' v' key = .error e) ∨
      ∃ ρ' h₂ h₂' l m, ρ ≤ ρ' ∧ openSlot h v key = .ok (h₂, l) ∧
        openSlot h' v' key = .ok (h₂', m) ∧ Sim hide ρ' h₂ h₂' ∧ ρ' l m := by
  rcases s.agree.obj? hv with ⟨h₁, h₂⟩ | ⟨l, m, o, o', rfl, rfl, hlm, ho, ho', hrel⟩
  · left
    unfold openSlot
    rw [h₁, h₂]
    cases key <;> simp
  · unfold openSlot
    rw [Heap.obj?, Heap.obj?, ho, ho']
    cases hrel with
    | dict hd =>
      cases key with
      | index i => exact .inl ⟨_, rfl, rfl⟩
      | name k => exact .inr ⟨ρ, h, h', l, m, le_rfl, rfl, rfl, s, hlm⟩
    | list hl =>
      cases key with
      | index i =>
        rename_i xs ys
        obtain ⟨ρ', hle, hs⟩ := sim_ensureListSize s hlm (i + 1 - xs.length)
        refine .inr ⟨ρ', _, _, l, m, hle, rfl, ?_, hs, hle _ _ hlm⟩
        rw [length_eq_of_rel hl]
      | name k => exact .inl ⟨_, rfl, rfl⟩

/-- **The same assignment on both sides keeps them related.** -/
theorem sim_assignNestedValue {tokens : List String} (s : Sim hide ρ h h')
    (hvalue : ValRel ρ value value') (hv : ValRel ρ v v')
    (hshown : OnPath (ShownKey hide) h v tokens) :
    ∃ ρ', ρ ≤ ρ' ∧ Sim hide ρ' (assignNestedValue value h v tokens).1
        (assignNestedValue value' h' v' tokens).1 ∧
      (assignNestedValue value h v tokens).2 = (assignNestedValue value' h' v' tokens).2 := by
  induction tokens generalizing ρ h h' v v' with
  | nil => exact ⟨ρ, le_rfl, s, rfl⟩
  | cons token rest ih =>
    rw [assignNestedValue, assignNestedValue]
    cases hkey : toKey token with
    | error e => exact ⟨ρ, le_rfl, s, rfl⟩
    | ok key =>
      simp only
      rcases sim_openSlot s hv key with ⟨e, h₁, h₂⟩ | ⟨ρ₂, h₂, h₂', l, m, hle, hopen, hopen', s₂, hlm⟩
      · rw [h₁, h₂]
        exact ⟨ρ, le_rfl, s, rfl⟩
      · simp only [hopen, hopen']
        cases hnext : rest.head?.map toKey with
        | none => exact ⟨ρ₂, hle, s₂.setItem hlm key (hvalue.mono hle), rfl⟩
        | some next =>
          cases next with
          | error e => exact ⟨ρ₂, hle, s₂, rfl⟩
          | ok nextKey =>
            have hv₁ := (openSlot_eq_ok hopen).1
            have hshownKey : Shown hide (.ref l) key := by
              intro a k ha hk
              obtain rfl := Val.ref.inj ha
              exact (hshown l key hv₁ hkey).1 k hk
            have hitem := s₂.agree.item? (.ref hlm) hshownKey
            have hchild := getD_rel hitem
            simp only
            by_cases hnull : (h₂.item? (.ref l) key).getD .null = .null
            · rw [if_pos hnull, if_pos (hchild.eq_null_iff.1 hnull)]
              have hnew := s₂.alloc (objRel_empty _ (get?_newContainer nextKey))
              have hfresh : ValRel (extend ρ₂ h₂.length h₂'.length) (.ref h₂.length)
                  (.ref h₂'.length) := .ref (.inr ⟨rfl, rfl⟩)
              have hset := hnew.setItem (le_extend _ _ _ _ _ hlm) key hfresh
              obtain ⟨ρ', hle', hs, hres⟩ := ih hset (hvalue.mono (hle.trans (le_extend _ _ _)))
                (.ref (.inr ⟨rfl, rfl⟩)) (by
                  refine .of_empty ?_ (get?_newContainer nextKey)
                    (shownKey_fresh s₂ le_rfl) _
                  rw [Heap.setItem, Heap.modify_of_ne _ (openSlot_lt hopen).ne]
                  simp [Heap.alloc])
              exact ⟨ρ', (hle.trans (le_extend _ _ _)).trans hle', hs, hres⟩
            · rw [if_neg hnull, if_neg fun h => hnull (hchild.eq_null_iff.2 h)]
              obtain ⟨ρ', hle', hs, hres⟩ := ih s₂ (hvalue.mono hle) hchild (by
                cases hget : h₂.item? (.ref l) key with
                | none => simp [hget] at hnull
                | some w => exact hshown.child hkey hopen (fun _ hm => shownKey_fresh s hm) hget)
              exact ⟨ρ', hle.trans hle', hs, hres⟩

/-- The same removal on both sides keeps them related. -/
theorem sim_removeNestedValue {tokens : List String} (s : Sim hide ρ h h') (hv : ValRel ρ v v')
    (hshown : OnPath (ShownKey hide) h v tokens) :
    Sim hide ρ (removeNestedValue h v tokens).1 (removeNestedValue h' v' tokens).1 ∧
      (removeNestedValue h v tokens).2 = (removeNestedValue h' v' tokens).2 := by
  induction tokens generalizing v v' with
  | nil => exact ⟨s, rfl⟩
  | cons token rest ih =>
    rw [removeNestedValue, removeNestedValue]
    cases hkey : toKey token with
    | error e => exact ⟨s, rfl⟩
    | ok key =>
      simp only
      rcases s.agree.obj? hv with ⟨h₁, h₂⟩ | ⟨l, m, o, o', rfl, rfl, hlm, ho, ho', hrel⟩
      · have hitem : h.item? v key = none := by rw [Heap.item?, h₁]; rfl
        have hitem' : h'.item? v' key = none := by rw [Heap.item?, h₂]; rfl
        simp only [hitem, hitem']
        exact ⟨s, trivial⟩
      · obtain ⟨hP, hpath⟩ := hshown l key rfl hkey
        have hshownKey : Shown hide (.ref l) key := by
          intro a k ha hk
          obtain rfl := Val.ref.inj ha
          exact hP k hk
        have hitem := s.agree.item? (.ref hlm) hshownKey
        rcases optionRel_cases hitem with ⟨h₁, h₂⟩ | ⟨w, w', h₁, h₂, hw⟩
        · simp only [h₁, h₂]
          exact ⟨s, trivial⟩
        · simp only [h₁, h₂]
          split_ifs
          · exact ⟨s.eraseItem hlm key, rfl⟩
          · exact ih hw (hpath w h₁)

theorem objRel_nil (hidden : String → Prop) : ObjRel ρ hidden (.dict []) (.dict []) :=
  .dict fun _ _ => .none

theorem sim_field (s : Sim hide ρ h h') (hlm : ρ l m) {k : String} (hk : ¬ hide l k) :
    ValRel ρ (h.field l k) (h'.field m k) := by
  refine getD_rel (s.agree.item? (.ref hlm) fun a k' ha hk' => ?_)
  obtain rfl := Val.ref.inj ha
  obtain rfl := Key.name.inj hk'
  exact hk

theorem sim_dictOrNew (s : Sim hide ρ h h') (hv : ValRel ρ v v') :
    ∃ ρ', ρ ≤ ρ' ∧ Sim hide ρ' (h.dictOrNew v).1 (h'.dictOrNew v').1 ∧
      ValRel ρ' (h.dictOrNew v).2 (h'.dictOrNew v').2 := by
  unfold Heap.dictOrNew
  rw [s.agree.isDict hv]
  split_ifs
  · exact ⟨ρ, le_rfl, s, hv⟩
  · exact ⟨_, le_extend _ _ _, s.alloc (objRel_nil _), .ref (.inr ⟨rfl, rfl⟩)⟩

/-- The dictionaries of the scopes are related to themselves. -/
structure Rooted (ρ : ℕ → ℕ → Prop) (c : RunContext) : Prop where
  runEnvelope : ρ c.runEnvelope c.runEnvelope
  globalScope : ρ c.globalScope c.globalScope
  localScope : ρ c.localScope c.localScope
  resultScope : ρ c.resultScope c.resultScope

theorem Rooted.mono {ρ' : ℕ → ℕ → Prop} {c : RunContext} (hρ : ρ ≤ ρ') (hc : Rooted ρ c) :
    Rooted ρ' c :=
  ⟨hρ _ _ hc.runEnvelope, hρ _ _ hc.globalScope, hρ _ _ hc.localScope, hρ _ _ hc.resultScope⟩

/-- The fields that building a scope and finding a target read are not hidden. -/
structure OpenFields (hide : ℕ → String → Prop) (c : RunContext) : Prop where
  constants : ¬ hide c.globalScope "constants"
  commands : ¬ hide c.resultScope "commands"

theorem sim_targetFromRoot {c : RunContext} (s : Sim hide ρ h h') (hc : Rooted ρ c)
    (hopen : OpenFields hide c) (root : ContextRoot) :
    ∃ ρ', ρ ≤ ρ' ∧ Sim hide ρ' (targetFromRoot c h root).1 (targetFromRoot c h' root).1 ∧
      ρ' (targetFromRoot c h root).2 (targetFromRoot c h' root).2 := by
  cases root with
  | runEnvelope => exact ⟨ρ, le_rfl, s, hc.runEnvelope⟩
  | globalScope => exact ⟨ρ, le_rfl, s, hc.globalScope⟩
  | localScope => exact ⟨ρ, le_rfl, s, hc.localScope⟩
  | result => exact ⟨ρ, le_rfl, s, hc.resultScope⟩
  | response =>
    have hfresh : ValRel (extend ρ h.length h'.length) (.ref h.length) (.ref h'.length) :=
      .ref (.inr ⟨rfl, rfl⟩)
    have hnew := (s.alloc (objRel_nil _)).setItem (le_extend _ _ _ _ _ hc.resultScope)
      (.name "commands") hfresh
    have hfield := sim_field s hc.resultScope hopen.commands
    unfold targetFromRoot
    simp only
    cases hfield' : h.field c.resultScope "commands" with
    | ref l =>
      rw [hfield'] at hfield
      cases hget : h'.field c.resultScope "commands" with
      | ref m =>
        rw [hget] at hfield
        cases hfield with
        | scalar hv => exact absurd rfl (hv _)
        | ref hlm =>
          simp only
          rw [s.agree.isDict (.ref hlm)]
          split_ifs
          · exact ⟨ρ, le_rfl, s, hlm⟩
          · exact ⟨_, le_extend _ _ _, hnew, .inr ⟨rfl, rfl⟩⟩
      | _ =>
        rw [hget] at hfield
        nomatch hfield
    | _ =>
      rw [hfield'] at hfield
      cases hget : h'.field c.resultScope "commands" with
      | ref m =>
        rw [hget] at hfield
        nomatch hfield
      | _ => exact ⟨_, le_extend _ _ _, hnew, .inr ⟨rfl, rfl⟩⟩

/-- The same assignment to a scope on both sides keeps them related, where the value has
no hidden items. -/
theorem sim_assignRoot (s : Sim hide ρ h h') (hlm : ρ l m) (hvalue : ValRel ρ value value')
    (hshown : ∀ a k, value = .ref a → ¬ hide a k) :
    Sim hide ρ (assignRoot h l value).1 (assignRoot h' m value').1 ∧
      (assignRoot h l value).2 = (assignRoot h' m value').2 := by
  have hclear := s.modify hlm (f := fun _ => .dict []) (g := fun _ => .dict [])
    fun _ _ _ => objRel_nil _
  unfold assignRoot
  rw [s.agree.isDict hvalue]
  split_ifs
  · simp only
    rcases hclear.agree.obj? hvalue with ⟨h₁, h₂⟩ | ⟨a, b, o, o', rfl, rfl, hab, ho, ho', hrel⟩
    · rw [h₁, h₂]
      exact ⟨hclear, rfl⟩
    · simp only [Heap.obj?, ho, ho']
      exact ⟨hclear.modify hlm fun _ _ _ => hrel.hide fun k hk => absurd hk (hshown a k rfl), trivial⟩
  · exact ⟨s, rfl⟩

/-- What a call may do while items are hidden: walk past them only. -/
structure WalkShown (hide : ℕ → String → Prop) (c : RunContext) (h : Heap) (path : String)
    (value : Val) : Prop where
  walk : ∀ root tokens, contextTarget path = .ok (some (root, tokens)) →
    OnPath (ShownKey hide) (targetFromRoot c h root).1 (.ref (targetFromRoot c h root).2) tokens
  value : ∀ root, contextTarget path = .ok (some (root, [])) → ∀ a k, value = .ref a → ¬ hide a k

theorem sim_writeContextPath {c : RunContext} {path : String} (s : Sim hide ρ h h')
    (hc : Rooted ρ c) (hopen : OpenFields hide c) (hvalue : ValRel ρ value value')
    (hshown : WalkShown hide c h path value) :
    ∃ ρ', ρ ≤ ρ' ∧ Sim hide ρ' (writeContextPath c h path value).1
        (writeContextPath c h' path value').1 ∧
      (writeContextPath c h path value).2 = (writeContextPath c h' path value').2 := by
  unfold writeContextPath
  cases htarget : contextTarget path with
  | error e => exact ⟨ρ, le_rfl, s, rfl⟩
  | ok target =>
    cases target with
    | none => exact ⟨ρ, le_rfl, s, rfl⟩
    | some target =>
      obtain ⟨root, tokens⟩ := target
      simp only
      cases checkMutable c root with
      | error e => exact ⟨ρ, le_rfl, s, rfl⟩
      | ok _ =>
        obtain ⟨ρ₂, hle, s₂, hlm⟩ := sim_targetFromRoot s hc hopen root
        simp only
        split_ifs with htokens
        · obtain ⟨s₃, hres⟩ := sim_assignRoot s₂ hlm (hvalue.mono hle)
            (hshown.value root (by rw [htarget, htokens]))
          exact ⟨ρ₂, hle, s₃, hres⟩
        · obtain ⟨ρ₃, hle₃, s₃, hres⟩ := sim_assignNestedValue s₂ (hvalue.mono hle) (.ref hlm)
            (hshown.walk root tokens htarget)
          exact ⟨ρ₃, hle.trans hle₃, s₃, hres⟩

theorem sim_removeContextPath {c : RunContext} {path : String} (s : Sim hide ρ h h')
    (hc : Rooted ρ c) (hopen : OpenFields hide c) (hshown : WalkShown hide c h path .null) :
    ∃ ρ', ρ ≤ ρ' ∧ Sim hide ρ' (removeContextPath c h path).1 (removeContextPath c h' path).1 ∧
      (removeContextPath c h path).2 = (removeContextPath c h' path).2 := by
  unfold removeContextPath
  cases htarget : contextTarget path with
  | error e => exact ⟨ρ, le_rfl, s, rfl⟩
  | ok target =>
    cases target with
    | none => exact ⟨ρ, le_rfl, s, rfl⟩
    | some target =>
      obtain ⟨root, tokens⟩ := target
      simp only
      cases checkMutable c root with
      | error e => exact ⟨ρ, le_rfl, s, rfl⟩
      | ok _ =>
        obtain ⟨ρ₂, hle, s₂, hlm⟩ := sim_targetFromRoot s hc hopen root
        obtain ⟨s₃, hres⟩ := sim_removeNestedValue s₂ (.ref hlm) (hshown.walk root tokens htarget)
        exact ⟨ρ₂, hle, s₃, hres⟩

/-- A new object on both sides. -/
theorem sim_alloc {o o' : Obj} (s : Sim hide ρ h h') (ho : ObjRel ρ (fun _ => False) o o') :
    ∃ ρ', ρ ≤ ρ' ∧ Sim hide ρ' (h.alloc o).1 (h'.alloc o').1 ∧ ρ' (h.alloc o).2 (h'.alloc o').2 :=
  ⟨_, le_extend _ _ _, s.alloc ho, .inr ⟨rfl, rfl⟩⟩

theorem objRel_dict {d d' : Dict String Val}
    (hd : ∀ k, Option.Rel (ValRel ρ) (d.get? k) (d'.get? k)) :
    ObjRel ρ (fun _ => False) (.dict d) (.dict d') := .dict fun k _ => hd k

/-- **A context made from values that are there is related to itself.** -/
theorem sim_createRunContext {event vars : Val} (runId : String) (s : Sim hide ρ h h)
    (hevent : ValRel ρ event event) (hvars : ValRel ρ vars vars) :
    ∃ ρ', ρ ≤ ρ' ∧ Sim hide ρ' (createRunContext h runId event vars).1
        (createRunContext h runId event vars).1 ∧
      Rooted ρ' (createRunContext h runId event vars).2 := by
  obtain ⟨ρ₁, hle₁, s₁, hevent₁⟩ := sim_dictOrNew s hevent
  obtain ⟨ρ₂, hle₂, s₂, hvars₂⟩ := sim_dictOrNew s₁ (hvars.mono hle₁)
  obtain ⟨ρ₃, hle₃, s₃, henvelope⟩ := sim_alloc s₂ (objRel_dict
    (dictRel_cons "run_id" (.str (strip runId)) (dictRel_cons "event" (hevent₁.mono hle₂)
      (dictRel_cons "constants" hvars₂ dictRel_nil))))
  obtain ⟨ρ₄, hle₄, s₄, hglobals⟩ := sim_alloc s₃ (objRel_dict dictRel_nil)
  obtain ⟨ρ₅, hle₅, s₅, hglobal⟩ := sim_alloc s₄ (objRel_dict
    (dictRel_cons "runEnvelope" (.ref (hle₄ _ _ henvelope))
      (dictRel_cons "constants" (.ref hglobals) dictRel_nil)))
  obtain ⟨ρ₆, hle₆, s₆, hlocals⟩ := sim_alloc s₅ (objRel_dict dictRel_nil)
  obtain ⟨ρ₇, hle₇, s₇, hlocal⟩ := sim_alloc s₆ (objRel_dict
    (dictRel_cons "global" (.ref (hle₆ _ _ hglobal))
      (dictRel_cons "constants" (.ref hlocals) dictRel_nil)))
  obtain ⟨ρ₈, hle₈, s₈, hartifacts⟩ := sim_alloc s₇ (objRel_dict dictRel_nil)
  obtain ⟨ρ₉, hle₉, s₉, hcommands⟩ := sim_alloc s₈ (objRel_dict dictRel_nil)
  obtain ⟨ρ₁₀, hle₁₀, s₁₀, hresults⟩ := sim_alloc s₉ (objRel_dict dictRel_nil)
  obtain ⟨ρ₁₁, hle₁₁, s₁₁, hresult⟩ := sim_alloc s₁₀ (objRel_dict
    (dictRel_cons "artifacts" (.ref (hle₁₀ _ _ (hle₉ _ _ hartifacts)))
      (dictRel_cons "commands" (.ref (hle₁₀ _ _ hcommands))
        (dictRel_cons "constants" (.ref hresults) dictRel_nil))))
  have hle₇₁₁ : ρ₇ ≤ ρ₁₁ := hle₈.trans (hle₉.trans (hle₁₀.trans hle₁₁))
  have hle₅₁₁ : ρ₅ ≤ ρ₁₁ := hle₆.trans (hle₇.trans hle₇₁₁)
  have hle₃₁₁ : ρ₃ ≤ ρ₁₁ := hle₄.trans (hle₅.trans hle₅₁₁)
  exact ⟨ρ₁₁, hle₁.trans (hle₂.trans (hle₃.trans hle₃₁₁)), s₁₁,
    ⟨hle₃₁₁ _ _ henvelope, hle₅₁₁ _ _ hglobal, hle₇₁₁ _ _ hlocal, hresult⟩⟩

/-- The scope that references are resolved in. -/
theorem sim_buildRunContextScope {c : RunContext} (s : Sim hide ρ h h') (hc : Rooted ρ c)
    (hopen : OpenFields hide c) :
    ∃ ρ', ρ ≤ ρ' ∧ Sim hide ρ' (buildRunContextScope c h).1 (buildRunContextScope c h').1 ∧
      ρ' (buildRunContextScope c h).2 (buildRunContextScope c h').2 := by
  obtain ⟨ρ₁, hle₁, s₁, hvars⟩ := sim_dictOrNew s (sim_field s hc.globalScope hopen.constants)
  have hc₁ := hc.mono hle₁
  obtain ⟨ρ₂, hle₂, s₂, hresponse⟩ := sim_dictOrNew s₁ (sim_field s₁ hc₁.resultScope hopen.commands)
  have hc₂ := hc₁.mono hle₂
  refine ⟨_, (hle₁.trans hle₂).trans (le_extend _ _ _), s₂.alloc (.dict fun k _ => ?_),
    .inr ⟨rfl, rfl⟩⟩
  exact dictRel_cons _ (.ref hc₂.runEnvelope) (dictRel_cons _ (.ref hc₂.globalScope)
    (dictRel_cons _ (.ref hc₂.localScope) (dictRel_cons _ (.ref hc₂.resultScope)
      (dictRel_cons _ (hvars.mono hle₂) (dictRel_cons _ hresponse dictRel_nil))))) k

/-! ### Resolving on both sides -/

theorem walk_cons (h : Heap) (v : Val) (key : Key) (keys : List Key) :
    walk h v (key :: keys) = (h.item? v key).bind fun w => walk h w keys := rfl

/-- The keys of a walk are not hidden. -/
def ShownWalk (hide : ℕ → String → Prop) (h : Heap) (v : Val) : List Key → Prop
  | [] => True
  | key :: keys => Shown hide v key ∧ ∀ w, h.item? v key = some w → ShownWalk hide h w keys

/-- The keys of the parts of a reference are not hidden. -/
def ShownParts (hide : ℕ → String → Prop) (h : Heap) (v : Val) : List String → Prop
  | [] => True
  | part :: parts => ∀ keys, refTokens part = .ok keys →
      ShownWalk hide h v keys ∧ ∀ w, walk h v keys = some w → ShownParts hide h w parts

/-- The keys of a reference are not hidden. -/
structure ShownRef (hide : ℕ → String → Prop) (h : Heap) (scope : ℕ) (expression : String) :
    Prop where
  parts : ∀ parts, parts = splitPath (dropChars 2 (strip expression)) →
    ShownParts hide h (.ref scope) parts

theorem agree_walk {keys : List Key} (s : Agree hide ρ h h') (hv : ValRel ρ v v')
    (hshown : ShownWalk hide h v keys) :
    Option.Rel (ValRel ρ) (walk h v keys) (walk h' v' keys) := by
  induction keys generalizing v v' with
  | nil => exact .some hv
  | cons key keys ih =>
    rw [walk_cons, walk_cons]
    rcases optionRel_cases (s.item? hv hshown.1) with ⟨h₁, h₂⟩ | ⟨w, w', h₁, h₂, hw⟩
    · rw [h₁, h₂]
      exact .none
    · rw [h₁, h₂]
      exact ih hw (hshown.2 w h₁)

theorem agree_resolveParts {parts : List String} (s : Agree hide ρ h h') (hv : ValRel ρ v v')
    (hshown : ShownParts hide h v parts) :
    ExceptRel (Option.Rel (ValRel ρ)) (resolveParts h v parts) (resolveParts h' v' parts) := by
  induction parts generalizing v v' with
  | nil => exact .ok (.some hv)
  | cons part parts ih =>
    rw [resolveParts, resolveParts]
    cases hkeys : refTokens part with
    | error e => exact .error e
    | ok keys =>
      obtain ⟨hwalk, hrest⟩ := hshown keys hkeys
      rw [ok_bind, ok_bind]
      rcases optionRel_cases (agree_walk s hv hwalk) with ⟨h₁, h₂⟩ | ⟨w, w', h₁, h₂, hw⟩
      · rw [h₁, h₂]
        exact .ok .none
      · rw [h₁, h₂]
        exact ih hw (hrest w h₁)

/-- What a reference does in every heap: lead to the scope itself, walk, or raise. -/
theorem resolveRef_cases (expression : String) :
    (∀ h l, resolveRef h l expression = .ok (some (.ref l))) ∨
      (∀ h l, resolveRef h l expression
        = resolveParts h (.ref l) (splitPath (dropChars 2 (strip expression)))) ∨
      ∃ e, ∀ h l, resolveRef h l expression = .error e := by
  by_cases hroot : strip expression = "$"
  · exact .inl fun h l => if_pos hroot
  · by_cases hpath : startsWith (strip expression) "$." = true
    · exact .inr (.inl fun h l => (if_neg hroot).trans (if_pos hpath))
    · exact .inr (.inr
        ⟨s!"Unsupported $ref '{strip expression}'. Expected '$.<path>'.",
          fun h l => (if_neg hroot).trans (if_neg hpath)⟩)

/-- **A reference is resolved alike in heaps that agree.** -/
theorem agree_resolveRef {expression : String} (s : Agree hide ρ h h') (hlm : ρ l m)
    (hshown : ShownRef hide h l expression) :
    ExceptRel (Option.Rel (ValRel ρ)) (resolveRef h l expression) (resolveRef h' m expression) := by
  rcases resolveRef_cases expression with heq | heq | ⟨e, heq⟩
  · rw [heq, heq]
    exact .ok (.some (.ref hlm))
  · rw [heq, heq]
    have hparts := hshown.parts
    generalize splitPath (dropChars 2 (strip expression)) = parts at hparts ⊢
    exact agree_resolveParts s (.ref hlm) (hparts parts rfl)
  · rw [heq, heq]
    exact .error e

/-- Where nothing is hidden, every key is shown. -/
theorem shownWalk_of_forall (hhide : ∀ l k, ¬ hide l k) (h : Heap) (keys : List Key) (v : Val) :
    ShownWalk hide h v keys := by
  induction keys generalizing v with
  | nil => trivial
  | cons key keys ih => exact ⟨fun l k _ _ => hhide l k, fun w _ => ih w⟩

theorem shownParts_of_forall (hhide : ∀ l k, ¬ hide l k) (h : Heap) (parts : List String)
    (v : Val) : ShownParts hide h v parts := by
  induction parts generalizing v with
  | nil => trivial
  | cons part parts ih =>
    exact fun keys _ => ⟨shownWalk_of_forall hhide h keys v, fun w _ => ih w⟩

theorem onPath_of_forall {P : ℕ → Key → Prop} (hP : ∀ l key, P l key) (h : Heap)
    (tokens : List String) (v : Val) : OnPath P h v tokens := by
  induction tokens generalizing v with
  | nil => trivial
  | cons token rest ih => exact fun l key _ _ => ⟨hP l key, fun w _ => ih w⟩

end

end Context
end QualityFlow
