/-
# Where a write goes

`_assign_nested_value` of `app/elaborations/services/suite_runs/run_context.py`, where it
returns.

An assignment walks along what is there, to the last object on its way, and makes the
rest (`lastThere`).  Whatever its value, it changes one slot of that object, and behind
the slot the value stands under the keys that were left.  It keeps every other slot,
and a walk that finds the value in it has come to that slot (`Written`).
-/

import QualityFlow.Context.Walks

namespace QualityFlow
namespace Context

open Py Suite

/-! ### Where a write goes -/

/-- The object where a walk comes to its last key, or to an item that is missing or `None`, and
the keys that are left there. -/
def lastThere (h : Heap) (v : Val) : List Key → Val × List Key
  | key :: next :: rest =>
    match h.item? v key with
    | none | some .null => (v, key :: next :: rest)
    | some w => lastThere h w (next :: rest)
  | keys => (v, keys)

/-- The slot that a write changes: the first of the keys in the object, or any if none is left. -/
def Changed (l : ℕ) (keys : List Key) (a : ℕ) (key : Key) : Prop :=
  a = l ∧ ∀ k, keys.head? = some k → k = key

/-- A walk comes to an object with some keys left, past the slot under the first of them. -/
def ReadsTo (h : Heap) (l : ℕ) (keys : List Key) (v : Val) (path : List Key) : Prop :=
  ∃ ks, path = ks ++ keys ∧ Leads h (Changed l keys) v ks (.ref l)

/-- Heaps after writes that put something behind some keys of an object: every slot but one is
kept, what was put there is read there, and a walk from one of the objects of a predicate
that finds it has come to that slot. -/
structure Written {ι : Type} (P : ℕ → Prop) (h : Heap) (l : ℕ) (keys : List Key) (after : ι → Heap)
    (found : ι → Val) (Finds : Val → List Key → Prop) : Prop where
  fits : ∀ key, keys.head? = some key → Fits h (.ref l) key
  keeps : ∀ i, Keeps (Changed l keys) h (after i)
  reads : ∀ i, walk (after i) (.ref l) keys = some (found i)
  only : ∀ v path, Within P h v → Finds v path → ReadsTo h l keys v path

/-- A walk finds what was written, in two writes of different values. -/
def FindsBoth (after : Val → Heap) (v : Val) (path : List Key) : Prop :=
  walk (after (.int 0)) v path = some (.int 0) ∧ walk (after (.int 1)) v path = some (.int 1)

/-- A heap with a new object, in a slot of an object that was there. -/
structure Branch (h h' : Heap) (l : ℕ) (key : Key) (m : ℕ) : Prop where
  fits : Fits h (.ref l) key
  fresh : h.length ≤ m
  ext : Extends h h'
  keeps : Keeps (fun a k => a = l ∧ k = key) h h'
  slot : h'.item? (.ref l) key = some (.ref m)
  unique : ∀ a k, h'.item? (.ref a) k = some (.ref m) →
    (a = l ∧ k = key) ∨ h.item? (.ref a) k = some (.ref m)

section

variable {h h' h₁ : Heap} {l m : ℕ} {key : Key} {keys : List Key} {v w value : Val}
  {tokens : List String}

theorem changed_cons {a : ℕ} {k : Key} : Changed l (key :: keys) a k ↔ a = l ∧ k = key := by
  simp [Changed, eq_comm]

/-! ### Setting one item -/

theorem item?_setItem_of_ne {a : ℕ} {k : Key} (hne : ¬ (a = l ∧ k = key)) (w : Val) :
    (h.setItem l key w).item? (.ref a) k = h.item? (.ref a) k := by
  by_cases ha : l = a
  · subst ha
    have hk : key ≠ k := fun hk => hne ⟨rfl, hk.symm⟩
    rw [Heap.item?, Heap.item?, Heap.obj?, Heap.obj?, Heap.setItem, List.getElem?_modify]
    cases ho : h[l]? with
    | none => rfl
    | some o =>
      simp only [if_true, Option.bind_some]
      cases o with
      | dict d =>
        cases key with
        | index i => rfl
        | name n =>
          cases k with
          | index i => rfl
          | name n' => exact Dict.get?_set_of_ne (fun hn => hk (congrArg Key.name hn)) w
      | list xs =>
        cases key with
        | name n => rfl
        | index i =>
          cases k with
          | name n' => rfl
          | index j => exact List.getElem?_set_ne (fun hi => hk (congrArg Key.index hi))
  · rw [Heap.item?, Heap.item?, Heap.obj?, Heap.obj?, Heap.setItem, Heap.modify_of_ne h ha]

/-- An item that was set where there is room is there. -/
theorem item?_setItem (hfits : Fits h (.ref l) key)
    (hin : ∀ i, key = .index i → (h.item? (.ref l) key).isSome) (w : Val) :
    (h.setItem l key w).item? (.ref l) key = some w := by
  cases key with
  | name k =>
    obtain ⟨d, hd⟩ := hfits
    have hd : h[l]? = some (.dict d) := hd
    rw [Heap.item?, Heap.obj?, Heap.setItem, Heap.modify_self hd, Option.bind_some, Obj.set,
      Obj.get?, Dict.get?_set, if_pos rfl]
  | index i =>
    obtain ⟨xs, hxs⟩ := hfits
    have hlt : i < xs.length := by simpa [Heap.item?, hxs, Obj.get?] using hin i rfl
    have hxs : h[l]? = some (.list xs) := hxs
    rw [Heap.item?, Heap.obj?, Heap.setItem, Heap.modify_self hxs, Option.bind_some, Obj.set,
      Obj.get?, List.getElem?_set_self hlt]

/-- The value stands in the slot, and the slot is read in no other way. -/
theorem written_setItem (P : ℕ → Prop) (hfits : Fits h (.ref l) key)
    (hin : ∀ i, key = .index i → (h.item? (.ref l) key).isSome) :
    Written P h l [key] (fun value => h.setItem l key value) id
      (FindsBoth fun value => h.setItem l key value) := by
  refine ⟨fun k hk => ?_, fun value a k w hne hitem => ?_, fun value => ?_, fun v path hv hfinds => ?_⟩
  · obtain rfl := Option.some.inj hk
    exact hfits
  · rw [changed_cons] at hne
    rw [item?_setItem_of_ne hne, hitem]
  · rw [walk_cons, item?_setItem hfits hin, Option.bind_some]
    rfl
  · obtain ⟨h₀, h₁⟩ := hfinds
    have hkeeps (value : Val) : Keeps (Changed l [key]) h (h.setItem l key value) := by
      intro a k w hne hitem
      rw [changed_cons] at hne
      rw [item?_setItem_of_ne hne, hitem]
    rcases leads_or_meets h (Changed l [key]) v path with
      ⟨x, hx⟩ | ⟨ks, a, k, ks', rfl, hks, hmeets⟩ | ⟨ks, x, k, ks', rfl, hks, hclear, hnone⟩
    · -- a walk past the slot finds one value, whatever was written
      have hx₀ := Option.some.inj ((hx.walk_of_keeps (hkeeps (.int 0))).symm.trans h₀)
      have hx₁ := Option.some.inj ((hx.walk_of_keeps (hkeeps (.int 1))).symm.trans h₁)
      simp [hx₀] at hx₁
    · rw [changed_cons] at hmeets
      obtain ⟨rfl, rfl⟩ := hmeets
      rw [walk_append, hks.walk_of_keeps (hkeeps _), Option.bind_some, walk_cons,
        item?_setItem hfits hin, Option.bind_some] at h₀
      cases ks' with
      | nil => exact ⟨ks, rfl, hks⟩
      | cons k' ks' => simp [walk_cons, Heap.item?, Heap.obj?] at h₀
    · have hnone' : (h.setItem l key (.int 0)).item? x k = none := by
        cases x with
        | ref a =>
          have hne := hclear a rfl
          rw [changed_cons] at hne
          rw [item?_setItem_of_ne hne, hnone]
        | _ => rfl
      rw [walk_append, hks.walk_of_keeps (hkeeps _), Option.bind_some, walk_cons, hnone'] at h₀
      simp at h₀

/-! ### Objects that a write makes -/

theorem item?_list {xs : List Val} (hl : h[l]? = some (.list xs)) (i : ℕ) :
    h.item? (.ref l) (.index i) = xs[i]? := by
  rw [Heap.item?, Heap.obj?, hl, Option.bind_some, Obj.get?]

/-- A list that was lengthened, and the objects that were put into it. -/
theorem ensureListSize_eq {n : ℕ} {xs : List Val} (hl : h[l]? = some (.list xs)) :
    (ensureListSize l n h)[l]?
        = some (.list (xs ++ (List.range n).map fun j => .ref (h.length + j))) ∧
      ∀ m, h.length ≤ m → m < h.length + n → (ensureListSize l n h)[m]? = some (.dict []) := by
  induction n generalizing h xs with
  | zero =>
    refine ⟨by simpa [ensureListSize] using hl, fun m hm hlt => ?_⟩
    omega
  | succ n ih =>
    have hlt : l < h.length := (List.getElem?_eq_some_iff.1 hl).1
    have hlength : ((h.alloc (.dict [])).1.append l (.ref h.length)).length = h.length + 1 := by
      simp [Heap.append, Heap.alloc]
    have hlist : ((h.alloc (.dict [])).1.append l (.ref h.length))[l]?
        = some (.list (xs ++ [.ref h.length])) :=
      Heap.modify_self (Heap.getElem?_of_isPrefix (List.prefix_append _ _) hl) _
    have hnew : ((h.alloc (.dict [])).1.append l (.ref h.length))[h.length]? = some (.dict []) := by
      rw [Heap.append, Heap.modify_of_ne _ hlt.ne, Heap.alloc]
      simp
    obtain ⟨hlist', hnew'⟩ := ih hlist
    rw [hlength] at hlist' hnew'
    refine ⟨?_, fun m hm hlt' => ?_⟩
    · rw [ensureListSize]
      refine hlist'.trans ?_
      rw [List.range_succ_eq_map, List.map_cons, List.map_map, List.append_assoc]
      simp [Function.comp_def, Nat.add_comm, Nat.add_left_comm]
    · rw [ensureListSize]
      rcases Nat.eq_or_lt_of_le hm with rfl | hm
      · rw [← hnew]
        exact ensureListSize_of_ne hlt.ne (by simp [Heap.append])
      · exact hnew' m hm (by omega)

theorem keeps_ensureListSize {n : ℕ} {xs : List Val} (hl : h[l]? = some (.list xs)) :
    Keeps (fun _ _ => False) h (ensureListSize l n h) := by
  intro a k w _ hitem
  obtain ⟨o, ho, hget⟩ := Option.bind_eq_some_iff.1 hitem
  have ho : h[a]? = some o := ho
  have hlt : a < h.length := (List.getElem?_eq_some_iff.1 ho).1
  by_cases ha : l = a
  · subst ha
    obtain rfl := Option.some.inj (hl.symm.trans ho)
    cases k with
    | name k => simp [Obj.get?] at hget
    | index i =>
      rw [Obj.get?] at hget
      rw [item?_list (ensureListSize_eq hl).1,
        List.getElem?_append_left (List.getElem?_eq_some_iff.1 hget).1, hget]
  · refine Option.bind_eq_some_iff.2 ⟨o, ?_, hget⟩
    rw [Heap.obj?, ensureListSize_of_ne ha hlt, ho]

/-- The items of a list that was lengthened. -/
theorem item?_ensureListSize {n : ℕ} {xs : List Val} (hl : h[l]? = some (.list xs)) {a : ℕ}
    {k : Key} (hitem : (ensureListSize l n h).item? (.ref a) k = some w) :
    h.item? (.ref a) k = some w ∨
      ∃ j, j < n ∧ a = l ∧ k = .index (xs.length + j) ∧ w = .ref (h.length + j) := by
  obtain ⟨hlist, hnew⟩ := ensureListSize_eq (n := n) hl
  by_cases ha : l = a
  · subst ha
    cases k with
    | name k => simp [Heap.item?, Heap.obj?, hlist, Obj.get?] at hitem
    | index i =>
      rw [item?_list hlist, List.getElem?_append] at hitem
      rw [item?_list hl]
      split_ifs at hitem with hi
      · exact .inl hitem
      · rw [List.getElem?_map, Option.map_eq_some_iff] at hitem
        obtain ⟨j, hj, rfl⟩ := hitem
        obtain ⟨hlt, hj⟩ := List.getElem?_eq_some_iff.1 hj
        rw [List.length_range] at hlt
        rw [List.getElem_range] at hj
        refine .inr ⟨j, by omega, rfl, ?_, rfl⟩
        rw [← hj, Nat.add_sub_cancel' (not_lt.1 hi)]
  · by_cases hlt : a < h.length
    · rw [Heap.item?, Heap.obj?, ensureListSize_of_ne ha hlt] at hitem
      exact .inl hitem
    · by_cases hlt' : a < h.length + n
      · simp [Heap.item?, Heap.obj?, hnew a (not_lt.1 hlt) hlt'] at hitem
        cases k <;> simp [Obj.get?] at hitem
      · rw [Heap.item?, Heap.obj?, List.getElem?_eq_none] at hitem
        · simp at hitem
        · rw [length_ensureListSize]
          omega

theorem extends_ensureListSize {n : ℕ} {xs : List Val} (hl : h[l]? = some (.list xs)) :
    Extends h (ensureListSize l n h) := by
  have hlt : l < h.length := (List.getElem?_eq_some_iff.1 hl).1
  refine ⟨by rw [length_ensureListSize]; omega, fun a k w ha hitem => ?_, fun a k ha => ?_⟩
  · rcases item?_ensureListSize hl hitem with hold | ⟨j, hj, -, -, rfl⟩
    · exact .inl hold
    · exact .inr ⟨_, rfl, by omega, by rw [length_ensureListSize]; omega⟩
  · cases hitem : (ensureListSize l n h).item? (.ref a) k with
    | none => rfl
    | some w =>
      rcases item?_ensureListSize hl hitem with hold | ⟨j, hj, rfl, -, -⟩
      · obtain ⟨b, hb, hlt'⟩ := ref_of_item? hold
        obtain rfl := Val.ref.inj hb
        omega
      · omega

/-- The last item of a list that was lengthened. -/
theorem branch_ensureListSize {i : ℕ} {xs : List Val} (hl : h[l]? = some (.list xs))
    (hi : xs.length ≤ i) :
    Branch h (ensureListSize l (i + 1 - xs.length) h) l (.index i)
      (h.length + (i - xs.length)) := by
  refine ⟨⟨xs, hl⟩, by omega, extends_ensureListSize hl,
    fun a k w _ => keeps_ensureListSize hl a k w id, ?_, fun a k hitem => ?_⟩
  · rw [item?_list (ensureListSize_eq hl).1, List.getElem?_append_right hi, List.getElem?_map,
      List.getElem?_range (by omega), Option.map_some]
  · rcases item?_ensureListSize hl hitem with hold | ⟨j, hj, rfl, rfl, hw⟩
    · exact .inr hold
    · refine .inl ⟨rfl, ?_⟩
      have hj' := Val.ref.inj hw
      rw [Key.index.injEq]
      omega

theorem item?_alloc {o : Obj} {a : ℕ} {k : Key} (hempty : ∀ key, o.get? key = none)
    (hitem : (h.alloc o).1.item? (.ref a) k = some w) : h.item? (.ref a) k = some w := by
  rw [Heap.item?, Heap.obj?, Heap.alloc, List.getElem?_append] at hitem
  split_ifs at hitem with ha
  · exact hitem
  · cases hz : a - h.length with
    | zero => simp [hz, hempty] at hitem
    | succ n => simp [hz] at hitem

/-- A new object in a slot. -/
theorem branch_alloc_setItem {o : Obj} (hempty : ∀ key, o.get? key = none)
    (hfits : Fits h (.ref l) key)
    (hin : ∀ i, key = .index i → (h.item? (.ref l) key).isSome) :
    Branch h ((h.alloc o).1.setItem l key (.ref h.length)) l key h.length := by
  have hslot := item?_alloc_setItem (o := o) hfits hin (.ref h.length)
  have hlength : ((h.alloc o).1.setItem l key (.ref h.length)).length = h.length + 1 := by
    simp [Heap.setItem, Heap.alloc]
  have hold {a : ℕ} {k : Key} {w : Val} (hne : ¬ (a = l ∧ k = key))
      (hitem : ((h.alloc o).1.setItem l key (.ref h.length)).item? (.ref a) k = some w) :
      h.item? (.ref a) k = some w := by
    rw [item?_setItem_of_ne hne] at hitem
    exact item?_alloc hempty hitem
  have hl : l < h.length := by
    obtain ⟨h₂, a, hopen, ha⟩ := openSlot_of_fits hfits
    obtain rfl := Val.ref.inj ha
    obtain ⟨-, ⟨-, d, k, hobj, -⟩ | ⟨xs, i, hobj, -, -⟩⟩ := openSlot_eq_ok hopen
    · exact (List.getElem?_eq_some_iff.1 hobj).1
    · exact (List.getElem?_eq_some_iff.1 hobj).1
  refine ⟨hfits, le_rfl, ⟨by omega, fun a k w ha hitem => ?_, fun a k ha => ?_⟩,
    fun a k w hne hitem => ?_, hslot, fun a k hitem => ?_⟩
  · by_cases hne : a = l ∧ k = key
    · obtain ⟨rfl, rfl⟩ := hne
      obtain rfl := Option.some.inj (hslot.symm.trans hitem)
      exact .inr ⟨_, rfl, le_rfl, by omega⟩
    · exact .inl (hold hne hitem)
  · cases hitem : ((h.alloc o).1.setItem l key (.ref h.length)).item? (.ref a) k with
    | none => rfl
    | some w =>
      have hne : ¬ (a = l ∧ k = key) := fun heq => by omega
      obtain ⟨b, hb, hlt⟩ := ref_of_item? (hold hne hitem)
      obtain rfl := Val.ref.inj hb
      omega
  · rw [item?_setItem_of_ne hne]
    exact keeps_of_isPrefix (fun _ _ => False) (List.prefix_append _ _) a k w id hitem
  · by_cases hne : a = l ∧ k = key
    · exact .inl hne
    · exact .inr (hold hne hitem)

section

variable {ι : Type} {P : ℕ → Prop} {after : ι → Heap} {found : ι → Val}
  {Finds : Val → List Key → Prop}

/-- What a write is that goes on in objects with more items. -/
theorem Written.of_extends (hw : Written (fun a => P a ∨ h.length ≤ a) h₁ l keys after found Finds)
    (hext : Extends h h₁) (hkeeps : Keeps (fun _ _ => False) h h₁) (hin : Inside P h)
    (hl : l < h.length) (hfits : ∀ key, keys.head? = some key → Fits h (.ref l) key) :
    Written P h l keys after found Finds := by
  refine ⟨hfits, fun i a k w hne hitem => ?_, hw.reads, fun v path hv hfinds => ?_⟩
  · exact hw.keeps i a k w hne (hkeeps a k w id hitem)
  · obtain ⟨ks, rfl, hks⟩ := hw.only v path (hv.of_extends hext) hfinds
    exact ⟨ks, rfl, (hks.of_extends hext hin hv hl).anti fun _ _ => .inl⟩

/-- **A write that goes on in a new object.** -/
theorem Written.of_branch (hw : Written (fun a => P a ∨ h.length ≤ a) h₁ m keys after found Finds)
    (hb : Branch h h₁ l key m) (hin : Inside P h) :
    Written P h l (key :: keys) after found Finds := by
  have hslot : ∀ i, (after i).item? (.ref l) key = some (.ref m) := by
    intro i
    refine hw.keeps i l key _ (fun hchanged => ?_) hb.slot
    have hnone := hb.ext.new m key hb.fresh
    rw [← hchanged.1, hb.slot] at hnone
    exact absurd hnone (by simp)
  refine ⟨fun k hk => ?_, fun i a k w hne hitem => ?_, fun i => ?_, fun v path hv hfinds => ?_⟩
  · obtain rfl := Option.some.inj hk
    exact hb.fits
  · rw [changed_cons] at hne
    have hitem₁ := hb.keeps a k w hne hitem
    refine hw.keeps i a k w (fun hchanged => ?_) hitem₁
    have hnone := hb.ext.new m k hb.fresh
    rw [← hchanged.1, hitem₁] at hnone
    exact absurd hnone (by simp)
  · rw [walk_cons, hslot, Option.bind_some, hw.reads]
  · obtain ⟨ks, rfl, hks⟩ := hw.only v path (hv.of_extends hb.ext) hfinds
    obtain ⟨ks₀, a, k, rfl, hPa, ha, hitem, hleads⟩ :=
      hks.last_of_extends hb.ext hin hv hb.fresh
    obtain ⟨rfl, rfl⟩ : a = l ∧ k = key := by
      rcases hb.unique a k hitem with hslot | hold
      · exact hslot
      · have hlt := (hin a k m hPa hold).2
        have hfresh := hb.fresh
        omega
    refine ⟨ks₀, by simp, hleads.anti fun b k' hchanged => ?_⟩
    rw [changed_cons] at hchanged
    obtain ⟨rfl, rfl⟩ := hchanged
    exact .inr ⟨m, hb.fresh, hitem⟩

end

/-! ### Where an assignment goes -/

theorem lastThere_of_null {next : Key} {rest : List Key}
    (hnull : (h.item? v key).getD .null = .null) :
    lastThere h v (key :: next :: rest) = (v, key :: next :: rest) := by
  rw [lastThere]
  cases hitem : h.item? v key with
  | none => rfl
  | some w =>
    rw [hitem, Option.getD_some] at hnull
    rw [hnull]

theorem lastThere_of_item {next : Key} {rest : List Key} (hitem : h.item? v key = some w)
    (hne : w ≠ .null) : lastThere h v (key :: next :: rest) = lastThere h w (next :: rest) := by
  rw [lastThere, hitem]
  cases w with
  | null => exact absurd rfl hne
  | _ => rfl

/-- A walk ends in an object that is empty. -/
theorem lastThere_of_empty (hempty : ∀ key, h.item? v key = none) (keys : List Key) :
    lastThere h v keys = (v, keys) := by
  match keys with
  | [] => rfl
  | [key] => rfl
  | key :: next :: rest => exact lastThere_of_null (by rw [hempty, Option.getD_none])

/-- What an assignment that returns does at its first segment, whatever its value. -/
theorem assignNestedValue_returns {token : String} {rest : List String}
    (hok : (assignNestedValue value h v (token :: rest)).2 = .ok ()) :
    ∃ key h₁ l, toKey token = .ok key ∧ openSlot h v key = .ok (h₁, l) ∧
      ((rest = [] ∧ ∀ value, assignNestedValue value h v (token :: rest)
          = (h₁.setItem l key value, .ok ())) ∨
        (∃ o, rest ≠ [] ∧ (∀ key, o.get? key = none) ∧
          (h₁.item? (.ref l) key).getD .null = .null ∧
          ∀ value, assignNestedValue value h v (token :: rest) = assignNestedValue value
            ((h₁.alloc o).1.setItem l key (.ref h₁.length)) (.ref h₁.length) rest) ∨
        ∃ w, rest ≠ [] ∧ h₁.item? (.ref l) key = some w ∧ w ≠ .null ∧
          ∀ value, assignNestedValue value h v (token :: rest)
            = assignNestedValue value h₁ w rest) := by
  rw [assignNestedValue] at hok
  cases hkey : toKey token with
  | error e => simp [hkey] at hok
  | ok key =>
    simp only [hkey] at hok
    cases hopen : openSlot h v key with
    | error e => simp [hopen] at hok
    | ok slot =>
      obtain ⟨h₁, l⟩ := slot
      refine ⟨key, h₁, l, rfl, hopen, ?_⟩
      simp only [hopen] at hok
      cases rest with
      | nil => exact .inl ⟨rfl, fun value => by simp [assignNestedValue, hkey, hopen]⟩
      | cons next rest =>
        simp only [List.head?_cons, Option.map_some] at hok
        cases hnext : toKey next with
        | error e => simp [hnext] at hok
        | ok nextKey =>
          by_cases hnull : (h₁.item? (.ref l) key).getD .null = .null
          · refine .inr (.inl ⟨newContainer nextKey, by simp, get?_newContainer nextKey, hnull,
              fun value => ?_⟩)
            rw [assignNestedValue, hkey]
            simp only [hopen, List.head?_cons, Option.map_some, hnext, if_pos hnull]
            rfl
          · cases hw : h₁.item? (.ref l) key with
            | none => simp [hw] at hnull
            | some w =>
              rw [hw, Option.getD_some] at hnull
              refine .inr (.inr ⟨w, by simp, rfl, hnull, fun value => ?_⟩)
              rw [assignNestedValue, hkey]
              simp only [hopen, List.head?_cons, Option.map_some, hnext, hw, Option.getD_some,
                if_neg hnull]

/-- What is opened for a key is there with room for it, or was lengthened for it. -/
theorem openSlot_cases (hopen : openSlot h v key = .ok (h₁, l)) :
    (h₁ = h ∧ ∀ i, key = .index i → (h.item? (.ref l) key).isSome) ∨
      h.item? (.ref l) key = none ∧ ∃ m, Branch h h₁ l key m := by
  obtain ⟨rfl, ⟨rfl, d, k, -, rfl⟩ | ⟨xs, i, hobj, rfl, rfl⟩⟩ := openSlot_eq_ok hopen
  · exact .inl ⟨rfl, by simp⟩
  · by_cases hi : i < xs.length
    · rw [Nat.sub_eq_zero_of_le hi]
      refine .inl ⟨rfl, fun j hj => ?_⟩
      rw [item?_list hobj, List.getElem?_eq_getElem hi]
      rfl
    · refine .inr ⟨?_, _, branch_ensureListSize hobj (not_lt.1 hi)⟩
      rw [item?_list hobj, List.getElem?_eq_none (not_lt.1 hi)]

/-- What is opened for a key has room for it. -/
theorem openSlot_room (hopen : openSlot h v key = .ok (h₁, l)) :
    l < h.length ∧ Extends h h₁ ∧ Keeps (fun _ _ => False) h h₁ ∧ Fits h₁ (.ref l) key ∧
      ∀ i, key = .index i → (h₁.item? (.ref l) key).isSome := by
  have hfits := fits_of_openSlot hopen
  obtain ⟨rfl, ⟨rfl, d, k, hobj, rfl⟩ | ⟨xs, i, hobj, rfl, rfl⟩⟩ := openSlot_eq_ok hopen
  · exact ⟨(List.getElem?_eq_some_iff.1 hobj).1, .refl _, fun _ _ _ _ hitem => hitem, hfits,
      by simp⟩
  · refine ⟨(List.getElem?_eq_some_iff.1 hobj).1, extends_ensureListSize hobj,
      keeps_ensureListSize hobj, ⟨_, (ensureListSize_eq hobj).1⟩, fun j _ => ?_⟩
    rw [item?_list (ensureListSize_eq hobj).1, List.getElem?_eq_getElem]
    · rfl
    · rw [List.length_append, List.length_map, List.length_range]
      omega

/-- **An assignment that returns puts its value at one slot**, in the last object that was there
on its way. -/
theorem written_assignNestedValue {P : ℕ → Prop} (hinside : Inside P h)
    (hok : (assignNestedValue value h v tokens).2 = .ok ()) :
    ∃ keys l left, tokens.mapM toKey = .ok keys ∧ keys ≠ [] ∧
      lastThere h v keys = (.ref l, left) ∧ left ≠ [] ∧
      (∀ value, (assignNestedValue value h v tokens).2 = .ok ()) ∧
      Written P h l left (fun value => (assignNestedValue value h v tokens).1) id
        (FindsBoth fun value => (assignNestedValue value h v tokens).1) := by
  induction tokens generalizing h v P with
  | nil => simp [assignNestedValue] at hok
  | cons token rest ih =>
    obtain ⟨key, h₁, l, hkey, hopen, hcases⟩ := assignNestedValue_returns hok
    obtain rfl := (openSlot_eq_ok hopen).1
    obtain ⟨hl, hext, hkeeps, hfits₁, hin₁⟩ := openSlot_room hopen
    have hfits := fits_of_openSlot hopen
    have hmap {keys : List Key} (hkeys : rest.mapM toKey = .ok keys) :
        (token :: rest).mapM toKey = .ok (key :: keys) := by
      rw [List.mapM_cons, hkey, ok_bind, hkeys, ok_bind, pure_eq_ok]
    rcases hcases with ⟨rfl, heq⟩ | ⟨o, hrest, hempty, hnull, heq⟩ | ⟨w, hrest, hitem, hne, heq⟩
    · -- the last segment: the value is put into the object that was opened
      refine ⟨[key], l, [key], hmap rfl, by simp, rfl, by simp, fun value => by rw [heq], ?_⟩
      simp only [heq]
      refine (written_setItem _ hfits₁ hin₁).of_extends hext hkeeps hinside hl fun k hk => ?_
      obtain rfl := Option.some.inj hk
      exact hfits
    · -- an object is made for the next segment
      rw [heq] at hok
      rcases openSlot_cases hopen with ⟨rfl, hin⟩ | ⟨-, m', hb⟩
      · have hb := branch_alloc_setItem hempty hfits hin
        obtain ⟨keys, m, left, hkeys, hne, hlast, -, hall, hw⟩ := ih (hinside.of_extends hb.ext) hok
        rw [lastThere_of_empty fun k => hb.ext.new _ k le_rfl] at hlast
        obtain ⟨hm, rfl⟩ := Prod.mk.inj hlast
        obtain rfl := Val.ref.inj hm
        refine ⟨key :: keys, l, key :: keys, hmap hkeys, by simp, ?_, by simp, fun value => ?_, ?_⟩
        · cases keys with
          | nil => exact absurd rfl hne
          | cons next keys => exact lastThere_of_null hnull
        · rw [heq]
          exact hall value
        · simp only [heq]
          exact hw.of_branch hb hinside
      · simp [hb.slot] at hnull
    · -- the walk goes on in an item that is there, or that was just appended
      rw [heq] at hok
      rcases openSlot_cases hopen with ⟨rfl, hin⟩ | ⟨hnone, m', hb⟩
      · obtain ⟨keys, m, left, hkeys, hkne, hlast, hleft, hall, hw⟩ := ih hinside hok
        refine ⟨key :: keys, m, left, hmap hkeys, by simp, ?_, hleft, fun value => ?_, ?_⟩
        · cases keys with
          | nil => exact absurd rfl hkne
          | cons next keys => rw [lastThere_of_item hitem hne, hlast]
        · rw [heq]
          exact hall value
        · simp only [heq]
          exact hw
      · obtain rfl := Option.some.inj (hb.slot.symm.trans hitem)
        obtain ⟨keys, m, left, hkeys, hkne, hlast, -, hall, hw⟩ :=
          ih (hinside.of_extends hb.ext) hok
        rw [lastThere_of_empty fun k => hb.ext.new _ k hb.fresh] at hlast
        obtain ⟨hm, rfl⟩ := Prod.mk.inj hlast
        obtain rfl := Val.ref.inj hm
        refine ⟨key :: keys, l, key :: keys, hmap hkeys, by simp, ?_, by simp, fun value => ?_, ?_⟩
        · cases keys with
          | nil => exact absurd rfl hkne
          | cons next keys => exact lastThere_of_null (by rw [hnone, Option.getD_none])
        · rw [heq]
          exact hall value
        · simp only [heq]
          exact hw.of_branch hb hinside

end

end Context
end QualityFlow
