/-
# Loops that read a list

A list that is read item by item, each item with its index, as `enumerate` counts them; a list
whose items must differ in a key; and a dictionary that is computed from a list of its keys.
A loop that returns relates each item to what was read of it.
-/

import Mathlib.Data.List.Forall2
import QualityFlow.Py.Dict
import QualityFlow.Py.Except

namespace QualityFlow
namespace Py

variable {ε α β κ : Type}

/-! ### Items with their index -/

/-- Each item read with its index, counted from a number. -/
def enumM (read : ℕ → α → Except ε β) : ℕ → List α → Except ε (List β)
  | _, [] => .ok []
  | i, x :: xs => do
    let y ← read i x
    let ys ← enumM read (i + 1) xs
    return y :: ys

/-- What has been written item by item is read item by item. -/
theorem enumM_map {read : ℕ → α → Except ε β} {write : β → α} (i : ℕ) {ys : List β}
    (h : ∀ i, ∀ y ∈ ys, read i (write y) = .ok y) : enumM read i (ys.map write) = .ok ys := by
  induction ys generalizing i with
  | nil => rfl
  | cons y ys ih =>
    have hy := h i y List.mem_cons_self
    have hys := ih (i + 1) fun j z hz => h j z (List.mem_cons_of_mem _ hz)
    rw [List.map_cons, enumM, hy, ok_bind, hys, ok_bind, pure_eq_ok]

/-- A loop that returns has read each item. -/
theorem forall₂_of_enumM {read : ℕ → α → Except ε β} {i : ℕ} {xs : List α} {ys : List β}
    (h : enumM read i xs = .ok ys) : List.Forall₂ (fun x y => ∃ i, read i x = .ok y) xs ys := by
  induction xs generalizing i ys with
  | nil =>
    obtain rfl := Except.ok.inj h
    exact .nil
  | cons x xs ih =>
    rw [enumM] at h
    obtain ⟨y, hy, h⟩ := bind_eq_ok.1 h
    obtain ⟨ys', hys, h⟩ := bind_eq_ok.1 h
    obtain rfl := Except.ok.inj h
    exact .cons ⟨i, hy⟩ (ih hys)

/-- A loop returns where each item can be read under every index. -/
theorem exists_enumM_eq_ok {read : ℕ → α → Except ε β} (i : ℕ) {xs : List α}
    (h : ∀ x ∈ xs, ∀ i, ∃ y, read i x = .ok y) : ∃ ys, enumM read i xs = .ok ys := by
  induction xs generalizing i with
  | nil => exact ⟨[], rfl⟩
  | cons x xs ih =>
    obtain ⟨y, hy⟩ := h x List.mem_cons_self i
    obtain ⟨ys, hys⟩ := ih (i + 1) fun z hz => h z (List.mem_cons_of_mem _ hz)
    exact ⟨y :: ys, by rw [enumM, hy, ok_bind, hys, ok_bind, pure_eq_ok]⟩

/-- A loop returns where each item can be read under its own index. -/
theorem exists_enumM_of_getElem? (read : ℕ → α → Except ε β) (i : ℕ) (xs : List α)
    (h : ∀ k x, xs[k]? = some x → ∃ y, read (i + k) x = .ok y) :
    ∃ ys, enumM read i xs = .ok ys ∧ ys.length = xs.length ∧
      ∀ k x, xs[k]? = some x → ∃ y, ys[k]? = some y ∧ read (i + k) x = .ok y := by
  induction xs generalizing i with
  | nil => exact ⟨[], rfl, rfl, fun k x hx => absurd hx (by simp)⟩
  | cons x xs ih =>
    obtain ⟨y, hy⟩ := h 0 x rfl
    have hrest : ∀ k z, xs[k]? = some z → ∃ y, read (i + 1 + k) z = .ok y := by
      intro k z hz
      rw [Nat.add_assoc, Nat.add_comm 1]
      exact h (k + 1) z hz
    obtain ⟨ys, hys, hlength, hall⟩ := ih (i + 1) hrest
    rw [Nat.add_zero] at hy
    refine ⟨y :: ys, by rw [enumM, hy, ok_bind, hys, ok_bind, pure_eq_ok], ?_, ?_⟩
    · rw [List.length_cons, List.length_cons, hlength]
    · intro k z hz
      cases k with
      | zero =>
        obtain rfl := Option.some.inj hz
        exact ⟨y, rfl, hy⟩
      | succ k =>
        obtain ⟨w, hw, hread⟩ := hall k z hz
        rw [Nat.add_assoc, Nat.add_comm 1] at hread
        exact ⟨w, hw, hread⟩

theorem forall₂_of_mapM {read : α → Except ε β} {xs : List α} {ys : List β}
    (h : xs.mapM read = .ok ys) : List.Forall₂ (fun x y => read x = .ok y) xs ys := by
  induction xs generalizing ys with
  | nil =>
    obtain rfl := Except.ok.inj h
    exact .nil
  | cons x xs ih =>
    rw [List.mapM_cons] at h
    obtain ⟨y, hy, h⟩ := bind_eq_ok.1 h
    obtain ⟨ys', hys, h⟩ := bind_eq_ok.1 h
    obtain rfl := Except.ok.inj h
    exact .cons hy (ih hys)

/-- A loop returns where each item can be read. -/
theorem exists_mapM_eq_ok {read : α → Except ε β} {xs : List α} :
    (∃ ys, xs.mapM read = .ok ys) ↔ ∀ x ∈ xs, ∃ y, read x = .ok y := by
  constructor
  · rintro ⟨ys, h⟩
    exact item_of_mapM h
  · intro h
    induction xs with
    | nil => exact ⟨[], rfl⟩
    | cons x xs ih =>
      obtain ⟨y, hy⟩ := h x List.mem_cons_self
      obtain ⟨ys, hys⟩ := ih fun z hz => h z (List.mem_cons_of_mem _ hz)
      exact ⟨y :: ys, by rw [List.mapM_cons, hy, ok_bind, hys, ok_bind, pure_eq_ok]⟩

/-! ### Lists that are related item by item -/

theorem forall₂_mem_left {R : α → β → Prop} {xs : List α} {ys : List β}
    (h : List.Forall₂ R xs ys) : List.Forall₂ (fun x y => x ∈ xs ∧ R x y) xs ys := by
  induction h with
  | nil => exact .nil
  | @cons x _ xs _ hxy _ ih =>
    have hrest := ih.imp fun z _ hz => And.imp_left (List.mem_cons_of_mem x) hz
    exact .cons ⟨List.mem_cons_self, hxy⟩ hrest

theorem forall₂_comp {γ : Type} {R : α → β → Prop} {S : β → γ → Prop} {xs : List α} {ys : List β}
    {zs : List γ} (hR : List.Forall₂ R xs ys) (hS : List.Forall₂ S ys zs) :
    List.Forall₂ (fun x z => ∃ y, R x y ∧ S y z) xs zs := by
  induction hR generalizing zs with
  | nil =>
    cases hS
    exact .nil
  | cons hxy _ ih =>
    cases hS with
    | cons hyz hrest => exact .cons ⟨_, hxy, hyz⟩ (ih hrest)

/-- A property of all items goes along a relation that keeps it. -/
theorem forall_mem_congr {R : α → β → Prop} {P : α → Prop} {Q : β → Prop} {xs : List α}
    {ys : List β} (h : List.Forall₂ R xs ys) (hR : ∀ x y, R x y → (P x ↔ Q y)) :
    (∀ x ∈ xs, P x) ↔ ∀ y ∈ ys, Q y := by
  induction h with
  | nil => simp
  | cons hxy _ ih => rw [List.forall_mem_cons, List.forall_mem_cons, hR _ _ hxy, ih]

/-- A property of one of the items goes along a relation that keeps it. -/
theorem exists_mem_congr {R : α → β → Prop} {P : α → Prop} {Q : β → Prop} {xs : List α}
    {ys : List β} (h : List.Forall₂ R xs ys) (hR : ∀ x y, R x y → (P x ↔ Q y)) :
    (∃ x ∈ xs, P x) ↔ ∃ y ∈ ys, Q y := by
  induction h with
  | nil => simp
  | cons hxy _ ih => rw [List.exists_mem_cons_iff, List.exists_mem_cons_iff, hR _ _ hxy, ih]

/-! ### Items that differ in a key -/

/-- A list whose items differ in a key. -/
@[ext] structure DistinctBy (key : β → κ) where
  items : List β
  nodup : (items.map key).Nodup

theorem nodup_concat {key : β → κ} {ys : List β} {y : β} (h : (ys.map key).Nodup)
    (hy : key y ∉ ys.map key) : ((ys ++ [y]).map key).Nodup := by
  rw [List.map_append, List.map_singleton, List.nodup_append]
  refine ⟨h, by simp, ?_⟩
  intro a ha b hb hab
  rw [List.mem_singleton.1 hb] at hab
  exact hy (hab ▸ ha)

section

variable [DecidableEq κ]

/-- Each item read with its index, and an error where its key has been there. -/
def distinctM (key : β → κ) (duplicate : β → ε) (read : ℕ → α → Except ε β) :
    DistinctBy key → ℕ → List α → Except ε (DistinctBy key)
  | seen, _, [] => .ok seen
  | seen, i, x :: xs => do
    let y ← read i x
    if h : key y ∈ seen.items.map key then throw (duplicate y)
    else distinctM key duplicate read ⟨seen.items ++ [y], nodup_concat seen.nodup h⟩ (i + 1) xs

/-- Distinct items that have been written are read. -/
theorem distinctM_map {key : β → κ} {duplicate : β → ε} {read : ℕ → α → Except ε β}
    {write : β → α} {seen : DistinctBy key} (i : ℕ) {ys : List β}
    (h : ∀ i, ∀ y ∈ ys, read i (write y) = .ok y) (hys : ((seen.items ++ ys).map key).Nodup) :
    distinctM key duplicate read seen i (ys.map write) = .ok ⟨seen.items ++ ys, hys⟩ := by
  induction ys generalizing i seen with
  | nil =>
    rw [List.map_nil, distinctM]
    exact congrArg Except.ok (DistinctBy.ext (List.append_nil _).symm)
  | cons y ys ih =>
    have hy := h i y List.mem_cons_self
    have hnew : key y ∉ seen.items.map key := by
      intro hmem
      rw [List.map_append, List.map_cons, List.nodup_append] at hys
      exact hys.2.2 _ hmem _ List.mem_cons_self rfl
    have hshift : seen.items ++ [y] ++ ys = seen.items ++ y :: ys := by
      rw [List.append_assoc, List.singleton_append]
    have hnodup : ((seen.items ++ [y] ++ ys).map key).Nodup := by rwa [hshift]
    rw [List.map_cons, distinctM, hy, ok_bind, dif_neg hnew,
      ih (i + 1) (fun j z hz => h j z (List.mem_cons_of_mem _ hz)) hnodup]
    exact congrArg Except.ok (DistinctBy.ext hshift)

/-- An item is found by its key. -/
theorem DistinctBy.find?_eq_some {key : β → κ} (ys : DistinctBy key) {y : β} (hy : y ∈ ys.items) :
    ys.items.find? (fun z => key z = key y) = some y := by
  obtain ⟨ys, hnodup⟩ := ys
  dsimp only at hy ⊢
  induction ys with
  | nil => simp at hy
  | cons z ys ih =>
    rw [List.map_cons, List.nodup_cons] at hnodup
    rcases List.mem_cons.1 hy with rfl | hlater
    · rw [List.find?_cons_of_pos (by simp)]
    · have hne : key z ≠ key y := by
        intro heq
        exact hnodup.1 (heq ▸ List.mem_map_of_mem hlater)
      rw [List.find?_cons_of_neg (by simpa using hne)]
      exact ih hnodup.2 hlater

/-! ### Dictionaries computed from their keys -/

/-- What a loop has computed for a key is found under it. -/
theorem get?_of_mapM {key : α → κ} {f : α → Except ε β} {xs : List α} {d : Dict κ β}
    (h : xs.mapM (fun x => (key x, ·) <$> f x) = .ok d) (hkeys : (xs.map key).Nodup) {x : α}
    (hx : x ∈ xs) : ∃ y, f x = .ok y ∧ d.get? (key x) = some y := by
  have hrel := forall₂_of_mapM h
  clear h
  induction hrel with
  | nil => simp at hx
  | @cons x' kv xs d hfirst _ ih =>
    obtain ⟨y', hy', rfl⟩ := map_eq_ok.1 hfirst
    rw [List.map_cons, List.nodup_cons] at hkeys
    rcases List.mem_cons.1 hx with rfl | hlater
    · exact ⟨y', hy', by rw [Dict.get?_cons, if_pos rfl]⟩
    · have hne : key x' ≠ key x := by
        intro heq
        exact hkeys.1 (heq ▸ List.mem_map_of_mem hlater)
      rw [Dict.get?_cons, if_neg hne]
      exact ih hkeys.2 hlater

end

end Py
end QualityFlow
