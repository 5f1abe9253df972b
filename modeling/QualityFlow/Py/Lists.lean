/-
# Lists with an item changed, and the last items of a list

A list that is changed at an index, as a table of threads or queues is, and the list of
the last items, as `deque(maxlen=n)` keeps it.
-/

import Mathlib.Data.List.DropRight
import Mathlib.Data.List.Forall2

namespace QualityFlow
namespace Py

variable {α : Type*}

/-- An item after one of the items has been changed. -/
theorem getElem?_modify_eq_some {xs : List α} {changed i : ℕ} {f : α → α} {x : α}
    (h : (xs.modify changed f)[i]? = some x) :
    ∃ old, xs[i]? = some old ∧ x = if changed = i then f old else old := by
  rw [List.getElem?_modify] at h
  obtain ⟨old, hold, rfl⟩ := Option.map_eq_some_iff.1 h
  exact ⟨old, hold, rfl⟩

/-- An item of a list with one more item last. -/
theorem getElem?_concat_eq_some {xs : List α} {i : ℕ} {x y : α} (h : (xs ++ [y])[i]? = some x) :
    xs[i]? = some x ∨ i = xs.length ∧ x = y := by
  rw [List.getElem?_append] at h
  split at h
  · exact .inl h
  · rw [List.getElem?_singleton] at h
    split at h
    · rename_i hlt hzero
      exact .inr ⟨by omega, (Option.some.inj h).symm⟩
    · exact absurd h (by simp)

theorem getElem?_concat_length (xs : List α) (x : α) : (xs ++ [x])[xs.length]? = some x := by
  rw [List.getElem?_append_right le_rfl, Nat.sub_self]
  rfl

theorem modify_concat_length (xs : List α) (x : α) (f : α → α) :
    (xs ++ [x]).modify xs.length f = xs ++ [f x] := by
  induction xs with
  | nil => rfl
  | cons y xs ih => exact congrArg (y :: ·) ih

/-- The last item of a list that has a property. -/
theorem exists_last {p : α → Prop} {xs : List α} (h : ∃ x ∈ xs, p x) :
    ∃ before x after, xs = before ++ x :: after ∧ p x ∧ ∀ y ∈ after, ¬ p y := by
  induction xs with
  | nil => simp at h
  | cons z xs ih =>
    by_cases hlater : ∃ x ∈ xs, p x
    · obtain ⟨before, x, after, rfl, hx, hafter⟩ := ih hlater
      exact ⟨z :: before, x, after, rfl, hx, hafter⟩
    · obtain ⟨x, hmem, hx⟩ := h
      rcases List.mem_cons.1 hmem with rfl | hmem
      · exact ⟨[], x, xs, rfl, hx, fun y hy hpy => hlater ⟨y, hy, hpy⟩⟩
      · exact absurd ⟨x, hmem, hx⟩ hlater

theorem rtake_of_length_le {n : ℕ} {xs : List α} (h : xs.length ≤ n) : xs.rtake n = xs := by
  rw [List.rtake, Nat.sub_eq_zero_of_le h, List.drop_zero]

/-- Keeping the last items of a list that has been cut to its last items. -/
theorem rtake_append_singleton (n : ℕ) (xs : List α) (x : α) :
    (xs.rtake n ++ [x]).rtake n = (xs ++ [x]).rtake n := by
  unfold List.rtake
  rw [← List.drop_append_of_le_length (Nat.sub_le _ _), List.drop_drop]
  congr 1
  simp only [List.length_drop, List.length_append, List.length_singleton]
  omega

/-- What stands in the second of two related lists is related to something in the first. -/
theorem exists_left_of_forall₂ {α β : Type*} {R : α → β → Prop} {xs : List α} {ys : List β}
    (h : List.Forall₂ R xs ys) {y : β} (hy : y ∈ ys) : ∃ x ∈ xs, R x y := by
  induction h with
  | nil => simp at hy
  | cons hxy hrest ih =>
    rcases List.mem_cons.1 hy with rfl | hy
    · exact ⟨_, List.mem_cons_self, hxy⟩
    · obtain ⟨x, hx, hR⟩ := ih hy
      exact ⟨x, List.mem_cons_of_mem _ hx, hR⟩

theorem exists_right_of_forall₂ {α β : Type*} {R : α → β → Prop} {xs : List α} {ys : List β}
    (h : List.Forall₂ R xs ys) {x : α} (hx : x ∈ xs) : ∃ y ∈ ys, R x y :=
  exists_left_of_forall₂ h.flip hx

end Py
end QualityFlow
