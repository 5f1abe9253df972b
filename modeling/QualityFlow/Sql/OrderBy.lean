/-
# Rows in an order

`ORDER BY` sorts rows by a key and leaves rows of one key in any order; `ROW_NUMBER()` is the
place of a row among them.
-/

import Mathlib.Data.List.Nodup
import Mathlib.Data.List.Perm.Basic

namespace QualityFlow
namespace Sql

/-- `ORDER BY` a key. -/
structure OrderBy {ρ κ : Type*} [LE κ] (key : ρ → κ) where
  rows : List ρ → List ρ
  perm : ∀ xs, (rows xs).Perm xs
  sorted : ∀ xs, (rows xs).Pairwise fun x y => key x ≤ key y

namespace OrderBy

variable {ρ κ : Type*} [LE κ] {key : ρ → κ} (order : OrderBy key)

theorem length_rows (xs : List ρ) : (order.rows xs).length = xs.length := (order.perm xs).length_eq

theorem mem_rows {xs : List ρ} {x : ρ} : x ∈ order.rows xs ↔ x ∈ xs := (order.perm xs).mem_iff

/-- One row has one order. -/
theorem rows_of_length_le_one {xs : List ρ} (h : xs.length ≤ 1) : order.rows xs = xs := by
  have hperm := order.perm xs
  rcases xs with _ | ⟨x, _ | ⟨y, xs⟩⟩
  · exact List.perm_nil.1 hperm
  · exact List.perm_singleton.1 hperm
  · simp at h

end OrderBy

/-! ### Places -/

section

variable {ρ ι : Type*} [DecidableEq ι]

/-- `ROW_NUMBER() - 1` of the row of an id. -/
def rowNumber? (idOf : ρ → ι) (xs : List ρ) (i : ι) : Option ℕ := xs.findIdx? fun x => idOf x = i

theorem rowNumber?_eq_none {idOf : ρ → ι} {xs : List ρ} {i : ι} :
    rowNumber? idOf xs i = none ↔ ∀ x ∈ xs, idOf x ≠ i := by
  unfold rowNumber?
  rw [List.findIdx?_eq_none_iff]
  simp

/-- Where the ids are distinct, each row has its own place. -/
theorem rowNumber?_getElem {idOf : ρ → ι} {xs : List ρ} (h : (xs.map idOf).Nodup) {n : ℕ}
    (hn : n < xs.length) : rowNumber? idOf xs (idOf xs[n]) = some n := by
  unfold rowNumber?
  rw [List.findIdx?_eq_some_iff_getElem]
  refine ⟨hn, by simp, fun m hm => ?_⟩
  have hne : idOf xs[m] ≠ idOf xs[n] := by
    intro heq
    have hlength : (xs.map idOf).length = xs.length := List.length_map ..
    have hm' : m < (xs.map idOf).length := by omega
    have hn' : n < (xs.map idOf).length := by omega
    have hget : (xs.map idOf)[m] = (xs.map idOf)[n] := by
      simpa using heq
    have := h.getElem_inj_iff.1 hget
    omega
  simpa using hne

end

end Sql
end QualityFlow
