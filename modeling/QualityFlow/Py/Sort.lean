/-
# Sorting by a key

A query that is sorted by a column, and `list.sort` with a key.  Where no two rows
have one key there is one such order; where two rows do, either may come first.
-/

import Mathlib.Data.List.Sort

namespace QualityFlow
namespace Py

variable {α κ : Type*} [LinearOrder κ]

/-- Rows with distinct keys are determined by their keys. -/
theorem eq_of_key_eq {key : α → κ} {xs : List α} (h : xs.Pairwise fun a b => key a < key b)
    {a b : α} (ha : a ∈ xs) (hb : b ∈ xs) (hkey : key a = key b) : a = b := by
  have hnodup : (xs.map key).Nodup := by
    rw [List.Nodup, List.pairwise_map]
    exact h.imp fun hlt => hlt.ne
  exact List.inj_on_of_nodup_map hnodup ha hb hkey

/-- **Rows with distinct keys are sorted in one way.** -/
theorem eq_of_perm_of_pairwise_lt {key : α → κ} {xs ys : List α} (hperm : ys.Perm xs)
    (hxs : xs.Pairwise fun a b => key a < key b) (hys : ys.Pairwise fun a b => key a ≤ key b) :
    ys = xs := by
  have hle : xs.Pairwise fun a b => key a ≤ key b := hxs.imp le_of_lt
  refine List.Perm.eq_of_pairwise ?_ hys hle hperm
  intro a b ha hb hab hba
  exact eq_of_key_eq hxs (hperm.mem_iff.1 ha) hb (le_antisymm hab hba)

end Py
end QualityFlow
