/-
# Counters

A `collections.Counter` is the dictionary of how often each key has been counted.  Two
counters are compared key by key, which compares what was counted as multisets.
-/

import Mathlib.Data.Multiset.Count
import QualityFlow.Py.Dict

namespace QualityFlow
namespace Py

/-- A `Counter`. -/
abbrev Counter (κ : Type*) := Dict κ ℕ

namespace Counter

variable {κ : Type*} [DecidableEq κ]

/-- `c[k]`, and `c.get(k, 0)`. -/
def get (c : Counter κ) (k : κ) : ℕ := (Dict.get? c k).getD 0

/-- `c[k] += 1`. -/
def add (c : Counter κ) (k : κ) : Counter κ := Dict.set c k (c.get k + 1)

/-- What a loop over some keys has counted. -/
def ofList (ks : List κ) : Counter κ := ks.foldl add []

/-- `c == c'`. -/
def eq (c c' : Counter κ) : Bool :=
  (c.all fun kv => decide (c.get kv.1 = c'.get kv.1)) &&
    c'.all fun kv => decide (c.get kv.1 = c'.get kv.1)

theorem get_add (c : Counter κ) (k k' : κ) :
    (c.add k).get k' = c.get k' + if k = k' then 1 else 0 := by
  unfold add get
  rw [Dict.get?_set]
  by_cases h : k = k'
  · subst h
    simp
  · simp [h]

theorem get_foldl_add (c : Counter κ) (ks : List κ) (k : κ) :
    (ks.foldl add c).get k = c.get k + ks.count k := by
  induction ks generalizing c with
  | nil => simp
  | cons k' ks ih =>
    rw [List.foldl_cons, ih, get_add, List.count_cons]
    by_cases h : k' = k
    · simp only [h, beq_self_eq_true, if_true]
      omega
    · simp [h]

/-- A counter has counted each key as often as it was met. -/
@[simp] theorem get_ofList (ks : List κ) (k : κ) : (ofList ks).get k = ks.count k := by
  rw [ofList, get_foldl_add]
  simp [get]

theorem nodup_keys_foldl_add {c : Counter κ} (h : (Dict.keys c).Nodup) (ks : List κ) :
    (Dict.keys (ks.foldl add c)).Nodup := by
  induction ks generalizing c with
  | nil => exact h
  | cons k ks ih => exact ih (Dict.nodup_keys_set h _ _)

/-- The items of a counter: the keys that were met, each with its number. -/
theorem mem_ofList {ks : List κ} {k : κ} {n : ℕ} (h : (k, n) ∈ ofList ks) : n = ks.count k := by
  have hnodup : (Dict.keys (ofList ks)).Nodup := by
    apply nodup_keys_foldl_add
    exact List.nodup_nil
  have hget := Dict.get?_of_mem hnodup h
  rw [← get_ofList, get, hget, Option.getD_some]

theorem exists_mem_ofList {ks : List κ} {k : κ} (h : k ∈ ks) : (k, ks.count k) ∈ ofList ks := by
  have hcount : (ofList ks).get k = ks.count k := get_ofList ks k
  have hpos : 0 < ks.count k := List.count_pos_iff.2 h
  unfold get at hcount
  cases hget : Dict.get? (ofList ks) k with
  | none =>
    rw [hget, Option.getD_none] at hcount
    omega
  | some n =>
    rw [hget, Option.getD_some] at hcount
    rw [← hcount]
    exact Dict.mem_of_get? hget

/-- **No key is counted more often just where the one multiset is in the other.** -/
theorem le_iff {ks ks' : List κ} :
    (∀ kv ∈ ofList ks, kv.2 ≤ (ofList ks').get kv.1)
      ↔ (ks : Multiset κ) ≤ (ks' : Multiset κ) := by
  rw [Multiset.le_iff_count]
  constructor
  · intro h k
    rw [Multiset.coe_count, Multiset.coe_count]
    by_cases hk : k ∈ ks
    · have := h _ (exists_mem_ofList hk)
      rwa [get_ofList] at this
    · rw [List.count_eq_zero_of_not_mem hk]
      exact Nat.zero_le _
  · rintro h ⟨k, n⟩ hkv
    have := h k
    rw [Multiset.coe_count, Multiset.coe_count] at this
    rwa [mem_ofList hkv, get_ofList]

/-- **Two counters are equal just where the multisets are.** -/
theorem eq_iff {ks ks' : List κ} :
    (ofList ks).eq (ofList ks') = true ↔ (ks : Multiset κ) = (ks' : Multiset κ) := by
  unfold eq
  rw [Bool.and_eq_true, List.all_eq_true, List.all_eq_true, Multiset.ext]
  constructor
  · rintro ⟨hleft, hright⟩ k
    rw [Multiset.coe_count, Multiset.coe_count]
    by_cases hk : k ∈ ks
    · have := hleft _ (exists_mem_ofList hk)
      simpa using this
    · by_cases hk' : k ∈ ks'
      · have := hright _ (exists_mem_ofList hk')
        simpa using this
      · rw [List.count_eq_zero_of_not_mem hk, List.count_eq_zero_of_not_mem hk']
  · intro h
    have hcount : ∀ k, (ofList ks).get k = (ofList ks').get k := by
      intro k
      have := h k
      rwa [Multiset.coe_count, Multiset.coe_count, ← get_ofList, ← get_ofList] at this
    exact ⟨fun kv _ => decide_eq_true (hcount kv.1), fun kv _ => decide_eq_true (hcount kv.1)⟩

end Counter
end Py
end QualityFlow
