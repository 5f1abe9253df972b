/-
# Insertion-ordered dictionaries

A `dict` as the list of its items in insertion order.  `set` keeps the place of
a key it finds and appends one it does not; `erase` drops the key wherever it
stands.  Lookup after an update needs no invariant on the list, so none is
carried.
-/

import Mathlib.Data.List.Basic

namespace QualityFlow
namespace Py

/-- The items of a `dict`, oldest first. -/
abbrev Dict (κ α : Type*) := List (κ × α)

namespace Dict

variable {κ α β : Type*} [DecidableEq κ]

/-- `d.get(k)`. -/
def get? : Dict κ α → κ → Option α
  | [], _ => none
  | (k', v) :: d, k => if k' = k then some v else get? d k

/-- `d[k] = v`. -/
def set : Dict κ α → κ → α → Dict κ α
  | [], k, v => [(k, v)]
  | (k', v') :: d, k, v => if k' = k then (k', v) :: d else (k', v') :: set d k v

/-- `d.pop(k, None)`. -/
def erase (d : Dict κ α) (k : κ) : Dict κ α := d.filter fun kv => !decide (kv.1 = k)

/-- `k in d`. -/
def has (d : Dict κ α) (k : κ) : Bool := (get? d k).isSome

/-- `d.update(e)`. -/
def update (d e : Dict κ α) : Dict κ α := e.foldl (fun d kv => set d kv.1 kv.2) d

@[simp] theorem get?_nil (k : κ) : get? ([] : Dict κ α) k = none := rfl

@[simp] theorem get?_cons (k' : κ) (v : α) (d : Dict κ α) (k : κ) :
    get? ((k', v) :: d) k = if k' = k then some v else get? d k := rfl

theorem get?_set (d : Dict κ α) (k k' : κ) (v : α) :
    get? (set d k v) k' = if k = k' then some v else get? d k' := by
  induction d with
  | nil => rfl
  | cons kv d ih =>
    obtain ⟨k₀, v₀⟩ := kv
    by_cases h : k₀ = k
    · subst h
      by_cases h' : k₀ = k' <;> simp [set, h']
    · by_cases h' : k₀ = k'
      · subst h'
        simp [set, h, Ne.symm h]
      · simp [set, h, h', ih]

@[simp] theorem get?_set_self (d : Dict κ α) (k : κ) (v : α) : get? (set d k v) k = some v := by
  simp [get?_set]

theorem get?_set_of_ne {d : Dict κ α} {k k' : κ} (h : k ≠ k') (v : α) :
    get? (set d k v) k' = get? d k' := by
  simp [get?_set, h]

theorem get?_erase (d : Dict κ α) (k k' : κ) :
    get? (erase d k) k' = if k = k' then none else get? d k' := by
  induction d with
  | nil => simp [erase]
  | cons kv d ih =>
    obtain ⟨k₀, v₀⟩ := kv
    unfold erase at ih ⊢
    by_cases h : k₀ = k
    · subst h
      by_cases h' : k₀ = k' <;> simp_all
    · by_cases h' : k₀ = k'
      · subst h'
        simp [h, Ne.symm h]
      · simp [h, h', ih]

theorem get?_append (d e : Dict κ α) (k : κ) :
    get? (d ++ e) k = (get? d k).or (get? e k) := by
  induction d with
  | nil => simp
  | cons kv d ih =>
    obtain ⟨k₀, v₀⟩ := kv
    by_cases h : k₀ = k <;> simp [h, ih]

theorem get?_map (f : α → β) (d : Dict κ α) (k : κ) :
    get? (d.map fun kv => (kv.1, f kv.2)) k = (get? d k).map f := by
  induction d with
  | nil => simp
  | cons kv d ih =>
    obtain ⟨k₀, v₀⟩ := kv
    by_cases h : k₀ = k <;> simp [h, ih]

/-- What a lookup finds is an item of the dictionary. -/
theorem mem_of_get? {d : Dict κ α} {k : κ} {v : α} (h : get? d k = some v) : (k, v) ∈ d := by
  induction d with
  | nil => simp at h
  | cons kv d ih =>
    obtain ⟨k₀, v₀⟩ := kv
    by_cases hk : k₀ = k
    · simp_all
    · simp only [get?_cons, hk, if_false] at h
      exact List.mem_cons_of_mem _ (ih h)

/-- An item written by `set` is the new one or an old one. -/
theorem mem_set {d : Dict κ α} {k : κ} {v : α} {kv : κ × α} (h : kv ∈ set d k v) :
    kv = (k, v) ∨ kv ∈ d := by
  induction d with
  | nil => simpa [set] using h
  | cons kv₀ d ih =>
    obtain ⟨k₀, v₀⟩ := kv₀
    by_cases hk : k₀ = k
    · subst hk
      simp only [set, if_true, List.mem_cons] at h ⊢
      tauto
    · simp only [set, hk, if_false, List.mem_cons] at h ⊢
      rcases h with rfl | h
      · exact Or.inr (Or.inl rfl)
      · exact (ih h).imp id Or.inr

/-- An item that has just been written and is kept by a filter is found. -/
theorem get?_filter_set {p : κ × α → Bool} {k : κ} {v : α} (h : p (k, v) = true) (d : Dict κ α) :
    get? ((set d k v).filter p) k = some v := by
  induction d with
  | nil => simp [set, h]
  | cons kv₀ d ih =>
    obtain ⟨k₀, v₀⟩ := kv₀
    by_cases hk : k₀ = k
    · subst hk
      simp [set, h]
    · rw [set, if_neg hk, List.filter_cons]
      split_ifs
      · rw [get?_cons, if_neg hk, ih]
      · exact ih

/-! ### Keys -/

/-- `d.keys()`. -/
def keys (d : Dict κ α) : List κ := d.map Prod.fst

theorem mem_keys_iff {d : Dict κ α} {k : κ} : k ∈ keys d ↔ (get? d k).isSome := by
  induction d with
  | nil => simp [keys]
  | cons kv d ih =>
    obtain ⟨k₀, v₀⟩ := kv
    by_cases h : k₀ = k
    · simp [keys, h]
    · have hk : k ∈ keys ((k₀, v₀) :: d) ↔ k ∈ keys d := by simp [keys, Ne.symm h]
      rw [hk, ih, get?_cons, if_neg h]

theorem has_iff {d : Dict κ α} {k : κ} : d.has k = true ↔ k ∈ keys d := mem_keys_iff.symm

/-- A new key is written at the end. -/
theorem set_of_not_mem {d : Dict κ α} {k : κ} (h : k ∉ keys d) (v : α) :
    set d k v = d ++ [(k, v)] := by
  induction d with
  | nil => rfl
  | cons kv d ih =>
    obtain ⟨k₀, v₀⟩ := kv
    simp only [keys, List.map_cons, List.mem_cons, not_or] at h
    rw [set, if_neg (Ne.symm h.1), ih h.2, List.cons_append]

/-- A key that is there keeps its place. -/
theorem keys_set_of_mem {d : Dict κ α} {k : κ} (h : k ∈ keys d) (v : α) :
    keys (set d k v) = keys d := by
  induction d with
  | nil => simp [keys] at h
  | cons kv d ih =>
    obtain ⟨k₀, v₀⟩ := kv
    by_cases hk : k₀ = k
    · simp [set, keys, hk]
    · have hd : k ∈ keys d := by simpa [keys, Ne.symm hk] using h
      simpa [set, keys, hk] using ih hd

/-- Writing an item leaves the keys distinct. -/
theorem nodup_keys_set {d : Dict κ α} (h : (keys d).Nodup) (k : κ) (v : α) :
    (keys (set d k v)).Nodup := by
  by_cases hk : k ∈ keys d
  · rwa [keys_set_of_mem hk]
  · rw [set_of_not_mem hk, keys, List.map_append, List.nodup_append]
    refine ⟨h, by simp, ?_⟩
    intro a ha b hb hab
    rw [List.map_singleton, List.mem_singleton] at hb
    rw [hab, hb] at ha
    exact hk ha

/-- Where the keys are distinct, an item of the dictionary is what a lookup finds. -/
theorem get?_of_mem {d : Dict κ α} {k : κ} {v : α} (h : (keys d).Nodup) (hmem : (k, v) ∈ d) :
    get? d k = some v := by
  induction d with
  | nil => simp at hmem
  | cons kv d ih =>
    obtain ⟨hk, hd⟩ := List.nodup_cons.1 h
    rcases List.mem_cons.1 hmem with rfl | hlater
    · rw [get?_cons, if_pos rfl]
    · have hne : kv.1 ≠ k := by
        rintro rfl
        exact hk (List.mem_map.2 ⟨_, hlater, rfl⟩)
      obtain ⟨k₀, v₀⟩ := kv
      rw [get?_cons, if_neg hne]
      exact ih hd hlater

/-! ### Updates -/

theorem nodup_keys_update {d : Dict κ α} (hd : (keys d).Nodup) (e : Dict κ α) :
    (keys (update d e)).Nodup := by
  unfold update
  induction e generalizing d with
  | nil => exact hd
  | cons kv e ih => exact ih (nodup_keys_set hd kv.1 kv.2)

/-- What an update says comes before what was there. -/
theorem get?_update {d e : Dict κ α} (he : (keys e).Nodup) (k : κ) :
    get? (update d e) k = (get? e k).or (get? d k) := by
  unfold update
  induction e generalizing d with
  | nil => rfl
  | cons kv e ih =>
    obtain ⟨k₀, v₀⟩ := kv
    obtain ⟨hk₀, he'⟩ := List.nodup_cons.1 he
    rw [List.foldl_cons, ih he', get?_set, get?_cons]
    by_cases hk : k₀ = k
    · have hnone : get? e k = none := by
        rw [← hk]
        exact Option.not_isSome_iff_eq_none.1 fun hsome => hk₀ (mem_keys_iff.2 hsome)
      rw [if_pos hk, if_pos hk, hnone]
      rfl
    · rw [if_neg hk, if_neg hk]

/-- An update with new keys writes its items at the end. -/
theorem update_of_nodup {d e : Dict κ α} (h : (keys (d ++ e)).Nodup) : update d e = d ++ e := by
  unfold update
  induction e generalizing d with
  | nil => rw [List.foldl_nil, List.append_nil]
  | cons kv e ih =>
    obtain ⟨k, v⟩ := kv
    have happend : d ++ (k, v) :: e = d ++ [(k, v)] ++ e := by simp
    have hk : k ∉ keys d := by
      intro hmem
      rw [keys, List.map_append, List.nodup_append] at h
      exact h.2.2 k hmem k List.mem_cons_self rfl
    rw [happend] at h ⊢
    rw [List.foldl_cons, set_of_not_mem hk, ih h]

end Dict
end Py
end QualityFlow
