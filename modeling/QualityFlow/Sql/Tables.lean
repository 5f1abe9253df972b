/-
# Tables and transactions

The rows of a table are a multiset: a table has no order, and may have a row twice.  A
transaction collects the rows it deletes and the rows it inserts, and its commit takes the
first out of the table and puts the second in; until then the table is as it was, for every
other transaction.

An upsert by a key replaces the rows whose key is one of the new rows' keys by the new rows.
What it should do, read key by key, says what the table is after it.
-/

import Mathlib

namespace QualityFlow
namespace Sql

/-! ### Transactions -/

/-- What a transaction has done so far. -/
structure Transaction (ρ : Type*) where
  deleted : Multiset ρ
  inserted : Multiset ρ

namespace Transaction

variable {ρ : Type*}

/-- A transaction that has done nothing. -/
def start : Transaction ρ := ⟨0, 0⟩

/-- `INSERT`. -/
def insert (t : Transaction ρ) (rows : Multiset ρ) : Transaction ρ :=
  { t with inserted := t.inserted + rows }

/-- A transaction that has deleted rows by their properties alone. -/
def DeletedBy (t : Transaction ρ) (table : Multiset ρ) (p : ρ → Prop) [DecidablePred p] : Prop :=
  t.deleted = table.filter p ∧ t.inserted = 0

theorem deletedBy_start (table : Multiset ρ) :
    (start : Transaction ρ).DeletedBy table fun _ => False :=
  ⟨by simp [start], rfl⟩

variable [DecidableEq ρ]

/-- `DELETE ... WHERE`, on the rows that the transaction sees. -/
def delete (t : Transaction ρ) (table : Multiset ρ) (p : ρ → Prop) [DecidablePred p] :
    Transaction ρ where
  deleted := t.deleted + (table - t.deleted).filter p
  inserted := t.inserted.filter fun r => ¬p r

/-- The table after the commit. -/
def commit (t : Transaction ρ) (table : Multiset ρ) : Multiset ρ := table - t.deleted + t.inserted

/-- One more deletion. -/
theorem DeletedBy.delete {t : Transaction ρ} {table : Multiset ρ} {p q : ρ → Prop}
    [DecidablePred p] [DecidablePred q] (h : t.DeletedBy table p) :
    (t.delete table q).DeletedBy table fun r => p r ∨ q r := by
  obtain ⟨hdeleted, hinserted⟩ := h
  constructor
  · ext r
    rw [Transaction.delete, hdeleted, Multiset.count_add, Multiset.count_filter,
      Multiset.count_filter, Multiset.count_filter, Multiset.count_sub, Multiset.count_filter]
    by_cases hp : p r <;> by_cases hq : q r <;> simp [hp, hq]
  · rw [Transaction.delete, hinserted, Multiset.filter_zero]

/-- Deletions one after the other delete what one of them deletes. -/
theorem DeletedBy.foldl {α : Type*} {t : Transaction ρ} {table : Multiset ρ} {p : ρ → Prop}
    [DecidablePred p] {q : α → ρ → Prop} [∀ x, DecidablePred (q x)] (h : t.DeletedBy table p)
    (xs : List α) :
    (xs.foldl (fun t x => t.delete table (q x)) t).DeletedBy table
      fun r => p r ∨ ∃ x ∈ xs, q x r := by
  induction xs generalizing t p with
  | nil => simpa [DeletedBy] using h
  | cons x xs ih =>
    have hrest := ih (h.delete (q := q x))
    simpa only [DeletedBy, List.foldl_cons, List.exists_mem_cons_iff, or_assoc] using hrest

/-- What another transaction has inserted meanwhile is kept. -/
theorem DeletedBy.commit {t : Transaction ρ} {table : Multiset ρ} {p : ρ → Prop} [DecidablePred p]
    (h : t.DeletedBy table p) (meanwhile : Multiset ρ) :
    t.commit (table + meanwhile) = table.filter (fun r => ¬p r) + meanwhile := by
  obtain ⟨hdeleted, hinserted⟩ := h
  ext r
  rw [Transaction.commit, hdeleted, hinserted, add_zero, Multiset.count_sub, Multiset.count_add,
    Multiset.count_add, Multiset.count_filter, Multiset.count_filter]
  by_cases hp : p r
  · simp [hp]
  · simp [hp]

end Transaction

/-! ### Upserts -/

section

variable {ρ κ : Type*} [DecidableEq ρ] [DecidableEq κ]

/-- For every key of the new rows the table has the new rows with that key, and its other rows
are the old ones. -/
def Upserted (key : ρ → κ) (old new table : Multiset ρ) : Prop :=
  (∀ k ∈ new.map key, table.filter (fun r => key r = k) = new.filter fun r => key r = k) ∧
    table.filter (fun r => key r ∉ new.map key) = old.filter fun r => key r ∉ new.map key

/-- The table after an upsert. -/
def upsert (key : ρ → κ) (old new : Multiset ρ) : Multiset ρ :=
  old.filter (fun r => key r ∉ new.map key) + new

/-- **An upsert read key by key is the upsert.** -/
theorem upserted_iff {key : ρ → κ} {old new table : Multiset ρ} :
    Upserted key old new table ↔ table = upsert key old new := by
  have hnew (r : ρ) (h : key r ∉ new.map key) : new.count r = 0 :=
    Multiset.count_eq_zero.2 fun hr => h (Multiset.mem_map_of_mem key hr)
  constructor
  · rintro ⟨hkeys, hothers⟩
    ext r
    rw [upsert, Multiset.count_add, Multiset.count_filter]
    by_cases hr : key r ∈ new.map key
    · have hcount := congrArg (Multiset.count r) (hkeys (key r) hr)
      rw [Multiset.count_filter, Multiset.count_filter] at hcount
      simpa [hr] using hcount
    · have hcount := congrArg (Multiset.count r) hothers
      rw [Multiset.count_filter, Multiset.count_filter] at hcount
      simpa [hr, hnew r hr] using hcount
  · rintro rfl
    constructor
    · intro k hk
      ext r
      rw [upsert, Multiset.filter_add, Multiset.count_add, Multiset.count_filter,
        Multiset.count_filter, Multiset.count_filter]
      by_cases hr : key r = k
      · subst hr
        simp [hk]
      · simp [hr]
    · ext r
      rw [upsert, Multiset.filter_add, Multiset.count_add, Multiset.count_filter,
        Multiset.count_filter, Multiset.count_filter]
      by_cases hr : key r ∈ new.map key
      · simp [hr]
      · simp [hr, hnew r hr]

/-- Where rows are deleted that have one of the keys, the upsert is done just where all rows
with one of the keys are deleted and the right rows are inserted. -/
theorem upserted_filter_add_iff {key : ρ → κ} {old new inserted : Multiset ρ} {p : ρ → Prop}
    [DecidablePred p] (hp : ∀ r ∈ old, p r → key r ∈ new.map key)
    (hcard : inserted.card = new.card) :
    Upserted key old new (old.filter (fun r => ¬p r) + inserted) ↔
      (∀ r ∈ old, key r ∈ new.map key → p r) ∧ inserted = new := by
  rw [upserted_iff, upsert]
  constructor
  · intro h
    have hsplit : old.filter (fun r => ¬p r) =
        old.filter (fun r => key r ∉ new.map key) +
          old.filter (fun r => key r ∈ new.map key ∧ ¬p r) := by
      ext r
      rw [Multiset.count_add, Multiset.count_filter, Multiset.count_filter, Multiset.count_filter]
      by_cases hr : r ∈ old
      · by_cases hkey : key r ∈ new.map key
        · simp [hkey]
        · have : ¬p r := fun h => hkey (hp r hr h)
          simp [hkey, this]
      · simp [Multiset.count_eq_zero.2 hr]
    rw [hsplit, add_assoc, add_right_inj] at h
    have hleft : old.filter (fun r => key r ∈ new.map key ∧ ¬p r) = 0 := by
      have hlength := congrArg Multiset.card h
      rw [Multiset.card_add] at hlength
      rw [← Multiset.card_eq_zero]
      omega
    rw [hleft, zero_add] at h
    refine ⟨fun r hr hkey => ?_, h⟩
    by_contra hnot
    exact Multiset.filter_eq_nil.1 hleft r hr ⟨hkey, hnot⟩
  · rintro ⟨hall, rfl⟩
    rw [add_left_inj]
    refine Multiset.filter_congr fun r hr => ?_
    rw [not_iff_not]
    exact ⟨hp r hr, hall r hr⟩

end

/-! ### Rows that are cut -/

/-- Lists of numbers with the same sum are equal where one is below the other. -/
theorem forall_eq_of_sum_eq {α : Type*} {f g : α → ℕ} {xs : List α} (hle : ∀ x ∈ xs, f x ≤ g x)
    (hsum : (xs.map f).sum = (xs.map g).sum) : ∀ x ∈ xs, f x = g x := by
  by_contra hsome
  push Not at hsome
  obtain ⟨x, hx, hne⟩ := hsome
  have hlt : (xs.map f).sum < (xs.map g).sum :=
    List.sum_lt_sum f g hle ⟨x, hx, lt_of_le_of_ne (hle x hx) hne⟩
  exact absurd hsum hlt.ne

/-- Items that become no heavier by a map are the same multiset after it just where each is as
heavy as before. -/
theorem weight_eq_of_map_eq {α ρ : Type*} {f g : α → ρ} {weight : ρ → ℕ} {xs : List α}
    (hle : ∀ x ∈ xs, weight (f x) ≤ weight (g x))
    (h : (xs.map f : Multiset ρ) = (xs.map g : Multiset ρ)) :
    ∀ x ∈ xs, weight (f x) = weight (g x) := by
  have hperm := (Multiset.coe_eq_coe.1 h).map weight
  have hsum := hperm.sum_eq
  rw [List.map_map, List.map_map] at hsum
  exact forall_eq_of_sum_eq hle hsum

end Sql
end QualityFlow
