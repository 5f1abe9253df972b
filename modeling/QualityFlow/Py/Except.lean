/-
# Computations that may raise

`Except ε α` as the services use it: a call returns or raises, and a raise ends
the caller too.  The rules take a `do` block apart, forwards for a computation
that is known and backwards for a result that is.
-/

import Mathlib.Data.List.Basic

namespace QualityFlow
namespace Py

universe u v

variable {ε : Type v}

@[simp] theorem pure_eq_ok {α : Type u} (a : α) : (pure a : Except ε α) = .ok a := rfl

@[simp] theorem ok_bind {α β : Type u} (a : α) (f : α → Except ε β) :
    (Except.ok a >>= f) = f a := rfl

@[simp] theorem error_bind {α β : Type u} (e : ε) (f : α → Except ε β) :
    ((.error e : Except ε α) >>= f) = .error e := rfl

@[simp] theorem map_ok {α β : Type u} (f : α → β) (a : α) :
    (f <$> (.ok a : Except ε α)) = .ok (f a) := rfl

@[simp] theorem map_error {α β : Type u} (f : α → β) (e : ε) :
    (f <$> (.error e : Except ε α)) = .error e := rfl

/-- A block returns when its first step does and the rest does on its result. -/
theorem bind_eq_ok {α β : Type u} {x : Except ε α} {f : α → Except ε β} {b : β} :
    (x >>= f) = .ok b ↔ ∃ a, x = .ok a ∧ f a = .ok b := by
  cases x <;> simp

theorem map_eq_ok {α β : Type u} {x : Except ε α} {f : α → β} {b : β} :
    (f <$> x) = .ok b ↔ ∃ a, x = .ok a ∧ f a = b := by
  cases x <;> simp

/-- What is mapped is returned where the value is. -/
theorem exists_map_eq_ok {α β : Type u} {x : Except ε α} {f : α → β} :
    (∃ b, f <$> x = .ok b) ↔ ∃ a, x = .ok a := by
  cases x <;> simp

/-- A loop that checks each item returns where every check does. -/
theorem forM_eq_ok {α : Type u} {f : α → Except ε PUnit} {xs : List α} :
    xs.forM f = .ok ⟨⟩ ↔ ∀ x ∈ xs, f x = .ok ⟨⟩ := by
  induction xs with
  | nil => simp [List.forM]
  | cons x xs ih =>
    rw [show (x :: xs).forM f = (f x >>= fun _ => xs.forM f) from rfl, bind_eq_ok, List.forall_mem_cons]
    constructor
    · rintro ⟨⟨⟩, hx, hxs⟩
      exact ⟨hx, ih.1 hxs⟩
    · rintro ⟨hx, hxs⟩
      exact ⟨⟨⟩, hx, ih.2 hxs⟩

/-- A loop over a list with one more item first. -/
theorem foldlM_cons_eq_ok {σ α : Type u} {f : σ → α → Except ε σ} {s s' : σ} {x : α} {xs : List α} :
    (x :: xs).foldlM f s = .ok s' ↔ ∃ t, f s x = .ok t ∧ xs.foldlM f t = .ok s' := by
  rw [List.foldlM_cons, bind_eq_ok]

/-- Reading back, one by one, a list that was written one by one. -/
theorem mapM_map_ok {α β : Type u} {write : α → β} {read : β → Except ε α} {xs : List α}
    (h : ∀ x ∈ xs, read (write x) = .ok x) : (xs.map write).mapM read = .ok xs := by
  induction xs with
  | nil => rfl
  | cons x xs ih =>
    have hx : read (write x) = .ok x := h x List.mem_cons_self
    have hxs := ih fun y hy => h y (List.mem_cons_of_mem _ hy)
    rw [List.map_cons, List.mapM_cons, hx, ok_bind, hxs, ok_bind, pure_eq_ok]

/-- A loop that returns has taken a step at each of its items. -/
theorem step_of_foldlM {σ α : Type u} {f : σ → α → Except ε σ} {s s' : σ} {xs : List α}
    (h : xs.foldlM f s = .ok s') : ∀ x ∈ xs, ∃ t t', f t x = .ok t' := by
  induction xs generalizing s with
  | nil => simp
  | cons y ys ih =>
    obtain ⟨t, hfirst, hrest⟩ := foldlM_cons_eq_ok.1 h
    rw [List.forall_mem_cons]
    exact ⟨⟨s, t, hfirst⟩, ih hrest⟩

/-- A list that is computed item by item has been computed at each item. -/
theorem item_of_mapM {α β : Type u} {f : α → Except ε β} {xs : List α} {ys : List β}
    (h : xs.mapM f = .ok ys) : ∀ x ∈ xs, ∃ y, f x = .ok y := by
  induction xs generalizing ys with
  | nil => simp
  | cons x xs ih =>
    rw [List.mapM_cons] at h
    obtain ⟨y, hy, h⟩ := bind_eq_ok.1 h
    obtain ⟨ys', hys, -⟩ := bind_eq_ok.1 h
    rw [List.forall_mem_cons]
    exact ⟨⟨y, hy⟩, ih hys⟩

/-- Two computations that raise the same, or return related values. -/
inductive ExceptRel {α β : Type u} (R : α → β → Prop) : Except ε α → Except ε β → Prop where
  | error (e : ε) : ExceptRel R (.error e) (.error e)
  | ok {a : α} {b : β} (h : R a b) : ExceptRel R (.ok a) (.ok b)

/-- What a computation raises. -/
def raised? {α : Type u} : Except ε α → Option ε
  | .ok _ => none
  | .error e => some e

theorem raised?_eq_some {α : Type u} {x : Except ε α} {e : ε} :
    raised? x = some e ↔ x = .error e := by
  cases x <;> simp [raised?]

end Py
end QualityFlow
