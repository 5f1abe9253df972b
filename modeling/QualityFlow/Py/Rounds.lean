/-
# Loops against a schedule

A loop `while ...:` that is run turn after turn against what each turn finds outside: a
schedule gives that for every turn, and the states are numbered by the turns that have been
taken.  The rules carry a property from one state to the later ones.
-/

import Mathlib.Order.Basic

namespace QualityFlow
namespace Py
namespace Rounds

variable {σ ρ : Type*}

/-- The state before turn `n`. -/
def stateAt (turn : ρ → σ → σ) (rounds : ℕ → ρ) (s : σ) : ℕ → σ
  | 0 => s
  | n + 1 => turn (rounds n) (stateAt turn rounds s n)

variable {turn : ρ → σ → σ} {rounds : ℕ → ρ} {s : σ}

/-- What holds at the start and is kept by every turn holds in every state. -/
theorem stateAt_induction {P : ℕ → σ → Prop} (h0 : P 0 s)
    (hturn : ∀ n t, P n t → P (n + 1) (turn (rounds n) t)) (n : ℕ) :
    P n (stateAt turn rounds s n) := by
  induction n with
  | zero => exact h0
  | succ n ih => exact hturn n _ ih

/-- What holds in one state and is kept by the turns after it holds in every later state. -/
theorem stateAt_keeps {P : σ → Prop} {m n : ℕ} (hmn : m ≤ n)
    (h : P (stateAt turn rounds s m))
    (hturn : ∀ k, m ≤ k → k < n → P (stateAt turn rounds s k) →
      P (turn (rounds k) (stateAt turn rounds s k))) :
    P (stateAt turn rounds s n) := by
  induction n with
  | zero =>
    obtain rfl : m = 0 := by omega
    exact h
  | succ n ih =>
    by_cases hm : m = n + 1
    · exact hm ▸ h
    · have hle : m ≤ n := by omega
      have hlast : P (stateAt turn rounds s n) :=
        ih hle fun k hk hkn => hturn k hk (by omega)
      exact hturn n hle (by omega) hlast

/-- A preorder that every turn goes up in orders the states of a run. -/
theorem stateAt_mono {R : σ → σ → Prop} (hrefl : ∀ t, R t t)
    (htrans : ∀ {a b c}, R a b → R b c → R a c) (hturn : ∀ r t, R t (turn r t)) {m n : ℕ}
    (hmn : m ≤ n) : R (stateAt turn rounds s m) (stateAt turn rounds s n) :=
  stateAt_keeps hmn (hrefl _) fun _ _ _ hk => htrans hk (hturn _ _)

end Rounds
end Py
end QualityFlow
