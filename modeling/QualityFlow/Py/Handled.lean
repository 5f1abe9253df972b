/-
# Computations whose questions are answered

A handler answers a question in a state and goes on with another state.  Against a handler
a computation that asks leaves a state, and returns or raises.  What every answer keeps, the
computation keeps, as far as its own questions go; and a block leaves what its parts leave,
one after the other.
-/

import QualityFlow.Py.Asks

namespace QualityFlow
namespace Py
namespace Asks

variable {Q Q' : Type} {A : Q → Type} {A' : Q' → Type} {α β σ : Type}

/-! ### A handler -/

/-- What a computation leaves of a state, and what it returns or raises. -/
def handle (answer : σ → (q : Q) → σ × A q) : Asks A α → σ → σ × Except String α
  | done a, s => (s, .ok a)
  | raised e, s => (s, .error e)
  | ask q next, s => handle answer (next (answer s q).2) (answer s q).1

section

variable {answer : σ → (q : Q) → σ × A q} {s s' : σ}

@[simp] theorem handle_done (a : α) : (done a : Asks A α).handle answer s = (s, .ok a) := rfl

@[simp] theorem handle_raised (e : String) :
    (raised e : Asks A α).handle answer s = (s, .error e) := rfl

@[simp] theorem handle_ask (q : Q) (next : A q → Asks A α) :
    (ask q next).handle answer s = (next (answer s q).2).handle answer (answer s q).1 := rfl

@[simp] theorem handle_question (q : Q) :
    (question q : Asks A (A q)).handle answer s = ((answer s q).1, .ok (answer s q).2) := rfl

theorem handle_ofExcept (x : Except String α) :
    (ofExcept x : Asks A α).handle answer s = (s, x) := by
  cases x <;> rfl

/-- The rest of a block goes on where its first step returns, in the state that it leaves. -/
theorem handle_bind (x : Asks A α) (f : α → Asks A β) :
    (x >>= f).handle answer s =
      match x.handle answer s with
      | (s, .ok a) => (f a).handle answer s
      | (s, .error e) => (s, .error e) := by
  induction x generalizing s with
  | done a => rfl
  | raised e => rfl
  | ask q next ih => exact ih _

/-- **A block returns where each of its two parts does.** -/
theorem handle_bind_eq_ok {x : Asks A α} {f : α → Asks A β} {b : β} :
    (x >>= f).handle answer s = (s', .ok b) ↔
      ∃ s₁ a, x.handle answer s = (s₁, .ok a) ∧ (f a).handle answer s₁ = (s', .ok b) := by
  rw [handle_bind]
  constructor
  · intro h
    split at h
    · rename_i s₁ a hx
      exact ⟨s₁, a, hx, h⟩
    · simp at h
  · rintro ⟨s₁, a, hx, hf⟩
    rw [hx]
    exact hf

/-! ### What is asked -/

/-- Every question that a computation comes to has a property. -/
inductive Only (P : Q → Prop) : Asks A α → Prop where
  | done (a : α) : Only P (done a)
  | raised (e : String) : Only P (raised e)
  | ask {q : Q} (hq : P q) {next : A q → Asks A α} (h : ∀ a, Only P (next a)) :
      Only P (ask q next)

variable {P : Q → Prop}

theorem Only.bind {x : Asks A α} {f : α → Asks A β} (hx : x.Only P) (hf : ∀ a, (f a).Only P) :
    (x >>= f).Only P := by
  induction hx with
  | done a => exact hf a
  | raised e => exact .raised e
  | ask hq _ ih => exact .ask hq ih

theorem only_question {q : Q} (hq : P q) : (question q : Asks A (A q)).Only P := .ask hq .done

theorem only_ofExcept (x : Except String α) : (ofExcept x : Asks A α).Only P := by
  cases x with
  | error e => exact .raised e
  | ok a => exact .done a

/-- **What every answer keeps, a computation keeps.** -/
theorem Only.keeps {I : σ → Prop} (hanswer : ∀ s q, P q → I s → I (answer s q).1) {x : Asks A α}
    (hx : x.Only P) (hs : I s) : I (x.handle answer s).1 := by
  induction hx generalizing s with
  | done a => exact hs
  | raised e => exact hs
  | ask hq _ ih => exact ih _ (hanswer _ _ hq hs)

end

/-! ### Questions of another kind -/

/-- A computation whose questions are asked in the terms of another. -/
def within (inner : (q : Q) → Asks A' (A q)) : Asks A α → Asks A' α
  | done a => done a
  | raised e => raised e
  | ask q next => inner q >>= fun a => within inner (next a)

theorem within_bind (inner : (q : Q) → Asks A' (A q)) (x : Asks A α) (f : α → Asks A β) :
    (x >>= f).within inner = x.within inner >>= fun a => (f a).within inner := by
  induction x with
  | done a => rfl
  | raised e => rfl
  | ask q next ih =>
    show (inner q >>= fun a => (next a >>= f).within inner) = _
    rw [funext ih, within, bind_assoc]

theorem Only.within {P : Q → Prop} {P' : Q' → Prop} {inner : (q : Q) → Asks A' (A q)}
    (hinner : ∀ q, P q → (inner q).Only P') {x : Asks A α} (h : x.Only P) :
    (x.within inner).Only P' := by
  induction h with
  | done a => exact .done a
  | raised e => exact .raised e
  | ask hq _ ih => exact (hinner _ hq).bind ih

theorem only_true (x : Asks A α) : x.Only fun _ => True := by
  induction x with
  | done a => exact .done a
  | raised e => exact .raised e
  | ask q next ih => exact .ask trivial ih

end Asks
end Py
end QualityFlow
