/-
# Computations that ask

A program that reads its surroundings as it goes: it returns, raises, or asks a question
and goes on with the answer.  What it may ask depends on the answers it gets, so both
what it may ask and what it may return are relative to the answers that are possible.
-/

import QualityFlow.Py.Except

namespace QualityFlow
namespace Py

/-- A computation that asks questions, each with answers of its own type. -/
inductive Asks {Q : Type} (A : Q → Type) (α : Type) where
  | done (a : α)
  | raised (e : String)
  | ask (q : Q) (next : A q → Asks A α)

namespace Asks

variable {Q : Type} {A : Q → Type} {α β : Type}

/-- One computation after another; a raise ends both. -/
def bind : Asks A α → (α → Asks A β) → Asks A β
  | done a, f => f a
  | raised e, _ => raised e
  | ask q next, f => ask q fun a => (next a).bind f

instance : Monad (Asks A) where
  pure := done
  bind := bind

/-- One question. -/
def question (q : Q) : Asks A (A q) := ask q done

/-- A computation that asks nothing. -/
def ofExcept : Except String α → Asks A α
  | .ok a => done a
  | .error e => raised e

@[simp] theorem pure_eq_done (a : α) : (pure a : Asks A α) = done a := rfl

@[simp] theorem done_bind (a : α) (f : α → Asks A β) : (done a >>= f) = f a := rfl

@[simp] theorem raised_bind (e : String) (f : α → Asks A β) :
    ((raised e : Asks A α) >>= f) = raised e := rfl

@[simp] theorem ask_bind (q : Q) (next : A q → Asks A α) (f : α → Asks A β) :
    (ask q next >>= f) = ask q fun a => next a >>= f := rfl

@[simp] theorem question_bind (q : Q) (f : A q → Asks A β) : (question q >>= f) = ask q f := rfl

theorem bind_done (x : Asks A α) : x >>= done = x := by
  induction x with
  | done a => rfl
  | raised e => rfl
  | ask q next ih => exact congrArg (ask q) (funext ih)

theorem bind_assoc {γ : Type} (x : Asks A α) (f : α → Asks A β) (g : β → Asks A γ) :
    x >>= f >>= g = x >>= fun a => f a >>= g := by
  induction x with
  | done a => rfl
  | raised e => rfl
  | ask q next ih => exact congrArg (ask q) (funext ih)

instance : LawfulMonad (Asks A) := LawfulMonad.mk' _ bind_done (fun _ _ => rfl) bind_assoc

/-! ### What may be asked -/

variable (possible : ∀ q, A q → Prop)

/-- A question that is asked under some answers that are possible. -/
inductive MayAsk (q : Q) : Asks A α → Prop where
  | here (next : A q → Asks A α) : MayAsk q (ask q next)
  | later {q' : Q} {next : A q' → Asks A α} {a : A q'} (ha : possible q' a)
      (h : MayAsk q (next a)) : MayAsk q (ask q' next)

/-- A result that is returned under some answers that are possible. -/
inductive MayReturn (r : α) : Asks A α → Prop where
  | done : MayReturn r (done r)
  | ask {q : Q} {next : A q → Asks A α} {a : A q} (ha : possible q a)
      (h : MayReturn r (next a)) : MayReturn r (ask q next)

variable {possible} {q : Q}

@[simp] theorem mayAsk_done {a : α} : ¬ (done a : Asks A α).MayAsk possible q := nofun

@[simp] theorem mayAsk_raised {e : String} : ¬ (raised e : Asks A α).MayAsk possible q := nofun

theorem mayAsk_ask {q' : Q} {next : A q' → Asks A α} :
    (ask q' next).MayAsk possible q ↔
      q = q' ∨ ∃ a, possible q' a ∧ (next a).MayAsk possible q := by
  constructor
  · intro h
    cases h with
    | here => exact .inl rfl
    | later ha h => exact .inr ⟨_, ha, h⟩
  · rintro (rfl | ⟨a, ha, h⟩)
    · exact .here next
    · exact .later ha h

@[simp] theorem mayReturn_done {a r : α} : (done a : Asks A α).MayReturn possible r ↔ r = a := by
  constructor
  · rintro ⟨⟩
    rfl
  · rintro rfl
    exact .done

@[simp] theorem mayReturn_raised {e : String} {r : α} :
    ¬ (raised e : Asks A α).MayReturn possible r := nofun

theorem mayReturn_ask {q' : Q} {next : A q' → Asks A α} {r : α} :
    (ask q' next).MayReturn possible r ↔ ∃ a, possible q' a ∧ (next a).MayReturn possible r := by
  constructor
  · rintro ⟨⟩
    exact ⟨_, ‹_›, ‹_›⟩
  · rintro ⟨a, ha, h⟩
    exact .ask ha h

@[simp] theorem mayAsk_ofExcept {x : Except String α} :
    ¬ (ofExcept x : Asks A α).MayAsk possible q := by
  cases x <;> simp [ofExcept]

/-- **A block asks what its first step asks, and what the rest asks on a result of it.** -/
theorem mayAsk_bind {x : Asks A α} {f : α → Asks A β} :
    (x >>= f).MayAsk possible q ↔
      x.MayAsk possible q ∨ ∃ a, x.MayReturn possible a ∧ (f a).MayAsk possible q := by
  induction x with
  | done a => simp
  | raised e => simp
  | ask q' next ih =>
    rw [ask_bind, mayAsk_ask, mayAsk_ask]
    simp only [ih, mayReturn_ask]
    constructor
    · rintro (hq | ⟨a, ha, hask | ⟨r, hr, hask⟩⟩)
      · exact .inl (.inl hq)
      · exact .inl (.inr ⟨a, ha, hask⟩)
      · exact .inr ⟨r, ⟨a, ha, hr⟩, hask⟩
    · rintro ((hq | ⟨a, ha, hask⟩) | ⟨r, ⟨a, ha, hr⟩, hask⟩)
      · exact .inl hq
      · exact .inr ⟨a, ha, .inl hask⟩
      · exact .inr ⟨a, ha, .inr ⟨r, hr, hask⟩⟩

theorem mayReturn_bind {x : Asks A α} {f : α → Asks A β} {r : β} :
    (x >>= f).MayReturn possible r ↔ ∃ a, x.MayReturn possible a ∧ (f a).MayReturn possible r := by
  induction x with
  | done a => simp
  | raised e => simp
  | ask q' next ih =>
    rw [ask_bind, mayReturn_ask]
    simp only [ih, mayReturn_ask]
    constructor
    · rintro ⟨a, ha, r', hr', hr⟩
      exact ⟨r', ⟨a, ha, hr'⟩, hr⟩
    · rintro ⟨r', ⟨a, ha, hr'⟩, hr⟩
      exact ⟨a, ha, r', hr', hr⟩

/-! ### Computations made of others -/

section

variable {κ γ : Type} (call : κ → Asks A γ) (S : κ → Prop) (P : Q → Prop)

/-- A computation that is made of calls and of questions of its own. -/
inductive MadeOf {α : Type} : Asks A α → Prop where
  | done (a : α) : MadeOf (done a)
  | raised (e : String) : MadeOf (raised e)
  | call {k : κ} (hk : S k) {rest : γ → Asks A α} (h : ∀ c, MadeOf (rest c)) :
      MadeOf (call k >>= rest)
  | ask {q : Q} (hq : P q) {next : A q → Asks A α} (h : ∀ a, MadeOf (next a)) :
      MadeOf (ask q next)

variable {call S P}

theorem madeOf_call {k : κ} (hk : S k) : MadeOf call S P (call k) := by
  have h : MadeOf call S P (call k >>= Asks.done) := .call hk .done
  rwa [bind_done] at h

theorem madeOf_bind {x : Asks A α} {f : α → Asks A β} (hx : MadeOf call S P x)
    (hf : ∀ a, MadeOf call S P (f a)) : MadeOf call S P (x >>= f) := by
  induction hx with
  | done a => exact hf a
  | raised e => exact .raised e
  | call hk h ih =>
    rw [bind_assoc]
    exact .call hk ih
  | ask hq h ih => exact .ask hq ih

theorem madeOf_ofExcept (x : Except String α) : MadeOf call S P (ofExcept x) := by
  cases x with
  | error e => exact .raised e
  | ok a => exact .done a

theorem madeOf_mapM {f : α → Asks A β} {xs : List α} (h : ∀ x ∈ xs, MadeOf call S P (f x)) :
    MadeOf call S P (xs.mapM f) := by
  induction xs with
  | nil => exact .done []
  | cons x xs ih =>
    rw [List.mapM_cons]
    rw [List.forall_mem_cons] at h
    exact madeOf_bind h.1 fun y => madeOf_bind (ih h.2) fun ys => .done _

/-- **What is asked is a question of the computation itself, or is asked in a call that it
comes to**, and then whatever the call may ask is asked. -/
theorem MadeOf.mayAsk {x : Asks A α} (hx : MadeOf call S P x) (h : x.MayAsk possible q) :
    P q ∨ ∃ k, S k ∧ (call k).MayAsk possible q ∧
      ∀ q', (call k).MayAsk possible q' → x.MayAsk possible q' := by
  induction hx with
  | done a => exact absurd h mayAsk_done
  | raised e => exact absurd h mayAsk_raised
  | call hk hrest ih =>
    rcases mayAsk_bind.1 h with hcall | ⟨c, hreturn, hask⟩
    · exact .inr ⟨_, hk, hcall, fun q' hq' => mayAsk_bind.2 (.inl hq')⟩
    · rcases ih c hask with hq | ⟨k, hk, hcall, hreach⟩
      · exact .inl hq
      · exact .inr ⟨k, hk, hcall, fun q' hq' => mayAsk_bind.2 (.inr ⟨c, hreturn, hreach q' hq'⟩)⟩
  | ask hq hnext ih =>
    rcases mayAsk_ask.1 h with rfl | ⟨a, ha, hask⟩
    · exact .inl hq
    · rcases ih a hask with hq | ⟨k, hk, hcall, hreach⟩
      · exact .inl hq
      · exact .inr ⟨k, hk, hcall, fun q' hq' => .later ha (hreach q' hq')⟩

end

end Asks

end Py
end QualityFlow
