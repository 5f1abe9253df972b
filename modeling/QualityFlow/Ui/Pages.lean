/-
# The listeners of the pages

`register_execution_listener` and the threads it starts, from
`app/ui/test_suites/services/execution_stream_service.py`.

Pages register for an execution whenever they are drawn, and each registration may start a thread
that applies the events of a stream to the one state of the execution.  An execution never has two
threads at a time (`Reachable.inv`), so its listeners have come one after the other, and since
the first event of a stream starts the view anew, the last one alone decides it (`page_shows`).
The error of the state and the events it keeps are not started anew: they are those of all
listeners.
-/

import QualityFlow.Ui.Listener

namespace QualityFlow
namespace Ui

open Py Function

/-! ### The threads -/

/-- Where a listener is: it reads, it is on its way out, or its `finally` is over. -/
inductive Phase where
  | reading
  | leaving
  | ended
deriving DecidableEq

/-- A thread of `_listen_execution_events`, with the events it has applied and what the request, or
the reading of its lines, has raised. -/
structure Listener where
  applied : List (String × Value)
  raised : Option PageError
  phase : Phase

/-- What `_EXECUTION_STATES` and `_LISTENER_THREADS` have for an execution, and the threads there
have been for it. -/
structure Followed where
  state : Option PageState
  thread : Option ℕ
  listeners : List Listener

/-- The executions by their ids. -/
abbrev Pages := String → Followed

/-- Before the first registration. -/
def Pages.empty : Pages := fun _ => { state := none, thread := none, listeners := [] }

inductive PageAction where
  /-- `register_execution_listener`. -/
  | register (executionId testSuiteId : String)
  /-- One turn of the loop of a listener. -/
  | read (executionId : String) (listener : ℕ) (e : String × Value)
  /-- The response has no more lines. -/
  | close (executionId : String) (listener : ℕ)
  /-- The request raises, or the reading of a payload does. -/
  | fail (executionId : String) (listener : ℕ) (error : PageError)
  /-- The `finally` block of a listener. -/
  | finish (executionId : String) (listener : ℕ)

namespace Followed

/-- A registration for the execution. -/
def register (x : Followed) : Followed :=
  let state := some (x.state.getD PageState.new)
  if x.thread.isSome then { x with state }
  else
    { state
      thread := some x.listeners.length
      listeners := x.listeners ++ [{ applied := [], raised := none, phase := .reading }] }

/-- One turn of the loop of a listener; it applies the event where there is a state. -/
def read (x : Followed) (i : ℕ) (e : String × Value) : Option Followed := do
  let l ← x.listeners[i]?
  let state ← x.state
  if l.phase ≠ .reading then none
  else
    some { x with
      state := some (state.read e).1
      listeners := x.listeners.set i { l with
        applied := l.applied ++ [e], phase := if (state.read e).2 then .reading else .leaving } }

/-- The response of a listener has no more lines. -/
def close (x : Followed) (i : ℕ) : Option Followed := do
  let l ← x.listeners[i]?
  if l.phase ≠ .reading then none
  else some { x with listeners := x.listeners.set i { l with phase := .leaving } }

/-- A listener is left with an error. -/
def fail (x : Followed) (i : ℕ) (error : PageError) : Option Followed := do
  let l ← x.listeners[i]?
  let state ← x.state
  if l.phase ≠ .reading then none
  else
    some { x with
      state := some (state.fail error)
      listeners := x.listeners.set i { l with raised := some error, phase := .leaving } }

/-- The `finally` block of a listener. -/
def finish (x : Followed) (i : ℕ) : Option Followed := do
  let l ← x.listeners[i]?
  if l.phase ≠ .leaving then none
  else some { x with thread := none, listeners := x.listeners.set i { l with phase := .ended } }

end Followed

namespace Pages

/-- A change of one execution. -/
def change (p : Pages) (executionId : String) (f : Followed → Option Followed) : Option Pages :=
  (f (p executionId)).map (update p executionId)

/-- One step; `none` where the thread is not at it. -/
def step (p : Pages) : PageAction → Option Pages
  | .register executionId testSuiteId =>
    if strip executionId = "" ∨ strip testSuiteId = "" then some p
    else p.change (strip executionId) fun x => some x.register
  | .read executionId i e => p.change executionId fun x => x.read i e
  | .close executionId i => p.change executionId fun x => x.close i
  | .fail executionId i error => p.change executionId fun x => x.fail i error
  | .finish executionId i => p.change executionId fun x => x.finish i

/-- The pages after some steps. -/
inductive Reachable : Pages → Prop where
  | empty : Reachable .empty
  | step {p p' : Pages} (action : PageAction) (before : Reachable p)
      (allowed : p.step action = some p') : Reachable p'

end Pages

/-! ### What the listeners leave -/

/-- What a listener makes of the state it finds. -/
def Listener.shows (s : PageState) (l : Listener) : PageState :=
  match l.raised with
  | none => (listen s l.applied).1
  | some error => (listen s l.applied).1.fail error

/-- What the listeners of an execution make of its state, one after the other. -/
def shown (listeners : List Listener) : PageState := listeners.foldl Listener.shows PageState.new

theorem listen_concat {s : PageState} {es : List (String × Value)} (h : (listen s es).2 = true)
    (e : String × Value) : listen s (es ++ [e]) = (listen s es).1.read e := by
  induction es generalizing s with
  | nil =>
    simp only [List.nil_append, listen]
    split
    · rename_i hgoes
      exact Prod.ext rfl hgoes.symm
    · rename_i hstops
      exact Prod.ext rfl (Bool.eq_false_iff.2 hstops).symm
  | cons e' es ih =>
    rw [List.cons_append]
    rw [listen] at h ⊢
    split at h
    · rename_i hgoes
      rw [if_pos hgoes, ih h, listen, if_pos hgoes]
    · cases h

theorem shown_concat (earlier : List Listener) (l : Listener) :
    shown (earlier ++ [l]) = l.shows (shown earlier) := by
  rw [shown, List.foldl_append]
  rfl

/-- The listeners of an execution have come one after the other, and have made its state. -/
inductive Followed.Inv (x : Followed) : Prop where
  /-- There has been none. -/
  | new (listeners : x.listeners = []) (thread : x.thread = none) (state : x.state = none) :
      Followed.Inv x
  /-- None is left. -/
  | quiet (ended : ∀ l ∈ x.listeners, l.phase = .ended) (thread : x.thread = none)
      (state : x.state = some (shown x.listeners)) : Followed.Inv x
  /-- The last one is at work. -/
  | busy (earlier : List Listener) (l : Listener) (listeners : x.listeners = earlier ++ [l])
      (ended : ∀ l ∈ earlier, l.phase = .ended) (alive : l.phase ≠ .ended)
      (thread : x.thread = some earlier.length) (state : x.state = some (shown (earlier ++ [l])))
      (reading : l.phase = .reading →
        l.raised = none ∧ (listen (shown earlier) l.applied).2 = true) : Followed.Inv x

namespace Followed

variable {x x' : Followed} {i : ℕ}

/-! ### What each step does -/

theorem read_eq_some {e : String × Value} (h : x.read i e = some x') :
    ∃ l state, x.listeners[i]? = some l ∧ l.phase = .reading ∧ x.state = some state ∧
      x' = { x with
        state := some (state.read e).1
        listeners := x.listeners.set i { l with
          applied := l.applied ++ [e]
          phase := if (state.read e).2 then .reading else .leaving } } := by
  unfold Followed.read at h
  obtain ⟨l, hl, h⟩ := Option.bind_eq_some_iff.1 h
  obtain ⟨state, hstate, h⟩ := Option.bind_eq_some_iff.1 h
  split at h
  · cases h
  · rename_i hphase
    exact ⟨l, state, hl, not_not.1 hphase, hstate, (Option.some.inj h).symm⟩

theorem close_eq_some (h : x.close i = some x') :
    ∃ l, x.listeners[i]? = some l ∧ l.phase = .reading ∧
      x' = { x with listeners := x.listeners.set i { l with phase := .leaving } } := by
  unfold Followed.close at h
  obtain ⟨l, hl, h⟩ := Option.bind_eq_some_iff.1 h
  split at h
  · cases h
  · rename_i hphase
    exact ⟨l, hl, not_not.1 hphase, (Option.some.inj h).symm⟩

theorem fail_eq_some {error : PageError} (h : x.fail i error = some x') :
    ∃ l state, x.listeners[i]? = some l ∧ l.phase = .reading ∧ x.state = some state ∧
      x' = { x with
        state := some (state.fail error)
        listeners := x.listeners.set i { l with raised := some error, phase := .leaving } } := by
  unfold Followed.fail at h
  obtain ⟨l, hl, h⟩ := Option.bind_eq_some_iff.1 h
  obtain ⟨state, hstate, h⟩ := Option.bind_eq_some_iff.1 h
  split at h
  · cases h
  · rename_i hphase
    exact ⟨l, state, hl, not_not.1 hphase, hstate, (Option.some.inj h).symm⟩

theorem finish_eq_some (h : x.finish i = some x') :
    ∃ l, x.listeners[i]? = some l ∧ l.phase = .leaving ∧
      x' = { x with thread := none, listeners := x.listeners.set i { l with phase := .ended } } := by
  unfold Followed.finish at h
  obtain ⟨l, hl, h⟩ := Option.bind_eq_some_iff.1 h
  split at h
  · cases h
  · rename_i hphase
    exact ⟨l, hl, not_not.1 hphase, (Option.some.inj h).symm⟩

/-- The listener that takes a step is the last one. -/
theorem Inv.at_last (h : x.Inv) {l : Listener} (hl : x.listeners[i]? = some l)
    (halive : l.phase ≠ .ended) :
    ∃ earlier, x.listeners = earlier ++ [l] ∧ i = earlier.length ∧
      (∀ l ∈ earlier, l.phase = .ended) ∧ x.thread = some earlier.length ∧
      x.state = some (shown (earlier ++ [l])) ∧
      (l.phase = .reading → l.raised = none ∧ (listen (shown earlier) l.applied).2 = true) := by
  cases h with
  | new listeners thread state =>
    rw [listeners] at hl
    cases hl
  | quiet ended thread state => exact absurd (ended l (List.mem_of_getElem? hl)) halive
  | busy earlier last listeners ended alive thread state reading =>
    rw [listeners] at hl
    rcases Nat.lt_or_ge i earlier.length with hlt | hge
    · rw [List.getElem?_append_left hlt] at hl
      exact absurd (ended l (List.mem_of_getElem? hl)) halive
    · rw [List.getElem?_append_right hge] at hl
      obtain ⟨hi, hlast⟩ := List.getElem?_eq_some_iff.1 hl
      have heq : i = earlier.length := by
        rw [List.length_singleton] at hi
        omega
      obtain rfl : last = l := by simpa [heq] using hlast
      exact ⟨earlier, listeners, heq, ended, thread, state, reading⟩

theorem Inv.register (h : x.Inv) : x.register.Inv := by
  obtain ⟨state, thread, listeners⟩ := x
  cases h with
  | new hlisteners hthread hstate =>
    obtain rfl : listeners = [] := hlisteners
    obtain rfl : thread = none := hthread
    obtain rfl : state = none := hstate
    exact .busy [] _ rfl (by simp) (by simp) rfl rfl fun _ => ⟨rfl, rfl⟩
  | quiet ended hthread hstate =>
    obtain rfl : thread = none := hthread
    obtain rfl : state = some (shown listeners) := hstate
    exact .busy listeners _ rfl ended (by simp) rfl (by rw [shown_concat]; rfl) fun _ => ⟨rfl, rfl⟩
  | busy earlier l hlisteners ended alive hthread hstate reading =>
    obtain rfl : thread = some earlier.length := hthread
    obtain rfl : state = some (shown (earlier ++ [l])) := hstate
    exact .busy earlier l hlisteners ended alive rfl rfl reading

/-- The last listener in another place. -/
theorem Inv.set_last {earlier : List Listener} {l l' : Listener}
    (hlisteners : x.listeners = earlier ++ [l]) :
    x.listeners.set earlier.length l' = earlier ++ [l'] := by
  rw [hlisteners, List.set_append_right _ _ le_rfl, Nat.sub_self]
  rfl

/-- The state that a listener at work has made. -/
theorem Inv.reading_state {earlier : List Listener} {l : Listener} {state : PageState}
    (hview : x.state = some state) (hstate : x.state = some (shown (earlier ++ [l])))
    (hraised : l.raised = none) : state = (listen (shown earlier) l.applied).1 := by
  rw [hview, Option.some.injEq] at hstate
  rw [hstate, shown_concat, Listener.shows, hraised]

theorem Inv.read (h : x.Inv) {e : String × Value} (hread : x.read i e = some x') : x'.Inv := by
  obtain ⟨l, state, hl, hphase, hview, rfl⟩ := read_eq_some hread
  obtain ⟨earlier, hlisteners, rfl, hended, hthread, hstate, hreading⟩ :=
    h.at_last hl (by rw [hphase]; decide)
  obtain ⟨hraised, hgoes⟩ := hreading hphase
  obtain rfl := Inv.reading_state hview hstate hraised
  have hlisten := listen_concat hgoes e
  refine .busy earlier _ (Inv.set_last hlisteners) hended ?_ hthread ?_ fun hreading => ?_
  · split <;> simp
  · rw [shown_concat, Listener.shows, hraised, ← hlisten]
  · refine ⟨hraised, (congrArg Prod.snd hlisten).trans ?_⟩
    by_contra hstop
    simp [hstop] at hreading

theorem Inv.close (h : x.Inv) (hclose : x.close i = some x') : x'.Inv := by
  obtain ⟨l, hl, hphase, rfl⟩ := close_eq_some hclose
  obtain ⟨earlier, hlisteners, rfl, hended, hthread, hstate, -⟩ :=
    h.at_last hl (by rw [hphase]; decide)
  exact .busy earlier _ (Inv.set_last hlisteners) hended (by simp) hthread
    (by rw [hstate, shown_concat, shown_concat]; rfl) (by simp)

theorem Inv.fail (h : x.Inv) {error : PageError} (hfail : x.fail i error = some x') :
    x'.Inv := by
  obtain ⟨l, state, hl, hphase, hview, rfl⟩ := fail_eq_some hfail
  obtain ⟨earlier, hlisteners, rfl, hended, hthread, hstate, hreading⟩ :=
    h.at_last hl (by rw [hphase]; decide)
  obtain rfl := Inv.reading_state hview hstate (hreading hphase).1
  exact .busy earlier _ (Inv.set_last hlisteners) hended (by simp) hthread
    (by rw [shown_concat]; rfl) (by simp)

theorem Inv.finish (h : x.Inv) (hfinish : x.finish i = some x') : x'.Inv := by
  obtain ⟨l, hl, hphase, rfl⟩ := finish_eq_some hfinish
  obtain ⟨earlier, hlisteners, rfl, hended, hthread, hstate, -⟩ :=
    h.at_last hl (by rw [hphase]; decide)
  refine .quiet ?_ rfl ?_
  · rw [Inv.set_last hlisteners, List.forall_mem_append]
    exact ⟨hended, by simp⟩
  · rw [hstate, Inv.set_last hlisteners, shown_concat, shown_concat]
    rfl

end Followed

/-- A step of one execution. -/
inductive Followed.Step (x : Followed) : Followed → Prop where
  | register : x.Step x.register
  | read {x' : Followed} {i : ℕ} {e : String × Value} (h : x.read i e = some x') : x.Step x'
  | close {x' : Followed} {i : ℕ} (h : x.close i = some x') : x.Step x'
  | fail {x' : Followed} {i : ℕ} {error : PageError} (h : x.fail i error = some x') : x.Step x'
  | finish {x' : Followed} {i : ℕ} (h : x.finish i = some x') : x.Step x'

theorem Followed.Inv.step {x x' : Followed} (h : x.Inv) (hstep : x.Step x') : x'.Inv := by
  cases hstep with
  | register => exact h.register
  | read hread => exact h.read hread
  | close hclose => exact h.close hclose
  | fail hfail => exact h.fail hfail
  | finish hfinish => exact h.finish hfinish

/-- A step of the pages is one of an execution, and leaves the others alone. -/
theorem Pages.step_cases {p p' : Pages} {action : PageAction} (h : p.step action = some p')
    (executionId : String) :
    p' executionId = p executionId ∨ (p executionId).Step (p' executionId) := by
  have hchange {id : String} {f : Followed → Option Followed}
      (hstep : ∀ x', f (p id) = some x' → (p id).Step x') (hp' : p.change id f = some p') :
      p' executionId = p executionId ∨ (p executionId).Step (p' executionId) := by
    obtain ⟨x', hx', rfl⟩ := Option.map_eq_some_iff.1 hp'
    by_cases hid : executionId = id
    · rw [hid, update_self]
      exact .inr (hstep x' hx')
    · rw [update_of_ne hid]
      exact .inl rfl
  cases action with
  | register id suiteId =>
    rw [Pages.step] at h
    split at h
    · rw [← Option.some.inj h]
      exact .inl rfl
    · refine hchange (f := fun x => some x.register) (fun x' hx' => ?_) h
      rw [← Option.some.inj hx']
      exact .register
  | read id i e => exact hchange (f := fun x => x.read i e) (fun _ => .read) h
  | close id i => exact hchange (f := fun x => x.close i) (fun _ => .close) h
  | fail id i error => exact hchange (f := fun x => x.fail i error) (fun _ => .fail) h
  | finish id i => exact hchange (f := fun x => x.finish i) (fun _ => .finish) h

/-- **An execution never has two listeners at a time**, and they have made its state one after the
other. -/
theorem Pages.Reachable.inv {p : Pages} (h : p.Reachable) (executionId : String) :
    (p executionId).Inv := by
  induction h with
  | empty => exact .new rfl rfl rfl
  | step action before allowed ih =>
    rcases Pages.step_cases allowed executionId with hsame | hstep
    · rw [hsame]
      exact ih
    · exact ih.step hstep

/-! ### The events that are kept -/

/-- The last events of a state, once it has read some. -/
def lastEvents (events : List (String × Value)) : List (String × Value) := events.rtake 1000

theorem appendEvent_lastEvents (events : List (String × Value)) (e : String × Value) :
    appendEvent (lastEvents events) e = lastEvents (events ++ [e]) := by
  have happend : appendEvent (lastEvents events) e = (lastEvents events ++ [e]).rtake 1000 := by
    unfold appendEvent
    dsimp only
    split
    · rfl
    · rename_i hshort
      exact (rtake_of_length_le (not_lt.1 hshort)).symm
  rw [happend]
  exact rtake_append_singleton _ _ _

theorem events_read (s : PageState) (e : String × Value) :
    (s.read e).1.events = appendEvent s.events e := by
  unfold PageState.read
  dsimp only
  split <;> rfl

/-- The events that all listeners of an execution have applied, in order. -/
def Followed.allApplied (x : Followed) : List (String × Value) := x.listeners.flatMap Listener.applied

/-- A state keeps the last events of all listeners. -/
def Followed.KeepsEvents (x : Followed) : Prop :=
  ∀ state, x.state = some state → state.events = lastEvents x.allApplied

namespace Followed

variable {x x' : Followed} {i : ℕ}

/-- What the last listener applies comes behind the rest. -/
theorem allApplied_set_last {earlier : List Listener} {l l' : Listener}
    (hlisteners : x.listeners = earlier ++ [l]) :
    (x.listeners.set earlier.length l').flatMap Listener.applied =
      earlier.flatMap Listener.applied ++ l'.applied := by
  rw [Inv.set_last hlisteners, List.flatMap_append, List.flatMap_singleton]

theorem allApplied_eq {earlier : List Listener} {l : Listener}
    (hlisteners : x.listeners = earlier ++ [l]) :
    x.allApplied = earlier.flatMap Listener.applied ++ l.applied := by
  rw [allApplied, hlisteners, List.flatMap_append, List.flatMap_singleton]

theorem KeepsEvents.register (hinv : x.Inv) (h : x.KeepsEvents) : x.register.KeepsEvents := by
  have hstate : (x.state.getD PageState.new).events = lastEvents x.allApplied := by
    cases hstate : x.state with
    | some state => exact h state hstate
    | none =>
      cases hinv with
      | new listeners thread state => rw [allApplied, listeners]; rfl
      | quiet ended thread state => rw [hstate] at state; cases state
      | busy earlier l listeners ended alive thread state reading => rw [hstate] at state; cases state
  intro state hregistered
  unfold Followed.register at hregistered ⊢
  dsimp only at hregistered ⊢
  split at hregistered
  · obtain rfl := Option.some.inj hregistered
    rw [if_pos ‹_›]
    exact hstate
  · obtain rfl := Option.some.inj hregistered
    rw [if_neg ‹_›, hstate, allApplied, allApplied, List.flatMap_append]
    simp

/-- A listener at work is the last, so what it applies comes behind the rest. -/
theorem allApplied_set (hinv : x.Inv) {l l' : Listener} (hl : x.listeners[i]? = some l)
    (halive : l.phase ≠ .ended) (hset : x'.listeners = x.listeners.set i l')
    {more : List (String × Value)} (happlied : l'.applied = l.applied ++ more) :
    x'.allApplied = x.allApplied ++ more := by
  obtain ⟨earlier, hlisteners, rfl, -⟩ := hinv.at_last hl halive
  rw [allApplied, hset, allApplied_set_last hlisteners, allApplied_eq hlisteners, happlied,
    List.append_assoc]

/-- **Every step keeps the last events.** -/
theorem KeepsEvents.step (hinv : x.Inv) (h : x.KeepsEvents) (hstep : x.Step x') :
    x'.KeepsEvents := by
  have hsame {i : ℕ} {l l' : Listener} (hl : x.listeners[i]? = some l) (halive : l.phase ≠ .ended)
      (hset : x'.listeners = x.listeners.set i l') (happlied : l'.applied = l.applied) :
      x'.allApplied = x.allApplied := by
    rw [allApplied_set hinv hl halive hset (happlied.trans (List.append_nil _).symm),
      List.append_nil]
  cases hstep with
  | register => exact h.register hinv
  | @read _ i e hread =>
    obtain ⟨l, state, hl, hphase, hstate, rfl⟩ := read_eq_some hread
    rintro _ ⟨⟩
    rw [events_read, h state hstate, appendEvent_lastEvents]
    exact congrArg lastEvents (allApplied_set hinv hl (by rw [hphase]; decide) rfl rfl).symm
  | @close _ i hclose =>
    obtain ⟨l, hl, hphase, rfl⟩ := close_eq_some hclose
    intro state hstate
    rw [h state hstate]
    exact congrArg lastEvents (hsame hl (by rw [hphase]; decide) rfl rfl).symm
  | @fail _ i error hfail =>
    obtain ⟨l, state, hl, hphase, hstate, rfl⟩ := fail_eq_some hfail
    rintro _ ⟨⟩
    refine (h state hstate).trans ?_
    exact congrArg lastEvents (hsame hl (by rw [hphase]; decide) rfl rfl).symm
  | @finish _ i hfinish =>
    obtain ⟨l, hl, hphase, rfl⟩ := finish_eq_some hfinish
    intro state hstate
    rw [h state hstate]
    exact congrArg lastEvents (hsame hl (by rw [hphase]; decide) rfl rfl).symm

end Followed

theorem Pages.Reachable.keepsEvents {p : Pages} (h : p.Reachable) (executionId : String) :
    (p executionId).KeepsEvents := by
  induction h with
  | empty => exact fun state hstate => absurd hstate (by simp [Pages.empty])
  | step action before allowed ih =>
    rcases Pages.step_cases allowed executionId with hsame | hstep
    · rw [hsame]
      exact ih
    · exact ih.step (before.inv executionId) hstep

/-! ### What a page shows -/

/-- The events that a listener applies of those it could read: it stops at one that raises, and
at the first `suite_finished`. -/
def applied (s : PageState) : List (String × Value) → List (String × Value)
  | [] => []
  | e :: rest => e :: if (s.read e).2 then applied (s.read e).1 rest else []

theorem listen_applied (s : PageState) (es : List (String × Value)) :
    (listen s (applied s es)).1 = (listen s es).1 := by
  induction es generalizing s with
  | nil => rfl
  | cons e es ih =>
    rw [applied, listen, listen]
    split
    · exact ih _
    · rfl

/-- The same events are shown the same, over an error from before. -/
theorem ShowsOver.listen {before : Option PageError} {s t : PageState} (h : ShowsOver before s t)
    (es : List (String × Value)) : ShowsOver before (listen s es).1 (listen t es).1 := by
  induction es generalizing s t with
  | nil => exact h
  | cons e es ih =>
    obtain ⟨hread, hgoes⟩ := h.read e
    rw [Ui.listen, Ui.listen, hgoes]
    split
    · exact ih hread
    · exact hread

/-- The first event of a stream starts the view anew, and keeps the error. -/
theorem listen_started {e : String × Value} (h : e.1 = "suite_started")
    (es : List (String × Value)) (s : PageState) :
    ShowsOver s.error (listen s (e :: es)).1 (listen PageState.new (e :: es)).1 := by
  have hstarted (v : LiveView) : applyRead v e = some LiveView.new := by
    unfold applyRead applyView
    rw [h]
    cases e.2 <;> rfl
  have hread (t : PageState) : (t.read e).1.view = LiveView.new ∧ (t.read e).1.error = t.error ∧
      (t.read e).2 = true := by
    rw [PageState.read]
    dsimp only
    rw [hstarted, h]
    exact ⟨rfl, rfl, rfl⟩
  obtain ⟨hview, herror, hgoes⟩ := hread s
  obtain ⟨hview', herror', hgoes'⟩ := hread PageState.new
  rw [listen, listen, if_pos hgoes, if_pos hgoes']
  exact ShowsOver.listen ⟨hview.trans hview'.symm, herror.trans (by rw [herror']; rfl)⟩ es

/-- **What a page shows is what its last listener has read**, over what earlier ones have left
behind.  In every interleaving of the registrations and the listeners, once the last listener of
an execution has applied the events there were to read, and these begin with `suite_started`, the
view is what those events make of a new one.  The error is the one that the events have raised, or
else that of an earlier listener, and the events kept are the last of all listeners. -/
theorem page_shows {p : Pages} (hp : p.Reachable) {executionId : String}
    {earlier : List Listener} {l : Listener} (hlast : (p executionId).listeners = earlier ++ [l])
    (hraised : l.raised = none) {reads : List (String × Value)}
    (happlied : l.applied = applied (shown earlier) reads) {e : String × Value}
    (hfirst : reads.head? = some e) (hstarted : e.1 = "suite_started") :
    ∃ state, (p executionId).state = some state ∧
      ShowsOver (shown earlier).error state (listen PageState.new reads).1 ∧
      state.events = lastEvents (earlier.flatMap Listener.applied ++ l.applied) := by
  have hstate : (p executionId).state = some (shown (p executionId).listeners) := by
    cases hp.inv executionId with
    | new listeners thread state =>
      rw [hlast] at listeners
      exact absurd listeners (by simp)
    | quiet ended thread state => exact state
    | busy earlier' l' listeners ended alive thread state reading => rw [state, listeners]
  have hevents := hp.keepsEvents executionId _ hstate
  rw [Followed.allApplied_eq hlast] at hevents
  refine ⟨_, hstate, ?_, hevents⟩
  obtain ⟨rest, rfl⟩ : ∃ rest, reads = e :: rest := by
    cases reads with
    | nil => cases hfirst
    | cons e' rest => exact ⟨rest, by rw [Option.some.inj hfirst]⟩
  rw [hlast, shown_concat, Listener.shows, hraised, happlied]
  dsimp only
  rw [listen_applied]
  exact listen_started hstarted rest _

/-- The request of a first listener times out after an event, and a second one reads two. -/
theorem page_shows_restarted : ∃ (p : Pages) (state : PageState), p.Reachable ∧
    (p "run").state = some state ∧
      ShowsOver (some (.request "timed out")) state
        (listen PageState.new [readEvent suiteStarted, readEvent suiteProgress]).1 ∧
      state.events = lastEvents
        [readEvent suiteStarted, readEvent suiteStarted, readEvent suiteProgress] := by
  let reads := [readEvent suiteStarted, readEvent suiteProgress]
  have registered := Pages.Reachable.step (.register "run" "suite") .empty rfl
  have read := Pages.Reachable.step (.read "run" 0 (readEvent suiteStarted)) registered rfl
  have failed := Pages.Reachable.step (.fail "run" 0 (.request "timed out")) read rfl
  have finished := Pages.Reachable.step (.finish "run" 0) failed rfl
  have again := Pages.Reachable.step (.register "run" "suite") finished rfl
  have first := Pages.Reachable.step (.read "run" 1 (readEvent suiteStarted)) again rfl
  have second := Pages.Reachable.step (.read "run" 1 (readEvent suiteProgress)) first rfl
  let earlier : Listener := ⟨[readEvent suiteStarted], some (.request "timed out"), .ended⟩
  obtain ⟨p, hp, l, hlast, hraised, happlied⟩ : ∃ p : Pages, p.Reachable ∧ ∃ l : Listener,
      (p "run").listeners = [earlier] ++ [l] ∧ l.raised = none ∧
        l.applied = applied (shown [earlier]) reads := ⟨_, second, _, rfl, rfl, rfl⟩
  obtain ⟨state, hstate, hshows, hevents⟩ := page_shows hp hlast hraised happlied rfl rfl
  rw [happlied] at hevents
  exact ⟨p, state, hp, hstate, hshows, hevents⟩

end Ui
end QualityFlow
