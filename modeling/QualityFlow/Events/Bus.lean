/-
# The execution event bus

`app/elaborations/services/suite_runs/execution_event_bus.py`: `publish_execution_event`,
`subscribe_to_execution` and `unsubscribe_from_execution`.

An execution publishes from one thread.  A publish call appends its frame to the history
of the execution and copies the list of its subscribers, both under the lock, and then
puts the frame into the queues of the copy one by one, without the lock.  Clients
subscribe and unsubscribe at any time in between.  Each action below is one such step,
and a run is any sequence of actions.
-/

import Mathlib.Data.List.Nodup
import Mathlib.Logic.Function.Basic
import QualityFlow.Py.Lists

namespace QualityFlow
namespace Events

open Py

/-! ### The bus -/

/-- `_EVENT_HISTORY_SIZE`. -/
def eventHistorySize : ℕ := 500

/-- `_QUEUE_SIZE`. -/
def queueSize : ℕ := 1000

/-- A subscriber: its queue, and what its client has been handed. -/
structure Subscriber where
  executionId : String
  /-- The history that `subscribe_to_execution` has returned. -/
  history : List String
  /-- The frames in the queue. -/
  queue : List String
  /-- Every frame put into the queue before the client unsubscribed. -/
  received : List String
  /-- Whether the queue has ever been full. -/
  filled : Bool
  unsubscribed : Bool
deriving DecidableEq

/-- Where the thread of an execution stands. -/
inductive Publisher where
  | idle
  | delivering (frame : String) (remaining : List ℕ)
deriving DecidableEq

/-- `_HISTORY` and `_SUBSCRIBERS`, the queues there have been, the threads that publish,
and every frame published so far. -/
structure Bus where
  history : String → List String
  subscribers : String → List ℕ
  queues : List Subscriber
  publisher : String → Publisher
  published : String → List String

/-- A bus that nothing has been published on. -/
def Bus.empty : Bus where
  history _ := []
  subscribers _ := []
  queues := []
  publisher _ := .idle
  published _ := []

/-! ### The steps -/

inductive Action where
  /-- The locked part of `publish_execution_event`. -/
  | append (executionId frame : String)
  /-- One `put_nowait` of the loop of `publish_execution_event`. -/
  | put (executionId : String)
  /-- The return of `publish_execution_event`. -/
  | done (executionId : String)
  /-- `subscribe_to_execution`. -/
  | subscribe (executionId : String)
  /-- `unsubscribe_from_execution`. -/
  | unsubscribe (executionId : String) (queueId : ℕ)
  /-- A client takes a frame from its queue. -/
  | take (queueId : ℕ)
deriving DecidableEq

/-- `put_nowait`. -/
def Subscriber.putNowait (frame : String) (s : Subscriber) : Subscriber :=
  if s.queue.length < queueSize then
    { s with
      queue := s.queue ++ [frame]
      received := if s.unsubscribed then s.received else s.received ++ [frame]
      filled := s.filled || decide (s.queue.length + 1 = queueSize) }
  else s

namespace Bus

open Function

def append (executionId frame : String) (b : Bus) : Bus :=
  { b with
    history := update b.history executionId
      ((b.history executionId ++ [frame]).rtake eventHistorySize)
    publisher := update b.publisher executionId (.delivering frame (b.subscribers executionId))
    published := update b.published executionId (b.published executionId ++ [frame]) }

def put (executionId frame : String) (queueId : ℕ) (rest : List ℕ) (b : Bus) : Bus :=
  { b with
    queues := b.queues.modify queueId (Subscriber.putNowait frame)
    publisher := update b.publisher executionId (.delivering frame rest) }

def done (executionId : String) (b : Bus) : Bus :=
  { b with publisher := update b.publisher executionId .idle }

def subscribe (executionId : String) (b : Bus) : Bus :=
  { b with
    subscribers := update b.subscribers executionId
      (b.subscribers executionId ++ [b.queues.length])
    queues := b.queues ++
      [{ executionId, history := b.history executionId, queue := [], received := [],
         filled := false, unsubscribed := false }] }

def unsubscribe (executionId : String) (queueId : ℕ) (b : Bus) : Bus :=
  { b with
    subscribers := update b.subscribers executionId ((b.subscribers executionId).erase queueId)
    queues := b.queues.modify queueId fun s =>
      { s with unsubscribed := s.unsubscribed || decide (s.executionId = executionId) } }

def take (queueId : ℕ) (b : Bus) : Bus :=
  { b with queues := b.queues.modify queueId fun s => { s with queue := s.queue.tail } }

/-- One step; `none` where the thread or the client is not at it.  A blank execution id is
not published for. -/
def step (b : Bus) : Action → Option Bus
  | .append executionId frame =>
    if executionId ≠ "" ∧ b.publisher executionId = .idle then some (b.append executionId frame)
    else none
  | .put executionId =>
    match b.publisher executionId with
    | .delivering frame (queueId :: rest) => some (b.put executionId frame queueId rest)
    | _ => none
  | .done executionId =>
    match b.publisher executionId with
    | .delivering _ [] => some (b.done executionId)
    | _ => none
  | .subscribe executionId => some (b.subscribe executionId)
  | .unsubscribe executionId queueId => some (b.unsubscribe executionId queueId)
  | .take queueId => some (b.take queueId)

/-- A run. -/
def run (b : Bus) (actions : List Action) : Option Bus := actions.foldlM step b

end Bus

/-! ### What a client holds -/

/-- What the client of a subscriber has been handed up to its unsubscription. -/
def Subscriber.handed (s : Subscriber) : List String := s.history ++ s.received

/-- The frame that a publish call in progress still has to put into a queue. -/
def Bus.pending (b : Bus) (queueId : ℕ) (s : Subscriber) : List String :=
  match b.publisher s.executionId with
  | .idle => []
  | .delivering frame remaining => if queueId ∈ remaining then [frame] else []

/-- At most as many events have been published for an execution as its history keeps, and
the queue has never been full. -/
def Bus.WithinBounds (b : Bus) (s : Subscriber) : Prop :=
  (b.published s.executionId).length ≤ eventHistorySize ∧ s.filled = false

/-- A queue of the bus belongs to an execution. -/
def Bus.Owns (b : Bus) (executionId : String) (queueId : ℕ) : Prop :=
  ∃ s, b.queues[queueId]? = some s ∧ s.executionId = executionId

/-- What holds of a queue in every state of a run. -/
structure Bus.QueueInv (b : Bus) (queueId : ℕ) (s : Subscriber) : Prop where
  registered : s.unsubscribed = false → queueId ∈ b.subscribers s.executionId
  space : s.filled = false → s.queue.length < queueSize
  delivered : b.WithinBounds s → s.unsubscribed = false →
    s.handed ++ b.pending queueId s = b.published s.executionId
  handed_prefix : b.WithinBounds s → s.handed <+: b.published s.executionId

/-- What holds in every state of a run. -/
structure Bus.Inv (b : Bus) : Prop where
  history : ∀ id, b.history id = (b.published id).rtake eventHistorySize
  nodup : ∀ id, (b.subscribers id).Nodup
  subscribed : ∀ id, ∀ queueId ∈ b.subscribers id, b.Owns id queueId
  remaining : ∀ id frame rest, b.publisher id = .delivering frame rest →
    rest.Nodup ∧ ∀ queueId ∈ rest, b.Owns id queueId
  queue : ∀ queueId s, b.queues[queueId]? = some s → b.QueueInv queueId s

/-! ### Each step keeps it -/

namespace Bus

open Function

variable {b : Bus} {id : String} {queueId : ℕ} {s : Subscriber}

theorem Owns.lt_length (h : b.Owns id queueId) : queueId < b.queues.length := by
  obtain ⟨s, hs, -⟩ := h
  exact (List.getElem?_eq_some_iff.1 hs).1

/-- A change of one queue that keeps its execution keeps the owners. -/
theorem Owns.modify (h : b.Owns id queueId) {b' : Bus} {changed : ℕ} {f : Subscriber → Subscriber}
    (hf : ∀ s, (f s).executionId = s.executionId) (hb' : b'.queues = b.queues.modify changed f) :
    b'.Owns id queueId := by
  obtain ⟨s, hs, rfl⟩ := h
  rw [Owns, hb', List.getElem?_modify, hs]
  by_cases hchanged : changed = queueId
  · exact ⟨f s, by simp [hchanged], hf s⟩
  · exact ⟨s, by simp [hchanged], rfl⟩

@[simp] theorem putNowait_executionId (frame : String) (s : Subscriber) :
    (s.putNowait frame).executionId = s.executionId := by
  unfold Subscriber.putNowait
  split <;> rfl

@[simp] theorem putNowait_unsubscribed (frame : String) (s : Subscriber) :
    (s.putNowait frame).unsubscribed = s.unsubscribed := by
  unfold Subscriber.putNowait
  split <;> rfl

/-- A queue that has never been full, also after a put, has taken the frame. -/
theorem putNowait_handed {frame : String} (hspace : s.filled = false → s.queue.length < queueSize)
    (h : (s.putNowait frame).filled = false) :
    s.filled = false ∧ (s.putNowait frame).queue.length < queueSize ∧
      (s.putNowait frame).handed = if s.unsubscribed then s.handed else s.handed ++ [frame] := by
  unfold Subscriber.putNowait at h ⊢
  split at h
  · rename_i hlength
    rw [if_pos hlength]
    rw [Bool.or_eq_false_iff, decide_eq_false_iff_not] at h
    obtain ⟨hfilled, hfull⟩ := h
    refine ⟨hfilled, ?_, ?_⟩
    · rw [List.length_append, List.length_singleton]
      omega
    · by_cases hunsubscribed : s.unsubscribed = true <;>
        simp [Subscriber.handed, hunsubscribed, List.append_assoc]
  · rename_i hlength
    exact absurd (hspace h) hlength

theorem inv_empty : Bus.empty.Inv where
  history _ := by simp [Bus.empty, List.rtake]
  nodup _ := List.nodup_nil
  subscribed id queueId h := absurd h List.not_mem_nil
  remaining id frame rest h := by simp [Bus.empty] at h
  queue queueId s h := by simp [Bus.empty] at h

theorem Inv.append (hinv : b.Inv) {executionId : String} (hidle : b.publisher executionId = .idle)
    (frame : String) : (b.append executionId frame).Inv where
  history id := by
    by_cases hid : id = executionId
    · subst hid
      simp only [Bus.append, update_self]
      rw [hinv.history id, rtake_append_singleton]
    · simp only [Bus.append, update_of_ne hid]
      exact hinv.history id
  nodup := hinv.nodup
  subscribed := hinv.subscribed
  remaining id f rest h := by
    by_cases hid : id = executionId
    · subst hid
      simp only [Bus.append, update_self, Publisher.delivering.injEq] at h
      obtain ⟨-, rfl⟩ := h
      exact ⟨hinv.nodup id, hinv.subscribed id⟩
    · simp only [Bus.append, update_of_ne hid] at h
      exact hinv.remaining id f rest h
  queue q s hs := by
    have hq := hinv.queue q s hs
    by_cases hid : s.executionId = executionId
    · subst hid
      have hbounds (h : (b.append s.executionId frame).WithinBounds s) : b.WithinBounds s := by
        have hlength := h.1
        simp only [Bus.append, update_self, List.length_append, List.length_singleton] at hlength
        exact ⟨by omega, h.2⟩
      have hnone : b.pending q s = [] := by rw [pending, hidle]
      refine ⟨hq.registered, hq.space, ?_, ?_⟩
      · intro h hsubscribed
        have hdelivered := hq.delivered (hbounds h) hsubscribed
        rw [hnone, List.append_nil] at hdelivered
        have hpending : (b.append s.executionId frame).pending q s = [frame] := by
          simp [pending, Bus.append, hq.registered hsubscribed]
        rw [hpending, hdelivered]
        simp [Bus.append]
      · intro h
        simp only [Bus.append, update_self]
        exact (hq.handed_prefix (hbounds h)).trans (List.prefix_append _ _)
    · refine ⟨hq.registered, hq.space, ?_, ?_⟩
      · intro h
        simp only [WithinBounds, pending, Bus.append, update_of_ne hid] at h ⊢
        exact hq.delivered h
      · intro h
        simp only [WithinBounds, Bus.append, update_of_ne hid] at h ⊢
        exact hq.handed_prefix h

theorem Inv.put (hinv : b.Inv) {executionId frame : String} {rest : List ℕ}
    (hat : b.publisher executionId = .delivering frame (queueId :: rest)) :
    (b.put executionId frame queueId rest).Inv := by
  obtain ⟨hnodup, howns⟩ := hinv.remaining _ _ _ hat
  rw [List.nodup_cons] at hnodup
  obtain ⟨old, hold, hexecution⟩ := howns queueId List.mem_cons_self
  have hkeeps {id : String} {q : ℕ} (h : b.Owns id q) :
      (b.put executionId frame queueId rest).Owns id q :=
    h.modify (putNowait_executionId frame) rfl
  -- a queue that waits for the frame still does, but for the one the frame is put into
  have hpending {q : ℕ} {s : Subscriber} (hq : q ≠ queueId) :
      (b.put executionId frame queueId rest).pending q s = b.pending q s := by
    by_cases hid : s.executionId = executionId
    · subst hid
      simp [pending, Bus.put, hat, hq]
    · simp only [pending, Bus.put, update_of_ne hid]
  refine ⟨hinv.history, hinv.nodup, fun id q hq => hkeeps (hinv.subscribed id q hq), ?_, ?_⟩
  · intro id f rest' h
    by_cases hid : id = executionId
    · subst hid
      simp only [Bus.put, update_self, Publisher.delivering.injEq] at h
      obtain ⟨-, rfl⟩ := h
      exact ⟨hnodup.2, fun q hq => hkeeps (howns q (List.mem_cons_of_mem _ hq))⟩
    · simp only [Bus.put, update_of_ne hid] at h
      obtain ⟨hrest, hother⟩ := hinv.remaining id f rest' h
      exact ⟨hrest, fun q hq => hkeeps (hother q hq)⟩
  · intro q s' hs'
    obtain ⟨s, hs, rfl⟩ := getElem?_modify_eq_some hs'
    have hq := hinv.queue q s hs
    by_cases hsame : queueId = q
    · subst hsame
      rw [if_pos rfl]
      obtain rfl : old = s := Option.some.inj (hold.symm.trans hs)
      have hwas : b.pending queueId old = [frame] := by
        simp [pending, hexecution, hat]
      have hgone : (b.put executionId frame queueId rest).pending queueId (old.putNowait frame)
          = [] := by
        simp [pending, Bus.put, hexecution, hnodup.1]
      have hbounds (h : (b.put executionId frame queueId rest).WithinBounds (old.putNowait frame)) :
          b.WithinBounds old := by
        refine ⟨?_, (putNowait_handed hq.space h.2).1⟩
        have hlength := h.1
        rw [putNowait_executionId] at hlength
        exact hlength
      refine ⟨?_, fun h => (putNowait_handed hq.space h).2.1, ?_, ?_⟩
      · rw [putNowait_unsubscribed, putNowait_executionId]
        exact hq.registered
      · intro h hsubscribed
        rw [putNowait_unsubscribed] at hsubscribed
        have hdelivered := hq.delivered (hbounds h) hsubscribed
        rw [hwas] at hdelivered
        rw [hgone, List.append_nil, (putNowait_handed hq.space h.2).2.2, hsubscribed,
          if_neg Bool.false_ne_true, putNowait_executionId]
        exact hdelivered
      · intro h
        rw [(putNowait_handed hq.space h.2).2.2, putNowait_executionId]
        by_cases hunsubscribed : old.unsubscribed = true
        · rw [if_pos hunsubscribed]
          exact hq.handed_prefix (hbounds h)
        · rw [if_neg hunsubscribed]
          have hdelivered := hq.delivered (hbounds h) (Bool.eq_false_iff.2 hunsubscribed)
          rw [hwas] at hdelivered
          exact ⟨[], by rw [List.append_nil]; exact hdelivered⟩
    · rw [if_neg hsame]
      refine ⟨hq.registered, hq.space, ?_, hq.handed_prefix⟩
      intro h hsubscribed
      rw [hpending (Ne.symm hsame)]
      exact hq.delivered h hsubscribed

theorem Inv.done (hinv : b.Inv) {executionId frame : String}
    (hat : b.publisher executionId = .delivering frame []) : (b.done executionId).Inv where
  history := hinv.history
  nodup := hinv.nodup
  subscribed := hinv.subscribed
  remaining id f rest h := by
    by_cases hid : id = executionId
    · subst hid
      simp [Bus.done] at h
    · simp only [Bus.done, update_of_ne hid] at h
      exact hinv.remaining id f rest h
  queue q s hs := by
    have hq := hinv.queue q s hs
    refine ⟨hq.registered, hq.space, ?_, hq.handed_prefix⟩
    intro h hsubscribed
    have hsame : (b.done executionId).pending q s = b.pending q s := by
      by_cases hid : s.executionId = executionId
      · subst hid
        simp [pending, Bus.done, hat]
      · simp only [pending, Bus.done, update_of_ne hid]
    rw [hsame]
    exact hq.delivered h hsubscribed

/-- A queue after a subscription is one of before or the new one. -/
theorem getElem?_subscribe {executionId : String}
    (h : (b.subscribe executionId).queues[queueId]? = some s) :
    b.queues[queueId]? = some s ∨ queueId = b.queues.length ∧
      s = { executionId, history := b.history executionId, queue := [], received := [],
            filled := false, unsubscribed := false } := by
  exact getElem?_concat_eq_some h

theorem Inv.subscribe (hinv : b.Inv) (executionId : String) : (b.subscribe executionId).Inv := by
  have hkeeps {id : String} {q : ℕ} (h : b.Owns id q) : (b.subscribe executionId).Owns id q := by
    have hlt := h.lt_length
    obtain ⟨s, hs, hid⟩ := h
    refine ⟨s, ?_, hid⟩
    rw [Bus.subscribe, List.getElem?_append_left hlt]
    exact hs
  have hnew : (b.subscribe executionId).Owns executionId b.queues.length := by
    refine ⟨{ executionId, history := b.history executionId, queue := [], received := [],
              filled := false, unsubscribed := false }, ?_, rfl⟩
    rw [Bus.subscribe, List.getElem?_append_right le_rfl, Nat.sub_self]
    rfl
  have hfresh (id : String) : b.queues.length ∉ b.subscribers id := fun h =>
    absurd (hinv.subscribed id _ h).lt_length (lt_irrefl _)
  have hpending (q : ℕ) (s : Subscriber) : (b.subscribe executionId).pending q s = b.pending q s :=
    rfl
  refine ⟨hinv.history, ?_, ?_, fun id f rest h => ?_, ?_⟩
  · intro id
    by_cases hid : id = executionId
    · subst hid
      simp only [Bus.subscribe, update_self]
      rw [List.nodup_append']
      exact ⟨hinv.nodup id, List.nodup_singleton _, by simpa using hfresh id⟩
    · simp only [Bus.subscribe, update_of_ne hid]
      exact hinv.nodup id
  · intro id q hq
    by_cases hid : id = executionId
    · subst hid
      simp only [Bus.subscribe, update_self, List.mem_append, List.mem_singleton] at hq
      rcases hq with hq | rfl
      · exact hkeeps (hinv.subscribed id q hq)
      · exact hnew
    · simp only [Bus.subscribe, update_of_ne hid] at hq
      exact hkeeps (hinv.subscribed id q hq)
  · obtain ⟨hnodup, hrest⟩ := hinv.remaining id f rest h
    exact ⟨hnodup, fun q hq => hkeeps (hrest q hq)⟩
  · intro q s hs
    rcases getElem?_subscribe hs with hs | ⟨rfl, rfl⟩
    · have hq := hinv.queue q s hs
      refine ⟨fun hsubscribed => ?_, hq.space, hq.delivered, hq.handed_prefix⟩
      have hmem := hq.registered hsubscribed
      by_cases hid : s.executionId = executionId
      · subst hid
        simp only [Bus.subscribe, update_self]
        exact List.mem_append_left _ hmem
      · simp only [Bus.subscribe, update_of_ne hid]
        exact hmem
    · have hhistory (h : (b.published executionId).length ≤ eventHistorySize) :
          b.history executionId = b.published executionId := by
        rw [hinv.history, List.rtake, Nat.sub_eq_zero_of_le h, List.drop_zero]
      refine ⟨by simp [Bus.subscribe], fun _ => Nat.zero_lt_succ _, ?_, ?_⟩
      · intro h _
        have hnone : (b.subscribe executionId).pending b.queues.length
            { executionId, history := b.history executionId, queue := [], received := [],
              filled := false, unsubscribed := false } = [] := by
          rw [hpending, pending]
          split
          · rfl
          · rename_i f rest hat
            rw [if_neg]
            exact fun hmem => absurd ((hinv.remaining _ _ _ hat).2 _ hmem).lt_length (lt_irrefl _)
        rw [hnone, Subscriber.handed, List.append_nil, List.append_nil]
        exact hhistory h.1
      · intro h
        rw [Subscriber.handed, List.append_nil]
        exact ⟨[], by rw [List.append_nil]; exact hhistory h.1⟩

theorem Inv.unsubscribe (hinv : b.Inv) (executionId : String) (queueId : ℕ) :
    (b.unsubscribe executionId queueId).Inv := by
  have hkeeps {id : String} {q : ℕ} (h : b.Owns id q) :
      (b.unsubscribe executionId queueId).Owns id q :=
    h.modify (f := fun s =>
      { s with unsubscribed := s.unsubscribed || decide (s.executionId = executionId) })
      (fun _ => rfl) rfl
  have hsublist (id : String) :
      ((b.unsubscribe executionId queueId).subscribers id).Sublist (b.subscribers id) := by
    by_cases hid : id = executionId
    · subst hid
      simp only [Bus.unsubscribe, update_self]
      exact List.erase_sublist
    · simp only [Bus.unsubscribe, update_of_ne hid]
      exact List.Sublist.refl _
  refine ⟨hinv.history, fun id => (hinv.nodup id).sublist (hsublist id),
    fun id q hq => hkeeps (hinv.subscribed id q ((hsublist id).subset hq)), fun id f rest h => ?_, ?_⟩
  · obtain ⟨hnodup, hrest⟩ := hinv.remaining id f rest h
    exact ⟨hnodup, fun q hq => hkeeps (hrest q hq)⟩
  · intro q s' hs'
    obtain ⟨s, hs, rfl⟩ := getElem?_modify_eq_some hs'
    have hq := hinv.queue q s hs
    by_cases hsame : queueId = q
    · subst hsame
      rw [if_pos rfl]
      refine ⟨?_, hq.space, ?_, hq.handed_prefix⟩
      · intro hsubscribed
        simp only [Bool.or_eq_false_iff, decide_eq_false_iff_not] at hsubscribed
        simp only [Bus.unsubscribe, update_of_ne hsubscribed.2]
        exact hq.registered hsubscribed.1
      · intro h hsubscribed
        simp only [Bool.or_eq_false_iff] at hsubscribed
        exact hq.delivered h hsubscribed.1
    · rw [if_neg hsame]
      refine ⟨?_, hq.space, hq.delivered, hq.handed_prefix⟩
      intro hsubscribed
      have hmem := hq.registered hsubscribed
      by_cases hid : s.executionId = executionId
      · subst hid
        simp only [Bus.unsubscribe, update_self]
        exact (List.mem_erase_of_ne (Ne.symm hsame)).2 hmem
      · simp only [Bus.unsubscribe, update_of_ne hid]
        exact hmem

theorem Inv.take (hinv : b.Inv) (queueId : ℕ) : (b.take queueId).Inv := by
  have hkeeps {id : String} {q : ℕ} (h : b.Owns id q) : (b.take queueId).Owns id q :=
    h.modify (f := fun s => { s with queue := s.queue.tail }) (fun _ => rfl) rfl
  refine ⟨hinv.history, hinv.nodup, fun id q hq => hkeeps (hinv.subscribed id q hq),
    fun id f rest h => ?_, ?_⟩
  · obtain ⟨hnodup, hrest⟩ := hinv.remaining id f rest h
    exact ⟨hnodup, fun q hq => hkeeps (hrest q hq)⟩
  · intro q s' hs'
    obtain ⟨s, hs, rfl⟩ := getElem?_modify_eq_some hs'
    have hq := hinv.queue q s hs
    by_cases hsame : queueId = q
    · rw [if_pos hsame]
      refine ⟨hq.registered, fun h => ?_, hq.delivered, hq.handed_prefix⟩
      have hspace := hq.space h
      simp only [List.length_tail]
      omega
    · rw [if_neg hsame]
      exact ⟨hq.registered, hq.space, hq.delivered, hq.handed_prefix⟩

/-- **Every step keeps the invariant.** -/
theorem Inv.step (hinv : b.Inv) {action : Action} {b' : Bus} (h : b.step action = some b') :
    b'.Inv := by
  cases action with
  | append executionId frame =>
    simp only [Bus.step] at h
    split at h
    · rename_i hguard
      obtain rfl := Option.some.inj h
      exact hinv.append hguard.2 frame
    · simp at h
  | put executionId =>
    simp only [Bus.step] at h
    split at h
    · rename_i frame queueId rest hat
      obtain rfl := Option.some.inj h
      exact hinv.put hat
    · simp at h
  | done executionId =>
    simp only [Bus.step] at h
    split at h
    · rename_i frame hat
      obtain rfl := Option.some.inj h
      exact hinv.done hat
    · simp at h
  | subscribe executionId =>
    obtain rfl := Option.some.inj h
    exact hinv.subscribe executionId
  | unsubscribe executionId queueId =>
    obtain rfl := Option.some.inj h
    exact hinv.unsubscribe executionId queueId
  | take queueId =>
    obtain rfl := Option.some.inj h
    exact hinv.take queueId

theorem Inv.run (hinv : b.Inv) {actions : List Action} {b' : Bus} (h : b.run actions = some b') :
    b'.Inv := by
  induction actions generalizing b with
  | nil =>
    obtain rfl := Option.some.inj h
    exact hinv
  | cons action actions ih =>
    rw [Bus.run, List.foldlM_cons] at h
    obtain ⟨b₁, hfirst, hrest⟩ := Option.bind_eq_some_iff.1 h
    exact ih (hinv.step hfirst) hrest

end Bus

/-! ### Delivery -/

/-- **Every subscriber is handed the events of its execution, in order, each once.**  In
every state of every run, as long as the history keeps all events and the queue has never
been full, the history a client was given followed by what has been put into its queue up
to its unsubscription is a prefix of what has been published; while it is subscribed it is
all of it, but for the frame of a publish call in progress. -/
theorem handed_eq_published (actions : List Action) {b : Bus}
    (hrun : Bus.empty.run actions = some b) (queueId : ℕ) {s : Subscriber}
    (hs : b.queues[queueId]? = some s)
    (hpublished : (b.published s.executionId).length ≤ eventHistorySize)
    (hfilled : s.filled = false) :
    s.handed <+: b.published s.executionId ∧
      (s.unsubscribed = false → b.publisher s.executionId = .idle →
        s.handed = b.published s.executionId) ∧
      ∀ frame rest, s.unsubscribed = false →
        b.publisher s.executionId = .delivering frame rest →
          s.handed = b.published s.executionId ∨
            s.handed ++ [frame] = b.published s.executionId := by
  have hq := (Bus.inv_empty.run hrun).queue queueId s hs
  refine ⟨hq.handed_prefix ⟨hpublished, hfilled⟩, fun hsubscribed hidle => ?_,
    fun frame rest hsubscribed hat => ?_⟩
  · have hdelivered := hq.delivered ⟨hpublished, hfilled⟩ hsubscribed
    rwa [Bus.pending, hidle, List.append_nil] at hdelivered
  · have hdelivered := hq.delivered ⟨hpublished, hfilled⟩ hsubscribed
    rw [Bus.pending, hat] at hdelivered
    simp only at hdelivered
    split at hdelivered
    · exact .inr hdelivered
    · rw [List.append_nil] at hdelivered
      exact .inl hdelivered

/-- A client subscribes between two events and is handed both. -/
def lateClient : List Action :=
  [.append "run" "first", .done "run", .subscribe "run", .append "run" "second", .put "run",
   .done "run"]

theorem handed_lateClient : ∃ b s, Bus.empty.run lateClient = some b ∧ b.queues[0]? = some s ∧
    s.handed = b.published s.executionId := by
  refine ⟨_, _, rfl, rfl, ?_⟩
  refine (handed_eq_published lateClient rfl 0 rfl ?_ rfl).2.1 rfl rfl
  decide

end Events
end QualityFlow
