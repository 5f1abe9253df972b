/-
# The event stream of a run

`stream_execution_events` and `_serialize_sse_frame` of
`app/elaborations/services/suite_runs/execution_event_bus.py`, on what the executors of
`app/elaborations/services/suite_runs/suite_executor_thread.py` and
`app/elaborations/services/test_suites/test_suite_executor_thread.py` publish.

A stream gives the history it is handed and then what it takes from its queue, and stops
at a frame that contains `event: execution_finished`, wherever in the frame it does.  That
is how the closing event of the suite executor starts; the closing event of the test-suite
executor is `suite_finished`.
-/

import Mathlib.Data.List.Infix
import QualityFlow.Events.Bus
import QualityFlow.Py.Dumps

namespace QualityFlow
namespace Events

open Py

/-! ### Frames -/

/-- The text of a frame, from the text of its payload. -/
def frameText (eventName payload : String) : String :=
  "event: " ++ eventName ++ "\ndata: " ++ payload ++ "\n\n"

/-- `_serialize_sse_frame`. -/
def serializeSseFrame (eventName : String) (data : List (String × Json)) : String :=
  frameText eventName ((Json.obj data).dumps false)

/-- A call of `publish_execution_event`, with the time it is made at. -/
structure Event where
  name : String
  payload : List (String × Json)
  timestamp : String

/-- The frame that `publish_execution_event` appends. -/
def Event.frame (executionId : String) (e : Event) : String :=
  serializeSseFrame e.name (Dict.update
    [("execution_id", .str executionId), ("event", .str e.name), ("timestamp", .str e.timestamp)]
    e.payload)

/-! ### The stream -/

/-- `p in s`. -/
def contains (s p : String) : Bool := s.toList.tails.any fun suffix => p.toList.isPrefixOf suffix

/-- The check by which a stream stops. -/
def finishes (frame : String) : Bool := contains frame "event: execution_finished"

/-- What `queue.get` does: it gives a frame, or raises `Empty` at some time. -/
inductive GetOutcome where
  | frame (frame : String)
  | empty (timestamp : String)

/-- What a stream yields. -/
inductive Yielded where
  | frame (frame : String)
  | heartbeat (frame : String)

def GetOutcome.frame? : GetOutcome → Option String
  | .frame f => some f
  | .empty _ => none

def Yielded.frame? : Yielded → Option String
  | .frame f => some f
  | .heartbeat _ => none

/-- `_HEARTBEAT_EVENT`. -/
def heartbeatEvent : String := "heartbeat"

/-- The loop of `stream_execution_events`, and whether it ends: it still waits where the
queue has nothing more to give. -/
def streamQueue (executionId : String) : List GetOutcome → List Yielded × Bool
  | [] => ([], false)
  | .frame f :: gets =>
    if finishes f then ([.frame f], true)
    else
      let (yields, returned) := streamQueue executionId gets
      (.frame f :: yields, returned)
  | .empty timestamp :: gets =>
    let (yields, returned) := streamQueue executionId gets
    (.heartbeat (serializeSseFrame heartbeatEvent
      [("execution_id", .str executionId), ("event", .str heartbeatEvent),
       ("timestamp", .str timestamp)]) :: yields, returned)

/-- `stream_execution_events`, from the history it is handed and what its queue gives. -/
def streamExecutionEvents (executionId : String) (history : List String) (gets : List GetOutcome) :
    List Yielded × Bool :=
  if history.any finishes then (history.map .frame, true)
  else
    let (yields, returned) := streamQueue executionId gets
    (history.map .frame ++ yields, returned)

/-! ### What a stream yields -/

/-- The loop stops at the first frame that finishes, and yields every frame up to it. -/
theorem streamQueue_frames (executionId : String) (gets : List GetOutcome) :
    (streamQueue executionId gets).1.filterMap Yielded.frame?
        = (gets.filterMap GetOutcome.frame?).take
            ((gets.filterMap GetOutcome.frame?).findIdx finishes + 1) ∧
      (streamQueue executionId gets).2 = (gets.filterMap GetOutcome.frame?).any finishes := by
  induction gets with
  | nil => exact ⟨rfl, rfl⟩
  | cons get gets ih =>
    obtain ⟨hyields, hreturned⟩ := ih
    cases get with
    | frame f =>
      have hframes : (GetOutcome.frame f :: gets).filterMap GetOutcome.frame?
          = f :: gets.filterMap GetOutcome.frame? := rfl
      rw [streamQueue, hframes, List.findIdx_cons, List.any_cons]
      cases hfinishes : finishes f with
      | true => exact ⟨rfl, rfl⟩
      | false =>
        rw [if_neg Bool.false_ne_true, cond_false, Bool.false_or, List.take_succ_cons]
        exact ⟨congrArg (f :: ·) hyields, hreturned⟩
    | empty timestamp => exact ⟨hyields, hreturned⟩

theorem frames_map (frames : List String) :
    (frames.map Yielded.frame).filterMap Yielded.frame? = frames := by
  rw [List.filterMap_map]
  exact List.filterMap_some

theorem gets_map (frames : List String) :
    (frames.map GetOutcome.frame).filterMap GetOutcome.frame? = frames := by
  rw [List.filterMap_map]
  exact List.filterMap_some

/-- What a stream yields and whether it ends, from the frames that its client is handed
and those that its queue gives. -/
theorem streamExecutionEvents_frames (executionId : String) (history : List String)
    (gets : List GetOutcome) :
    let queued := gets.filterMap GetOutcome.frame?
    (streamExecutionEvents executionId history gets).1.filterMap Yielded.frame?
        = history ++ (if history.any finishes then []
            else queued.take (queued.findIdx finishes + 1)) ∧
      (streamExecutionEvents executionId history gets).2
        = (history.any finishes || queued.any finishes) := by
  obtain ⟨hyields, hreturned⟩ := streamQueue_frames executionId gets
  unfold streamExecutionEvents
  cases hhistory : history.any finishes with
  | true =>
    rw [if_pos rfl]
    refine ⟨?_, rfl⟩
    rw [if_pos rfl, List.append_nil]
    exact frames_map history
  | false =>
    refine ⟨?_, hreturned⟩
    rw [if_neg Bool.false_ne_true, ← hyields]
    calc (history.map Yielded.frame ++ (streamQueue executionId gets).1).filterMap Yielded.frame?
        = (history.map Yielded.frame).filterMap Yielded.frame?
            ++ (streamQueue executionId gets).1.filterMap Yielded.frame? := List.filterMap_append
      _ = history ++ (streamQueue executionId gets).1.filterMap Yielded.frame? := by
          rw [frames_map]

/-- A client that subscribes after `k` of the frames is handed the last of them that the
history keeps, and takes the others from its queue, however long it waits for each: its
stream yields every frame up to the closing one, and those published before it came, and
ends. -/
def EndsAtClosing (executionId : String) (before : List String) (closing : String)
    (after : List String) : Prop :=
  ∀ published, published = before ++ closing :: after → ∀ k ≤ published.length,
    ∀ gets : List GetOutcome, gets.filterMap GetOutcome.frame? = published.drop k →
      let stream :=
        streamExecutionEvents executionId ((published.take k).rtake eventHistorySize) gets
      stream.1.filterMap Yielded.frame? = published.take (max k (before.length + 1)) ∧
        stream.2 = true

/-- The first frame that finishes, where none before it does. -/
theorem findIdx_finishes {before : List String} {closing : String} {after : List String}
    (hbefore : ∀ f ∈ before, finishes f = false) (hclosing : finishes closing = true) :
    (before ++ closing :: after).findIdx finishes = before.length := by
  induction before with
  | nil => rw [List.nil_append, List.findIdx_cons, hclosing, cond_true, List.length_nil]
  | cons f before ih =>
    rw [List.cons_append, List.findIdx_cons, hbefore f List.mem_cons_self, cond_false,
      ih fun g hg => hbefore g (List.mem_cons_of_mem _ hg), List.length_cons]

/-- **A stream ends at the closing frame, whenever its client subscribes, just where the
history keeps every frame of the run, and the closing frame is the first that finishes.** -/
theorem endsAtClosing_iff (executionId : String) (before : List String) (closing : String)
    (after : List String) :
    EndsAtClosing executionId before closing after
      ↔ (before ++ closing :: after).length ≤ eventHistorySize ∧ finishes closing = true ∧
        ∀ f ∈ before, finishes f = false := by
  unfold EndsAtClosing
  generalize eventHistorySize = size
  have hlt : before.length < (before ++ closing :: after).length := by
    rw [List.length_append, List.length_cons]
    omega
  constructor
  · intro hends
    constructor
    · -- a client that comes last is handed no more than the history keeps
      have hlast := (hends _ rfl _ le_rfl [] (by rw [List.drop_length]; rfl)).1
      rw [(streamExecutionEvents_frames executionId _ []).1, List.take_length,
        List.take_of_length_le (le_max_left _ _)] at hlast
      have hkept := congrArg List.length hlast
      simp only [List.filterMap_nil, List.take_nil, ite_self, List.append_nil, List.rtake,
        List.length_drop] at hkept
      omega
    · -- a client that comes first takes every frame from its queue
      obtain ⟨hyields, hreturned⟩ := hends _ rfl 0 (Nat.zero_le _)
        ((before ++ closing :: after).map .frame) (gets_map _)
      have hframes := streamExecutionEvents_frames executionId
        (((before ++ closing :: after).take 0).rtake size)
        ((before ++ closing :: after).map .frame)
      have hempty : ((before ++ closing :: after).take 0).rtake size = [] :=
        rtake_of_length_le (Nat.zero_le _)
      rw [hempty] at hyields hreturned hframes
      rw [gets_map] at hframes
      have hany : (before ++ closing :: after).any finishes = true :=
        hframes.2.symm.trans hreturned
      have hfirst : (before ++ closing :: after).findIdx finishes
          < (before ++ closing :: after).length :=
        List.findIdx_lt_length_of_exists (List.any_eq_true.mp hany)
      have htake := congrArg List.length (hframes.1.symm.trans hyields)
      simp only [List.any_nil, Bool.false_eq_true, if_false, List.nil_append,
        List.length_take] at htake
      have hidx : (before ++ closing :: after).findIdx finishes = before.length := by omega
      constructor
      · have hfound := List.findIdx_getElem (w := hfirst)
        simpa [hidx] using hfound
      · intro f hf
        obtain ⟨i, hi, rfl⟩ := List.getElem_of_mem hf
        have hi' : i < (before ++ closing :: after).findIdx finishes := by omega
        have hnot := List.not_of_lt_findIdx hi'
        rw [List.getElem_append_left hi] at hnot
        exact hnot
  · rintro ⟨hlength, hclosing, hbefore⟩ _ rfl k hk gets hgets
    obtain ⟨hyields, hreturned⟩ := streamExecutionEvents_frames executionId
      (((before ++ closing :: after).take k).rtake size) gets
    have hkept : ((before ++ closing :: after).take k).rtake size
        = (before ++ closing :: after).take k :=
      rtake_of_length_le (le_trans (List.length_take_le' _ _) hlength)
    rw [hkept, hgets] at hyields hreturned
    rw [hkept]
    rcases Nat.lt_or_ge before.length k with hlate | hearly
    · -- the closing frame is in the history
      have hhistory : ((before ++ closing :: after).take k).any finishes = true := by
        refine List.any_eq_true.mpr ⟨closing, ?_, hclosing⟩
        obtain ⟨d, rfl⟩ := Nat.exists_eq_add_of_lt hlate
        rw [List.take_append, Nat.add_assoc, Nat.add_sub_cancel_left, List.take_succ_cons]
        exact List.mem_append_right _ List.mem_cons_self
      rw [hhistory, if_pos rfl, List.append_nil] at hyields
      rw [hhistory, Bool.true_or] at hreturned
      rw [Nat.max_eq_left hlate]
      exact ⟨hyields, hreturned⟩
    · -- the stream comes to the closing frame in its queue
      have hhistory : ((before ++ closing :: after).take k).any finishes = false := by
        rw [List.take_append_of_le_length hearly]
        refine List.any_eq_false.mpr fun f hf => ?_
        rw [hbefore f (List.mem_of_mem_take hf)]
        exact Bool.false_ne_true
      have hqueued : (before ++ closing :: after).drop k
          = before.drop k ++ closing :: after := List.drop_append_of_le_length hearly
      have hfirst : ((before ++ closing :: after).drop k).findIdx finishes
          = before.length - k := by
        rw [hqueued, findIdx_finishes (fun f hf => hbefore f (List.mem_of_mem_drop hf)) hclosing,
          List.length_drop]
      have htake : k + (before.length - k + 1) = max k (before.length + 1) := by omega
      rw [hhistory, if_neg Bool.false_ne_true, hfirst, ← List.take_add, htake] at hyields
      refine ⟨hyields, hreturned.trans ?_⟩
      rw [hhistory, Bool.false_or, hqueued]
      refine List.any_eq_true.mpr ⟨closing, ?_, hclosing⟩
      exact List.mem_append_right _ List.mem_cons_self

/-- In a run of the bus that has published no more than the history keeps, a client that
is still subscribed is where `EndsAtClosing` has it: its history and its queue part what
has been published in two. -/
theorem history_queue_split {b : Bus} (hinv : b.Inv) {queueId : ℕ} {s : Subscriber}
    (hs : b.queues[queueId]? = some s) (hbounds : b.WithinBounds s)
    (hsubscribed : s.unsubscribed = false) (hidle : b.publisher s.executionId = .idle) :
    s.history = ((b.published s.executionId).take s.history.length).rtake eventHistorySize ∧
      s.received = (b.published s.executionId).drop s.history.length := by
  have hdelivered := (hinv.queue queueId s hs).delivered hbounds hsubscribed
  rw [Bus.pending, hidle, List.append_nil, Subscriber.handed] at hdelivered
  have hlength : s.history.length ≤ eventHistorySize := by
    have := hbounds.1
    rw [← hdelivered, List.length_append] at this
    omega
  rw [← hdelivered, List.take_left, List.drop_left, rtake_of_length_le hlength]
  exact ⟨rfl, rfl⟩

/-! ### The runs of the two engines -/

inductive Engine where
  /-- `suite_executor_thread.py`. -/
  | suite
  /-- `test_suite_executor_thread.py`. -/
  | testSuite
deriving DecidableEq

/-- The event that `_execute` closes a run with. -/
def Engine.closingEvent : Engine → String
  | .suite => "execution_finished"
  | .testSuite => "suite_finished"

/-- What a run publishes: its events, the closing one, and the log event that follows it. -/
structure Published where
  engine : Engine
  executionId : String
  before : List Event
  payload : List (String × Json)
  timestamp : String
  after : List Event

def Published.closing (r : Published) : String :=
  Event.frame r.executionId ⟨r.engine.closingEvent, r.payload, r.timestamp⟩

def Published.framesBefore (r : Published) : List String := r.before.map (Event.frame r.executionId)

def Published.framesAfter (r : Published) : List String := r.after.map (Event.frame r.executionId)

/-- The closing frame of the suite executor finishes, whatever its payload says. -/
theorem closing_finishes {r : Published} (h : r.engine = .suite) : finishes r.closing = true := by
  have hstart : "event: execution_finished".toList.isPrefixOf r.closing.toList = true := by
    rw [List.isPrefixOf_iff_prefix]
    unfold Published.closing Event.frame serializeSseFrame frameText
    simp only [h, Engine.closingEvent, String.toList_append, List.append_assoc _ _ "\n\n".toList]
    exact List.prefix_append ("event: ".toList ++ "execution_finished".toList) _
  refine List.any_eq_true.mpr ⟨r.closing.toList, ?_, hstart⟩
  exact (List.mem_tails _ _).mpr List.suffix_rfl

/-- **The stream of a run ends at its closing event, for every client, just where the run
publishes no more frames than the history keeps, and its closing frame, and no frame
before it, contains `event: execution_finished`.** -/
theorem stream_endsAtClosing_iff (r : Published) :
    EndsAtClosing r.executionId r.framesBefore r.closing r.framesAfter
      ↔ r.before.length + 1 + r.after.length ≤ eventHistorySize ∧ finishes r.closing = true ∧
        ∀ e ∈ r.before, finishes (e.frame r.executionId) = false := by
  rw [endsAtClosing_iff]
  have hlength : (r.framesBefore ++ r.closing :: r.framesAfter).length
      = r.before.length + 1 + r.after.length := by
    rw [List.length_append, List.length_cons, Published.framesBefore, Published.framesAfter,
      List.length_map, List.length_map]
    omega
  rw [hlength, Published.framesBefore, List.forall_mem_map]

/-- A run of the test-suite executor on a suite without tests and hooks. -/
def emptyTestSuite : Published where
  engine := .testSuite
  executionId := "e1"
  before := [
    ⟨"suite_started", [("test_suite_execution_id", .str "x1"), ("test_suite_id", .str "s1"),
      ("test_suite_description", .str "orders"), ("target_test_id", .null),
      ("include_previous", .bool false)], "t0"⟩,
    ⟨"suite_progress", [("test_suite_execution_id", .str "x1"), ("executed_tests", .int 0),
      ("total_tests", .int 0)], "t1"⟩]
  payload := [("test_suite_execution_id", .str "x1"), ("status", .str "success"), ("error", .null)]
  timestamp := "t2"
  after := [
    ⟨"execution_log", [("subject_type", .str "SUITE_EXECUTION"), ("subject", .str "s1"),
      ("level", .str "INFO"), ("message", .str "Finished execution of suite 'orders'"),
      ("payload", .obj [("status", .str "success")]), ("suite_id", .null),
      ("suite_test_id", .null)], "t3"⟩]

/-- Its stream waits after `suite_finished`, for whichever client. -/
theorem emptyTestSuite_waits :
    ¬EndsAtClosing emptyTestSuite.executionId emptyTestSuite.framesBefore emptyTestSuite.closing
      emptyTestSuite.framesAfter := by
  have hclosing : finishes emptyTestSuite.closing = false := by decide +kernel
  rw [endsAtClosing_iff]
  rintro ⟨-, hfinishes, -⟩
  rw [hclosing] at hfinishes
  cases hfinishes

end Events
end QualityFlow
