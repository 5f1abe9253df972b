/-
# A page that listens to a run

`_listen_execution_events` of `app/ui/test_suites/services/execution_stream_service.py`, on the
frames that `stream_execution_events` of
`app/elaborations/services/suite_runs/execution_event_bus.py` yields.

A page reads the frames of a stream from the response, one line after the other, and stops at the
first `suite_finished`.  Heartbeats change nothing, and `suite_started` starts the view anew.  So
what a page shows of a run is what the published events say, whenever the page has subscribed and
however often it has waited (`listen_stream`).
-/

import QualityFlow.Events.Frames
import QualityFlow.Events.Stream
import QualityFlow.Ui.ExecutionStream

namespace QualityFlow
namespace Ui

open Py Events
open Events.Frames (SseEvent iterSseEvents splitLines SseReader)

/-! ### What a page reads -/

mutual

/-- A decoded value; a float that is no number is kept by its text, which is all that is read of
it. -/
def dataOf : Value → Json
  | .null => .null
  | .bool b => .bool b
  | .int n => .int n
  | .float (.finite q) => .float q
  | .float x => .str x.repr
  | .str s => .str s
  | .arr xs => .arr (dataList xs)
  | .obj kvs => .obj (dataItems kvs)

def dataList : List Value → List Json
  | [] => []
  | x :: xs => dataOf x :: dataList xs

def dataItems : List (String × Value) → List (String × Json)
  | [] => []
  | (k, x) :: kvs => (k, dataOf x) :: dataItems kvs

end

/-- The events whose data `_apply_event` looks at. -/
def readsData (name : String) : Bool :=
  name ∈ ["suite_progress", "test_started", "hook_started", "test_finished", "hook_finished",
    "operation_finished", "suite_finished"]

/-- The part of `_apply_event` that changes the view, on what `_iter_sse_events` yields;
`data.get` raises where the payload is no object. -/
def applyRead (view : LiveView) (e : String × Value) : Option LiveView :=
  match e.2 with
  | .obj d => applyView view { name := e.1, data := dataItems d }
  | _ => if readsData e.1 then none else applyView view { name := e.1, data := [] }

/-- What a listener may be left with; the text of it is kept as the error of the state. -/
inductive PageError where
  /-- `_apply_event` raises for an event. -/
  | event (e : String × Value)
  /-- The payload of an event cannot be read. -/
  | payload (raised : Raised)
  /-- The request raises. -/
  | request (text : String)

/-- An execution state as the listeners change it: the view, the last events that were read, and
the error of a listener. -/
structure PageState where
  view : LiveView
  events : List (String × Value)
  error : Option PageError

namespace PageState

/-- `_new_execution_state`. -/
def new : PageState where
  view := LiveView.new
  events := []
  error := none

/-- The `except` block of `_listen_execution_events`. -/
def fail (s : PageState) (error : PageError) : PageState :=
  { s with view := { s.view with running := false, status := "error" }, error := some error }

/-- One turn of the loop of `_listen_execution_events`, and whether the loop goes on. -/
def read (s : PageState) (e : String × Value) : PageState × Bool :=
  let s := { s with events := appendEvent s.events e }
  match applyRead s.view e with
  | none => (s.fail (.event e), false)
  | some view => ({ s with view }, e.1 ≠ "suite_finished")

end PageState

/-- The loop of `_listen_execution_events`, and whether it comes to the end of the events. -/
def listen (s : PageState) : List (String × Value) → PageState × Bool
  | [] => (s, true)
  | e :: rest => if (s.read e).2 then listen (s.read e).1 rest else ((s.read e).1, false)

/-- What is read of the frame of an event. -/
def readEvent (e : SseEvent) : String × Value := (e.name.val, .obj e.payload)

/-- `_listen_execution_events` on the lines of a response. -/
def listenLines (s : PageState) (text : String) : PageState :=
  let (events, raised) := iterSseEvents (splitLines text)
  let (s, goesOn) := listen s events
  match goesOn, raised with
  | true, some e => s.fail (.payload e)
  | _, _ => s

theorem listenLines_frames (events : List SseEvent) (s : PageState) :
    listenLines s (String.join (events.map SseEvent.frame)) = (listen s (events.map readEvent)).1 := by
  have hread : iterSseEvents (splitLines (String.join (events.map SseEvent.frame))) =
      (events.map readEvent, none) := Frames.iterSseEvents_join events
  rw [listenLines, hread]
  dsimp only
  cases (listen s (events.map readEvent)).2 <;> rfl

/-! ### Heartbeats -/

/-- The event of a heartbeat. -/
def heartbeatSse (executionId timestamp : String) : SseEvent where
  name := ⟨heartbeatEvent, by decide, by decide⟩
  payload := [("execution_id", .str executionId), ("event", .str heartbeatEvent),
    ("timestamp", .str timestamp)]
  name_line := by
    have hprintable : Value.Printable heartbeatEvent.toList := by decide
    exact fun c hc => Frames.isLineBreak_of_printable (hprintable c hc)
  payload_json := ⟨by simp [Dict.keys], trivial, trivial, trivial, trivial⟩

/-- It is written as a heartbeat is. -/
theorem frame_heartbeatSse (executionId timestamp : String) :
    (heartbeatSse executionId timestamp).frame = serializeSseFrame heartbeatEvent
      [("execution_id", .str executionId), ("event", .str heartbeatEvent),
       ("timestamp", .str timestamp)] := by
  have htext : (Value.obj (heartbeatSse executionId timestamp).payload).dumps =
      .ok ((Json.obj [("execution_id", .str executionId), ("event", .str heartbeatEvent),
        ("timestamp", .str timestamp)]).dumps false) := rfl
  rw [Value.dumps_eq (heartbeatSse executionId timestamp).payload_json] at htext
  exact congrArg (frameText heartbeatEvent) (Except.ok.inj htext)

/-- The events of a response: those published, with heartbeats between them. -/
inductive Padded : List SseEvent → List SseEvent → Prop where
  | nil : Padded [] []
  | event (e : SseEvent) {all events : List SseEvent} (rest : Padded all events) :
      Padded (e :: all) (e :: events)
  | heartbeat (executionId timestamp : String) {all events : List SseEvent}
      (rest : Padded all events) : Padded (heartbeatSse executionId timestamp :: all) events

/-- A state that shows what another one does, over an error from before; they may differ in the
events that are kept. -/
structure ShowsOver (before : Option PageError) (s t : PageState) : Prop where
  view : s.view = t.view
  error : s.error = t.error.or before

/-- Two states that show the same. -/
abbrev ShowsSame : PageState → PageState → Prop := ShowsOver none

theorem ShowsSame.refl (s : PageState) : ShowsSame s s := ⟨rfl, Option.or_none.symm⟩

theorem ShowsOver.read {before : Option PageError} {s t : PageState} (h : ShowsOver before s t)
    (e : String × Value) :
    ShowsOver before (s.read e).1 (t.read e).1 ∧ (s.read e).2 = (t.read e).2 := by
  obtain ⟨hview, herror⟩ := h
  unfold PageState.read
  dsimp only
  rw [hview]
  cases applyRead t.view e with
  | none => exact ⟨⟨rfl, rfl⟩, rfl⟩
  | some view => exact ⟨⟨rfl, herror⟩, rfl⟩

/-- **Heartbeats do not matter to what a page shows.** -/
theorem listen_padded {all events : List SseEvent} (h : Padded all events) {s t : PageState}
    (hsame : ShowsSame s t) :
    ShowsSame (listen s (all.map readEvent)).1 (listen t (events.map readEvent)).1 := by
  induction h generalizing s t with
  | nil => exact hsame
  | event e rest ih =>
    obtain ⟨hread, hgoes⟩ := hsame.read (readEvent e)
    simp only [List.map_cons, listen, hgoes]
    split
    · exact ih hread
    · exact hread
  | heartbeat executionId timestamp rest ih =>
    have hbeat : applyRead s.view (readEvent (heartbeatSse executionId timestamp)) =
        some s.view := rfl
    have hname : (readEvent (heartbeatSse executionId timestamp)).1 ≠ "suite_finished" := by
      show heartbeatEvent ≠ _
      decide
    have hread : (s.read (readEvent (heartbeatSse executionId timestamp))).1.view = s.view ∧
        (s.read (readEvent (heartbeatSse executionId timestamp))).1.error = s.error ∧
        (s.read (readEvent (heartbeatSse executionId timestamp))).2 = true := by
      rw [PageState.read]
      dsimp only
      rw [hbeat]
      exact ⟨rfl, rfl, by simpa using hname⟩
    obtain ⟨hview, herror, hgoes⟩ := hread
    rw [List.map_cons, listen, if_pos hgoes]
    exact ih ⟨hview.trans hsame.view, herror.trans hsame.error⟩

/-! ### A stream, as a page reads it -/

/-- What a stream writes to the response. -/
def written : Yielded → String
  | .frame f => f
  | .heartbeat f => f

/-- A heartbeat of a stream. -/
def Beats (executionId : String) (y : Yielded) : Prop :=
  ∀ f, y = .heartbeat f → ∃ timestamp, f = (heartbeatSse executionId timestamp).frame

theorem beats_streamQueue (executionId : String) (gets : List GetOutcome) :
    ∀ y ∈ (streamQueue executionId gets).1, Beats executionId y := by
  have hframe (g : String) : Beats executionId (.frame g) := by
    intro f hf
    cases hf
  induction gets with
  | nil => simp [streamQueue]
  | cons get gets ih =>
    cases get with
    | frame g =>
      rw [streamQueue]
      split
      · simpa using hframe g
      · rw [List.forall_mem_cons]
        exact ⟨hframe g, ih⟩
    | empty timestamp =>
      rw [streamQueue, List.forall_mem_cons]
      refine ⟨fun f hf => ?_, ih⟩
      cases hf
      exact ⟨timestamp, (frame_heartbeatSse executionId timestamp).symm⟩

theorem beats_stream (executionId : String) (history : List String) (gets : List GetOutcome) :
    ∀ y ∈ (streamExecutionEvents executionId history gets).1, Beats executionId y := by
  have hhistory : ∀ y ∈ history.map Yielded.frame, Beats executionId y := by
    intro y hy f hf
    obtain ⟨g, -, rfl⟩ := List.mem_map.1 hy
    cases hf
  unfold streamExecutionEvents
  split
  · exact hhistory
  · exact List.forall_mem_append.2 ⟨hhistory, beats_streamQueue executionId gets⟩

/-- What a stream writes are the frames it yields, with heartbeats between them. -/
theorem exists_padded {executionId : String} {yields : List Yielded} {events : List SseEvent}
    (hbeats : ∀ y ∈ yields, Beats executionId y)
    (hframes : yields.filterMap Yielded.frame? = events.map SseEvent.frame) :
    ∃ all, Padded all events ∧ yields.map written = all.map SseEvent.frame := by
  induction yields generalizing events with
  | nil =>
    obtain rfl : events = [] := by simpa using hframes.symm
    exact ⟨[], .nil, rfl⟩
  | cons y yields ih =>
    rw [List.forall_mem_cons] at hbeats
    cases y with
    | frame f =>
      cases events with
      | nil => cases hframes
      | cons e events =>
        obtain ⟨hf, hrest⟩ := List.cons.inj hframes
        obtain ⟨all, hpadded, htexts⟩ := ih hbeats.2 hrest
        exact ⟨e :: all, .event e hpadded, by rw [List.map_cons, List.map_cons, htexts, ← hf]; rfl⟩
    | heartbeat f =>
      obtain ⟨all, hpadded, htexts⟩ := ih hbeats.2 hframes
      obtain ⟨timestamp, rfl⟩ := hbeats.1 f rfl
      exact ⟨heartbeatSse executionId timestamp :: all, .heartbeat executionId timestamp hpadded, by
        rw [List.map_cons, List.map_cons, htexts]; rfl⟩

/-- The events that a page applies: those before the first `suite_finished`. -/
def beforeFinished (events : List SseEvent) : List SseEvent :=
  events.takeWhile fun e => e.name.val ≠ "suite_finished"

/-- A page looks at no event behind the first `suite_finished`. -/
theorem listen_take {events : List SseEvent} {n : ℕ}
    (h : (beforeFinished events).length < n ∨ events.length ≤ n) (s : PageState) :
    (listen s ((events.take n).map readEvent)).1 = (listen s (events.map readEvent)).1 := by
  induction events generalizing n s with
  | nil => simp
  | cons e events ih =>
    cases n with
    | zero => simp at h
    | succ n =>
      rw [List.take_succ_cons, List.map_cons, List.map_cons, listen, listen]
      cases hgoes : (s.read (readEvent e)).2 with
      | false => rfl
      | true =>
        rw [if_pos rfl, if_pos rfl]
        refine ih ?_ _
        have hname : e.name.val ≠ "suite_finished" := by
          intro hname
          rw [PageState.read] at hgoes
          dsimp only at hgoes
          split at hgoes
          · cases hgoes
          · simp [readEvent, hname] at hgoes
        rw [beforeFinished, List.takeWhile_cons_of_pos (by simpa using hname)] at h
        simpa [beforeFinished] using h

/-- Where the events before `suite_finished` do not finish a stream, those that do come later. -/
theorem le_of_finishes {events : List SseEvent}
    (hopen : ∀ e ∈ beforeFinished events, finishes e.frame = false) {i : ℕ} {e : SseEvent}
    (hi : events[i]? = some e) (hfinishes : finishes e.frame = true) :
    (beforeFinished events).length ≤ i := by
  by_contra hlt
  rw [not_le] at hlt
  obtain ⟨rest, hrest⟩ : beforeFinished events <+: events := List.takeWhile_prefix _
  have hget : (beforeFinished events ++ rest)[i]? = (beforeFinished events)[i]? :=
    List.getElem?_append_left hlt
  rw [hrest, hi] at hget
  rw [hopen e (List.mem_of_getElem? hget.symm)] at hfinishes
  cases hfinishes

/-- A stream yields so many of the frames that a page is not cut short. -/
theorem exists_take (executionId : String) {history queued : List String}
    {events : List SseEvent} {gets : List GetOutcome}
    (hevents : history ++ queued = events.map SseEvent.frame)
    (hgets : gets.filterMap GetOutcome.frame? = queued)
    (hopen : ∀ e ∈ beforeFinished events, finishes e.frame = false) :
    ∃ n, ((beforeFinished events).length < n ∨ events.length ≤ n) ∧
      (streamExecutionEvents executionId history gets).1.filterMap Yielded.frame?
        = (events.take n).map SseEvent.frame := by
  have hframes := (streamExecutionEvents_frames executionId history gets).1
  have hlength : history.length + queued.length = events.length := by
    have hlengths := congrArg List.length hevents
    simpa using hlengths
  have hfound {i : ℕ} {f : String} (hi : (history ++ queued)[i]? = some f)
      (hf : finishes f = true) : (beforeFinished events).length ≤ i := by
    rw [hevents, List.getElem?_map] at hi
    obtain ⟨e, he, rfl⟩ := Option.map_eq_some_iff.1 hi
    exact le_of_finishes hopen he hf
  rw [hgets] at hframes
  by_cases hhistory : history.any finishes = true
  · refine ⟨history.length, .inl ?_, ?_⟩
    · obtain ⟨f, hmem, hf⟩ := List.any_eq_true.1 hhistory
      obtain ⟨i, hi, rfl⟩ := List.getElem_of_mem hmem
      have hget : (history ++ queued)[i]? = some history[i] := by
        rw [List.getElem?_append_left hi, List.getElem?_eq_getElem hi]
      have hle := hfound hget hf
      omega
    · rw [hframes, if_pos hhistory, List.append_nil, List.map_take, ← hevents, List.take_left]
  · refine ⟨history.length + (queued.findIdx finishes + 1), ?_, ?_⟩
    · by_cases hlt : queued.findIdx finishes < queued.length
      · left
        have hf : finishes queued[queued.findIdx finishes] = true := List.findIdx_getElem
        have hle := hfound (i := history.length + queued.findIdx finishes) (by
          rw [List.getElem?_append_right (by omega), Nat.add_sub_cancel_left,
            List.getElem?_eq_getElem hlt]) hf
        omega
      · right
        omega
    · rw [hframes, if_neg hhistory, List.map_take, ← hevents, List.take_length_add_append]

/-- **What a page shows of a run is what the published events say.**  In every run of the bus, a
page whose stream has been handed every event published so far shows what it would show from
those events alone: when it has subscribed and how often it has waited makes no difference.  The
history is to keep all events, the queue never to have been full, and no event before the first
`suite_finished` to have a text that finishes a stream. -/
theorem listen_stream (actions : List Action) {b : Bus} (hrun : Bus.empty.run actions = some b)
    {queueId : ℕ} {s : Subscriber} (hs : b.queues[queueId]? = some s) (hbounds : b.WithinBounds s)
    (hsubscribed : s.unsubscribed = false) (hidle : b.publisher s.executionId = .idle)
    {events : List SseEvent} (hevents : b.published s.executionId = events.map SseEvent.frame)
    (hopen : ∀ e ∈ beforeFinished events, finishes e.frame = false)
    {gets : List GetOutcome} (hgets : gets.filterMap GetOutcome.frame? = s.received)
    (state : PageState) :
    ShowsSame
      (listenLines state (String.join
        ((streamExecutionEvents s.executionId s.history gets).1.map written)))
      (listen state (events.map readEvent)).1 := by
  have hdelivered := ((Bus.inv_empty.run hrun).queue queueId s hs).delivered hbounds hsubscribed
  rw [Bus.pending, hidle, List.append_nil, Subscriber.handed, hevents] at hdelivered
  obtain ⟨n, hn, hframes⟩ := exists_take s.executionId hdelivered hgets hopen
  obtain ⟨all, hpadded, htexts⟩ := exists_padded (beats_stream s.executionId s.history gets) hframes
  rw [htexts, listenLines_frames, ← listen_take hn]
  exact listen_padded hpadded (.refl state)

/-- The start of a suite. -/
def suiteStarted : SseEvent where
  name := ⟨"suite_started", by decide, by decide⟩
  payload := []
  name_line := by
    have hprintable : Value.Printable "suite_started".toList := by decide
    exact fun c hc => Frames.isLineBreak_of_printable (hprintable c hc)
  payload_json := ⟨by decide, trivial⟩

/-- The first of two tests is over. -/
def suiteProgress : SseEvent where
  name := ⟨"suite_progress", by decide, by decide⟩
  payload := [("executed_tests", .int 1), ("total_tests", .int 2)]
  name_line := by
    have hprintable : Value.Printable "suite_progress".toList := by decide
    exact fun c hc => Frames.isLineBreak_of_printable (hprintable c hc)
  payload_json := by
    have hdigits : (2 : ℕ) < 10 ^ maxStrDigits :=
      lt_of_lt_of_le (by decide : 2 < 10 ^ 1) (Nat.pow_le_pow_right (by decide) (by decide))
    exact ⟨by decide, lt_trans (by decide : (1 : ℕ) < 2) hdigits, hdigits, trivial⟩

/-- A page that comes after the first event, waits, and takes the second from its queue. -/
theorem listen_stream_late : ∃ (b : Bus) (s : Subscriber),
    b.published s.executionId = [suiteStarted, suiteProgress].map SseEvent.frame ∧
      s.received.length = 1 ∧
      ∀ gets : List GetOutcome, gets.filterMap GetOutcome.frame? = s.received →
        ShowsSame
          (listenLines PageState.new (String.join ((streamExecutionEvents s.executionId s.history
            gets).1.map written)))
          (listen PageState.new ([suiteStarted, suiteProgress].map readEvent)).1 := by
  have hopen : ∀ e ∈ beforeFinished [suiteStarted, suiteProgress], finishes e.frame = false := by
    have hstarted : finishes suiteStarted.frame = false := by decide +kernel
    have hprogress : finishes suiteProgress.frame = false := by decide +kernel
    intro e he
    have hmem : e ∈ [suiteStarted, suiteProgress] := (List.takeWhile_prefix _).subset he
    rcases List.mem_pair.1 hmem with rfl | rfl
    · exact hstarted
    · exact hprogress
  -- the frames stay variables while the bus runs
  have hrun (f g : String) : ∃ (b : Bus) (s : Subscriber), Bus.empty.run [.append "run" f,
      .done "run", .subscribe "run", .append "run" g, .put "run", .done "run"] = some b ∧
      b.queues[0]? = some s ∧ s.executionId = "run" ∧ s.received = [g] ∧ s.filled = false ∧
      s.unsubscribed = false ∧ b.publisher "run" = .idle ∧ b.published "run" = [f, g] :=
    ⟨_, _, rfl, rfl, rfl, rfl, rfl, rfl, rfl, rfl⟩
  obtain ⟨b, s, hb, hs, hid, hreceived, hfilled, hsubscribed, hidle, hpublished⟩ :=
    hrun suiteStarted.frame suiteProgress.frame
  rw [← hid] at hidle hpublished
  have hlength : (b.published s.executionId).length ≤ eventHistorySize := by
    rw [hpublished, List.length_cons, List.length_singleton]
    decide
  have hevents : b.published s.executionId =
      [suiteStarted, suiteProgress].map SseEvent.frame := hpublished
  refine ⟨b, s, hevents, by rw [hreceived]; rfl, fun gets hgets => ?_⟩
  exact listen_stream _ hb hs ⟨hlength, hfilled⟩ hsubscribed hidle hevents hopen hgets _

end Ui
end QualityFlow
