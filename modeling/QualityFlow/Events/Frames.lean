/-
# Frames, and how a client reads them

`_serialize_sse_frame` of `app/elaborations/services/suite_runs/execution_event_bus.py` and
`_iter_sse_events` of `app/ui/test_suites/services/execution_stream_service.py`.

A frame is a line with the name of an event, a line with its payload and an empty line.  A
client strips each line it gets, keeps a name and the data lines until an empty line, and then
starts anew.  The payload is written as JSON in ASCII, so no line breaks and no blank at an
end get into a frame with it, and after a frame the client is where it was before.  There is
no frame for a payload with an integer that is too long to be written.
-/

import QualityFlow.Events.Stream
import QualityFlow.Py.JsonRead

namespace QualityFlow
namespace Events
namespace Frames

open Py

/-! ### Writing -/

/-- `_serialize_sse_frame`. -/
def serializeSseFrame (eventName : String) (data : Dict String Value) : Except Raised String := do
  let payload ← (Value.obj data).dumps
  return frameText eventName payload

/-! ### Lines -/

/-- The characters that `str.splitlines` ends a line at. -/
def lineBreakCodes : List ℕ := [0xa, 0xb, 0xc, 0xd, 0x1c, 0x1d, 0x1e, 0x85, 0x2028, 0x2029]

/-- A character that ends a line. -/
def isLineBreak (c : Char) : Bool := lineBreakCodes.contains c.toNat

/-- `text.splitlines()`, with what there is of the line so far. -/
def splitLinesFrom (line : List Char) : List Char → List String
  | [] => if line = [] then [] else [String.ofList line]
  | '\r' :: '\n' :: cs => String.ofList line :: splitLinesFrom [] cs
  | c :: cs =>
    if isLineBreak c then String.ofList line :: splitLinesFrom [] cs
    else splitLinesFrom (line ++ [c]) cs

/-- `text.splitlines()`. -/
def splitLines (text : String) : List String := splitLinesFrom [] text.toList

/-! ### Reading -/

/-- What a client keeps from line to line. -/
structure SseReader where
  eventName : String
  dataLines : List String
deriving DecidableEq

/-- A client at the start of a frame. -/
def SseReader.new : SseReader where
  eventName := "message"
  dataLines := []

/-- `line.split(":", 1)[1]`. -/
def afterColon (line : String) : String :=
  String.ofList ((line.toList.dropWhile (· ≠ ':')).drop 1)

/-- `s.lstrip()`. -/
def lstrip (s : String) : String := String.ofList (s.toList.dropWhile isSpace)

/-- The payload of the data lines: what is no JSON is handed on as it is. -/
def readPayload (payloadRaw : String) : Except Raised Value :=
  match Value.loads payloadRaw with
  | .ok payload => .ok payload
  | .error .jsonDecodeError => .ok (.obj [("raw", .str payloadRaw)])
  | .error e => .error e

/-- One turn of the loop, with what is yielded in it. -/
def SseReader.read (r : SseReader) (rawLine : String) :
    Except Raised (SseReader × List (String × Value)) :=
  let line := strip rawLine
  if line = "" then
    if r.dataLines = [] then .ok (.new, [])
    else do
      let payload ← readPayload ("\n".intercalate r.dataLines)
      return (.new, [(r.eventName, payload)])
  else if startsWith line ":" then .ok (r, [])
  else if startsWith line "event:" then
    let name := strip (afterColon line)
    .ok ({ r with eventName := if name = "" then "message" else name }, [])
  else if startsWith line "data:" then
    .ok ({ r with dataLines := r.dataLines ++ [lstrip (afterColon line)] }, [])
  else .ok (r, [])

/-- The loop over the lines: what is yielded, and the error the loop is left with. -/
def SseReader.readAll (r : SseReader) : List String → List (String × Value) × Option Raised
  | [] => ([], none)
  | line :: lines =>
    match r.read line with
    | .error e => ([], some e)
    | .ok (r', yielded) =>
      let (rest, raised) := r'.readAll lines
      (yielded ++ rest, raised)

/-- `_iter_sse_events`, on the lines of a response. -/
def iterSseEvents (lines : List String) : List (String × Value) × Option Raised :=
  SseReader.new.readAll lines

/-! ### The lines of a frame -/

theorem splitLinesFrom_append {cs : List Char} (h : ∀ c ∈ cs, isLineBreak c = false)
    (line rest : List Char) :
    splitLinesFrom line (cs ++ '\n' :: rest) =
      String.ofList (line ++ cs) :: splitLinesFrom [] rest := by
  induction cs generalizing line with
  | nil =>
    rw [List.nil_append, List.append_nil, splitLinesFrom]
    · rfl
    · simp
  | cons c cs ih =>
    obtain ⟨hc, hcs⟩ := List.forall_mem_cons.1 h
    have hreturn : c ≠ '\r' := by
      rintro rfl
      exact absurd hc (by decide)
    rw [List.cons_append, splitLinesFrom, if_neg (by simp [hc]), ih hcs]
    · simp
    · rintro - heq
      exact absurd heq hreturn

/-- A line is split off at its end. -/
theorem splitLinesFrom_line {cs : List Char} (h : ∀ c ∈ cs, isLineBreak c = false)
    (rest : List Char) :
    splitLinesFrom [] (cs ++ '\n' :: rest) = String.ofList cs :: splitLinesFrom [] rest :=
  splitLinesFrom_append h [] rest

theorem isLineBreak_of_printable {c : Char} (h : 32 ≤ c.toNat ∧ c.toNat ≤ 126) :
    isLineBreak c = false := by
  have hcodes : ∀ n ∈ lineBreakCodes, n < 32 ∨ 126 < n := by decide
  rw [isLineBreak, Bool.eq_false_iff, Ne, List.contains_iff_mem]
  intro hmem
  have := hcodes _ hmem
  omega

/-- A text with no blank at its ends is what `strip` leaves of it. -/
theorem strip_of_ends {cs : List Char} (hhead : ∀ c ∈ cs.head?, isSpace c = false)
    (hlast : ∀ c ∈ cs.getLast?, isSpace c = false) :
    strip (String.ofList cs) = String.ofList cs := by
  cases cs with
  | nil => rfl
  | cons c cs =>
    refine strip_eq_self (hhead c rfl) ?_
    rw [hlast _ (List.getLast?_eq_getLast_of_ne_nil (List.cons_ne_nil c cs))]
    exact Bool.false_ne_true

/-- The mark of a line with a name. -/
def nameMark : List Char := ['e', 'v', 'e', 'n', 't', ':', ' ']

/-- The mark of a line with data. -/
def dataMark : List Char := ['d', 'a', 't', 'a', ':', ' ']

/-- An event: a trimmed name on one line, and a payload that JSON has. -/
structure SseEvent where
  name : Token
  payload : Dict String Value
  name_line : ∀ c ∈ name.val.toList, isLineBreak c = false
  payload_json : (Value.obj payload).IsJson

namespace SseEvent

variable (e : SseEvent)

/-- The line with the name. -/
def nameLine : List Char := nameMark ++ e.name.val.toList

/-- The line with the payload. -/
def dataLine : List Char := dataMark ++ (Value.obj e.payload).jsonChars

/-- The frame of an event. -/
def frame : String := frameText e.name.val (String.ofList (Value.obj e.payload).jsonChars)

/-- An event is written as its frame. -/
theorem serializeSseFrame_eq : serializeSseFrame e.name.val e.payload = .ok e.frame := by
  rw [serializeSseFrame, Value.dumps_eq e.payload_json, ok_bind, pure_eq_ok, frame]

theorem toList_frame (rest : List Char) : e.frame.toList ++ rest =
    e.nameLine ++ '\n' :: (e.dataLine ++ '\n' :: '\n' :: rest) := by
  have hname : "event: ".toList = nameMark := rfl
  have hdata : "\ndata: ".toList = '\n' :: dataMark := rfl
  have hend : "\n\n".toList = ['\n', '\n'] := rfl
  rw [frame, frameText, String.toList_append, String.toList_append, String.toList_append,
    String.toList_append, hname, hdata, hend, String.toList_ofList, nameLine, dataLine]
  simp only [List.append_assoc, List.cons_append, List.nil_append]

theorem nameLine_one : ∀ c ∈ e.nameLine, isLineBreak c = false := by
  have hmark : Value.Printable nameMark := by decide
  intro c hc
  rcases List.mem_append.1 hc with hc | hc
  · exact isLineBreak_of_printable (hmark c hc)
  · exact e.name_line c hc

/-- **No line ends in a payload.** -/
theorem dataLine_one : ∀ c ∈ e.dataLine, isLineBreak c = false := by
  have hmark : Value.Printable dataMark := by decide
  intro c hc
  rcases List.mem_append.1 hc with hc | hc
  · exact isLineBreak_of_printable (hmark c hc)
  · exact isLineBreak_of_printable (Value.printable_jsonChars _ e.payload_json c hc)

/-- The lines of a frame are its three lines. -/
theorem splitLinesFrom_frame (rest : List Char) : splitLinesFrom [] (e.frame.toList ++ rest) =
    String.ofList e.nameLine :: String.ofList e.dataLine :: "" :: splitLinesFrom [] rest := by
  have hnone : ∀ c ∈ ([] : List Char), isLineBreak c = false := List.forall_mem_nil _
  have hempty := splitLinesFrom_line hnone rest
  rw [List.nil_append] at hempty
  rw [toList_frame, splitLinesFrom_line e.nameLine_one, splitLinesFrom_line e.dataLine_one, hempty]

/-! ### What a client makes of them -/

theorem toList_name_ne_nil : e.name.val.toList ≠ [] := by
  intro hnil
  exact e.name.ne_empty (by rw [← String.ofList_toList (s := e.name.val), hnil])

theorem strip_nameLine : strip (String.ofList e.nameLine) = String.ofList e.nameLine := by
  have hne := e.toList_name_ne_nil
  refine strip_of_ends ?_ fun c hc => ?_
  · have hhead : e.nameLine.head? = some 'e' := rfl
    rw [hhead]
    rintro c ⟨⟩
    decide
  · rw [nameLine, List.getLast?_append_of_ne_nil _ hne,
      List.getLast?_eq_getLast_of_ne_nil hne] at hc
    obtain rfl := Option.some.inj hc
    simpa using getLast_not_space e.name.strip_val hne

/-- An object is written up to its closing brace. -/
theorem exists_fieldsTail (kvs : List (String × Value)) :
    ∃ cs, Value.fieldsTail kvs = cs ++ ['\x7d'] := by
  induction kvs with
  | nil => exact ⟨[], rfl⟩
  | cons kv kvs ih =>
    obtain ⟨k, x⟩ := kv
    obtain ⟨cs, hcs⟩ := ih
    refine ⟨',' :: ' ' :: ((Json.dumpStr k).toList ++ ':' :: ' ' :: (x.jsonChars ++ cs)), ?_⟩
    rw [Value.fieldsTail, hcs]
    simp only [List.cons_append, List.append_assoc]

theorem exists_jsonChars_obj (kvs : List (String × Value)) :
    ∃ cs, (Value.obj kvs).jsonChars = '\x7b' :: (cs ++ ['\x7d']) := by
  rcases kvs with _ | ⟨⟨k, x⟩, kvs⟩
  · exact ⟨[], rfl⟩
  · obtain ⟨cs, hcs⟩ := exists_fieldsTail kvs
    refine ⟨(Json.dumpStr k).toList ++ ':' :: ' ' :: (x.jsonChars ++ cs), ?_⟩
    rw [Value.jsonChars, hcs]
    simp only [List.cons_append, List.append_assoc]

theorem strip_dataLine : strip (String.ofList e.dataLine) = String.ofList e.dataLine := by
  obtain ⟨cs, hcs⟩ := exists_jsonChars_obj e.payload
  refine strip_of_ends ?_ fun c hc => ?_
  · have hhead : e.dataLine.head? = some 'd' := rfl
    rw [hhead]
    rintro c ⟨⟩
    decide
  · rw [dataLine, hcs, ← List.cons_append, ← List.append_assoc, List.getLast?_concat] at hc
    obtain rfl := Option.some.inj hc
    decide

/-- **A line with a name sets the name.** -/
theorem read_nameLine (r : SseReader) :
    r.read (String.ofList e.nameLine) = .ok ({ r with eventName := e.name.val }, []) := by
  have hempty : String.ofList e.nameLine ≠ "" := by
    intro h
    have := congrArg String.toList h
    rw [String.toList_ofList] at this
    exact absurd this (List.cons_ne_nil _ _)
  have hcomment : startsWith (String.ofList e.nameLine) ":" = false := by
    rw [startsWith, String.toList_ofList (l := e.nameLine)]
    rfl
  have hmark : startsWith (String.ofList e.nameLine) "event:" = true := by
    rw [startsWith, String.toList_ofList (l := e.nameLine)]
    rfl
  have hafter : afterColon (String.ofList e.nameLine) =
      String.ofList (' ' :: e.name.val.toList) := by
    rw [afterColon, String.toList_ofList]
    rfl
  have hname : strip (String.ofList (' ' :: e.name.val.toList)) = e.name.val := by
    rw [strip, String.toList_ofList, List.dropWhile_cons_of_pos (by decide)]
    exact e.name.strip_val
  unfold SseReader.read
  simp only [e.strip_nameLine, if_neg hempty, hcomment, hmark, hafter, hname,
    if_neg e.name.ne_empty, Bool.false_eq_true, if_false, if_true]

/-- **A line with data adds the data.** -/
theorem read_dataLine (r : SseReader) : r.read (String.ofList e.dataLine) =
    .ok ({ r with
      dataLines := r.dataLines ++ [String.ofList (Value.obj e.payload).jsonChars] }, []) := by
  have hempty : String.ofList e.dataLine ≠ "" := by
    intro h
    have := congrArg String.toList h
    rw [String.toList_ofList] at this
    exact absurd this (List.cons_ne_nil _ _)
  have hcomment : startsWith (String.ofList e.dataLine) ":" = false := by
    rw [startsWith, String.toList_ofList (l := e.dataLine)]
    rfl
  have hname : startsWith (String.ofList e.dataLine) "event:" = false := by
    rw [startsWith, String.toList_ofList (l := e.dataLine)]
    rfl
  have hmark : startsWith (String.ofList e.dataLine) "data:" = true := by
    rw [startsWith, String.toList_ofList (l := e.dataLine)]
    rfl
  have hafter : afterColon (String.ofList e.dataLine) =
      String.ofList (' ' :: (Value.obj e.payload).jsonChars) := by
    rw [afterColon, String.toList_ofList]
    rfl
  have hdata : lstrip (String.ofList (' ' :: (Value.obj e.payload).jsonChars)) =
      String.ofList (Value.obj e.payload).jsonChars := by
    obtain ⟨cs, hcs⟩ := exists_jsonChars_obj e.payload
    rw [lstrip, String.toList_ofList, List.dropWhile_cons_of_pos (by decide), hcs,
      List.dropWhile_cons_of_neg (by decide)]
  unfold SseReader.read
  simp only [e.strip_dataLine, if_neg hempty, hcomment, hname, hmark, hafter, hdata,
    Bool.false_eq_true, if_false, if_true]

/-- **An empty line yields the event, and the client starts anew.** -/
theorem read_empty :
    SseReader.read { eventName := e.name.val
                     dataLines := [String.ofList (Value.obj e.payload).jsonChars] } "" =
      .ok (.new, [(e.name.val, .obj e.payload)]) := by
  have hjoin : "\n".intercalate [String.ofList (Value.obj e.payload).jsonChars] =
      String.ofList (Value.obj e.payload).jsonChars := rfl
  unfold SseReader.read
  simp only [strip_empty, if_true, hjoin, readPayload, Value.loads_jsonChars e.payload_json]
  rfl

/-- A frame is read as its event. -/
theorem readAll_frame (lines : List String) :
    SseReader.new.readAll
        (String.ofList e.nameLine :: String.ofList e.dataLine :: "" :: lines) =
      ((e.name.val, .obj e.payload) :: (SseReader.new.readAll lines).1,
        (SseReader.new.readAll lines).2) := by
  simp only [SseReader.readAll, read_nameLine, read_dataLine, SseReader.new, List.nil_append]
  rw [read_empty]
  rfl

end SseEvent

/-- Frames are read as the events that they were written for. -/
theorem iterSseEvents_join (events : List SseEvent) :
    iterSseEvents (splitLines (String.join (events.map SseEvent.frame))) =
      (events.map fun e => (e.name.val, .obj e.payload), none) := by
  rw [iterSseEvents, splitLines]
  induction events with
  | nil => rfl
  | cons e events ih =>
    have hjoin : (String.join ((e :: events).map SseEvent.frame)).toList =
        e.frame.toList ++ (String.join (events.map SseEvent.frame)).toList := by
      rw [List.map_cons, String.join_cons, String.toList_append]
    rw [hjoin, e.splitLinesFrom_frame, e.readAll_frame, ih]
    rfl

/-- What is claimed of a list of events: each is written, and a client that gets the lines of
what was written is given the events, in their order. -/
def RoundTrips (events : List (String × Dict String Value)) : Prop :=
  ∃ frames, events.mapM (fun e => serializeSseFrame e.1 e.2) = .ok frames ∧
    iterSseEvents (splitLines (String.join frames)) =
      (events.map fun e => (e.1, .obj e.2), none)

/-- **Frames are read as the events that they were written for**, in their order. -/
theorem roundTrips_events (events : List SseEvent) :
    RoundTrips (events.map fun e => (e.name.val, e.payload)) := by
  refine ⟨events.map SseEvent.frame, ?_, ?_⟩
  · induction events with
    | nil => rfl
    | cons e events ih =>
      rw [List.map_cons, List.mapM_cons, e.serializeSseFrame_eq, ok_bind, ih, ok_bind, pure_eq_ok,
        List.map_cons]
  · rw [iterSseEvents_join, List.map_map]
    rfl

/-- There is no frame for a payload with an integer that is too long. -/
theorem not_roundTrips_of_long {n : ℤ} (hn : ¬n.natAbs < 10 ^ maxStrDigits)
    (name key : String) : ¬RoundTrips [(name, [(key, .int n)])] := by
  rintro ⟨frames, hframes, -⟩
  obtain ⟨frame, hframe⟩ := item_of_mapM hframes _ (List.mem_singleton_self _)
  obtain ⟨payload, hpayload, -⟩ := bind_eq_ok.1 hframe
  obtain ⟨text, htext⟩ := (Form.exists_dumps _).1 ⟨payload, hpayload⟩ (intText n)
    (List.mem_singleton_self _)
  rw [id, intText, if_neg hn] at htext
  cases htext

/-- An integer of 4301 digits. -/
theorem longInt_not_roundTrips :
    ¬RoundTrips [("execution_log", [("total", .int ((10 ^ maxStrDigits : ℕ) : ℤ))])] := by
  refine not_roundTrips_of_long ?_ "execution_log" "total"
  rw [Int.natAbs_natCast]
  exact lt_irrefl _

/-- A payload may hold line breaks, the marks of lines and characters beyond ASCII. -/
example : SseEvent where
  name := ⟨"execution_log", by decide, by decide⟩
  payload :=
    [("message", .str "data: a\n\nevent: b\r\n: \u2028\u00e9\u0007"),
      ("ratio", .float (.finite (-5 / 2))),
      ("nested", .arr [.null, .obj [("", .float (.infinite true))]])]
  name_line := by
    have hprintable : Value.Printable "execution_log".toList := by decide
    exact fun c hc => isLineBreak_of_printable (hprintable c hc)
  payload_json := by
    have hnested : Value.IsJson (.obj [("", .float (.infinite true))]) :=
      ⟨by decide, ⟨by decide, trivial⟩, trivial⟩
    refine ⟨by decide, trivial, ⟨by decide, ?_⟩, ⟨trivial, hnested, trivial⟩, trivial⟩
    show Double.ofRat (-5 / 2) = .finite (-5 / 2)
    decide +kernel

end Frames
end Events
end QualityFlow
