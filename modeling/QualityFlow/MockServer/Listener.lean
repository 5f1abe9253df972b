/-
# The listener of a queue

`MockQueueListenerThread.run` of
`app/mock_servers/services/runtime/mock_queue_listener_thread.py`, with
`build_queue_event_envelope` of `mock_event_envelope.py` and `execute_mock_operations` of
`mock_trigger_executor.py`.

A turn receives a batch of messages, records an invocation, runs the operations of the binding
and acknowledges the messages.  Receiving, running and acknowledging have a handler each.
Between them stand the extraction of the payload and the record of the invocation, which have
none: an exception there ends the thread, and the batch is not acknowledged.

What a turn finds outside is given for it.  `json.loads` is a parameter that tells a value from
a `JSONDecodeError`, which the extraction handles, and from any other exception.
-/

import QualityFlow.MockServer.Registry
import QualityFlow.Py.Except
import QualityFlow.Py.Json
import QualityFlow.Py.Rounds

namespace QualityFlow
namespace MockServer

open Py Rounds

/-! ### The event of a batch -/

/-- What `json.loads` does. -/
inductive Loaded where
  | value (x : Json)
  | decodeError
  | raised (exception : String)

/-- The objects of a body in `_extract_payload_from_messages`. -/
def bodyItems : Json → List (Dict String Json)
  | .obj d => [d]
  | .arr xs => xs.filterMap fun
    | .obj d => some d
    | _ => none
  | .null => []
  | x => [[("value", x)]]

/-- What one message adds to the payload. -/
def messagePayload (loads : String → Loaded) : Json → Except String (List (Dict String Json))
  | .obj m =>
    match (Dict.get? m "Body").getD .null with
    | .str body =>
      match loads body with
      | .value x => .ok (bodyItems x)
      | .decodeError => .ok (bodyItems (.obj [("raw_body", .str body)]))
      | .raised exception => .error exception
    | body => .ok (bodyItems body)
  | _ => .ok []

/-- `_extract_payload_from_messages`. -/
def extractPayload (loads : String → Loaded) (messages : List Json) :
    Except String (List (Dict String Json)) :=
  List.flatten <$> messages.mapM (messagePayload loads)

/-- The event of a batch, without the id and the time it is given. -/
structure QueueEvent where
  mockServerId : String
  triggerId : String
  queueCode : String
  payload : List (Dict String Json)
  messageAttributes : List (Dict String Json)
  messageId : List String

/-- `build_queue_event_envelope`. -/
def buildQueueEventEnvelope (mockServerId queueId queueCode : String)
    (payload : List (Dict String Json)) (messages : List Json) : QueueEvent where
  mockServerId := strip mockServerId
  triggerId := strip queueId
  queueCode := strip queueCode
  payload
  messageAttributes := messages.filterMap fun
    | .obj m =>
      match Dict.get? m "MessageAttributes" with
      | some (.obj attrs) => some attrs
      | _ => none
    | _ => none
  messageId := messages.filterMap fun
    | .obj m =>
      let value := (Dict.get? m "MessageId").getD .null
      let id := if value.truthy then strip value.pyStr else ""
      if id = "" then none else some id
    | _ => none

/-! ### The operations of a batch -/

/-- `MockCommandSnapshot`. -/
structure MockCommandSnapshot where
  id : String
  description : String
  commandCode : String
  configurationJson : Dict String Json
  order : ℤ

/-- `TestOperationEntity`, as `_to_test_operation_snapshot` fills it. -/
structure TestOperationSnapshot where
  id : String
  suiteTestId : String
  code : String
  description : String
  operationType : String
  configurationJson : Dict String Json
  order : ℤ

/-- `_to_test_operation_snapshot`. -/
def toTestOperationSnapshot (sourceId : String) (operation : MockCommandSnapshot) :
    TestOperationSnapshot where
  id := operation.id
  suiteTestId := if sourceId = "" then "mock-runtime" else sourceId
  code := operation.id
  description := operation.description
  operationType := operation.commandCode
  configurationJson := operation.configurationJson
  order := operation.order

/-- `_normalize_input_data`. -/
def normalizeInputData : Json → List (Dict String Json)
  | .arr xs => xs.filterMap fun
    | .obj d => some d
    | _ => none
  | .obj d => [d]
  | _ => []

/-- `_scope_from_source_type`. -/
def scopeFromSourceType (sourceType : String) : String :=
  if lower (strip sourceType) = "api-pre-response" then "mock.preResponse"
  else "mock.postResponse"

/-- A call of `execute_operations`. -/
structure OperationsCall where
  snapshots : List TestOperationSnapshot
  data : List (Dict String Json)
  executionScope : String

/-- What `execute_mock_operations` has done: the call that it made, what it logged, and the
exception that leaves it. -/
structure Executed where
  calls : List OperationsCall
  log : List String
  raised : Option String

/-- `execute_mock_operations`, with what becomes of the operations. -/
def executeMockOperations (triggerId sourceType sourceRef : String)
    (operations : List MockCommandSnapshot) (data : Json) (raiseErrors : Bool)
    (outcome : Except String Unit) : Executed :=
  let normalizedData := normalizeInputData data
  let snapshots := operations.map (toTestOperationSnapshot sourceRef)
  if snapshots.isEmpty then
    { calls := []
      log := ["[" ++ triggerId ++ "] No operations configured for " ++ sourceType ++ " trigger."]
      raised := none }
  else
    let calls : List OperationsCall :=
      [{ snapshots, data := normalizedData, executionScope := scopeFromSourceType sourceType }]
    match outcome with
    | .ok () =>
      { calls
        log := ["[" ++ triggerId ++ "] Executed " ++ toString snapshots.length ++
          " command(s) for " ++ sourceType ++ " trigger."]
        raised := none }
    | .error exception =>
      { calls
        log := ["[" ++ triggerId ++ "] Error executing commands for " ++ sourceType ++ ": " ++
          exception]
        raised := if raiseErrors then some exception else none }

/-! ### The loop -/

/-- `MockQueueBinding`, with its commands. -/
structure ListenerBinding extends MockQueueBinding where
  commands : List MockCommandSnapshot

/-- What one turn finds outside: whether the listener has been stopped, what is received, the
id of the trigger, the id the invocation gets, and what becomes of the operations and of the
acknowledgement. -/
structure ListenerRound where
  stop : Bool
  received : Except String (List Json)
  triggerId : String
  insert : Except String String
  operations : Except String Unit
  ack : Except String Unit

/-- Whether the thread runs, has been stopped, or has been ended by an exception. -/
inductive Phase where
  | running
  | stopped
  | died
deriving DecidableEq

/-- `MockServerInvocationEntity`. -/
structure Invocation where
  id : String
  mockServerId : String
  triggerType : String
  eventJson : QueueEvent

/-- What the listener has received and done. -/
structure ListenerState where
  phase : Phase
  received : List (List Json)
  invocations : List Invocation
  calls : List OperationsCall
  acks : List (List Json)
  log : List String

/-- The listener before its first turn. -/
def ListenerState.start : ListenerState where
  phase := .running
  received := []
  invocations := []
  calls := []
  acks := []
  log := []

section

variable (loads : String → Loaded) (mockServerId : String) (binding : ListenerBinding)

/-- A turn on which messages are received. -/
def handleBatch (round : ListenerRound) (messages : List Json) (s : ListenerState) :
    ListenerState :=
  let s := { s with received := s.received ++ [messages] }
  let queueId := binding.queueId
  match extractPayload loads messages with
  | .error _ => { s with phase := .died }
  | .ok payload =>
    let event := buildQueueEventEnvelope mockServerId binding.queueId queueId payload messages
    match round.insert with
    | .error _ => { s with phase := .died }
    | .ok invocationId =>
      let executed := executeMockOperations round.triggerId "queue" binding.id binding.commands
        (.arr (payload.map .obj)) false round.operations
      let invocation : Invocation :=
        { id := invocationId, mockServerId, triggerType := "queue", eventJson := event }
      let s := { s with
        invocations := s.invocations ++ [invocation]
        calls := s.calls ++ executed.calls
        log := s.log ++ executed.log }
      match executed.raised with
      | some _ => { s with phase := .died }
      | none =>
        let s := { s with acks := s.acks ++ [messages] }
        match round.ack with
        | .ok () => s
        | .error exception =>
          { s with
            log := s.log ++ ["Queue ACK error for queue '" ++ queueId ++ "': " ++ exception] }

/-- One turn of `run`. -/
def listen (round : ListenerRound) (s : ListenerState) : ListenerState :=
  match s.phase with
  | .stopped | .died => s
  | .running =>
    if round.stop then { s with phase := .stopped }
    else
      match round.received with
      | .error exception =>
        { s with
          log := s.log ++
            ["Queue listener error for queue '" ++ binding.queueId ++ "': " ++ exception] }
      | .ok [] => s
      | .ok (m :: ms) => handleBatch loads mockServerId binding round (m :: ms) s

/-- The listener before turn `n`. -/
def listenerAt (rounds : ℕ → ListenerRound) : ℕ → ListenerState :=
  stateAt (listen loads mockServerId binding) rounds .start

/-- No exception ends the thread, only a stop does, and the batches that have been received
are those that have been acknowledged, in order and once each. -/
structure Robust (rounds : ℕ → ListenerRound) : Prop where
  alive : ∀ n, (listenerAt loads mockServerId binding rounds n).phase ≠ .died
  stops : ∀ n, (listenerAt loads mockServerId binding rounds n).phase = .stopped →
    ∃ k < n, (rounds k).stop = true
  acks : ∀ n, (listenerAt loads mockServerId binding rounds n).acks
    = (listenerAt loads mockServerId binding rounds n).received

end

/-- The thread has not been stopped when turn `n` begins. -/
def Unstopped (rounds : ℕ → ListenerRound) (n : ℕ) : Prop := ∀ k ≤ n, (rounds k).stop = false

/-- Every batch that is received before a stop has a payload, and its invocation can be
recorded. -/
def Recorded (loads : String → Loaded) (rounds : ℕ → ListenerRound) : Prop :=
  ∀ n m ms, Unstopped rounds n → (rounds n).received = .ok (m :: ms) →
    (∃ payload, extractPayload loads (m :: ms) = .ok payload) ∧
      ∃ invocationId, (rounds n).insert = .ok invocationId

/-! ### One batch -/

variable {loads : String → Loaded} {mockServerId : String} {binding : ListenerBinding}
  {rounds : ℕ → ListenerRound}

/-- **The operations of a trigger never raise, unless they are told to.** -/
theorem executeMockOperations_raised (triggerId sourceType sourceRef : String)
    (operations : List MockCommandSnapshot) (data : Json) (outcome : Except String Unit) :
    (executeMockOperations triggerId sourceType sourceRef operations data false outcome).raised
      = none := by
  unfold executeMockOperations
  dsimp only
  by_cases hnone : (operations.map (toTestOperationSnapshot sourceRef)).isEmpty = true
  · rw [if_pos hnone]
  · rw [if_neg hnone]
    cases outcome <;> rfl

variable (mockServerId binding) in
/-- A batch that is recorded is acknowledged, whatever becomes of its operations. -/
theorem handleBatch_of_recorded {round : ListenerRound} {messages : List Json}
    {payload : List (Dict String Json)} {invocationId : String} (s : ListenerState)
    (hpayload : extractPayload loads messages = .ok payload)
    (hinsert : round.insert = .ok invocationId) :
    (handleBatch loads mockServerId binding round messages s).phase = s.phase ∧
      (handleBatch loads mockServerId binding round messages s).acks = s.acks ++ [messages] ∧
      (handleBatch loads mockServerId binding round messages s).received
        = s.received ++ [messages] := by
  unfold handleBatch
  simp only [hpayload, hinsert, executeMockOperations_raised]
  cases round.ack <;> exact ⟨rfl, rfl, rfl⟩

/-- A batch that is not recorded ends the thread. -/
theorem handleBatch_of_not_recorded {round : ListenerRound} {messages : List Json}
    (s : ListenerState)
    (h : ¬((∃ payload, extractPayload loads messages = .ok payload) ∧
      ∃ invocationId, round.insert = .ok invocationId)) :
    (handleBatch loads mockServerId binding round messages s).phase = .died := by
  unfold handleBatch
  cases hpayload : extractPayload loads messages with
  | error e => rfl
  | ok payload =>
    cases hinsert : round.insert with
    | error e => rfl
    | ok invocationId => exact absurd ⟨⟨payload, hpayload⟩, invocationId, hinsert⟩ h

/-! ### All batches -/

variable (mockServerId binding) in
/-- A listener that is not stopped and has recorded every batch runs, and has acknowledged
what it has received; one that is stopped has acknowledged what it had received by then. -/
theorem listenerAt_of_recorded (h : Recorded loads rounds) (n : ℕ) :
    (listenerAt loads mockServerId binding rounds n).acks
        = (listenerAt loads mockServerId binding rounds n).received ∧
      ((listenerAt loads mockServerId binding rounds n).phase = .running ∧
          (∀ k < n, (rounds k).stop = false) ∨
        (listenerAt loads mockServerId binding rounds n).phase = .stopped ∧
          ∃ k < n, (rounds k).stop = true) := by
  induction n with
  | zero => exact ⟨rfl, .inl ⟨rfl, fun k hk => absurd hk (Nat.not_lt_zero k)⟩⟩
  | succ n ih =>
    have hnext : listenerAt loads mockServerId binding rounds (n + 1)
        = listen loads mockServerId binding (rounds n)
          (listenerAt loads mockServerId binding rounds n) := rfl
    rw [hnext]
    generalize listenerAt loads mockServerId binding rounds n = s at ih ⊢
    obtain ⟨hacks, ⟨hrun, hbefore⟩ | ⟨hstopped, k, hk, hstop⟩⟩ := ih
    · by_cases hstop : (rounds n).stop = true
      · simp only [listen, hrun, hstop, if_true]
        exact ⟨hacks, .inr ⟨trivial, n, Nat.lt_succ_self n, hstop⟩⟩
      · have hstop' : (rounds n).stop = false := by simpa using hstop
        have hunstopped : ∀ k < n + 1, (rounds k).stop = false := by
          intro k hk
          by_cases hlast : k = n
          · exact hlast ▸ hstop'
          · exact hbefore k (by omega)
        have hall : Unstopped rounds n := fun k hk => hunstopped k (by omega)
        simp only [listen, hrun, hstop', Bool.false_eq_true, if_false]
        rcases hreceived : (rounds n).received with e | ms
        · exact ⟨hacks, .inl ⟨rfl, hunstopped⟩⟩
        · rcases ms with _ | ⟨m, ms⟩
          · exact ⟨hacks, .inl ⟨hrun, hunstopped⟩⟩
          · obtain ⟨⟨payload, hpayload⟩, invocationId, hinsert⟩ := h n m ms hall hreceived
            obtain ⟨hphase, hack, hrec⟩ := handleBatch_of_recorded mockServerId binding s
              hpayload hinsert
            refine ⟨?_, .inl ⟨hphase.trans hrun, hunstopped⟩⟩
            rw [hack, hrec, hacks]
    · simp only [listen, hstopped]
      exact ⟨hacks, .inr ⟨trivial, k, Nat.lt_succ_of_lt hk, hstop⟩⟩

/-- A listener that no exception ends and no stop is requested of is running. -/
theorem Robust.running (h : Robust loads mockServerId binding rounds) {n : ℕ}
    (hunstopped : Unstopped rounds n) :
    (listenerAt loads mockServerId binding rounds n).phase = .running := by
  cases hphase : (listenerAt loads mockServerId binding rounds n).phase with
  | running => rfl
  | died => exact absurd hphase (h.alive n)
  | stopped =>
    obtain ⟨k, hk, hstop⟩ := h.stops n hphase
    rw [hunstopped k hk.le] at hstop
    exact absurd hstop Bool.false_ne_true

/-- **The listener acknowledges every batch and goes on until it is stopped, just where the
invocation of every batch can be recorded.**  The operations and the acknowledgement may
fail. -/
theorem robust_iff (loads : String → Loaded) (mockServerId : String) (binding : ListenerBinding)
    (rounds : ℕ → ListenerRound) :
    Robust loads mockServerId binding rounds ↔ Recorded loads rounds := by
  constructor
  · intro hrobust n m ms hunstopped hreceived
    by_contra hnot
    have hrun := hrobust.running hunstopped
    have hdied : (listenerAt loads mockServerId binding rounds (n + 1)).phase = .died := by
      show (listen loads mockServerId binding (rounds n)
        (listenerAt loads mockServerId binding rounds n)).phase = .died
      simp only [listen, hrun, hunstopped n le_rfl, Bool.false_eq_true, if_false, hreceived]
      exact handleBatch_of_not_recorded _ hnot
    exact hrobust.alive (n + 1) hdied
  · intro hrecorded
    have hall := listenerAt_of_recorded mockServerId binding hrecorded
    refine ⟨fun n hdied => ?_, fun n hstopped => ?_, fun n => (hall n).1⟩
    · rcases (hall n).2 with hrun | hstop
      · simp [hdied] at hrun
      · simp [hdied] at hstop
    · rcases (hall n).2 with hrun | hstop
      · simp [hstopped] at hrun
      · exact hstop.2

/-- A batch of one message, and a database that cannot be written. -/
def lockedRound : ListenerRound where
  stop := false
  received := .ok [.obj [("MessageId", .str "m1"), ("Body", .str "\x7b\x7d")]]
  triggerId := "t1"
  insert := .error "database is locked"
  operations := .ok ()
  ack := .ok ()

theorem locked_not_robust :
    ¬Robust (fun _ => .value (.obj [])) "server"
      { id := "b1", order := 0, queueId := "orders", commands := [] } fun _ => lockedRound := by
  intro hrobust
  have hdied := hrobust.alive 1
  exact hdied rfl

end MockServer
end QualityFlow
