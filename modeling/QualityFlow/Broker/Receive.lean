/-
# Receiving from a queue

`ReceiveQueueOperationExecutor` of
`app/elaborations/services/operations/receive_queue_command_executor.py`.

The loop asks for the messages that are still wanted.  An answer with messages leaves fewer of
them wanted, and an empty answer leaves fewer empty polls, so each turn lowers the sum of the
two.  The loop keeps a record of its polls, which the source does not: what has been collected
is the messages of the record, and what the record says was asked and answered.

The broker is given by its answers, which may depend on how many messages are asked for.
`json.loads` is a parameter, and so are the queue that the identifier names and
`write_context_path`.
-/

import Mathlib.Data.List.TakeDrop
import QualityFlow.Py.Json
import QualityFlow.Py.Lists
import QualityFlow.Py.Loops

namespace QualityFlow
namespace Broker

open Py

/-! ### The command -/

/-- `ReceiveQueueConfigurationCommandDto`. -/
structure ReceiveQueueCfg where
  queueId : String
  maxMessages : ℤ
  retry : ℤ
  target : Option String

/-- A call of `service.receive_messages` that returned. -/
structure Poll where
  asked : ℤ
  messages : List Json

/-- The messages of the polls. -/
def received (polls : List Poll) : List Json := polls.flatMap Poll.messages

/-- The polls that returned nothing. -/
def emptyAnswers (polls : List Poll) : ℕ := polls.countP fun poll => poll.messages.isEmpty

/-- What the loop leaves: its polls, what it has collected, and the error of the call that
ended it, if one did. -/
structure Polling where
  polls : List Poll
  collected : List Json
  raised : Option String

section

variable (receive : ℕ → ℤ → Except String (List Json)) (maxMessages : ℤ)

/-- The loop `while retries_remaining >= 0 and len(collected) < cfg.max_messages`. -/
def receiveLoop (retriesRemaining : ℤ) (polls : List Poll) (collected : List Json) : Polling :=
  if 0 ≤ retriesRemaining ∧ (collected.length : ℤ) < maxMessages then
    let remainingSlots := maxMessages - collected.length
    match receive polls.length remainingSlots with
    | .error e => ⟨polls, collected, some e⟩
    | .ok (m :: ms) =>
      receiveLoop retriesRemaining (polls ++ [⟨remainingSlots, m :: ms⟩]) (collected ++ m :: ms)
    | .ok [] =>
      if retriesRemaining = 0 then ⟨polls ++ [⟨remainingSlots, []⟩], collected, none⟩
      else receiveLoop (retriesRemaining - 1) (polls ++ [⟨remainingSlots, []⟩]) collected
  else ⟨polls, collected, none⟩
termination_by (maxMessages - collected.length).toNat + retriesRemaining.toNat
decreasing_by
  · simp only [List.length_append, List.length_cons]
    omega
  · omega

/-- The loop from its start. -/
def receiveMessages (retry : ℤ) : Polling := receiveLoop receive maxMessages (max retry 0) [] []

end

section

variable (loads : String → Except String Json)

/-- The row of message `index`. -/
def receivedRow (index : ℕ) : Json → Except String Json
  | .obj message =>
    match (Dict.get? message "Body").getD (.obj message) with
    | .str body =>
      match loads body with
      | .ok row => .ok row
      | .error e => .error ("Invalid body in message " ++ toString (index + 1) ++ ": " ++ e)
    | body => .ok body
  | _ => .error ("Message " ++ toString (index + 1) ++ " is not valid JSON.")

/-- The rows of the collected messages. -/
def receivedRows (collected : List Json) : Except String (List Json) :=
  enumM (receivedRow loads) 0 collected

/-- `ExecutionResultDto`. -/
structure ReceiveOutcome where
  data : List Json
  result : List Json

/-- What the command returns for its rows. -/
def receiveOutcome (code : String) (rows : List Json) : ReceiveOutcome where
  data := rows
  result := [.obj [("message", .str ("Loaded " ++ toString rows.length ++
    " row(s) from queue '" ++ code ++ "'."))]]

variable (write : String → List Json → Except String Unit)

/-- The rows written to the target, where the command has one. -/
def ReceiveQueueCfg.writeTarget (cfg : ReceiveQueueCfg) (rows : List Json) : Except String Unit :=
  match cfg.target with
  | none => .ok ()
  | some target => if target = "" then .ok () else write target rows

/-- `ReceiveQueueOperationExecutor.execute`. -/
def ReceiveQueueCfg.execute (cfg : ReceiveQueueCfg) (queue : String → Option String)
    (receive : ℕ → ℤ → Except String (List Json)) : Except String ReceiveOutcome := do
  match queue cfg.queueId with
  | none => .error ("Queue '" ++ cfg.queueId ++ "' not found")
  | some code =>
    let polling := receiveMessages receive cfg.maxMessages cfg.retry
    match polling.raised with
    | some e => .error e
    | none =>
      let rows ← receivedRows loads polling.collected
      cfg.writeTarget write rows
      .ok (receiveOutcome code rows)

end

/-! ### The record of the polls -/

section

variable {receive : ℕ → ℤ → Except String (List Json)} {maxMessages : ℤ}

@[simp] theorem received_nil : received [] = [] := rfl

@[simp] theorem received_concat (polls : List Poll) (poll : Poll) :
    received (polls ++ [poll]) = received polls ++ poll.messages := by
  simp [received]

@[simp] theorem emptyAnswers_nil : emptyAnswers [] = 0 := rfl

theorem emptyAnswers_concat_nil (polls : List Poll) (asked : ℤ) :
    emptyAnswers (polls ++ [⟨asked, []⟩]) = emptyAnswers polls + 1 := by
  simp [emptyAnswers]

theorem emptyAnswers_concat_cons (polls : List Poll) (asked : ℤ) (m : Json) (ms : List Json) :
    emptyAnswers (polls ++ [⟨asked, m :: ms⟩]) = emptyAnswers polls := by
  simp [emptyAnswers]

/-- Each poll asked for what the polls before it left wanted, and was answered. -/
structure Recorded (receive : ℕ → ℤ → Except String (List Json)) (maxMessages : ℤ)
    (polls : List Poll) : Prop where
  asked : ∀ i poll, polls[i]? = some poll →
    poll.asked = maxMessages - (received (polls.take i)).length
  wanted : ∀ poll ∈ polls, 0 < poll.asked
  answered : ∀ i poll, polls[i]? = some poll → receive i poll.asked = .ok poll.messages

theorem Recorded.nil : Recorded receive maxMessages [] where
  asked := by simp
  wanted := by simp
  answered := by simp

/-- One more poll. -/
theorem Recorded.concat {polls : List Poll} (h : Recorded receive maxMessages polls)
    (hmore : ((received polls).length : ℤ) < maxMessages) {messages : List Json}
    (hanswer : receive polls.length (maxMessages - (received polls).length) = .ok messages) :
    Recorded receive maxMessages
      (polls ++ [⟨maxMessages - (received polls).length, messages⟩]) where
  asked i poll hi := by
    rcases getElem?_concat_eq_some hi with hold | ⟨rfl, rfl⟩
    · have hlt : i < polls.length := (List.getElem?_eq_some_iff.1 hold).1
      rw [List.take_append_of_le_length hlt.le]
      exact h.asked i poll hold
    · simp
  wanted poll hpoll := by
    rcases List.mem_append.1 hpoll with hold | hlast
    · exact h.wanted poll hold
    · obtain rfl := List.mem_singleton.1 hlast
      show 0 < maxMessages - ((received polls).length : ℤ)
      omega
  answered i poll hi := by
    rcases getElem?_concat_eq_some hi with hold | ⟨rfl, rfl⟩
    · exact h.answered i poll hold
    · exact hanswer

/-- Each poll that returned something adds a message. -/
theorem length_polls_le (polls : List Poll) :
    polls.length ≤ (received polls).length + emptyAnswers polls := by
  induction polls with
  | nil => exact le_rfl
  | cons poll polls ih =>
    have hreceived : received (poll :: polls) = poll.messages ++ received polls := by
      simp [received]
    rw [hreceived, List.length_append, List.length_cons]
    rcases hmessages : poll.messages with _ | ⟨m, ms⟩
    · have : emptyAnswers (poll :: polls) = emptyAnswers polls + 1 := by
        simp [emptyAnswers, hmessages]
      simp only [List.length_nil]
      omega
    · have : emptyAnswers (poll :: polls) = emptyAnswers polls := by
        simp [emptyAnswers, hmessages]
      simp only [List.length_cons]
      omega

/-- A broker that keeps to what it is asked for never goes beyond what is wanted. -/
theorem Recorded.length_le {polls : List Poll} (h : Recorded receive maxMessages polls)
    (hmax : 0 ≤ maxMessages)
    (hkeeps : ∀ i asked messages, 0 < asked → receive i asked = .ok messages →
      (messages.length : ℤ) ≤ asked) :
    ((received polls).length : ℤ) ≤ maxMessages := by
  rcases List.eq_nil_or_concat' polls with rfl | ⟨before, last, rfl⟩
  · exact hmax
  · have hlast : (before ++ [last])[before.length]? = some last := getElem?_concat_length _ _
    have hasked : last.asked = maxMessages - (received before).length := by
      have := h.asked before.length last hlast
      rwa [List.take_left] at this
    have hbound : (last.messages.length : ℤ) ≤ last.asked :=
      hkeeps before.length last.asked last.messages
        (h.wanted last (List.mem_append_right _ (List.mem_singleton_self _)))
        (h.answered before.length last hlast)
    rw [received_concat, List.length_append]
    push_cast
    omega

/-! ### The loop -/

/-- What holds when the loop has ended. -/
structure Polled (receive : ℕ → ℤ → Except String (List Json)) (maxMessages retry : ℤ)
    (polling : Polling) : Prop where
  recorded : Recorded receive maxMessages polling.polls
  collected : polling.collected = received polling.polls
  empty : (emptyAnswers polling.polls : ℤ) ≤ max retry 0 + 1
  ended : polling.raised = none →
    maxMessages ≤ polling.collected.length ∨ (emptyAnswers polling.polls : ℤ) = max retry 0 + 1
  raised : ∀ e, polling.raised = some e →
    receive polling.polls.length (maxMessages - polling.collected.length) = .error e

/-- The loop goes on from any record: the empty polls that are left and those that were made
are the retries. -/
theorem receiveLoop_spec {retry retriesRemaining : ℤ} {polls : List Poll} {collected : List Json}
    (hrecorded : Recorded receive maxMessages polls) (hcollected : collected = received polls)
    (hleft : 0 ≤ retriesRemaining)
    (hretry : (emptyAnswers polls : ℤ) + retriesRemaining = max retry 0) :
    Polled receive maxMessages retry
      (receiveLoop receive maxMessages retriesRemaining polls collected) := by
  fun_induction receiveLoop receive maxMessages retriesRemaining polls collected with
  | case1 retriesRemaining polls collected hgo slots e hanswer =>
    subst hcollected
    have hempty : (emptyAnswers polls : ℤ) ≤ max retry 0 + 1 := by omega
    exact ⟨hrecorded, rfl, hempty, by simp, by rintro _ ⟨⟩; exact hanswer⟩
  | case2 retriesRemaining polls collected hgo slots m ms hanswer ih =>
    subst hcollected
    refine ih (hrecorded.concat hgo.2 hanswer) (by simp) hleft ?_
    rw [emptyAnswers_concat_cons]
    exact hretry
  | case3 polls collected slots hanswer hgo =>
    subst hcollected
    have hempty := emptyAnswers_concat_nil polls slots
    refine ⟨hrecorded.concat hgo.2 hanswer, by simp, ?_, fun _ => .inr ?_, by simp⟩
    · show (emptyAnswers (polls ++ [⟨slots, []⟩]) : ℤ) ≤ _
      omega
    · show (emptyAnswers (polls ++ [⟨slots, []⟩]) : ℤ) = _
      omega
  | case4 retriesRemaining polls collected hgo slots hanswer hzero ih =>
    subst hcollected
    have hempty := emptyAnswers_concat_nil polls slots
    refine ih (hrecorded.concat hgo.2 hanswer) (by simp) ?_ ?_
    · omega
    · omega
  | case5 retriesRemaining polls collected hstop =>
    have hempty : (emptyAnswers polls : ℤ) ≤ max retry 0 + 1 := by omega
    have hfull : maxMessages ≤ (collected.length : ℤ) := by omega
    exact ⟨hrecorded, hcollected, hempty, fun _ => .inl hfull, by simp⟩

theorem receiveMessages_spec (receive : ℕ → ℤ → Except String (List Json))
    (maxMessages retry : ℤ) :
    Polled receive maxMessages retry (receiveMessages receive maxMessages retry) :=
  receiveLoop_spec Recorded.nil rfl (le_max_right _ _) (by simp)

end

/-! ### The rows -/

section

variable (loads : String → Except String Json)

/-- The body of a message: what it has under `Body`, or the message itself, a text being
parsed. -/
inductive IsBody : Json → Json → Prop
  | parsed {message : Dict String Json} {text : String} {body : Json}
      (hbody : (Dict.get? message "Body").getD (.obj message) = .str text)
      (hparsed : loads text = .ok body) : IsBody (.obj message) body
  | plain {message : Dict String Json} {body : Json}
      (hbody : (Dict.get? message "Body").getD (.obj message) = body)
      (hplain : ∀ text, body ≠ .str text) : IsBody (.obj message) body

variable {loads}

theorem receivedRow_eq_ok {index : ℕ} {message row : Json} :
    receivedRow loads index message = .ok row ↔ IsBody loads message row := by
  constructor
  · intro h
    unfold receivedRow at h
    split at h
    · split at h
      · rename_i text htext
        split at h
        · rename_i parsed hparsed
          obtain rfl := Except.ok.inj h
          exact .parsed htext hparsed
        · cases h
      · rename_i hplain
        obtain rfl := Except.ok.inj h
        exact .plain rfl hplain
    · cases h
  · rintro (⟨hbody, hparsed⟩ | ⟨rfl, hplain⟩)
    · simp only [receivedRow, hbody, hparsed]
    · unfold receivedRow
      dsimp only
      split
      · rename_i text htext
        exact absurd htext (hplain text)
      · rfl

/-- The rows of messages that all have a body. -/
theorem exists_receivedRows {collected : List Json}
    (h : ∀ message ∈ collected, ∃ row, IsBody loads message row) :
    ∃ rows, receivedRows loads collected = .ok rows ∧
      List.Forall₂ (IsBody loads) collected rows := by
  have hread : ∀ message ∈ collected, ∀ i, ∃ row, receivedRow loads i message = .ok row := by
    intro message hmessage i
    obtain ⟨row, hrow⟩ := h message hmessage
    exact ⟨row, receivedRow_eq_ok.2 hrow⟩
  obtain ⟨rows, hrows⟩ := exists_enumM_eq_ok 0 hread
  refine ⟨rows, hrows, (forall₂_of_enumM hrows).imp ?_⟩
  rintro message row ⟨i, hi⟩
  exact receivedRow_eq_ok.1 hi

end

/-! ### The command against a broker -/

section

variable {loads : String → Except String Json} {write : String → List Json → Except String Unit}

/-- A loop that has ended and messages that can be read give the outcome. -/
theorem ReceiveQueueCfg.execute_eq_ok (cfg : ReceiveQueueCfg) {queue : String → Option String}
    {code : String} {receive : ℕ → ℤ → Except String (List Json)} {rows : List Json}
    (hqueue : queue cfg.queueId = some code)
    (hraised : (receiveMessages receive cfg.maxMessages cfg.retry).raised = none)
    (hrows : receivedRows loads (receiveMessages receive cfg.maxMessages cfg.retry).collected
      = .ok rows) (hwrite : cfg.writeTarget write rows = .ok ()) :
    cfg.execute loads write queue receive = .ok (receiveOutcome code rows) := by
  simp only [ReceiveQueueCfg.execute, hqueue, hraised, hrows, hwrite, ok_bind]

end

/-- What the command does against a broker that answers every call. -/
structure Collects (loads : String → Except String Json)
    (write : String → List Json → Except String Unit) (cfg : ReceiveQueueCfg)
    (queue : String → Option String) (answers : ℕ → ℤ → List Json) (polling : Polling) :
    Prop where
  answered : polling.raised = none ∧
    Recorded (fun i asked => .ok (answers i asked)) cfg.maxMessages polling.polls
  terminates : (polling.polls.length : ℤ) ≤ cfg.maxMessages + (max cfg.retry 0 + 1)
  collected : polling.collected = received polling.polls
  bounded : (polling.collected.length : ℤ) ≤ cfg.maxMessages
  empty : (emptyAnswers polling.polls : ℤ) ≤ max cfg.retry 0 + 1
  early : (emptyAnswers polling.polls : ℤ) < max cfg.retry 0 + 1 →
    (polling.collected.length : ℤ) = cfg.maxMessages
  rows : (queue cfg.queueId).isSome →
    (∀ message ∈ received polling.polls, ∃ row, IsBody loads message row) →
    ∃ rows, List.Forall₂ (IsBody loads) (received polling.polls) rows ∧
      (cfg.writeTarget write rows = .ok () →
        ∃ outcome, cfg.execute loads write queue (fun i asked => .ok (answers i asked))
          = .ok outcome ∧ outcome.data = rows)

/-- **The receive loop ends with what it asked for, or after its empty polls.**  Whatever the
broker answers, it collects the messages of its polls in their order, never more than are
wanted, and stops before the last empty poll only when it has all of them. -/
theorem receiveMessages_collects (loads : String → Except String Json)
    (write : String → List Json → Except String Unit) (cfg : ReceiveQueueCfg)
    (queue : String → Option String) (answers : ℕ → ℤ → List Json)
    (hmax : 0 < cfg.maxMessages)
    (hkeeps : ∀ i asked, 0 < asked → ((answers i asked).length : ℤ) ≤ asked) :
    Collects loads write cfg queue answers
      (receiveMessages (fun i asked => .ok (answers i asked)) cfg.maxMessages cfg.retry) := by
  have hpolled := receiveMessages_spec (fun i asked => .ok (answers i asked))
    cfg.maxMessages cfg.retry
  have hraised : (receiveMessages (fun i asked => .ok (answers i asked))
      cfg.maxMessages cfg.retry).raised = none := by
    rw [Option.eq_none_iff_forall_ne_some]
    intro e he
    exact absurd (hpolled.raised e he) (by simp)
  have hbounded := hpolled.recorded.length_le hmax.le fun i asked messages hasked h =>
    Except.ok.inj h ▸ hkeeps i asked hasked
  have hpolls := length_polls_le (receiveMessages (fun i asked => .ok (answers i asked))
    cfg.maxMessages cfg.retry).polls
  have hended := hpolled.ended hraised
  have hempty := hpolled.empty
  rw [hpolled.collected] at hended
  constructor
  · exact ⟨hraised, hpolled.recorded⟩
  · omega
  · exact hpolled.collected
  · rw [hpolled.collected]
    exact hbounded
  · exact hempty
  · intro hearly
    rw [hpolled.collected]
    omega
  · intro hqueue hbodies
    obtain ⟨code, hcode⟩ := Option.isSome_iff_exists.1 hqueue
    obtain ⟨rows, hrows, hmatch⟩ := exists_receivedRows hbodies
    rw [← hpolled.collected] at hrows
    refine ⟨rows, hmatch, fun hwrite => ?_⟩
    exact ⟨_, cfg.execute_eq_ok hcode hraised hrows hwrite, rfl⟩

/-- Three messages are wanted, one comes on the second poll and one on the fourth, and four polls
may be empty. -/
theorem twoMessages_collects :
    let answers (i : ℕ) (_ : ℤ) : List Json :=
      if i = 1 then [.obj [("Body", .str "1")]] else if i = 3 then [.obj [("Body", .str "2")]] else []
    Collects (fun _ => .ok .null) (fun _ _ => .ok ()) ⟨"q", 3, 4, none⟩ (fun _ => some "Q") answers
      (receiveMessages (fun i asked => .ok (answers i asked)) 3 4) := by
  intro answers
  refine receiveMessages_collects (fun _ => .ok .null) (fun _ _ => .ok ()) ⟨"q", 3, 4, none⟩
    (fun _ => some "Q") answers (by decide) ?_
  intro i asked hasked
  dsimp only [answers]
  split_ifs
  · simp only [List.length_singleton]
    omega
  · simp only [List.length_singleton]
    omega
  · simpa using hasked.le

end Broker
end QualityFlow
