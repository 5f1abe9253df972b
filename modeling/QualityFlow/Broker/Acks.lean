/-
# The acknowledgement of a batch

`ack_messages` of `app/brokers/services/connections/queue/amazon_sqs_connection_service.py`.

The messages are deleted one by one, and what cannot be deleted is counted while the loop goes
on: a malformed message, a message without a receipt handle, and a deletion that fails with a
`ClientError`.  Any other exception of the client leaves the loop at once.
-/

import QualityFlow.Py.Json

namespace QualityFlow
namespace Broker

open Py

/-! ### The messages -/

/-- `str(m.get("MessageId") or f"index-{index}")`, which is the latter for a message that is
no `dict`. -/
def messageId (index : ℕ) : Json → String
  | .obj m =>
    let id := (Dict.get? m "MessageId").getD .null
    if id.truthy then id.pyStr else "index-" ++ toString index
  | _ => "index-" ++ toString index

/-- The receipt handle of a message that is a `dict` with one. -/
def receiptHandle? : Json → Option Json
  | .obj m =>
    let handle := (Dict.get? m "ReceiptHandle").getD .null
    if handle.truthy then some handle else none
  | _ => none

/-- What a call of `delete_message` does: it returns, or it raises a `ClientError` with a
response and a text, or it raises something else. -/
inductive Delete where
  | done
  | clientError (error : Dict String Json) (text : String)
  | raised (exception : String)

def Delete.isDone : Delete → Bool
  | .done => true
  | _ => false

def Delete.isRaised : Delete → Bool
  | .raised _ => true
  | _ => false

/-- `f"{error_code}: {error_message}"`. -/
def clientErrorText (error : Dict String Json) (text : String) : String :=
  let code := (error.get? "Code").getD .null
  let message := (error.get? "Message").getD .null
  (if code.truthy then code.pyStr else "ClientError") ++ ": " ++
    (if message.truthy then message.pyStr else text)

/-! ### The loop -/

/-- An entry of the result. -/
structure Ack where
  status : String
  messageId : String
deriving DecidableEq

/-- An entry of `failures`. -/
structure Failure where
  messageId : String
  error : String
deriving DecidableEq

/-- The handles `delete_message` has been called with, and the two lists of the loop. -/
structure AckState where
  attempts : List Json
  deletedMsgs : List Ack
  failures : List Failure

/-- The lists before the first message. -/
def AckState.empty : AckState where
  attempts := []
  deletedMsgs := []
  failures := []

def AckState.fail (s : AckState) (messageId error : String) : AckState :=
  { s with failures := s.failures ++ [{ messageId, error }] }

def AckState.delete (s : AckState) (messageId : String) : AckState :=
  { s with deletedMsgs := s.deletedMsgs ++ [{ status := "ok", messageId }] }

def AckState.attempt (s : AckState) (handle : Json) : AckState :=
  { s with attempts := s.attempts ++ [handle] }

/-- One turn of the loop, and the exception that ends it. -/
def ackMessage (deletes : ℕ → Delete) (s : AckState) (index : ℕ) (m : Json) :
    AckState × Option String :=
  match m with
  | .obj _ =>
    let mid := messageId index m
    match receiptHandle? m with
    | none => (s.fail mid "Missing ReceiptHandle.", none)
    | some handle =>
      match deletes s.attempts.length with
      | .done => ((s.attempt handle).delete mid, none)
      | .clientError error text =>
        ((s.attempt handle).fail mid (clientErrorText error text), none)
      | .raised exception => (s.attempt handle, some exception)
  | _ => (s.fail (messageId index m) "Invalid message format.", none)

/-- The loop over the messages, counted from `index`. -/
def ackLoop (deletes : ℕ → Delete) (s : AckState) (index : ℕ) :
    List Json → AckState × Option String
  | [] => (s, none)
  | m :: ms =>
    match ackMessage deletes s index m with
    | (s', some exception) => (s', some exception)
    | (s', none) => ackLoop deletes s' (index + 1) ms

/-- What `ack_messages` raises: its own error, or that of the client. -/
inductive AckError where
  | app (message : String)
  | client (exception : String)

/-- The text of the error about the messages that have not been deleted. -/
def ackFailed (failed total deleted : ℕ) (failedIds : String) : String :=
  "ACK failed for " ++ toString failed ++ " of " ++ toString total ++ " message(s). Deleted=" ++
    toString deleted ++ ". Failed IDs: " ++ failedIds

/-- The ids of at most five failures. -/
def failedIds (failures : List Failure) : String :=
  let ids := ", ".intercalate ((failures.take 5).map Failure.messageId)
  if 5 < failures.length then ids ++ ", ..." else ids

/-- What is returned or raised after the loop. -/
def AckState.result (s : AckState) (total : ℕ) : Except AckError (List Ack) :=
  if s.failures = [] then .ok s.deletedMsgs
  else .error (.app (ackFailed s.failures.length total s.deletedMsgs.length
    (failedIds s.failures)))

/-- `ack_messages`, with what it has done to the queue. -/
def ackMessages (deletes : ℕ → Delete) (messages : List Json) :
    AckState × Except AckError (List Ack) :=
  match ackLoop deletes .empty 1 messages with
  | (s, some exception) => (s, .error (.client exception))
  | (s, none) => (s, s.result messages.length)

/-! ### What the batch comes to -/

/-- Which messages are deleted, from the attempt `k` on. -/
def deletedAt (deletes : ℕ → Delete) : ℕ → List Json → List Bool
  | _, [] => []
  | k, m :: ms =>
    match receiptHandle? m with
    | none => false :: deletedAt deletes k ms
    | some _ => (deletes k).isDone :: deletedAt deletes (k + 1) ms

/-- An entry that is ok for each message, counted from `index`. -/
def acksFrom (index : ℕ) : List Json → List Ack
  | [] => []
  | m :: ms => { status := "ok", messageId := messageId index m } :: acksFrom (index + 1) ms

/-- Every message with a receipt handle is attempted once, in order, and the result reports
what has been deleted. -/
structure AcksComplete (deletes : ℕ → Delete) (messages : List Json) : Prop where
  attempts : (ackMessages deletes messages).1.attempts = messages.filterMap receiptHandle?
  acked : ∀ acks, (ackMessages deletes messages).2 = .ok acks
    ↔ (∀ deleted ∈ deletedAt deletes 0 messages, deleted = true) ∧ acks = acksFrom 1 messages
  reported : (∃ deleted ∈ deletedAt deletes 0 messages, deleted = false) →
    ∃ ids, (ackMessages deletes messages).2 = .error (.app (ackFailed
      ((deletedAt deletes 0 messages).count false) messages.length
      ((deletedAt deletes 0 messages).count true) ids))

/-! ### One turn -/

theorem ackMessage_of_none (deletes : ℕ → Delete) {m : Json} (h : receiptHandle? m = none)
    (s : AckState) (index : ℕ) :
    ∃ error, ackMessage deletes s index m = (s.fail (messageId index m) error, none) := by
  cases m with
  | obj m => exact ⟨"Missing ReceiptHandle.", by simp [ackMessage, h]⟩
  | _ => exact ⟨"Invalid message format.", rfl⟩

theorem ackMessage_of_some (deletes : ℕ → Delete) {m handle : Json}
    (h : receiptHandle? m = some handle) (s : AckState) (index : ℕ) :
    ackMessage deletes s index m = match deletes s.attempts.length with
      | .done => ((s.attempt handle).delete (messageId index m), none)
      | .clientError error text =>
        ((s.attempt handle).fail (messageId index m) (clientErrorText error text), none)
      | .raised exception => (s.attempt handle, some exception) := by
  cases m with
  | obj m => simp [ackMessage, h]
  | _ => simp [receiptHandle?] at h

/-! ### The whole loop -/

/-- What the loop has done to a state when it comes to the end of some messages. -/
structure Acked (deletes : ℕ → Delete) (s : AckState) (index : ℕ) (ms : List Json)
    (s' : AckState) : Prop where
  attempts : s'.attempts = s.attempts ++ ms.filterMap receiptHandle?
  deleted : s'.deletedMsgs.length
    = s.deletedMsgs.length + (deletedAt deletes s.attempts.length ms).count true
  failed : s'.failures.length
    = s.failures.length + (deletedAt deletes s.attempts.length ms).count false
  acks : (∀ deleted ∈ deletedAt deletes s.attempts.length ms, deleted = true) →
    s'.deletedMsgs = s.deletedMsgs ++ acksFrom index ms

theorem Acked.nil (deletes : ℕ → Delete) (s : AckState) (index : ℕ) :
    Acked deletes s index [] s where
  attempts := by simp
  deleted := by simp [deletedAt]
  failed := by simp [deletedAt]
  acks _ := by simp [acksFrom]

theorem Acked.fail {deletes : ℕ → Delete} {s s' : AckState} {index : ℕ} {m : Json}
    {ms : List Json} {error : String} (hm : receiptHandle? m = none)
    (h : Acked deletes (s.fail (messageId index m) error) (index + 1) ms s') :
    Acked deletes s index (m :: ms) s' where
  attempts := by
    rw [h.attempts, List.filterMap_cons_none hm]
    rfl
  deleted := by
    have hdeleted := h.deleted
    simp only [AckState.fail] at hdeleted
    simp [deletedAt, hm, hdeleted]
  failed := by
    have hfailed := h.failed
    simp only [AckState.fail, List.length_append, List.length_singleton] at hfailed
    simp only [deletedAt, hm, List.count_cons_self]
    omega
  acks hall := by
    rw [deletedAt, hm] at hall
    exact absurd (hall false (List.mem_cons_self ..)) Bool.false_ne_true

theorem Acked.failed_attempt {deletes : ℕ → Delete} {s s' : AckState} {index : ℕ}
    {m handle : Json} {ms : List Json} {error : String} (hm : receiptHandle? m = some handle)
    (hdelete : (deletes s.attempts.length).isDone = false)
    (h : Acked deletes ((s.attempt handle).fail (messageId index m) error) (index + 1) ms s') :
    Acked deletes s index (m :: ms) s' := by
  have hlength : (s.attempts ++ [handle]).length = s.attempts.length + 1 := by simp
  have hat : deletedAt deletes s.attempts.length (m :: ms)
      = false :: deletedAt deletes (s.attempts ++ [handle]).length ms := by
    simp only [deletedAt, hm, hdelete, hlength]
  obtain ⟨hattempts, hdeleted, hfailed, hacks⟩ := h
  simp only [AckState.fail, AckState.attempt] at hattempts hdeleted hfailed hacks
  constructor
  · rw [hattempts, List.filterMap_cons_some hm, List.append_assoc, List.singleton_append]
  · rw [hat, hdeleted, List.count_cons_of_ne (by decide)]
  · rw [hat, hfailed, List.count_cons_self, List.length_append, List.length_singleton]
    omega
  · intro hall
    rw [hat] at hall
    exact absurd (hall false (List.mem_cons_self ..)) Bool.false_ne_true

theorem Acked.delete {deletes : ℕ → Delete} {s s' : AckState} {index : ℕ} {m handle : Json}
    {ms : List Json} (hm : receiptHandle? m = some handle)
    (hdelete : (deletes s.attempts.length).isDone = true)
    (h : Acked deletes ((s.attempt handle).delete (messageId index m)) (index + 1) ms s') :
    Acked deletes s index (m :: ms) s' := by
  have hlength : (s.attempts ++ [handle]).length = s.attempts.length + 1 := by simp
  have hat : deletedAt deletes s.attempts.length (m :: ms)
      = true :: deletedAt deletes (s.attempts ++ [handle]).length ms := by
    simp only [deletedAt, hm, hdelete, hlength]
  obtain ⟨hattempts, hdeleted, hfailed, hacks⟩ := h
  simp only [AckState.delete, AckState.attempt] at hattempts hdeleted hfailed hacks
  constructor
  · rw [hattempts, List.filterMap_cons_some hm, List.append_assoc, List.singleton_append]
  · rw [hat, hdeleted, List.count_cons_self, List.length_append, List.length_singleton]
    omega
  · rw [hat, hfailed, List.count_cons_of_ne (by decide)]
  · intro hall
    rw [hat, List.forall_mem_cons] at hall
    rw [hacks hall.2, acksFrom, List.append_assoc, List.singleton_append]

/-- **The loop comes to the end of the messages just where the client raises nothing but
`ClientError`s,** and has then attempted and counted all of them. -/
theorem ackLoop_spec (deletes : ℕ → Delete) (s : AckState) (index : ℕ) (ms : List Json) :
    ((∃ exception, (ackLoop deletes s index ms).2 = some exception) ∧
      ∃ k < (ms.filterMap receiptHandle?).length,
        (deletes (s.attempts.length + k)).isRaised = true) ∨
    ((ackLoop deletes s index ms).2 = none ∧
      Acked deletes s index ms (ackLoop deletes s index ms).1 ∧
      ∀ k < (ms.filterMap receiptHandle?).length,
        (deletes (s.attempts.length + k)).isRaised = false) := by
  induction ms generalizing s index with
  | nil =>
    refine .inr ⟨rfl, Acked.nil deletes s index, fun k hk => ?_⟩
    simp at hk
  | cons m ms ih =>
    cases hm : receiptHandle? m with
    | none =>
      obtain ⟨error, hturn⟩ := ackMessage_of_none deletes hm s index
      rw [ackLoop, hturn, List.filterMap_cons_none hm]
      rcases ih (s.fail (messageId index m) error) (index + 1) with hraised | ⟨hnone, hacked, hall⟩
      · exact .inl hraised
      · exact .inr ⟨hnone, hacked.fail hm, hall⟩
    | some handle =>
      -- the attempt for this message, and those for the rest
      have hshift : ∀ k, (s.attempts ++ [handle]).length + k = s.attempts.length + (k + 1) := by
        intro k
        rw [List.length_append, List.length_singleton]
        omega
      have hturn := ackMessage_of_some deletes hm s index
      rw [ackLoop, List.filterMap_cons_some hm, List.length_cons]
      cases hdelete : deletes s.attempts.length with
      | raised exception =>
        rw [hdelete] at hturn
        rw [hturn]
        exact .inl ⟨⟨exception, rfl⟩, 0, Nat.succ_pos _, by simp [hdelete, Delete.isRaised]⟩
      | clientError error text =>
        rw [hdelete] at hturn
        rw [hturn]
        have hfirst : (deletes (s.attempts.length + 0)).isRaised = false := by
          simp [hdelete, Delete.isRaised]
        rcases ih ((s.attempt handle).fail (messageId index m) (clientErrorText error text))
          (index + 1) with ⟨hraised, k, hk, hdel⟩ | ⟨hnone, hacked, hall⟩
        · exact .inl ⟨hraised, k + 1, Nat.succ_lt_succ hk, hshift k ▸ hdel⟩
        · refine .inr ⟨hnone, hacked.failed_attempt hm (by simp [hdelete, Delete.isDone]), ?_⟩
          rintro (_ | k) hk
          · exact hfirst
          · exact hshift k ▸ hall k (Nat.lt_of_succ_lt_succ hk)
      | done =>
        rw [hdelete] at hturn
        rw [hturn]
        have hfirst : (deletes (s.attempts.length + 0)).isRaised = false := by
          simp [hdelete, Delete.isRaised]
        rcases ih ((s.attempt handle).delete (messageId index m)) (index + 1) with
          ⟨hraised, k, hk, hdel⟩ | ⟨hnone, hacked, hall⟩
        · exact .inl ⟨hraised, k + 1, Nat.succ_lt_succ hk, hshift k ▸ hdel⟩
        · refine .inr ⟨hnone, hacked.delete hm (by simp [hdelete, Delete.isDone]), ?_⟩
          rintro (_ | k) hk
          · exact hfirst
          · exact hshift k ▸ hall k (Nat.lt_of_succ_lt_succ hk)

/-! ### The result -/

theorem count_false_eq_zero {bs : List Bool} : bs.count false = 0 ↔ ∀ b ∈ bs, b = true := by
  rw [List.count_eq_zero]
  constructor
  · intro h b hb
    cases b with
    | true => rfl
    | false => exact absurd hb h
  · intro h hmem
    exact absurd (h false hmem) Bool.false_ne_true

theorem ackMessages_of_some {deletes : ℕ → Delete} {messages : List Json} {exception : String}
    (h : (ackLoop deletes .empty 1 messages).2 = some exception) :
    (ackMessages deletes messages).2 = .error (.client exception) := by
  unfold ackMessages
  split
  · rename_i s e heq
    rw [heq] at h
    rw [Option.some.inj h]
  · rename_i s heq
    rw [heq] at h
    simp at h

theorem ackMessages_of_none {deletes : ℕ → Delete} {messages : List Json}
    (h : (ackLoop deletes .empty 1 messages).2 = none) :
    ackMessages deletes messages = ((ackLoop deletes .empty 1 messages).1,
      (ackLoop deletes .empty 1 messages).1.result messages.length) := by
  unfold ackMessages
  split
  · rename_i s e heq
    rw [heq] at h
    simp at h
  · rename_i s heq
    rw [heq]

/-- A loop that comes to the end reports what it has done. -/
theorem Acked.acksComplete {deletes : ℕ → Delete} {messages : List Json} {s : AckState}
    (h : Acked deletes .empty 1 messages s)
    (hrun : ackMessages deletes messages = (s, s.result messages.length)) :
    AcksComplete deletes messages := by
  obtain ⟨hattempts, hdeleted, hfailed, hacks⟩ := h
  simp only [AckState.empty, List.nil_append] at hattempts
  simp only [AckState.empty, List.length_nil, Nat.zero_add] at hdeleted hfailed
  simp only [AckState.empty, List.length_nil, List.nil_append] at hacks
  have hnil : s.failures = [] ↔ ∀ deleted ∈ deletedAt deletes 0 messages, deleted = true := by
    rw [← count_false_eq_zero, ← hfailed, List.length_eq_zero_iff]
  constructor
  · rw [hrun]
    exact hattempts
  · intro acks
    rw [hrun, AckState.result]
    by_cases hdone : s.failures = []
    · have hall := hnil.1 hdone
      rw [if_pos hdone, Except.ok.injEq, hacks hall]
      exact ⟨fun h => ⟨hall, h.symm⟩, fun h => h.2.symm⟩
    · rw [if_neg hdone]
      refine iff_of_false (by simp) fun hall => hdone (hnil.2 hall.1)
  · rintro ⟨deleted, hmem, hfalse⟩
    have hne : ¬s.failures = [] := by
      intro hdone
      rw [hnil.1 hdone deleted hmem] at hfalse
      simp at hfalse
    rw [hrun, AckState.result, if_neg hne, hdeleted, hfailed]
    exact ⟨failedIds s.failures, rfl⟩

/-- **The acknowledgement of a batch is complete just where no attempted deletion raises
anything but a `ClientError`.** -/
theorem acksComplete_iff (deletes : ℕ → Delete) (messages : List Json) :
    AcksComplete deletes messages
      ↔ ∀ k < (messages.filterMap receiptHandle?).length, (deletes k).isRaised = false := by
  have hspec := ackLoop_spec deletes .empty 1 messages
  simp only [AckState.empty, List.length_nil, Nat.zero_add] at hspec
  rcases hspec with ⟨⟨exception, hleft⟩, k, hk, hraised⟩ | ⟨hnone, hacked, hall⟩
  · have hresult := ackMessages_of_some hleft
    refine iff_of_false (fun hcomplete => ?_) fun hall => by simp [hall k hk] at hraised
    by_cases hdeleted : ∀ deleted ∈ deletedAt deletes 0 messages, deleted = true
    · have hok := (hcomplete.acked _).2 ⟨hdeleted, rfl⟩
      rw [hresult] at hok
      simp at hok
    · obtain ⟨deleted, hmem, hne⟩ := not_forall₂.1 hdeleted
      obtain ⟨ids, hids⟩ := hcomplete.reported ⟨deleted, hmem, by simpa using hne⟩
      rw [hresult] at hids
      simp at hids
  · have hcomplete : AcksComplete deletes messages :=
      hacked.acksComplete (ackMessages_of_none hnone)
    exact iff_of_true hcomplete hall

/-- The messages `m1` and `m2`, with a receipt handle each. -/
def twoMessages : List Json :=
  [.obj [("MessageId", .str "m1"), ("ReceiptHandle", .str "rh1")],
   .obj [("MessageId", .str "m2"), ("ReceiptHandle", .str "rh2")]]

/-- A deletion that is refused is reported, with the one that is not. -/
example : (ackMessages (fun k => if k = 0 then .done else .clientError [] "gone")
    twoMessages).2 = .error (.app
      "ACK failed for 1 of 2 message(s). Deleted=1. Failed IDs: m2") := by rfl

/-- The first deletion fails to reach the queue, and the second is not attempted. -/
theorem unreachable_not_acksComplete :
    ¬AcksComplete (fun _ => .raised "EndpointConnectionError") twoMessages := by
  intro hcomplete
  have hattempts := hcomplete.attempts
  have htwo : ¬(ackMessages (fun _ => .raised "EndpointConnectionError") twoMessages).1.attempts
      = twoMessages.filterMap receiptHandle? := by decide
  exact htwo hattempts

end Broker
end QualityFlow
