/-
# The queue reader

`QueueReaderThread.loop` of `app/brokers/services/elaborations/queue_reader_thread.py`, once
the queue is reached and the table of the export exists.

A turn of the loop receives messages and adds them to the batch, or receives none and saves
the batch that it has.  A batch is forgotten only when its rows are inserted and the messages
are hidden for longer.  A batch that is saved and cannot be hidden is saved again, and a batch
that is pending when the thread is stopped is saved never.

What a turn finds outside is given for it: whether the thread has been stopped by then, what
is received, and whether inserting rows and hiding messages succeed.  `json.loads` is a
parameter, so that nothing here depends on which bodies it reads.
-/

import Mathlib.Data.List.Enum
import Mathlib.Data.List.Nodup
import QualityFlow.Py.Json
import QualityFlow.Py.Lists
import QualityFlow.Py.Rounds

namespace QualityFlow
namespace Broker

open Py Rounds

/-! ### The loop -/

/-- `MAX_RETRY_ATTEMPTS`. -/
def maxRetryAttempts : ℕ := 5

/-- What one turn finds outside. -/
structure Round where
  stop : Bool
  received : Except String (List Json)
  inserts : Bool
  changes : Bool

/-- The variables of the loop, the messages that have been received, and the rows of the
table.  A message in the batch, and a row, has the number its message was received under. -/
structure Reader where
  batch : List (Json × ℕ)
  retryCounter : ℕ
  roundCounter : ℕ
  exited : Bool
  received : List Json
  table : List (Json × ℕ)

/-- The reader before its first turn. -/
def Reader.start : Reader where
  batch := []
  retryCounter := 0
  roundCounter := 0
  exited := false
  received := []
  table := []

/-- `batch.extend(msgs)`. -/
def Reader.receive (s : Reader) (msgs : List Json) : Reader :=
  { s with
    batch := s.batch ++ msgs.zipIdx s.received.length
    roundCounter := s.roundCounter + 1
    received := s.received ++ msgs }

/-- `retry_counter += 1`. -/
def Reader.poll (s : Reader) : Reader := { s with retryCounter := s.retryCounter + 1 }

/-- The test `retry_counter >= MAX_RETRY_ATTEMPTS`. -/
def Reader.giveUp (s : Reader) : Reader :=
  if maxRetryAttempts ≤ s.retryCounter then { s with exited := true } else s

section

variable (loads : String → Option Json)

/-- The column `body` of the row of a message, where the message has one that can be read. -/
def bodyRow : Json → Option Json
  | .obj m =>
    match Dict.get? m "Body" with
    | none => none
    | some (.str body) => loads body
    | some body => some body
  | _ => none

/-- The rows of `save_body_messages`. -/
def bodyRows (msgs : List (Json × ℕ)) : Option (List (Json × ℕ)) :=
  msgs.mapM fun m => (bodyRow loads m.1).map fun row => (row, m.2)

/-- A turn on which no message is received. -/
def emptyTurn (round : Round) (s : Reader) : Reader :=
  let s := s.poll
  if s.batch ≠ [] then
    match bodyRows loads s.batch with
    | none => s
    | some rows =>
      if round.inserts then
        let s := { s with table := s.table ++ rows }
        if round.changes then { s with batch := [] }.giveUp else s
      else s
  else s.giveUp

/-- One turn of `loop`. -/
def turn (round : Round) (s : Reader) : Reader :=
  if s.exited then s
  else if round.stop then { s with exited := true }
  else
    match round.received with
    | .error _ => s
    | .ok [] => emptyTurn loads round s
    | .ok (m :: ms) => s.receive (m :: ms)

/-- The reader before turn `n`. -/
def readerAt (rounds : ℕ → Round) : ℕ → Reader := stateAt (turn loads) rounds .start

end

/-! ### What a turn does -/

/-- The turns of the loop. -/
inductive Turn (loads : String → Option Json) (round : Round) (s : Reader) : Reader → Prop
  | exited (h : s.exited = true) : Turn loads round s s
  | stopped (hrun : s.exited = false) (h : round.stop = true) :
      Turn loads round s { s with exited := true }
  | failed {e : String} (hrun : s.exited = false) (hstop : round.stop = false)
      (h : round.received = .error e) : Turn loads round s s
  | receives {m : Json} {ms : List Json} (hrun : s.exited = false) (hstop : round.stop = false)
      (h : round.received = .ok (m :: ms)) : Turn loads round s (s.receive (m :: ms))
  | idle (hrun : s.exited = false) (hstop : round.stop = false) (h : round.received = .ok [])
      (hbatch : s.batch = []) : Turn loads round s s.poll.giveUp
  | unsaved (hrun : s.exited = false) (hstop : round.stop = false)
      (h : round.received = .ok []) (hbatch : s.batch ≠ [])
      (hrows : bodyRows loads s.batch = none ∨ round.inserts = false) :
      Turn loads round s s.poll
  | held {rows : List (Json × ℕ)} (hrun : s.exited = false) (hstop : round.stop = false)
      (h : round.received = .ok []) (hbatch : s.batch ≠ [])
      (hrows : bodyRows loads s.batch = some rows) (hinserts : round.inserts = true)
      (hchanges : round.changes = false) :
      Turn loads round s { s.poll with table := s.table ++ rows }
  | saved {rows : List (Json × ℕ)} (hrun : s.exited = false) (hstop : round.stop = false)
      (h : round.received = .ok []) (hbatch : s.batch ≠ [])
      (hrows : bodyRows loads s.batch = some rows) (hinserts : round.inserts = true)
      (hchanges : round.changes = true) :
      Turn loads round s { s.poll with batch := [], table := s.table ++ rows }.giveUp

variable {loads : String → Option Json} {rounds : ℕ → Round}

theorem turn_spec (loads : String → Option Json) (round : Round) (s : Reader) :
    Turn loads round s (turn loads round s) := by
  unfold turn
  by_cases hexited : s.exited = true
  · rw [if_pos hexited]
    exact .exited hexited
  · have hrun : s.exited = false := by simpa using hexited
    rw [if_neg hexited]
    by_cases hstop : round.stop = true
    · rw [if_pos hstop]
      exact .stopped hrun hstop
    · have hnot : round.stop = false := by simpa using hstop
      rw [if_neg hstop]
      rcases h : round.received with e | ms
      · exact .failed hrun hnot h
      · rcases ms with _ | ⟨m, ms⟩
        · show Turn loads round s (emptyTurn loads round s)
          unfold emptyTurn
          dsimp only
          by_cases hbatch : s.batch = []
          · have hpoll : ¬s.poll.batch ≠ [] := not_not.2 hbatch
            rw [if_neg hpoll]
            exact .idle hrun hnot h hbatch
          · have hpoll : s.poll.batch ≠ [] := hbatch
            rw [if_pos hpoll]
            have hsame : bodyRows loads s.poll.batch = bodyRows loads s.batch := rfl
            rw [hsame]
            rcases hrows : bodyRows loads s.batch with _ | rows
            · exact .unsaved hrun hnot h hbatch (.inl hrows)
            · dsimp only
              by_cases hinserts : round.inserts = true
              · rw [if_pos hinserts]
                by_cases hchanges : round.changes = true
                · rw [if_pos hchanges]
                  exact .saved hrun hnot h hbatch hrows hinserts hchanges
                · rw [if_neg hchanges]
                  exact .held hrun hnot h hbatch hrows hinserts (by simpa using hchanges)
              · rw [if_neg hinserts]
                exact .unsaved hrun hnot h hbatch (.inr (by simpa using hinserts))
        · exact .receives hrun hnot h

@[simp] theorem poll_batch (s : Reader) : s.poll.batch = s.batch := rfl

@[simp] theorem poll_table (s : Reader) : s.poll.table = s.table := rfl

@[simp] theorem poll_received (s : Reader) : s.poll.received = s.received := rfl

@[simp] theorem giveUp_batch (s : Reader) : s.giveUp.batch = s.batch := by
  unfold Reader.giveUp
  split_ifs <;> rfl

@[simp] theorem giveUp_table (s : Reader) : s.giveUp.table = s.table := by
  unfold Reader.giveUp
  split_ifs <;> rfl

@[simp] theorem giveUp_received (s : Reader) : s.giveUp.received = s.received := by
  unfold Reader.giveUp
  split_ifs <;> rfl

@[simp] theorem giveUp_retryCounter (s : Reader) :
    s.giveUp.retryCounter = s.retryCounter := by
  unfold Reader.giveUp
  split_ifs <;> rfl

/-- The numbers of some messages or rows. -/
def numbers (xs : List (Json × ℕ)) : List ℕ := xs.map Prod.snd

@[simp] theorem numbers_append (xs ys : List (Json × ℕ)) :
    numbers (xs ++ ys) = numbers xs ++ numbers ys := List.map_append

/-- The rows of a batch are its messages' bodies under their numbers. -/
theorem bodyRows_eq_some {msgs rows : List (Json × ℕ)} (h : bodyRows loads msgs = some rows) :
    List.Forall₂ (fun m row => bodyRow loads m.1 = some row.1 ∧ m.2 = row.2) msgs rows := by
  induction msgs generalizing rows with
  | nil =>
    obtain rfl : [] = rows := by simpa [bodyRows] using h
    exact .nil
  | cons m msgs ih =>
    rw [bodyRows, List.mapM_cons, Option.bind_eq_bind, Option.bind_eq_some_iff] at h
    obtain ⟨row, hrow, hrest⟩ := h
    rw [Option.bind_eq_bind, Option.bind_eq_some_iff] at hrest
    obtain ⟨rest, hmsgs, heq⟩ := hrest
    obtain ⟨body, hbody, rfl⟩ := Option.map_eq_some_iff.1 hrow
    obtain rfl := Option.some.inj heq
    exact .cons ⟨hbody, rfl⟩ (ih hmsgs)

theorem numbers_bodyRows {msgs rows : List (Json × ℕ)} (h : bodyRows loads msgs = some rows) :
    numbers rows = numbers msgs := by
  have hrel := bodyRows_eq_some h
  clear h
  induction hrel with
  | nil => rfl
  | cons hrow _ ih => simp only [numbers, List.map_cons, hrow.2] at ih ⊢; rw [ih]

/-! ### What holds in every state -/

/-- What the batch and the table have to do with the messages received. -/
structure Reader.Sound (loads : String → Option Json) (s : Reader) : Prop where
  batch_get : ∀ m ∈ s.batch, s.received[m.2]? = some m.1
  batch_nodup : (numbers s.batch).Nodup
  table_get : ∀ row ∈ s.table, ∃ m, s.received[row.2]? = some m ∧ bodyRow loads m = some row.1
  kept : ∀ k < s.received.length, k ∈ numbers s.batch ∨ k ∈ numbers s.table

theorem Reader.Sound.batch_lt {s : Reader} (h : s.Sound loads) {m : Json × ℕ}
    (hm : m ∈ s.batch) : m.2 < s.received.length :=
  (List.getElem?_eq_some_iff.1 (h.batch_get m hm)).1

theorem Reader.Sound.table_lt {s : Reader} (h : s.Sound loads) {k : ℕ}
    (hk : k ∈ numbers s.table) : k < s.received.length := by
  obtain ⟨row, hrow, rfl⟩ := List.mem_map.1 hk
  obtain ⟨m, hm, -⟩ := h.table_get row hrow
  exact (List.getElem?_eq_some_iff.1 hm).1

theorem Reader.Sound.receive {s : Reader} (h : s.Sound loads) (msgs : List Json) :
    (s.receive msgs).Sound loads where
  batch_get m hm := by
    rcases List.mem_append.1 hm with hold | hnew
    · exact List.getElem?_append_left (h.batch_lt hold) ▸ h.batch_get m hold
    · obtain ⟨hle, hlt, heq⟩ := List.mem_zipIdx hnew
      show (s.received ++ msgs)[m.2]? = some m.1
      rw [List.getElem?_append_right hle, heq]
      exact List.getElem?_eq_getElem _
  batch_nodup := by
    show (numbers (s.batch ++ msgs.zipIdx s.received.length)).Nodup
    rw [numbers_append, numbers, numbers, List.zipIdx_map_snd]
    refine List.nodup_append.2 ⟨h.batch_nodup, List.nodup_range', fun k hold k' hnew => ?_⟩
    obtain ⟨m, hm, rfl⟩ := List.mem_map.1 hold
    have hlt := h.batch_lt hm
    have hle := (List.mem_range'_1.1 hnew).1
    omega
  table_get row hrow := by
    obtain ⟨m, hm, hbody⟩ := h.table_get row hrow
    have hlt := (List.getElem?_eq_some_iff.1 hm).1
    exact ⟨m, (List.getElem?_append_left hlt).trans hm, hbody⟩
  kept k hk := by
    by_cases hold : k < s.received.length
    · refine (h.kept k hold).imp_left fun hmem => ?_
      show k ∈ numbers (s.batch ++ msgs.zipIdx s.received.length)
      rw [numbers_append]
      exact List.mem_append_left _ hmem
    · refine .inl ?_
      have hlength : (s.receive msgs).received.length = s.received.length + msgs.length :=
        List.length_append
      show k ∈ numbers (s.batch ++ msgs.zipIdx s.received.length)
      rw [numbers_append, numbers, numbers, List.zipIdx_map_snd]
      exact List.mem_append_right _ (List.mem_range'_1.2 ⟨by omega, by omega⟩)

/-- Rows of the pending batch are rows of received messages. -/
theorem Reader.Sound.rows_get {s : Reader} (h : s.Sound loads) {rows : List (Json × ℕ)}
    (hrows : bodyRows loads s.batch = some rows) :
    ∀ row ∈ s.table ++ rows, ∃ m, s.received[row.2]? = some m ∧ bodyRow loads m = some row.1 := by
  intro row hrow
  rcases List.mem_append.1 hrow with hold | hnew
  · exact h.table_get row hold
  · obtain ⟨m, hm, hbody, hnumber⟩ := exists_left_of_forall₂ (bodyRows_eq_some hrows) hnew
    exact ⟨m.1, hnumber ▸ h.batch_get m hm, hbody⟩

/-- **Every turn keeps what the batch and the table hold in order.** -/
theorem Reader.Sound.turn {s s' : Reader} {round : Round} (h : s.Sound loads)
    (hturn : Turn loads round s s') : s'.Sound loads := by
  cases hturn with
  | exited => exact h
  | stopped => exact ⟨h.batch_get, h.batch_nodup, h.table_get, h.kept⟩
  | failed => exact h
  | receives => exact h.receive _
  | idle =>
    constructor
    · simpa using h.batch_get
    · simpa using h.batch_nodup
    · simpa using h.table_get
    · simpa using h.kept
  | unsaved => exact ⟨h.batch_get, h.batch_nodup, h.table_get, h.kept⟩
  | held _ _ _ _ hrows =>
    refine ⟨h.batch_get, h.batch_nodup, h.rows_get hrows, fun k hk => ?_⟩
    refine (h.kept k hk).imp_right fun hmem => ?_
    rw [numbers_append]
    exact List.mem_append_left _ hmem
  | saved _ _ _ _ hrows =>
    refine ⟨by simp, by simp [numbers], ?_, fun k hk => .inr ?_⟩
    · simpa using h.rows_get hrows
    · rw [giveUp_received] at hk
      rw [giveUp_table, numbers_append]
      rcases h.kept k hk with hbatch | htable
      · rw [← numbers_bodyRows hrows] at hbatch
        exact List.mem_append_right _ hbatch
      · exact List.mem_append_left _ htable

theorem turnAt (loads : String → Option Json) (rounds : ℕ → Round) (n : ℕ) :
    Turn loads (rounds n) (readerAt loads rounds n) (readerAt loads rounds (n + 1)) :=
  turn_spec loads (rounds n) (readerAt loads rounds n)

theorem soundAt (loads : String → Option Json) (rounds : ℕ → Round) (n : ℕ) :
    (readerAt loads rounds n).Sound loads := by
  refine stateAt_induction (P := fun _ s => Reader.Sound loads s) ?_ ?_ n
  · exact ⟨List.forall_mem_nil _, List.nodup_nil, List.forall_mem_nil _, fun k hk => by
      simp [Reader.start] at hk⟩
  · intro n s hs
    exact hs.turn (turn_spec loads (rounds n) s)

end Broker
end QualityFlow
