/-
# When the reader exits

The reader exits on the fifth turn that receives no message, counted from the start, unless
the batch it has then cannot be saved.  A message whose body cannot be read keeps its batch
from being saved, on that turn and on all later ones.
-/

import QualityFlow.Broker.QueueReader

namespace QualityFlow
namespace Broker

open Py Rounds

variable {loads : String → Option Json} {rounds : ℕ → Round}

/-! ### Termination -/

/-- A turn on which no message is received. -/
def Round.isEmpty (round : Round) : Bool :=
  match round.received with
  | .ok [] => true
  | _ => false

/-- How many of the turns before turn `n` receive no message. -/
def emptyPolls (rounds : ℕ → Round) : ℕ → ℕ
  | 0 => 0
  | n + 1 => emptyPolls rounds n + if (rounds n).isEmpty then 1 else 0

/-- The thread is not stopped, rows can be inserted and messages hidden, and from some turn on
none are received. -/
structure Quiet (rounds : ℕ → Round) : Prop where
  stop : ∀ n, (rounds n).stop = false
  inserts : ∀ n, (rounds n).inserts = true
  changes : ∀ n, (rounds n).changes = true
  ends : ∃ i, ∀ n, i ≤ n → (rounds n).received = .ok []

theorem Round.isEmpty_of_ok {round : Round} (h : round.received = .ok []) :
    round.isEmpty = true := by
  unfold Round.isEmpty
  rw [h]

theorem emptyPolls_succ (rounds : ℕ → Round) (n : ℕ) :
    emptyPolls rounds (n + 1) = emptyPolls rounds n + if (rounds n).isEmpty then 1 else 0 := rfl

theorem emptyPolls_mono (rounds : ℕ → Round) : Monotone (emptyPolls rounds) :=
  monotone_nat_of_le_succ fun n => by
    rw [emptyPolls_succ]
    omega

theorem le_emptyPolls {i : ℕ} (h : ∀ n, i ≤ n → (rounds n).received = .ok []) (k : ℕ) :
    k ≤ emptyPolls rounds (i + k) := by
  induction k with
  | zero => exact Nat.zero_le _
  | succ k ih =>
    have hempty : (rounds (i + k)).isEmpty = true :=
      Round.isEmpty_of_ok (h (i + k) (Nat.le_add_right i k))
    rw [← Nat.add_assoc, emptyPolls_succ, hempty, if_pos rfl]
    omega

theorem giveUp_exited (s : Reader) :
    s.giveUp.exited = true ↔ s.exited = true ∨ maxRetryAttempts ≤ s.retryCounter := by
  unfold Reader.giveUp
  split_ifs with h
  · simp [h]
  · simp [h]

/-- A batch is read where each of its messages is. -/
theorem bodyRows_isSome {msgs : List (Json × ℕ)} :
    (bodyRows loads msgs).isSome = true ↔ ∀ m ∈ msgs, (bodyRow loads m.1).isSome = true := by
  constructor
  · intro h m hm
    obtain ⟨rows, hrows⟩ := Option.isSome_iff_exists.1 h
    obtain ⟨row, -, hrow, -⟩ := exists_right_of_forall₂ (bodyRows_eq_some hrows) hm
    simp [hrow]
  · intro h
    induction msgs with
    | nil => simp [bodyRows]
    | cons m msgs ih =>
      rw [List.forall_mem_cons] at h
      obtain ⟨body, hbody⟩ := Option.isSome_iff_exists.1 h.1
      obtain ⟨rows, hrows⟩ := Option.isSome_iff_exists.1 (ih h.2)
      unfold bodyRows at hrows ⊢
      simp [List.mapM_cons, hbody, hrows]

variable (loads) in
/-- `retry_counter` counts every turn that receives nothing. -/
theorem retryCounter_eq (hstop : ∀ n, (rounds n).stop = false) (n : ℕ) :
    (readerAt loads rounds n).exited = false ∧
        (readerAt loads rounds n).retryCounter = emptyPolls rounds n ∨
      (readerAt loads rounds n).exited = true ∧ maxRetryAttempts ≤ emptyPolls rounds n := by
  induction n with
  | zero => exact .inl ⟨rfl, rfl⟩
  | succ n ih =>
    have hle := emptyPolls_mono rounds (Nat.le_succ n)
    have hsucc := emptyPolls_succ rounds n
    have hturn := turnAt loads rounds n
    generalize readerAt loads rounds (n + 1) = s' at hturn ⊢
    -- where the loop has not exited, its counter is the number of empty turns so far
    have hcounter : (readerAt loads rounds n).exited = false →
        (readerAt loads rounds n).retryCounter = emptyPolls rounds n := by
      intro hrun
      rcases ih with h | h
      · exact h.2
      · simp [hrun] at h
    have hpoll : (readerAt loads rounds n).exited = false → (rounds n).received = .ok [] →
        (readerAt loads rounds n).poll.retryCounter = emptyPolls rounds (n + 1) := by
      intro hrun hempty
      rw [hsucc, Round.isEmpty_of_ok hempty, if_pos rfl, ← hcounter hrun]
      rfl
    cases hturn with
    | exited hexited =>
      rcases ih with h | h
      · simp [hexited] at h
      · exact .inr ⟨hexited, h.2.trans hle⟩
    | stopped _ h => simp [hstop n] at h
    | failed hrun _ h =>
      have hsame : (rounds n).isEmpty = false := by simp [Round.isEmpty, h]
      refine .inl ⟨hrun, ?_⟩
      rw [hsucc, hsame, hcounter hrun]
      rfl
    | receives hrun _ h =>
      have hsame : (rounds n).isEmpty = false := by simp [Round.isEmpty, h]
      refine .inl ⟨hrun, ?_⟩
      rw [hsucc, hsame]
      exact hcounter hrun
    | unsaved hrun _ h => exact .inl ⟨hrun, hpoll hrun h⟩
    | held hrun _ h => exact .inl ⟨hrun, hpoll hrun h⟩
    | idle hrun _ h =>
      have hcount := hpoll hrun h
      by_cases hexit : maxRetryAttempts ≤ (readerAt loads rounds n).poll.retryCounter
      · exact .inr ⟨(giveUp_exited _).2 (.inr hexit), hcount ▸ hexit⟩
      · refine .inl ⟨?_, by rw [giveUp_retryCounter, hcount]⟩
        rw [Reader.giveUp, if_neg hexit]
        exact hrun
    | @saved rows hrun _ h =>
      have hcount := hpoll hrun h
      by_cases hexit : maxRetryAttempts ≤ (readerAt loads rounds n).poll.retryCounter
      · exact .inr ⟨(giveUp_exited _).2 (.inr hexit), hcount ▸ hexit⟩
      · refine .inl ⟨?_, ?_⟩
        · rw [Reader.giveUp, if_neg hexit]
          exact hrun
        · rw [giveUp_retryCounter]
          exact hcount

/-- **A pending message that cannot be read keeps the loop running for ever.** -/
theorem never_exits (hstop : ∀ n, (rounds n).stop = false) {i n : ℕ} (hin : i ≤ n)
    (hrun : (readerAt loads rounds i).exited = false) {m : Json × ℕ}
    (hm : m ∈ (readerAt loads rounds i).batch) (hbody : bodyRow loads m.1 = none) :
    (readerAt loads rounds n).exited = false := by
  have hpending : (readerAt loads rounds n).exited = false ∧
      m ∈ (readerAt loads rounds n).batch := by
    refine stateAt_keeps (P := fun s : Reader => s.exited = false ∧ m ∈ s.batch) hin ⟨hrun, hm⟩
      fun k _ _ hk => ?_
    have hturn := turn_spec loads (rounds k) (readerAt loads rounds k)
    show (turn loads (rounds k) (readerAt loads rounds k)).exited = false ∧
      m ∈ (turn loads (rounds k) (readerAt loads rounds k)).batch
    have hmem : m ∈ (readerAt loads rounds k).batch := hk.2
    have hunread : ∀ rows, bodyRows loads (readerAt loads rounds k).batch ≠ some rows := by
      intro rows hrows
      have hall := bodyRows_isSome.1 (by rw [hrows]; rfl) m hmem
      simp [hbody] at hall
    generalize turn loads (rounds k) (readerAt loads rounds k) = s' at hturn ⊢
    cases hturn with
    | exited | failed | unsaved => exact hk
    | stopped _ h => simp [hstop k] at h
    | receives hrun => exact ⟨hrun, List.mem_append_left _ hmem⟩
    | idle _ _ _ hbatch => simp [hbatch] at hmem
    | held _ _ _ _ hrows => exact absurd hrows (hunread _)
    | saved _ _ _ _ hrows => exact absurd hrows (hunread _)
  exact hpending.1

/-- Every message that is received before the fifth turn without one has a body that can be
read. -/
def BodiesRead (loads : String → Option Json) (rounds : ℕ → Round) : Prop :=
  ∀ n ms, emptyPolls rounds n < maxRetryAttempts → (rounds n).received = .ok ms →
    ∀ m ∈ ms, (bodyRow loads m).isSome = true

/-- Where every body can be read, the loop is over by the fifth turn without a message. -/
theorem running_of_bodiesRead (h : Quiet rounds) (hread : BodiesRead loads rounds) (n : ℕ)
    (hrun : (readerAt loads rounds n).exited = false) :
    (∀ m ∈ (readerAt loads rounds n).batch, (bodyRow loads m.1).isSome = true) ∧
      emptyPolls rounds n < maxRetryAttempts := by
  induction n with
  | zero => exact ⟨List.forall_mem_nil _, by simp [emptyPolls, maxRetryAttempts]⟩
  | succ n ih =>
    have hcount := retryCounter_eq loads h.stop (n + 1)
    have hturn := turnAt loads rounds n
    have hread' := hread n
    have hsucc := emptyPolls_succ rounds n
    generalize readerAt loads rounds (n + 1) = s' at hturn hrun hcount ⊢
    cases hturn with
    | exited hexited => simp [hrun] at hexited
    | stopped _ hstop => simp [h.stop n] at hstop
    | failed hbefore _ hreceived =>
      obtain ⟨hbatch, hpolls⟩ := ih hbefore
      have hsame : (rounds n).isEmpty = false := by simp [Round.isEmpty, hreceived]
      exact ⟨hbatch, by rw [hsucc, hsame]; exact hpolls⟩
    | @receives m ms hbefore _ hreceived =>
      obtain ⟨hbatch, hpolls⟩ := ih hbefore
      have hsame : (rounds n).isEmpty = false := by simp [Round.isEmpty, hreceived]
      refine ⟨fun x hx => ?_, by rw [hsucc, hsame]; exact hpolls⟩
      rcases List.mem_append.1 hx with hold | hnew
      · exact hbatch x hold
      · obtain ⟨-, -, heq⟩ := List.mem_zipIdx hnew
        rw [heq]
        exact hread' _ hpolls hreceived _ (List.getElem_mem _)
    | idle hbefore _ _ hbatch =>
      refine ⟨by simp [hbatch], ?_⟩
      have hfew := hrun
      rw [← Bool.not_eq_true, giveUp_exited, not_or, not_le] at hfew
      rcases hcount with hcount | hcount
      · rw [← hcount.2, giveUp_retryCounter]
        exact hfew.2
      · exact absurd (hrun.symm.trans hcount.1) Bool.false_ne_true
    | unsaved hbefore _ _ _ hrows =>
      rcases hrows with hrows | hinserts
      · have hsome := bodyRows_isSome.2 (ih hbefore).1
        simp [hrows] at hsome
      · simp [h.inserts n] at hinserts
    | held _ _ _ _ _ _ hchanges => simp [h.changes n] at hchanges
    | saved =>
      refine ⟨by simp, ?_⟩
      have hfew := hrun
      rw [← Bool.not_eq_true, giveUp_exited, not_or, not_le] at hfew
      rcases hcount with hcount | hcount
      · rw [← hcount.2, giveUp_retryCounter]
        exact hfew.2
      · exact absurd (hrun.symm.trans hcount.1) Bool.false_ne_true

/-- **Once no more messages come the loop exits, just where every message that is received
before the fifth empty turn can be read.** -/
theorem exits_iff (h : Quiet rounds) :
    (∃ n, (readerAt loads rounds n).exited = true) ↔ BodiesRead loads rounds := by
  constructor
  · rintro ⟨k, hk⟩ n ms hpolls hreceived m hm
    by_contra hunread
    have hrun : (readerAt loads rounds n).exited = false := by
      rcases retryCounter_eq loads h.stop n with hcount | hcount
      · exact hcount.1
      · omega
    -- the message is pending after turn `n`
    obtain ⟨m', ms', rfl⟩ := List.exists_cons_of_ne_nil (List.ne_nil_of_mem hm)
    have hnext : readerAt loads rounds (n + 1)
        = (readerAt loads rounds n).receive (m' :: ms') := by
      show turn loads (rounds n) (readerAt loads rounds n) = _
      simp [turn, hrun, h.stop n, hreceived]
    have hrun' : (readerAt loads rounds (n + 1)).exited = false := by
      rw [hnext]
      exact hrun
    obtain ⟨j, hj, rfl⟩ := List.getElem_of_mem hm
    have hpending : ((m' :: ms')[j], (readerAt loads rounds n).received.length + j)
        ∈ (readerAt loads rounds (n + 1)).batch := by
      rw [hnext]
      exact List.mem_append_right _ (List.mk_add_mem_zipIdx_iff_getElem?.2 (by simp))
    have hbody : bodyRow loads (m' :: ms')[j] = none := by simpa using hunread
    -- so the loop is still running after the later of the two turns
    have hlater := never_exits h.stop (le_max_right k (n + 1)) hrun' hpending hbody
    have hexited : (readerAt loads rounds (max k (n + 1))).exited = true := by
      refine stateAt_keeps (P := fun s : Reader => s.exited = true) (le_max_left k (n + 1)) hk
        fun i _ _ hi => ?_
      simp [turn, hi]
    simp [hlater] at hexited
  · intro hread
    obtain ⟨i, hi⟩ := h.ends
    refine ⟨i + maxRetryAttempts, ?_⟩
    by_contra hrun
    have hpolls := (running_of_bodiesRead h hread (i + maxRetryAttempts) (by simpa using hrun)).2
    have hmany := le_emptyPolls hi maxRetryAttempts
    omega

/-- A message is received, and none after it. -/
def onceRounds (body : String) : ℕ → Round
  | 0 => { stop := false, received := .ok [.obj [("Body", .str body)]], inserts := true,
           changes := true }
  | _ => { stop := false, received := .ok [], inserts := true, changes := true }

theorem quiet_onceRounds (body : String) : Quiet (onceRounds body) where
  stop n := by cases n <;> rfl
  inserts n := by cases n <;> rfl
  changes n := by cases n <;> rfl
  ends := by
    refine ⟨1, fun n hn => ?_⟩
    obtain ⟨k, rfl⟩ : ∃ k, n = k + 1 := ⟨n - 1, by omega⟩
    rfl

/-- Two messages are received, and on the turn between them none. -/
def twoRounds (n : ℕ) : Round where
  stop := false
  received :=
    if n = 0 then .ok [.obj [("Body", .str "7")]]
    else if n = 2 then .ok [.obj [("Body", .str "8")]]
    else .ok []
  inserts := true
  changes := true

theorem twoRounds_exits_iff :
    let loads (body : String) : Option Json :=
      if body = "7" then some (.int 7) else if body = "8" then some (.int 8) else none
    ((∃ n, (readerAt loads twoRounds n).exited = true) ↔ BodiesRead loads twoRounds) ∧
      BodiesRead loads twoRounds := by
  intro loads
  have hquiet : Quiet twoRounds :=
    { stop := fun _ => rfl
      inserts := fun _ => rfl
      changes := fun _ => rfl
      ends := by
        refine ⟨3, fun n hn => ?_⟩
        rw [twoRounds, if_neg (by omega), if_neg (by omega)] }
  refine ⟨exits_iff hquiet, ?_⟩
  intro n ms _ hreceived m hm
  unfold twoRounds at hreceived
  dsimp only at hreceived
  split_ifs at hreceived <;> obtain rfl := Except.ok.inj hreceived
  · rw [List.mem_singleton.1 hm]
    rfl
  · rw [List.mem_singleton.1 hm]
    rfl
  · simp at hm

/-- The text of an open brace is no JSON. -/
theorem brace_never_exits :
    Quiet (onceRounds "\x7b") ∧
      ¬∃ n, (readerAt (fun _ => none) (onceRounds "\x7b") n).exited = true := by
  refine ⟨quiet_onceRounds _, ?_⟩
  rintro ⟨n, hn⟩
  have hstop := (quiet_onceRounds "\x7b").stop
  have hrun : (readerAt (fun _ => none) (onceRounds "\x7b") 1).exited = false := rfl
  have hpending : (.obj [("Body", .str "\x7b")], 0)
      ∈ (readerAt (fun _ => none) (onceRounds "\x7b") 1).batch := List.mem_singleton_self _
  by_cases hfirst : 1 ≤ n
  · have hlater := never_exits hstop hfirst hrun hpending rfl
    simp [hlater] at hn
  · obtain rfl : n = 0 := by omega
    simp [readerAt, stateAt, Reader.start] at hn

end Broker
end QualityFlow
