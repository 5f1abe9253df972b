/-
# The rows of the export

A row of the export is that of one received message, and the number it has is the one the
message was received under.  Whether each message has one row when the reader exits depends
on the turns that save a batch: a batch that is saved and cannot be hidden is still pending,
and a batch that is pending when the thread is stopped is never saved.
-/

import QualityFlow.Broker.QueueReader

namespace QualityFlow
namespace Broker

open Py Rounds

variable {loads : String → Option Json} {rounds : ℕ → Round}

/-! ### Receiving, saving and stopping -/

/-- Turn `n` adds messages to the batch. -/
def ReceivesAt (loads : String → Option Json) (rounds : ℕ → Round) (n : ℕ) : Prop :=
  (readerAt loads rounds n).exited = false ∧ (rounds n).stop = false ∧
    ∃ m ms, (rounds n).received = .ok (m :: ms)

/-- Turn `n` inserts the rows of the pending batch. -/
def SavesAt (loads : String → Option Json) (rounds : ℕ → Round) (n : ℕ) : Prop :=
  (readerAt loads rounds n).exited = false ∧ (rounds n).stop = false ∧
    (rounds n).received = .ok [] ∧ (readerAt loads rounds n).batch ≠ [] ∧
    (∃ rows, bodyRows loads (readerAt loads rounds n).batch = some rows) ∧
    (rounds n).inserts = true

/-- Turn `n` finds that the thread has been stopped. -/
def StopsAt (loads : String → Option Json) (rounds : ℕ → Round) (n : ℕ) : Prop :=
  (readerAt loads rounds n).exited = false ∧ (rounds n).stop = true

/-- A batch that is saved is in the table after. -/
theorem table_of_savesAt {n : ℕ} (h : SavesAt loads rounds n) :
    ∃ rows, bodyRows loads (readerAt loads rounds n).batch = some rows ∧
      (readerAt loads rounds (n + 1)).table = (readerAt loads rounds n).table ++ rows := by
  obtain ⟨hrun, hstop, hempty, hbatch, ⟨rows, hrows⟩, hinserts⟩ := h
  have hturn := turnAt loads rounds n
  generalize readerAt loads rounds (n + 1) = s' at hturn ⊢
  cases hturn with
  | exited h => simp [hrun] at h
  | stopped _ h => simp [hstop] at h
  | failed _ _ h => simp [hempty] at h
  | receives _ _ h => simp [hempty] at h
  | idle _ _ _ h => exact absurd h hbatch
  | unsaved _ _ _ _ h =>
    rcases h with h | h
    · simp [hrows] at h
    · simp [hinserts] at h
  | held _ _ _ _ h => exact ⟨_, h, rfl⟩
  | saved _ _ _ _ h => exact ⟨_, h, by simp⟩

/-- A turn that does not save leaves the table as it is. -/
theorem table_of_not_savesAt {n : ℕ} (h : ¬SavesAt loads rounds n) :
    (readerAt loads rounds (n + 1)).table = (readerAt loads rounds n).table := by
  have hturn := turnAt loads rounds n
  generalize readerAt loads rounds (n + 1) = s' at hturn ⊢
  cases hturn with
  | exited | stopped | failed | receives | unsaved => rfl
  | idle => simp
  | held hrun hstop hempty hbatch hrows hinserts =>
    exact absurd ⟨hrun, hstop, hempty, hbatch, ⟨_, hrows⟩, hinserts⟩ h
  | saved hrun hstop hempty hbatch hrows hinserts =>
    exact absurd ⟨hrun, hstop, hempty, hbatch, ⟨_, hrows⟩, hinserts⟩ h

/-- A message leaves the batch only when the batch is saved and hidden. -/
theorem batch_kept {n : ℕ} (h : SavesAt loads rounds n → (rounds n).changes = false)
    {m : Json × ℕ} (hm : m ∈ (readerAt loads rounds n).batch) :
    m ∈ (readerAt loads rounds (n + 1)).batch := by
  have hturn := turnAt loads rounds n
  generalize readerAt loads rounds (n + 1) = s' at hturn ⊢
  cases hturn with
  | exited | stopped | failed | unsaved | held => exact hm
  | receives => exact List.mem_append_left _ hm
  | idle => simpa using hm
  | saved hrun hstop hempty hbatch hrows hinserts hchanges =>
    have := h ⟨hrun, hstop, hempty, hbatch, ⟨_, hrows⟩, hinserts⟩
    simp [hchanges] at this

/-- A message of the batch was received on a turn, and is in the batch ever since. -/
theorem batch_received {n : ℕ} {m : Json × ℕ} (hm : m ∈ (readerAt loads rounds n).batch) :
    ∃ i < n, ReceivesAt loads rounds i ∧
      ∀ k, i < k → k ≤ n → m ∈ (readerAt loads rounds k).batch := by
  induction n with
  | zero => simp [readerAt, stateAt, Reader.start] at hm
  | succ n ih =>
    -- a message that was there before was received before
    have hearlier : m ∈ (readerAt loads rounds n).batch →
        ∃ i < n + 1, ReceivesAt loads rounds i ∧
          ∀ k, i < k → k ≤ n + 1 → m ∈ (readerAt loads rounds k).batch := by
      intro hold
      obtain ⟨i, hi, hreceives, hsince⟩ := ih hold
      refine ⟨i, by omega, hreceives, fun k hik hk => ?_⟩
      by_cases hlast : k = n + 1
      · exact hlast ▸ hm
      · exact hsince k hik (by omega)
    have hturn := turnAt loads rounds n
    generalize heq : readerAt loads rounds (n + 1) = s' at hturn hm
    cases hturn with
    | exited | stopped | failed | unsaved | held => exact hearlier hm
    | idle => exact hearlier (by simpa using hm)
    | saved => simp at hm
    | receives hrun hstop h =>
      rcases List.mem_append.1 hm with hold | hnew
      · exact hearlier hold
      · refine ⟨n, Nat.lt_succ_self n, ⟨hrun, hstop, _, _, h⟩, fun k hnk hk => ?_⟩
        obtain rfl : k = n + 1 := by omega
        rw [heq]
        exact hm

theorem table_mono {i n : ℕ} (h : i ≤ n) :
    (readerAt loads rounds i).table <+: (readerAt loads rounds n).table := by
  refine stateAt_mono (R := fun s s' : Reader => s.table <+: s'.table) (fun s => List.prefix_refl _)
    (fun hab hbc => hab.trans hbc) (fun round s => ?_) h
  have hturn := turn_spec loads round s
  generalize turn loads round s = s' at hturn ⊢
  cases hturn with
  | exited | stopped | failed | receives | unsaved => exact List.prefix_refl _
  | idle => simp
  | held | saved => simp

theorem received_mono {i n : ℕ} (h : i ≤ n) :
    (readerAt loads rounds i).received.length ≤ (readerAt loads rounds n).received.length := by
  refine stateAt_mono (R := fun s s' : Reader => s.received.length ≤ s'.received.length)
    (fun s => le_rfl) (fun hab hbc => hab.trans hbc) (fun round s => ?_) h
  have hturn := turn_spec loads round s
  generalize turn loads round s = s' at hturn ⊢
  cases hturn with
  | exited | stopped | failed | unsaved | held => exact le_rfl
  | idle | saved => simp
  | receives => simp [Reader.receive]

/-- A message that is both pending and in the table was saved and not hidden. -/
theorem held_of_mem {n : ℕ} {m : Json × ℕ} (hm : m ∈ (readerAt loads rounds n).batch)
    (htable : m.2 ∈ numbers (readerAt loads rounds n).table) :
    ∃ i < n, SavesAt loads rounds i ∧ (rounds i).changes = false := by
  induction n with
  | zero => simp [readerAt, stateAt, Reader.start] at hm
  | succ n ih =>
    have hsound := soundAt loads rounds n
    have hearlier : m ∈ (readerAt loads rounds n).batch →
        m.2 ∈ numbers (readerAt loads rounds n).table →
        ∃ i < n + 1, SavesAt loads rounds i ∧ (rounds i).changes = false := by
      intro hold hrow
      obtain ⟨i, hi, hheld⟩ := ih hold hrow
      exact ⟨i, by omega, hheld⟩
    have hturn := turnAt loads rounds n
    generalize readerAt loads rounds (n + 1) = s' at hturn hm htable
    cases hturn with
    | exited | stopped | failed | unsaved => exact hearlier hm htable
    | idle => exact hearlier (by simpa using hm) (by simpa using htable)
    | saved => simp at hm
    | held hrun hstop h hbatch hrows hinserts hchanges =>
      exact ⟨n, Nat.lt_succ_self n, ⟨hrun, hstop, h, hbatch, ⟨_, hrows⟩, hinserts⟩, hchanges⟩
    | receives =>
      have hlt := hsound.table_lt htable
      rcases List.mem_append.1 hm with hold | hnew
      · exact hearlier hold htable
      · obtain ⟨hle, -⟩ := List.mem_zipIdx hnew
        omega

/-! ### Exactly once -/

/-- Every row of the table is that of a received message, no message has two rows, and when
the loop exits each has one. -/
structure ExactlyOnce (loads : String → Option Json) (rounds : ℕ → Round) : Prop where
  rows_get : ∀ n, ∀ row ∈ (readerAt loads rounds n).table, ∃ m,
    (readerAt loads rounds n).received[row.2]? = some m ∧ bodyRow loads m = some row.1
  atMostOnce : ∀ n, (numbers (readerAt loads rounds n).table).Nodup
  onExit : ∀ n, (readerAt loads rounds n).exited = true →
    ∀ k < (readerAt loads rounds n).received.length, k ∈ numbers (readerAt loads rounds n).table

/-- No batch is saved after a batch that was saved and could not be hidden, and where the
thread is stopped a batch has been saved since anything was received. -/
structure Orderly (loads : String → Option Json) (rounds : ℕ → Round) : Prop where
  saves : ∀ i j, i < j → SavesAt loads rounds i → (rounds i).changes = false →
    ¬SavesAt loads rounds j
  stops : ∀ n, StopsAt loads rounds n → ∀ i < n, ReceivesAt loads rounds i →
    ∃ k, i < k ∧ k < n ∧ SavesAt loads rounds k

theorem Orderly.atMostOnce (h : Orderly loads rounds) (n : ℕ) :
    (numbers (readerAt loads rounds n).table).Nodup := by
  induction n with
  | zero => exact List.nodup_nil
  | succ n ih =>
    by_cases hsaves : SavesAt loads rounds n
    · obtain ⟨rows, hrows, htable⟩ := table_of_savesAt hsaves
      have hbatch := (soundAt loads rounds n).batch_nodup
      rw [htable, numbers_append]
      rw [← numbers_bodyRows hrows] at hbatch
      refine List.nodup_append.2 ⟨ih, hbatch, fun k hk k' hk' heq => ?_⟩
      subst heq
      have hpending : k ∈ numbers (readerAt loads rounds n).batch := numbers_bodyRows hrows ▸ hk'
      obtain ⟨m, hm, rfl⟩ := List.mem_map.1 hpending
      obtain ⟨i, hi, hheld, hchanges⟩ := held_of_mem hm hk
      exact h.saves i n hi hheld hchanges hsaves
    · rw [table_of_not_savesAt hsaves]
      exact ih

/-- Where the thread is stopped no message is lost. -/
theorem Orderly.stopped (h : Orderly loads rounds) {n : ℕ} (hstop : StopsAt loads rounds n)
    {k : ℕ} (hk : k < (readerAt loads rounds n).received.length) :
    k ∈ numbers (readerAt loads rounds n).table := by
  rcases (soundAt loads rounds n).kept k hk with hbatch | htable
  · obtain ⟨m, hm, rfl⟩ := List.mem_map.1 hbatch
    obtain ⟨i, hi, hreceives, hsince⟩ := batch_received hm
    obtain ⟨j, hij, hjn, hsaves⟩ := h.stops n hstop i hi hreceives
    obtain ⟨rows, hrows, htable⟩ := table_of_savesAt hsaves
    have hrow : m.2 ∈ numbers rows := by
      rw [numbers_bodyRows hrows]
      exact List.mem_map_of_mem (hsince j hij (by omega))
    have hmem : m.2 ∈ numbers (readerAt loads rounds (j + 1)).table := by
      rw [htable, numbers_append]
      exact List.mem_append_right _ hrow
    exact ((table_mono hjn).map Prod.snd).subset hmem
  · exact htable

theorem Orderly.onExit (h : Orderly loads rounds) (n : ℕ)
    (hexited : (readerAt loads rounds n).exited = true) :
    ∀ k < (readerAt loads rounds n).received.length,
      k ∈ numbers (readerAt loads rounds n).table := by
  induction n with
  | zero => simp [readerAt, stateAt, Reader.start] at hexited
  | succ n ih =>
    have hsound := soundAt loads rounds (n + 1)
    have hstopped := fun hstop => @Orderly.stopped _ _ h n hstop
    have hturn := turnAt loads rounds n
    generalize readerAt loads rounds (n + 1) = s' at hturn hexited hsound ⊢
    cases hturn with
    | exited hrun => exact ih hrun
    | stopped hrun hstop => exact fun k hk => hstopped ⟨hrun, hstop⟩ hk
    | failed hrun => simp [hrun] at hexited
    | receives hrun => simp [Reader.receive, hrun] at hexited
    | idle hrun hstop hempty hbatch =>
      intro k hk
      refine (hsound.kept k hk).resolve_left ?_
      simp [numbers, hbatch]
    | unsaved hrun => simp [Reader.poll, hrun] at hexited
    | held hrun => simp [Reader.poll, hrun] at hexited
    | saved =>
      intro k hk
      refine (hsound.kept k hk).resolve_left ?_
      simp [numbers]

/-- The first batch that is saved after one that could not be hidden holds it again. -/
theorem not_nodup_of_saved_twice {i j : ℕ} (hij : i < j) (hi : SavesAt loads rounds i)
    (hchanges : (rounds i).changes = false) (hj : SavesAt loads rounds j) :
    ∃ n, ¬(numbers (readerAt loads rounds n).table).Nodup := by
  classical
  have hex : ∃ k, i < k ∧ SavesAt loads rounds k := ⟨j, hij, hj⟩
  obtain ⟨hik, hk⟩ := Nat.find_spec hex
  have hbetween : ∀ l, i < l → l < Nat.find hex → ¬SavesAt loads rounds l :=
    fun l hil hl hsaves => Nat.find_min hex hl ⟨hil, hsaves⟩
  generalize Nat.find hex = k at hik hk hbetween
  -- a message of the batch stays in it up to turn `k`
  obtain ⟨m, hm⟩ := List.exists_mem_of_ne_nil _ hi.2.2.2.1
  have hpending : m ∈ (readerAt loads rounds k).batch := by
    have hnext : m ∈ (readerAt loads rounds (i + 1)).batch := batch_kept (fun _ => hchanges) hm
    have hle : i + 1 ≤ k := hik
    refine stateAt_keeps (P := fun s : Reader => m ∈ s.batch) hle hnext fun l hl hlk hmem => ?_
    exact batch_kept (fun hsaves => absurd hsaves (hbetween l (by omega) hlk)) hmem
  -- it has a row of turn `i`, and gets one of turn `k`
  obtain ⟨rows, hrows, htable⟩ := table_of_savesAt hi
  obtain ⟨rows', hrows', htable'⟩ := table_of_savesAt hk
  have hfirst : m.2 ∈ numbers (readerAt loads rounds k).table := by
    have hrow : m.2 ∈ numbers (readerAt loads rounds (i + 1)).table := by
      rw [htable, numbers_append]
      refine List.mem_append_right _ ?_
      rw [numbers_bodyRows hrows]
      exact List.mem_map_of_mem hm
    have hle : i + 1 ≤ k := hik
    exact ((table_mono hle).map Prod.snd).subset hrow
  have hsecond : m.2 ∈ numbers rows' := by
    rw [numbers_bodyRows hrows']
    exact List.mem_map_of_mem hpending
  refine ⟨k + 1, fun hnodup => ?_⟩
  rw [htable', numbers_append] at hnodup
  exact (List.nodup_append.1 hnodup).2.2 _ hfirst _ hsecond rfl

/-- What is received and not saved has no row where the thread is stopped. -/
theorem not_saved_at_stop {i n : ℕ} (hin : i < n) (hi : ReceivesAt loads rounds i)
    (hn : StopsAt loads rounds n)
    (hnone : ∀ k, i < k → k < n → ¬SavesAt loads rounds k) :
    ∃ k < (readerAt loads rounds (n + 1)).received.length,
      k ∉ numbers (readerAt loads rounds (n + 1)).table := by
  obtain ⟨hrun, hstop, m, ms, hreceived⟩ := hi
  have hnot : ∀ k, i ≤ k → k < n → ¬SavesAt loads rounds k := by
    intro k hik hkn hsaves
    by_cases heq : i = k
    · subst heq
      have := hsaves.2.2.1
      simp [hreceived] at this
    · exact hnone k (by omega) hkn hsaves
  have htable : (readerAt loads rounds n).table = (readerAt loads rounds i).table := by
    refine stateAt_keeps (P := fun s : Reader => s.table = (readerAt loads rounds i).table) hin.le rfl
      fun k hik hkn hk => ?_
    exact (table_of_not_savesAt (hnot k hik hkn)).trans hk
  have hlast : ¬SavesAt loads rounds n := by
    intro hsaves
    have := hsaves.2.1
    simp [hn.2] at this
  refine ⟨(readerAt loads rounds i).received.length, ?_, fun hmem => ?_⟩
  · have hnext : (readerAt loads rounds i).received.length
        < (readerAt loads rounds (i + 1)).received.length := by
      have hturn : readerAt loads rounds (i + 1) = (readerAt loads rounds i).receive (m :: ms) := by
        show turn loads (rounds i) (readerAt loads rounds i) = _
        simp [turn, hrun, hstop, hreceived]
      rw [hturn]
      simp [Reader.receive]
    have hle : i + 1 ≤ n + 1 := by omega
    exact hnext.trans_le (received_mono hle)
  · rw [table_of_not_savesAt hlast, htable] at hmem
    exact lt_irrefl _ ((soundAt loads rounds i).table_lt hmem)

/-- **Every received message is written exactly once just where saving and stopping are
orderly.** -/
theorem exactlyOnce_iff (loads : String → Option Json) (rounds : ℕ → Round) :
    ExactlyOnce loads rounds ↔ Orderly loads rounds := by
  constructor
  · intro hwritten
    constructor
    · intro i j hij hi hchanges hj
      obtain ⟨n, hn⟩ := not_nodup_of_saved_twice hij hi hchanges hj
      exact hn (hwritten.atMostOnce n)
    · intro n hn i hi hreceives
      by_contra hnone
      have hnever : ∀ k, i < k → k < n → ¬SavesAt loads rounds k := by
        intro k hik hkn hsaves
        exact hnone ⟨k, hik, hkn, hsaves⟩
      obtain ⟨k, hk, hmem⟩ := not_saved_at_stop hi hreceives hn hnever
      have hexited : (readerAt loads rounds (n + 1)).exited = true := by
        show (turn loads (rounds n) (readerAt loads rounds n)).exited = true
        simp [turn, hn.1, hn.2]
      exact hmem (hwritten.onExit (n + 1) hexited k hk)
  · intro horderly
    exact ⟨fun n => (soundAt loads rounds n).table_get, horderly.atMostOnce, horderly.onExit⟩

/-- A message is received, and the thread is stopped before it is saved. -/
def stoppedRounds : ℕ → Round
  | 0 => { stop := false, received := .ok [.obj [("Body", .str "7")]], inserts := true,
           changes := true }
  | _ => { stop := true, received := .ok [], inserts := true, changes := true }

theorem stopped_not_exactlyOnce : ¬ExactlyOnce (fun _ => some (.int 7)) stoppedRounds := by
  intro hwritten
  have hlost := hwritten.onExit 2 (by decide) 0 (by decide)
  exact absurd hlost (by decide)

/-- A batch that cannot be hidden has its rows twice after the next empty turn. -/
example : (numbers (readerAt (fun _ => some (.int 7)) (fun n =>
    { stop := false, received := if n = 0 then .ok [.obj [("Body", .str "7")]] else .ok [],
      inserts := true, changes := false }) 3).table) = [0, 0] := by decide

end Broker
end QualityFlow
