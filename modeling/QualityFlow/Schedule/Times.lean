/-
# When a schedule runs next

`compute_next_run_at` of
`app/elaborations/services/alembic/test_suite_schedule_service.py`, on the `datetime` and
`timedelta` of the standard library.

A `datetime` is a wall clock time, with a UTC offset or without one.  Two of them can be
compared where both have an offset or neither has; the clock of the services, `utc_now`,
and the columns of a schedule have none.  Arithmetic that leaves the years 1 to 9999
raises.
-/

import QualityFlow.Py.Except
import QualityFlow.Py.Str

namespace QualityFlow
namespace Schedule

open Py

/-! ### Dates -/

/-- The last microsecond of the year 9999. -/
def maxTime : ℤ := 3652059 * 86400000000 - 1

/-- `datetime`, its wall clock time in microseconds since 0001-01-01. -/
structure Datetime where
  wall : ℤ
  utcoffset : Option ℤ
deriving DecidableEq

/-- A `datetime` without an offset. -/
def naive (t : ℤ) : Datetime := ⟨t, none⟩

/-- `a < b`. -/
def Datetime.lt (a b : Datetime) : Except String Bool :=
  match a.utcoffset, b.utcoffset with
  | none, none => .ok (decide (a.wall < b.wall))
  | some x, some y => .ok (decide (a.wall - x < b.wall - y))
  | _, _ => .error "can't compare offset-naive and offset-aware datetimes"

/-- `a >= b`. -/
def Datetime.ge (a b : Datetime) : Except String Bool := (!·) <$> a.lt b

/-- `a + delta`. -/
def Datetime.add (a : Datetime) (delta : ℤ) : Except String Datetime :=
  if 0 ≤ a.wall + delta ∧ a.wall + delta ≤ maxTime then .ok { a with wall := a.wall + delta }
  else .error "date value out of range"

/-- `timedelta` of so many units, each of so many microseconds. -/
def timedelta (unit value : ℤ) : Except String ℤ :=
  if unit * value / 86400000000 ≤ 999999999 then .ok (unit * value)
  else .error s!"days={unit * value / 86400000000}; must have magnitude <= 999999999"

/-! ### The frequency of a schedule -/

/-- `ScheduleFrequencyUnit`. -/
inductive FrequencyUnit where
  | minutes
  | hours
  | days
deriving DecidableEq

namespace FrequencyUnit

def value : FrequencyUnit → String
  | .minutes => "minutes"
  | .hours => "hours"
  | .days => "days"

/-- The length of a unit. -/
def micros : FrequencyUnit → ℤ
  | .minutes => 60000000
  | .hours => 3600000000
  | .days => 86400000000

theorem micros_pos (u : FrequencyUnit) : 0 < u.micros := by
  cases u <;> decide

/-- The unit that a normalized text names. -/
def ofText? (text : String) : Option FrequencyUnit :=
  [minutes, hours, days].find? fun u => u.value == text

end FrequencyUnit

/-- The step between two runs. -/
def frequencyDelta (frequencyUnit : String) (frequencyValue : ℤ) : Except String ℤ :=
  match FrequencyUnit.ofText? (lower (strip frequencyUnit)) with
  | some u => timedelta u.micros frequencyValue
  | none => .error s!"Unsupported frequency unit '{frequencyUnit}'."

/-! ### The next run -/

/-- `start_at and end_at and start_at >= end_at` raises. -/
def checkBounds (startAt endAt : Option Datetime) : Except String Unit :=
  match startAt, endAt with
  | some s, some e => do
    if ← s.ge e then .error "start_at must be earlier than end_at."
    else .ok ()
  | _, _ => .ok ()

/-- Whether the first run is at `start_at`. -/
def startsLater (startAt : Option Datetime) (now : Datetime) (referenceTime : Option Datetime) :
    Except String Bool :=
  match referenceTime, startAt with
  | none, some s => now.lt s
  | _, _ => .ok false

/-- The later of a run and the start of the schedule. -/
def notBefore (startAt : Option Datetime) (candidate : Datetime) : Except String Datetime :=
  match startAt with
  | some s => do
    if ← candidate.lt s then return s
    else return candidate
  | none => .ok candidate

/-- `candidate`. -/
def candidateRun (delta : ℤ) (startAt : Option Datetime) (now : Datetime)
    (referenceTime : Option Datetime) : Except String Datetime := do
  match ← startsLater startAt now referenceTime, startAt with
  | true, some s => return s
  | _, _ => notBefore startAt (← (referenceTime.getD now).add delta)

/-- The run, unless it is after the end of the schedule. -/
def notAfter (endAt : Option Datetime) (candidate : Datetime) : Except String (Option Datetime) :=
  match endAt with
  | some e => do
    if ← e.lt candidate then return none
    else return some candidate
  | none => .ok (some candidate)

/-- `compute_next_run_at`. -/
def computeNextRunAt (active : Bool) (frequencyUnit : String) (frequencyValue : ℤ)
    (startAt endAt : Option Datetime) (now : Datetime) (referenceTime : Option Datetime) :
    Except String (Option Datetime) :=
  if active = false then .ok none
  else if frequencyValue ≤ 0 then .error "frequency_value must be greater than zero."
  else do
    checkBounds startAt endAt
    let delta ← frequencyDelta frequencyUnit frequencyValue
    let candidate ← candidateRun delta startAt now referenceTime
    notAfter endAt candidate

/-! ### Where the next run lies -/

@[simp] theorem naive_inj {s t : ℤ} : naive s = naive t ↔ s = t := by
  simp [naive]

/-- A time without an offset is compared with others without one only. -/
theorem lt_naive_eq_ok {a : Datetime} {t : ℤ} {b : Bool} (h : a.lt (naive t) = .ok b) :
    ∃ s, a = naive s ∧ b = decide (s < t) := by
  obtain ⟨s, offset⟩ := a
  cases offset with
  | none => exact ⟨s, rfl, (Except.ok.inj h).symm⟩
  | some offset => exact absurd h (by simp [Datetime.lt, naive])

theorem naive_lt_eq_ok {a : Datetime} {t : ℤ} {b : Bool} (h : (naive t).lt a = .ok b) :
    ∃ s, a = naive s ∧ b = decide (t < s) := by
  obtain ⟨s, offset⟩ := a
  cases offset with
  | none => exact ⟨s, rfl, (Except.ok.inj h).symm⟩
  | some offset => exact absurd h (by simp [Datetime.lt, naive])

theorem add_naive_eq_ok {t : ℤ} {delta : ℤ} {c : Datetime} (h : (naive t).add delta = .ok c) :
    c = naive (t + delta) := by
  unfold Datetime.add at h
  split at h
  · exact (Except.ok.inj h).symm
  · exact absurd h (by simp)

theorem frequencyDelta_pos {frequencyUnit : String} {frequencyValue delta : ℤ}
    (hvalue : 0 < frequencyValue) (h : frequencyDelta frequencyUnit frequencyValue = .ok delta) :
    0 < delta := by
  unfold frequencyDelta at h
  split at h
  · rename_i u _
    unfold timedelta at h
    split at h
    · obtain rfl := Except.ok.inj h
      exact Int.mul_pos u.micros_pos hvalue
    · exact absurd h (by simp)
  · exact absurd h (by simp)

/-- A run that is not before the start. -/
theorem notBefore_eq_ok {startAt : Option Datetime} {t : ℤ} {c : Datetime}
    (h : notBefore startAt (naive t) = .ok c) :
    ∃ t', c = naive t' ∧ t ≤ t' ∧ ∀ s, startAt = some s → ∃ s', s = naive s' ∧ s' ≤ t' := by
  cases startAt with
  | none =>
    obtain rfl := Except.ok.inj h
    exact ⟨t, rfl, le_rfl, fun s hs => absurd hs (by simp)⟩
  | some s =>
    obtain ⟨before, hbefore, hc⟩ := bind_eq_ok.1 h
    obtain ⟨s', rfl, rfl⟩ := naive_lt_eq_ok hbefore
    split at hc
    · rename_i hlt
      obtain rfl := Except.ok.inj hc
      have hlt : t < s' := by simpa using hlt
      exact ⟨s', rfl, hlt.le, fun s hs => ⟨s', (Option.some.inj hs).symm, le_rfl⟩⟩
    · rename_i hlt
      obtain rfl := Except.ok.inj hc
      have hlt : s' ≤ t := by simpa using hlt
      exact ⟨t, rfl, le_rfl, fun s hs => ⟨s', (Option.some.inj hs).symm, hlt⟩⟩

/-- The candidate is later than now, and not before the start. -/
theorem candidateRun_eq_ok {delta : ℤ} (hdelta : 0 < delta) {startAt : Option Datetime}
    {now : ℤ} {referenceTime : Option Datetime}
    (hreference : referenceTime = none ∨ referenceTime = some (naive now)) {c : Datetime}
    (h : candidateRun delta startAt (naive now) referenceTime = .ok c) :
    ∃ t, c = naive t ∧ now < t ∧ ∀ s, startAt = some s → ∃ s', s = naive s' ∧ s' ≤ t := by
  obtain ⟨later, hlater, hc⟩ := bind_eq_ok.1 h
  split at hc
  · rename_i s
    obtain rfl := Except.ok.inj hc
    rcases hreference with rfl | rfl
    · obtain ⟨s', rfl, hlt⟩ := naive_lt_eq_ok hlater
      have hlt : now < s' := by simpa using hlt
      exact ⟨s', rfl, hlt, fun s hs => ⟨s', (Option.some.inj hs).symm, le_rfl⟩⟩
    · exact absurd hlater (by simp [startsLater])
  · obtain ⟨base, hbase, hc⟩ := bind_eq_ok.1 hc
    have hnow : referenceTime.getD (naive now) = naive now := by
      rcases hreference with rfl | rfl <;> rfl
    rw [hnow] at hbase
    obtain rfl := add_naive_eq_ok hbase
    obtain ⟨t, rfl, hle, hstart⟩ := notBefore_eq_ok hc
    exact ⟨t, rfl, by omega, hstart⟩

theorem notAfter_eq_ok {endAt : Option Datetime} {t : ℤ} {c : Datetime}
    (h : notAfter endAt (naive t) = .ok (some c)) :
    c = naive t ∧ ∀ e, endAt = some e → ∃ e', e = naive e' ∧ t ≤ e' := by
  cases endAt with
  | none => exact ⟨(Option.some.inj (Except.ok.inj h)).symm, fun e he => absurd he (by simp)⟩
  | some e =>
    obtain ⟨past, hpast, hc⟩ := bind_eq_ok.1 h
    obtain ⟨e', rfl, rfl⟩ := lt_naive_eq_ok hpast
    split at hc
    · exact absurd hc (by simp)
    · rename_i hle
      have hle : t ≤ e' := by simpa using hle
      exact ⟨(Option.some.inj (Except.ok.inj hc)).symm,
        fun e he => ⟨e', (Option.some.inj he).symm, hle⟩⟩

/-- **The next run of a schedule is later than now and within its bounds**, and only an
active schedule has one. -/
theorem computeNextRunAt_some {active : Bool} {frequencyUnit : String} {frequencyValue : ℤ}
    {startAt endAt : Option Datetime} {now : ℤ} {referenceTime : Option Datetime}
    (hreference : referenceTime = none ∨ referenceTime = some (naive now)) {c : Datetime}
    (h : computeNextRunAt active frequencyUnit frequencyValue startAt endAt (naive now)
      referenceTime = .ok (some c)) :
    active = true ∧ ∃ t, c = naive t ∧ now < t ∧
      (∀ s, startAt = some s → ∃ s', s = naive s' ∧ s' ≤ t) ∧
      ∀ e, endAt = some e → ∃ e', e = naive e' ∧ t ≤ e' := by
  unfold computeNextRunAt at h
  split at h
  · exact absurd h (by simp)
  · rename_i hactive
    split at h
    · exact absurd h (by simp)
    · rename_i hvalue
      obtain ⟨⟨⟩, -, h⟩ := bind_eq_ok.1 h
      obtain ⟨delta, hdelta, h⟩ := bind_eq_ok.1 h
      obtain ⟨candidate, hcandidate, h⟩ := bind_eq_ok.1 h
      have hpos : 0 < delta := frequencyDelta_pos (by omega) hdelta
      obtain ⟨t, rfl, hlater, hstart⟩ := candidateRun_eq_ok hpos hreference hcandidate
      obtain ⟨rfl, hend⟩ := notAfter_eq_ok h
      exact ⟨by simpa using hactive, t, rfl, hlater, hstart, hend⟩

/-- What holds of every bound without an offset. -/
theorem forall_of_map_naive {P : ℤ → Prop} {bound : Option ℤ}
    (h : ∀ d, bound.map naive = some d → ∃ t, d = naive t ∧ P t) : ∀ t, bound = some t → P t := by
  intro t ht
  obtain ⟨t', ht', hp⟩ := h (naive t) (by rw [ht]; rfl)
  rw [naive_inj.1 ht']
  exact hp

/-- An inactive schedule has no next run. -/
theorem computeNextRunAt_inactive (frequencyUnit : String) (frequencyValue : ℤ)
    (startAt endAt : Option Datetime) (now : Datetime) (referenceTime : Option Datetime) :
    computeNextRunAt false frequencyUnit frequencyValue startAt endAt now referenceTime
      = .ok none := rfl

end Schedule
end QualityFlow
