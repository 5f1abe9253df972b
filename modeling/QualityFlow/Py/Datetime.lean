/-
# Dates and times

`datetime.date` and `datetime.datetime`, with `isoformat` and `fromisoformat`.

`fromisoformat` reads more than `isoformat` writes: dates without dashes, dates by weeks, any
character between the date and the time, times that are cut short, and `Z` for an offset of
zero.  What `isoformat` writes it reads back.
-/

import Mathlib.Data.List.Basic
import Mathlib.Tactic.IntervalCases
import Mathlib.Tactic.Ring
import QualityFlow.Py.Str

namespace QualityFlow
namespace Py

/-! ### Digits -/

/-- A number with a given number of digits. -/
def padded : ℕ → ℕ → List Char
  | 0, _ => []
  | w + 1, n => padded w (n / 10) ++ [Nat.digitChar (n % 10)]

/-- The digits that follow a number, up to a given number of them. -/
def readDigitsFrom : ℕ → ℕ → List Char → Option (ℕ × List Char)
  | n, 0, cs => some (n, cs)
  | _, _ + 1, [] => none
  | n, w + 1, c :: cs => if c.isDigit then readDigitsFrom (10 * n + (c.toNat - 48)) w cs else none

/-- A given number of digits. -/
def readDigits (w : ℕ) (cs : List Char) : Option (ℕ × List Char) := readDigitsFrom 0 w cs

theorem isDigit_digitChar : ∀ {n : ℕ}, n < 10 → (Nat.digitChar n).isDigit = true := by decide

theorem toNat_digitChar : ∀ {n : ℕ}, n < 10 → (Nat.digitChar n).toNat - 48 = n := by decide

theorem isDigit_of_mem_padded {w n : ℕ} {c : Char} (h : c ∈ padded w n) : c.isDigit = true := by
  induction w generalizing n with
  | zero => simp [padded] at h
  | succ w ih =>
    rcases List.mem_append.1 h with hinit | hlast
    · exact ih hinit
    · rw [List.mem_singleton.1 hlast]
      exact isDigit_digitChar (Nat.mod_lt n (by decide))

theorem length_padded (w n : ℕ) : (padded w n).length = w := by
  induction w generalizing n with
  | zero => rfl
  | succ w ih => rw [padded, List.length_append, ih, List.length_singleton]

theorem readDigitsFrom_succ (n w : ℕ) (cs : List Char) :
    readDigitsFrom n (w + 1) cs
      = (readDigitsFrom n w cs).bind fun p => readDigitsFrom p.1 1 p.2 := by
  induction w generalizing n cs with
  | zero => rfl
  | succ w ih =>
    cases cs with
    | nil => rfl
    | cons c cs =>
      by_cases hc : c.isDigit = true
      · rw [readDigitsFrom, if_pos hc, ih, readDigitsFrom, if_pos hc]
      · rw [readDigitsFrom, if_neg hc, readDigitsFrom, if_neg hc]
        rfl

theorem readDigitsFrom_padded (m w : ℕ) {n : ℕ} (h : n < 10 ^ w) (cs : List Char) :
    readDigitsFrom m w (padded w n ++ cs) = some (m * 10 ^ w + n, cs) := by
  induction w generalizing n cs with
  | zero =>
    obtain rfl : n = 0 := by simpa using h
    simp [readDigitsFrom, padded]
  | succ w ih =>
    have hinit : n / 10 < 10 ^ w := by
      rw [pow_succ] at h
      omega
    have hlast : n % 10 < 10 := Nat.mod_lt n (by decide)
    rw [readDigitsFrom_succ, padded, List.append_assoc, ih hinit, Option.bind_some,
      List.singleton_append, readDigitsFrom, if_pos (isDigit_digitChar hlast),
      toNat_digitChar hlast, readDigitsFrom, pow_succ]
    congr 2
    have hdiv := Nat.div_add_mod n 10
    calc 10 * (m * 10 ^ w + n / 10) + n % 10
        = m * (10 ^ w * 10) + (10 * (n / 10) + n % 10) := by ring
      _ = m * (10 ^ w * 10) + n := by rw [hdiv]

/-- **A number of digits is read back.** -/
theorem readDigits_padded {w n : ℕ} (h : n < 10 ^ w) (cs : List Char) :
    readDigits w (padded w n ++ cs) = some (n, cs) := by
  rw [readDigits, readDigitsFrom_padded 0 w h, Nat.zero_mul, Nat.zero_add]

/-! ### Dates -/

/-- `_is_leap`. -/
def isLeap (year : ℕ) : Bool := year % 4 = 0 && (year % 100 ≠ 0 || year % 400 = 0)

/-- `_days_in_month`. -/
def daysInMonth (year month : ℕ) : ℕ :=
  if month = 2 then if isLeap year then 29 else 28
  else if month ∈ [4, 6, 9, 11] then 30
  else 31

/-- A year, a month and a day that there is. -/
structure ValidDate (year month day : ℕ) : Prop where
  year_pos : 1 ≤ year
  year_le : year ≤ 9999
  month_pos : 1 ≤ month
  month_le : month ≤ 12
  day_pos : 1 ≤ day
  day_le : day ≤ daysInMonth year month

instance (year month day : ℕ) : Decidable (ValidDate year month day) :=
  decidable_of_iff (1 ≤ year ∧ year ≤ 9999 ∧ 1 ≤ month ∧ month ≤ 12 ∧ 1 ≤ day ∧
      day ≤ daysInMonth year month)
    ⟨fun ⟨a, b, c, d, e, f⟩ => ⟨a, b, c, d, e, f⟩, fun ⟨a, b, c, d, e, f⟩ => ⟨a, b, c, d, e, f⟩⟩

/-- `date`. -/
structure Date where
  year : ℕ
  month : ℕ
  day : ℕ
  valid : ValidDate year month day
deriving DecidableEq

namespace Date

/-- `date(year, month, day)`. -/
def mk? (year month day : ℕ) : Option Date :=
  if h : ValidDate year month day then some ⟨year, month, day, h⟩ else none

/-- The characters of `isoformat`. -/
def chars (d : Date) : List Char :=
  padded 4 d.year ++ '-' :: (padded 2 d.month ++ '-' :: padded 2 d.day)

/-- `d.isoformat()`. -/
def isoformat (d : Date) : String := String.ofList d.chars

end Date

/-- `_ymd2ord(year, 1, 1)`. -/
def firstOrdinal (year : ℕ) : ℕ :=
  365 * (year - 1) + (year - 1) / 4 - (year - 1) / 100 + (year - 1) / 400 + 1

/-- The month and the day of a day of a year, among the months that are left. -/
def monthDay (year : ℕ) : List ℕ → ℕ → Option (ℕ × ℕ)
  | [], _ => none
  | month :: months, n =>
    if n < daysInMonth year month then some (month, n + 1)
    else monthDay year months (n - daysInMonth year month)

/-- The date of a day of a year, counted from zero. -/
def ofYearDay (year n : ℕ) : Option Date := do
  let (month, day) ← monthDay year ((List.range 12).map (· + 1)) n
  Date.mk? year month day

/-- `_isoweek_to_gregorian`. -/
def isoweekToGregorian (year week day : ℕ) : Option Date :=
  let first := firstOrdinal year
  let firstWeekday := (first + 6) % 7
  let length := if isLeap year then 366 else 365
  if ¬(1 ≤ year ∧ year ≤ 9999) then none
  else if ¬(1 ≤ week ∧ week ≤ 52 ∨
      week = 53 ∧ (first % 7 = 4 ∨ first % 7 = 3 ∧ isLeap year = true)) then none
  else if ¬(1 ≤ day ∧ day ≤ 7) then none
  else
    let n := (if 3 < firstWeekday then 7 else 0) + (week - 1) * 7 + (day - 1)
    if n < firstWeekday then
      ofYearDay (year - 1) ((if isLeap (year - 1) then 366 else 365) + n - firstWeekday)
    else if n - firstWeekday < length then ofYearDay year (n - firstWeekday)
    else ofYearDay (year + 1) (n - firstWeekday - length)

/-- `_parse_isoformat_date`. -/
def parseIsoformatDate (cs : List Char) : Option Date := do
  let (year, cs) ← readDigits 4 cs
  let hasSep := cs.head? = some '-'
  match if hasSep then cs.drop 1 else cs with
  | 'W' :: cs =>
    let (week, cs) ← readDigits 2 cs
    if cs = [] then isoweekToGregorian year week 1
    else if hasSep ∧ cs.head? ≠ some '-' then none
    else
      let (day, _) ← readDigits 1 (if hasSep then cs.drop 1 else cs)
      isoweekToGregorian year week day
  | cs =>
    let (month, cs) ← readDigits 2 cs
    if hasSep ∧ cs.head? ≠ some '-' then none
    else
      let (day, cs) ← readDigits 2 (if hasSep then cs.drop 1 else cs)
      if cs = [] then Date.mk? year month day else none

/-- `date.fromisoformat`. -/
def Date.fromIsoformat (s : String) : Option Date :=
  if s.length = 7 ∨ s.length = 8 ∨ s.length = 10 then parseIsoformatDate s.toList else none

/-! ### Times -/

/-- The time of a day. -/
structure Time where
  hour : ℕ
  minute : ℕ
  second : ℕ
  microsecond : ℕ
  hour_lt : hour < 24
  minute_lt : minute < 60
  second_lt : second < 60
  microsecond_lt : microsecond < 1000000
deriving DecidableEq

/-- `time.min`. -/
def Time.min : Time := ⟨0, 0, 0, 0, by decide, by decide, by decide, by decide⟩

/-- The microseconds of a day. -/
def dayMicros : ℕ := 86400000000

/-- The offset of a `timezone`: a sign, and less than a day of microseconds. -/
structure Offset where
  negative : Bool
  micros : ℕ
  lt : micros < dayMicros
  zero : micros = 0 → negative = false
deriving DecidableEq

/-- `datetime`. -/
structure Datetime where
  date : Date
  time : Time
  offset : Option Offset
deriving DecidableEq

/-- Two digits each for the hour, the minute and the second, and six for a fraction. -/
def clockChars (hour minute second microsecond : ℕ) : List Char :=
  padded 2 hour ++ ':' :: (padded 2 minute ++ ':' :: (padded 2 second ++
    if microsecond = 0 then [] else '.' :: padded 6 microsecond))

/-- `_format_time`. -/
def Time.chars (t : Time) : List Char := clockChars t.hour t.minute t.second t.microsecond

/-- `_format_offset`. -/
def Offset.chars (o : Offset) : List Char :=
  let hour := o.micros / 3600000000
  let minute := o.micros / 60000000 % 60
  let second := o.micros / 1000000 % 60
  let microsecond := o.micros % 1000000
  (if o.negative then '-' else '+') ::
    if second = 0 ∧ microsecond = 0 then padded 2 hour ++ ':' :: padded 2 minute
    else clockChars hour minute second microsecond

namespace Datetime

/-- The characters of `isoformat`. -/
def chars (sep : Char) (t : Datetime) : List Char :=
  t.date.chars ++ sep :: (t.time.chars ++
    match t.offset with
    | none => []
    | some o => o.chars)

/-- `t.isoformat()`. -/
def isoformat (t : Datetime) : String := String.ofList (t.chars 'T')

/-- `str(t)`. -/
def pyStr (t : Datetime) : String := String.ofList (t.chars ' ')

end Datetime

/-- The microseconds of the digits after a point: six of them, the rest is cut off. -/
def parseFraction (cs : List Char) : Option ℕ :=
  if cs = [] ∨ cs.any (fun c => !c.isDigit) then none
  else (readDigits 6 (cs.take 6 ++ List.replicate (6 - cs.length) '0')).map Prod.fst

/-- `_parse_hh_mm_ss_ff`. -/
def parseHhMmSsFf (cs : List Char) : Option (ℕ × ℕ × ℕ × ℕ) := do
  let (hour, cs) ← readDigits 2 cs
  if cs = [] then return (hour, 0, 0, 0)
  else
    let hasSep := cs.head? = some ':'
    let (minute, cs) ← readDigits 2 (if hasSep then cs.drop 1 else cs)
    if cs = [] then return (hour, minute, 0, 0)
    else if hasSep ∧ cs.head? ≠ some ':' then none
    else
      let (second, cs) ← readDigits 2 (if hasSep then cs.drop 1 else cs)
      match cs with
      | [] => return (hour, minute, second, 0)
      | c :: cs =>
        if c = '.' ∨ c = ',' then return (hour, minute, second, ← parseFraction cs) else none

/-- `time(hour, minute, second, microsecond)`. -/
def Time.mk? (hour minute second microsecond : ℕ) : Option Time :=
  if h : hour < 24 ∧ minute < 60 ∧ second < 60 ∧ microsecond < 1000000 then
    some ⟨hour, minute, second, microsecond, h.1, h.2.1, h.2.2.1, h.2.2.2⟩
  else none

/-- `timezone(sign * timedelta(microseconds=micros))`. -/
def Offset.mk? (negative : Bool) (micros : ℕ) : Option Offset :=
  if h : micros < dayMicros then
    some ⟨negative && decide (micros ≠ 0), micros, h, fun hzero => by simp [hzero]⟩
  else none

/-- A character that begins an offset. -/
def isOffsetMark (c : Char) : Bool := c = '+' || c = '-' || c = 'Z'

/-- The offset of hours, minutes, seconds and microseconds. -/
def Offset.ofClock (negative : Bool) (clock : ℕ × ℕ × ℕ × ℕ) : Option Offset :=
  Offset.mk? negative
    (clock.1 * 3600000000 + clock.2.1 * 60000000 + clock.2.2.1 * 1000000 + clock.2.2.2)

/-- The offset at the end of a time. -/
def parseOffset : List Char → Option (Option Offset)
  | [] => some none
  | c :: cs =>
    if c = 'Z' then if cs = [] then (Offset.mk? false 0).map some else none
    else (parseHhMmSsFf cs).bind fun clock => (Offset.ofClock (c = '-') clock).map some

/-- `_parse_isoformat_time`. -/
def parseIsoformatTime (cs : List Char) : Option (Time × Option Offset) := do
  let (hour, minute, second, microsecond) ← parseHhMmSsFf (cs.takeWhile fun c => !isOffsetMark c)
  let offset ← parseOffset (cs.dropWhile fun c => !isOffsetMark c)
  let time ← Time.mk? hour minute second microsecond
  return (time, offset)

/-- `_find_isoformat_datetime_separator`. -/
def findSeparator (cs : List Char) : Option ℕ :=
  if cs.length = 7 then some 7
  else if cs[4]? = some '-' then
    if cs[5]? = some 'W' then
      if cs[8]? = some '-' then
        if cs.length = 9 then none
        else if (cs[10]?.any Char.isDigit) then some 8
        else some 10
      else some 8
    else some 10
  else if cs[4]? = some 'W' then
    let index := 7 + ((cs.drop 7).takeWhile Char.isDigit).length
    if index < 9 then some index
    else if index % 2 = 0 then some 7
    else some 8
  else some 8

/-- `datetime.fromisoformat`. -/
def Datetime.fromIsoformat (s : String) : Option Datetime := do
  let cs := s.toList
  if cs.length < 7 then none
  else
    let separator ← findSeparator cs
    let date ← parseIsoformatDate (cs.take separator)
    let rest := cs.drop (separator + 1)
    if rest = [] then return { date, time := .min, offset := none }
    else
      let (time, offset) ← parseIsoformatTime rest
      return { date, time, offset }

/-! ### Reading back -/

theorem Date.mk?_self (d : Date) : Date.mk? d.year d.month d.day = some d := dif_pos d.valid

theorem daysInMonth_le (year month : ℕ) : daysInMonth year month ≤ 31 := by
  unfold daysInMonth
  split_ifs <;> decide

theorem Date.length_chars (d : Date) : d.chars.length = 10 := by
  simp [Date.chars, length_padded]

/-- The date part of what `isoformat` writes is read back. -/
theorem parseIsoformatDate_chars (d : Date) : parseIsoformatDate d.chars = some d := by
  have hyear : d.year < 10 ^ 4 := by
    have := d.valid.year_le
    omega
  have hmonth : d.month < 10 ^ 2 := by
    have := d.valid.month_le
    omega
  have hday : d.day < 10 ^ 2 := by
    have := d.valid.day_le.trans (daysInMonth_le d.year d.month)
    omega
  have hend : readDigits 2 (padded 2 d.day) = some (d.day, []) := by
    have hread := readDigits_padded hday []
    rwa [List.append_nil] at hread
  -- a month begins with a digit
  obtain ⟨c, cs, hcons⟩ := List.exists_cons_of_length_pos
    (show 0 < (padded 2 d.month).length by rw [length_padded]; decide)
  have hw : c ≠ 'W' := by
    rintro rfl
    have hdigit := isDigit_of_mem_padded (show 'W' ∈ padded 2 d.month by rw [hcons]; simp)
    exact absurd hdigit (by decide)
  have hread := readDigits_padded hmonth ('-' :: padded 2 d.day)
  rw [hcons, List.cons_append] at hread
  unfold parseIsoformatDate Date.chars
  rw [hcons, List.cons_append]
  simp [readDigits_padded hyear, hread, hw, hend, Date.mk?_self]

/-- **`date.fromisoformat` reads back what `isoformat` writes.** -/
theorem Date.fromIsoformat_isoformat (d : Date) : Date.fromIsoformat d.isoformat = some d := by
  have hlength : d.isoformat.length = 10 := by
    rw [← String.length_toList, Date.isoformat, String.toList_ofList, d.length_chars]
  unfold Date.fromIsoformat
  rw [if_pos (.inr (.inr hlength)), Date.isoformat, String.toList_ofList,
    parseIsoformatDate_chars]

theorem parseFraction_padded {n : ℕ} (h : n < 10 ^ 6) : parseFraction (padded 6 n) = some n := by
  have hlength := length_padded 6 n
  have hne : padded 6 n ≠ [] := by
    intro hnil
    rw [hnil] at hlength
    simp at hlength
  have hdigits : (padded 6 n).any (fun c => !c.isDigit) = false := by
    rw [List.any_eq_false]
    intro c hc
    simp [isDigit_of_mem_padded hc]
  have htake : (padded 6 n).take 6 = padded 6 n := List.take_of_length_le hlength.le
  have hread := readDigits_padded h []
  rw [List.append_nil] at hread
  unfold parseFraction
  rw [if_neg (by simp [hne, hdigits]), htake, hlength, Nat.sub_self, List.replicate_zero,
    List.append_nil, hread]
  rfl

/-- What is written of a time is read back. -/
theorem parseHhMmSsFf_clockChars {hour minute second microsecond : ℕ} (hh : hour < 10 ^ 2)
    (hm : minute < 10 ^ 2) (hs : second < 10 ^ 2) (hu : microsecond < 10 ^ 6) :
    parseHhMmSsFf (clockChars hour minute second microsecond)
      = some (hour, minute, second, microsecond) := by
  unfold parseHhMmSsFf clockChars
  by_cases hzero : microsecond = 0
  · subst hzero
    have hend := readDigits_padded hs []
    rw [List.append_nil] at hend
    simp [readDigits_padded hh, readDigits_padded hm, hend]
  · simp [readDigits_padded hh, readDigits_padded hm, readDigits_padded hs, hzero,
      parseFraction_padded hu]

theorem parseHhMmSsFf_short {hour minute : ℕ} (hh : hour < 10 ^ 2) (hm : minute < 10 ^ 2) :
    parseHhMmSsFf (padded 2 hour ++ ':' :: padded 2 minute) = some (hour, minute, 0, 0) := by
  have hend := readDigits_padded hm []
  rw [List.append_nil] at hend
  unfold parseHhMmSsFf
  simp [readDigits_padded hh, hend]

theorem not_isOffsetMark_of_isDigit {c : Char} (h : c.isDigit = true) :
    isOffsetMark c = false := by
  unfold isOffsetMark
  by_contra hmark
  rcases c with ⟨v, hv⟩
  simp only [Bool.not_eq_false, Bool.or_eq_true, decide_eq_true_eq] at hmark
  rcases hmark with (hc | hc) | hc
  all_goals
    rw [hc] at h
    exact absurd h (by decide)

theorem not_isOffsetMark_of_mem {hour minute second microsecond : ℕ} {c : Char}
    (h : c ∈ clockChars hour minute second microsecond) : isOffsetMark c = false := by
  have hcolon : isOffsetMark ':' = false := by decide
  have hpoint : isOffsetMark '.' = false := by decide
  unfold clockChars at h
  simp only [List.mem_append, List.mem_cons] at h
  rcases h with h | rfl | h | rfl | h | h
  · exact not_isOffsetMark_of_isDigit (isDigit_of_mem_padded h)
  · exact hcolon
  · exact not_isOffsetMark_of_isDigit (isDigit_of_mem_padded h)
  · exact hcolon
  · exact not_isOffsetMark_of_isDigit (isDigit_of_mem_padded h)
  · split_ifs at h
    · simp at h
    · rcases List.mem_cons.1 h with rfl | h
      · exact hpoint
      · exact not_isOffsetMark_of_isDigit (isDigit_of_mem_padded h)

theorem Offset.mk?_self (o : Offset) : Offset.mk? o.negative o.micros = some o := by
  unfold Offset.mk?
  rw [dif_pos o.lt]
  rcases o with ⟨negative, micros, lt, zero⟩
  congr
  by_cases hzero : micros = 0
  · simp [hzero, zero hzero]
  · simp [hzero]

theorem Offset.ofClock_self (o : Offset) :
    Offset.ofClock o.negative (o.micros / 3600000000, o.micros / 60000000 % 60,
      o.micros / 1000000 % 60, o.micros % 1000000) = some o := by
  have hparts : o.micros / 3600000000 * 3600000000 + o.micros / 60000000 % 60 * 60000000 +
      o.micros / 1000000 % 60 * 1000000 + o.micros % 1000000 = o.micros := by omega
  rw [Offset.ofClock, hparts, o.mk?_self]

/-- What is written of an offset is read back. -/
theorem parseOffset_chars (o : Offset) : parseOffset o.chars = some (some o) := by
  have hlt := o.lt
  unfold dayMicros at hlt
  have hh : o.micros / 3600000000 < 10 ^ 2 := by omega
  have hm : o.micros / 60000000 % 60 < 10 ^ 2 := by omega
  have hs : o.micros / 1000000 % 60 < 10 ^ 2 := by omega
  have hu : o.micros % 1000000 < 10 ^ 6 := by omega
  have hmark : (if o.negative then '-' else '+') ≠ 'Z' := by cases o.negative <;> decide
  have hsign : decide ((if o.negative then '-' else '+') = '-') = o.negative := by
    cases o.negative <;> decide
  have hself := o.ofClock_self
  rw [Offset.chars, parseOffset, if_neg hmark, hsign]
  by_cases hshort : o.micros / 1000000 % 60 = 0 ∧ o.micros % 1000000 = 0
  · rw [hshort.1, hshort.2] at hself
    rw [if_pos hshort, parseHhMmSsFf_short hh hm, Option.bind_some, hself, Option.map_some]
  · rw [if_neg hshort, parseHhMmSsFf_clockChars hh hm hs hu, Option.bind_some, hself,
      Option.map_some]

theorem Time.mk?_self (t : Time) : Time.mk? t.hour t.minute t.second t.microsecond = some t :=
  dif_pos ⟨t.hour_lt, t.minute_lt, t.second_lt, t.microsecond_lt⟩

/-- The time part of what `isoformat` writes is read back. -/
theorem parseIsoformatTime_chars (t : Time) (offset : Option Offset) :
    parseIsoformatTime (t.chars ++ match offset with
      | none => []
      | some o => o.chars) = some (t, offset) := by
  have hh : t.hour < 10 ^ 2 := t.hour_lt.trans (by decide)
  have hm : t.minute < 10 ^ 2 := t.minute_lt.trans (by decide)
  have hs : t.second < 10 ^ 2 := t.second_lt.trans (by decide)
  have hclock : ∀ c ∈ t.chars, (!isOffsetMark c) = true := by
    intro c hc
    simp [not_isOffsetMark_of_mem hc]
  have hread := parseHhMmSsFf_clockChars hh hm hs t.microsecond_lt
  unfold parseIsoformatTime
  rw [List.takeWhile_append_of_pos hclock, List.dropWhile_append_of_pos hclock]
  cases offset with
  | none =>
    simp only [List.takeWhile_nil, List.dropWhile_nil, List.append_nil, Time.chars, hread,
      parseOffset, Option.bind_eq_bind, Option.bind_some, t.mk?_self]
    rfl
  | some o =>
    have hmark : ∃ c cs, o.chars = c :: cs ∧ isOffsetMark c = true := by
      refine ⟨if o.negative then '-' else '+', _, rfl, ?_⟩
      cases o.negative <;> decide
    obtain ⟨c, cs, hcons, hc⟩ := hmark
    have htake : o.chars.takeWhile (fun c => !isOffsetMark c) = [] := by simp [hcons, hc]
    have hdrop : o.chars.dropWhile (fun c => !isOffsetMark c) = o.chars := by simp [hcons, hc]
    dsimp only
    rw [htake, hdrop, List.append_nil, parseOffset_chars]
    simp only [Time.chars, hread, Option.bind_eq_bind, Option.bind_some, t.mk?_self]
    rfl

/-- **`datetime.fromisoformat` reads back what `isoformat` writes.** -/
theorem Datetime.fromIsoformat_isoformat (t : Datetime) :
    Datetime.fromIsoformat t.isoformat = some t := by
  have hdate := t.date.length_chars
  have hlength : 7 < (t.chars 'T').length := by
    rw [Datetime.chars, List.length_append, hdate]
    omega
  have hfour : (t.chars 'T')[4]? = some '-' := by
    have hpad := length_padded 4 t.date.year
    rw [Datetime.chars, Date.chars, List.append_assoc, List.getElem?_append_right hpad.le, hpad]
    rfl
  have hfive : (t.chars 'T')[5]? ≠ some 'W' := by
    intro hw
    obtain ⟨c, cs, hcons⟩ := List.exists_cons_of_length_pos
      (show 0 < (padded 2 t.date.month).length by rw [length_padded]; decide)
    have hpad := length_padded 4 t.date.year
    rw [Datetime.chars, Date.chars, List.append_assoc,
      List.getElem?_append_right (hpad.le.trans (by decide)), hpad, hcons] at hw
    have hc : c = 'W' := by simpa using hw
    have hdigit := isDigit_of_mem_padded (show c ∈ padded 2 t.date.month by rw [hcons]; simp)
    rw [hc] at hdigit
    exact absurd hdigit (by decide)
  have hseparator : findSeparator (t.chars 'T') = some 10 := by
    unfold findSeparator
    rw [if_neg (by omega), if_pos hfour, if_neg hfive]
  have htake : (t.chars 'T').take 10 = t.date.chars := by
    rw [Datetime.chars, List.take_left' hdate]
  have hdrop : (t.chars 'T').drop (10 + 1) = t.time.chars ++ match t.offset with
      | none => []
      | some o => o.chars := by
    rw [Datetime.chars, List.drop_append, hdate]
    have hnil : t.date.chars.drop (10 + 1) = [] := List.drop_of_length_le (by omega)
    rw [hnil]
    rfl
  have hne : (t.chars 'T').drop (10 + 1) ≠ [] := by
    rw [hdrop]
    intro hnil
    have hclock := (List.append_eq_nil_iff.1 hnil).1
    have hcolon : ':' ∈ t.time.chars := by simp [Time.chars, clockChars]
    rw [hclock] at hcolon
    simp at hcolon
  unfold Datetime.fromIsoformat Datetime.isoformat
  rw [String.toList_ofList]
  dsimp only
  rw [if_neg (by omega), hseparator]
  simp only [Option.bind_eq_bind, Option.bind_some]
  rw [htake, parseIsoformatDate_chars, Option.bind_some, if_neg hne, hdrop,
    parseIsoformatTime_chars]
  rfl

/-! ### The characters of a date and of a time -/

theorem Date.mem_chars {d : Date} {c : Char} (h : c ∈ d.chars) : c.isDigit = true ∨ c = '-' := by
  rw [Date.chars] at h
  simp only [List.mem_append, List.mem_cons] at h
  rcases h with h | rfl | h | rfl | h
  · exact .inl (isDigit_of_mem_padded h)
  · exact .inr rfl
  · exact .inl (isDigit_of_mem_padded h)
  · exact .inr rfl
  · exact .inl (isDigit_of_mem_padded h)

theorem mem_clockChars {hour minute second microsecond : ℕ} {c : Char}
    (h : c ∈ clockChars hour minute second microsecond) :
    c.isDigit = true ∨ c ∈ [':', '.'] := by
  unfold clockChars at h
  simp only [List.mem_append, List.mem_cons] at h
  rcases h with h | rfl | h | rfl | h | h
  · exact .inl (isDigit_of_mem_padded h)
  · exact .inr (by decide)
  · exact .inl (isDigit_of_mem_padded h)
  · exact .inr (by decide)
  · exact .inl (isDigit_of_mem_padded h)
  · split_ifs at h
    · simp at h
    · rcases List.mem_cons.1 h with rfl | h
      · exact .inr (by decide)
      · exact .inl (isDigit_of_mem_padded h)

theorem Offset.mem_chars {o : Offset} {c : Char} (h : c ∈ o.chars) :
    c.isDigit = true ∨ c ∈ ['+', '-', ':', '.'] := by
  rw [Offset.chars] at h
  rcases List.mem_cons.1 h with rfl | h
  · exact .inr (by split_ifs <;> decide)
  · split_ifs at h
    · simp only [List.mem_append, List.mem_cons] at h
      rcases h with h | rfl | h
      · exact .inl (isDigit_of_mem_padded h)
      · exact .inr (by decide)
      · exact .inl (isDigit_of_mem_padded h)
    · rcases mem_clockChars h with hdigit | hmark
      · exact .inl hdigit
      · simp only [List.mem_cons, List.not_mem_nil, or_false] at hmark
        rcases hmark with rfl | rfl
        · exact .inr (by decide)
        · exact .inr (by decide)

/-- The characters of a point in time. -/
theorem Datetime.mem_chars {t : Datetime} {c : Char} (h : c ∈ t.chars 'T') :
    c.isDigit = true ∨ c ∈ ['T', '+', '-', ':', '.'] := by
  rw [Datetime.chars] at h
  simp only [List.mem_append, List.mem_cons] at h
  rcases h with h | rfl | h | h
  · rcases Date.mem_chars h with hdigit | rfl
    · exact .inl hdigit
    · exact .inr (by decide)
  · exact .inr (by decide)
  · rcases mem_clockChars h with hdigit | hmark
    · exact .inl hdigit
    · exact .inr (by simp only [List.mem_cons] at hmark ⊢; tauto)
  · cases hoffset : t.offset with
    | none => simp [hoffset] at h
    | some o =>
      rw [hoffset] at h
      rcases Offset.mem_chars h with hdigit | hmark
      · exact .inl hdigit
      · exact .inr (List.mem_cons_of_mem _ hmark)

end Py
end QualityFlow
