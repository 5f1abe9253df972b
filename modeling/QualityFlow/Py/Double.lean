/-
# Floating-point numbers

A binary format has numbers `m * 2 ^ e` of a bounded significand `m` and an exponent `e` that
is not below a least one.  A rational number is rounded to a multiple of its unit, which the
size of the number gives, and to an even one where two are as near.  A number is what it is
rounded to just where the format has it.

`Double` is the format of `float`, with the infinities and with `nan`.
-/

import Mathlib.Algebra.Order.Field.Power
import Mathlib.Data.Int.Log
import Mathlib.Data.Rat.Floor
import Mathlib.Tactic.FieldSimp
import Mathlib.Tactic.Linarith
import Mathlib.Tactic.Positivity
import QualityFlow.Py.Str

namespace QualityFlow
namespace Py

/-! ### Rounding -/

/-- A binary format: how many bits a significand has, and the least exponent. -/
structure Format where
  precision : ℕ
  minExponent : ℤ

/-- The integer nearest to a number, the even one of two. -/
def roundHalfEven (q : ℚ) : ℤ :=
  let below := ⌊q⌋
  if q - below < 1 / 2 then below
  else if 1 / 2 < q - below then below + 1
  else if Even below then below
  else below + 1

namespace Format

variable (F : Format)

/-- The exponent of the last place of a number. -/
def unit (q : ℚ) : ℤ := max (Int.log 2 |q| + 1 - F.precision) F.minExponent

/-- A number, rounded to its last place. -/
def round (q : ℚ) : ℚ := roundHalfEven (q / 2 ^ F.unit q) * 2 ^ F.unit q

/-- The format has the number. -/
def Exact (q : ℚ) : Prop :=
  ∃ m e : ℤ, |m| < 2 ^ F.precision ∧ F.minExponent ≤ e ∧ q = m * 2 ^ e

end Format

theorem roundHalfEven_intCast (n : ℤ) : roundHalfEven n = n := by
  have hhalf : (n : ℚ) - ⌊(n : ℚ)⌋ < 1 / 2 := by
    rw [Int.floor_intCast]
    norm_num
  unfold roundHalfEven
  dsimp only
  rw [if_pos hhalf, Int.floor_intCast]

/-- The exponent of the last place is not above that of any way to write the number. -/
theorem Format.unit_le {F : Format} {q : ℚ} {m e : ℤ} (hq : q ≠ 0)
    (hm : |m| < 2 ^ F.precision) (he : F.minExponent ≤ e) (heq : q = m * 2 ^ e) :
    F.unit q ≤ e := by
  have hpos : (0 : ℚ) < 2 ^ e := by positivity
  have hlt : |q| < 2 ^ (F.precision + e) := by
    have hm' : |(m : ℚ)| < 2 ^ (F.precision : ℤ) := by
      rw [zpow_natCast]
      exact_mod_cast hm
    calc |q| = |(m : ℚ)| * 2 ^ e := by rw [heq, abs_mul, abs_of_pos hpos]
      _ < 2 ^ (F.precision : ℤ) * 2 ^ e := mul_lt_mul_of_pos_right hm' hpos
      _ = 2 ^ (F.precision + e) := (zpow_add₀ two_ne_zero _ _).symm
  have hlog : Int.log 2 |q| < F.precision + e :=
    (Int.lt_zpow_iff_log_lt Nat.one_lt_two (abs_pos.2 hq)).1 (by exact_mod_cast hlt)
  unfold Format.unit
  omega

/-- **A number is rounded to itself just where the format has it.** -/
theorem Format.round_eq_self_iff (F : Format) (q : ℚ) : F.round q = q ↔ F.Exact q := by
  have hunit : (0 : ℚ) < 2 ^ F.unit q := by positivity
  constructor
  · intro h
    refine ⟨roundHalfEven (q / 2 ^ F.unit q), F.unit q, ?_, le_max_right _ _, h.symm⟩
    by_cases hq : q = 0
    · have hzero : roundHalfEven (q / 2 ^ F.unit q) = 0 := by
        rw [hq, zero_div]
        exact_mod_cast roundHalfEven_intCast 0
      rw [hzero]
      simp
    · -- the number is below the power of two above it
      have hlt : |q| < 2 ^ (Int.log 2 |q| + 1) := by
        exact_mod_cast Int.lt_zpow_succ_log_self Nat.one_lt_two |q|
      have hle : Int.log 2 |q| + 1 ≤ F.precision + F.unit q := by
        have := le_max_left (Int.log 2 |q| + 1 - F.precision) F.minExponent
        unfold Format.unit
        omega
      have hbound : |q| < 2 ^ (F.precision : ℤ) * 2 ^ F.unit q := by
        rw [← zpow_add₀ two_ne_zero]
        exact hlt.trans_le (zpow_le_zpow_right₀ one_le_two hle)
      have habs : |q| = |(roundHalfEven (q / 2 ^ F.unit q) : ℚ)| * 2 ^ F.unit q := by
        conv_lhs => rw [← h]
        rw [Format.round, abs_mul, abs_of_pos hunit]
      rw [habs] at hbound
      have hm := lt_of_mul_lt_mul_right hbound hunit.le
      rw [zpow_natCast] at hm
      exact_mod_cast hm
  · rintro ⟨m, e, hm, he, heq⟩
    by_cases hq : q = 0
    · have hzero : roundHalfEven (q / 2 ^ F.unit q) = 0 := by
        rw [hq, zero_div]
        exact_mod_cast roundHalfEven_intCast 0
      rw [Format.round, hzero, hq]
      simp
    · have hle := Format.unit_le hq hm he heq
      obtain ⟨k, hk⟩ := Int.le.dest hle
      unfold Format.round
      generalize F.unit q = u at hunit hk
      have hquot : q / 2 ^ u = (m * 2 ^ k : ℤ) := by
        rw [div_eq_iff hunit.ne', heq, ← hk, zpow_add₀ two_ne_zero, zpow_natCast]
        push_cast
        ring
      rw [hquot, roundHalfEven_intCast, ← hquot, div_mul_cancel₀ _ hunit.ne']

/-- Where the format has one, it has the integers of a bounded significand and a power of
two. -/
theorem Format.exact_intCast_iff {F : Format} (hmin : F.minExponent ≤ 0) (n : ℤ) :
    F.Exact n ↔ ∃ (m : ℤ) (k : ℕ), |m| < 2 ^ F.precision ∧ n = m * 2 ^ k := by
  constructor
  · rintro ⟨m, e, hm, -, heq⟩
    rcases le_total 0 e with he | he
    · obtain ⟨k, rfl⟩ := Int.eq_ofNat_of_zero_le he
      exact ⟨m, k, hm, by exact_mod_cast heq⟩
    · -- an integer that is a fraction of the significand is not above it
      refine ⟨n, 0, lt_of_le_of_lt ?_ hm, by simp⟩
      have hone : (2 : ℚ) ^ e ≤ 1 := zpow_le_one_of_nonpos₀ one_le_two he
      have hpos : (0 : ℚ) < 2 ^ e := by positivity
      have habs : |(n : ℚ)| ≤ |(m : ℚ)| := by
        rw [heq, abs_mul, abs_of_pos hpos]
        exact mul_le_of_le_one_right (abs_nonneg _) hone
      exact_mod_cast habs
  · rintro ⟨m, k, hm, heq⟩
    refine ⟨m, k, hm, hmin.trans (Int.natCast_nonneg k), ?_⟩
    rw [heq, zpow_natCast]
    push_cast
    ring

/-! ### `float` -/

/-- A `float`.  A zero has no sign here. -/
inductive Double where
  | finite (q : ℚ)
  | infinite (negative : Bool)
  | nan
deriving DecidableEq

/-- The format of the finite floats. -/
def binary64 : Format where
  precision := 53
  minExponent := -1074

namespace Double

/-- The exponent of the power of two that the finite floats are below. -/
def maxExponent : ℕ := 1024

/-- The float nearest to a number. -/
def ofRat (q : ℚ) : Double :=
  let nearest := binary64.round q
  if |nearest| < 2 ^ maxExponent then .finite nearest else .infinite (decide (q < 0))

/-- `x.is_integer()`, with the integer. -/
def integer? : Double → Option ℤ
  | .finite q => if q.den = 1 then some q.num else none
  | _ => none

/-- `bool(x)`. -/
def truthy : Double → Bool
  | .finite q => q ≠ 0
  | _ => true

/-- An integer that a float is. -/
def IsInteger (n : ℤ) : Prop :=
  (∃ (m : ℤ) (k : ℕ), |m| < 2 ^ 53 ∧ n = m * 2 ^ k) ∧ |n| < 2 ^ maxExponent

/-- **The float of an integer is the integer just where it has few enough bits.** -/
theorem integer?_ofRat_iff (n : ℤ) : (ofRat n).integer? = some n ↔ IsInteger n := by
  have hexact : binary64.Exact n ↔ ∃ (m : ℤ) (k : ℕ), |m| < 2 ^ 53 ∧ n = m * 2 ^ k :=
    Format.exact_intCast_iff (by decide) n
  have hself := binary64.round_eq_self_iff (n : ℚ)
  unfold IsInteger
  rw [← hexact, ← hself]
  unfold ofRat
  dsimp only
  constructor
  · intro h
    by_cases hbound : |binary64.round n| < 2 ^ maxExponent
    · rw [if_pos hbound, integer?] at h
      split_ifs at h with hden
      have hnum : (binary64.round n).num = n := Option.some.inj h
      have hround : binary64.round n = n := by
        rw [← Rat.coe_int_num_of_den_eq_one hden, hnum]
      rw [hround] at hbound
      exact ⟨hround, by exact_mod_cast hbound⟩
    · rw [if_neg hbound] at h
      simp [integer?] at h
  · rintro ⟨hround, hbound⟩
    have hbound' : |binary64.round n| < 2 ^ maxExponent := by
      rw [hround]
      exact_mod_cast hbound
    rw [if_pos hbound', hround, integer?]
    simp

/-! ### `float(s)` -/

/-- Digits that single underscores may part. -/
def digitGroups (cs : List Char) : Option (List Char) :=
  let groups := cs.splitOn '_'
  if groups.any List.isEmpty then none else some groups.flatten

/-- A part of a decimal number, which may be missing. -/
def digitPart (cs : List Char) : Option (List Char) :=
  if cs = [] then some [] else digitGroups cs

/-- An exponent: a sign, and digits. -/
def exponentPart (cs : List Char) : Option ℤ :=
  let digits (cs : List Char) : Option ℕ := do intOfDigits (String.ofList (← digitGroups cs))
  match cs with
  | '-' :: cs => (digits cs).map fun n => -n
  | '+' :: cs => (digits cs).map fun n => n
  | cs => (digits cs).map fun n => n

/-- A decimal number without a sign. -/
def decimal (cs : List Char) : Option ℚ := do
  let mantissa := cs.takeWhile fun c => c ≠ 'e' ∧ c ≠ 'E'
  let exponent ←
    match cs.dropWhile fun c => c ≠ 'e' ∧ c ≠ 'E' with
    | [] => some 0
    | _ :: rest => exponentPart rest
  let whole ← digitPart (mantissa.takeWhile (· ≠ '.'))
  let fraction ← digitPart ((mantissa.dropWhile (· ≠ '.')).drop 1)
  if whole ++ fraction = [] then none
  else
    let n ← intOfDigits (String.ofList (whole ++ fraction))
    return (n : ℚ) * 10 ^ (exponent - fraction.length)

/-- A number without a sign. -/
def unsigned (negative : Bool) (cs : List Char) : Option Double :=
  match decimal cs with
  | some q => some (ofRat (if negative then -q else q))
  | none =>
    let word := lower (String.ofList cs)
    if word = "inf" ∨ word = "infinity" then some (.infinite negative)
    else if word = "nan" then some .nan
    else none

/-- `float(s)`. -/
def ofText (s : String) : Option Double :=
  match (strip s).toList with
  | '-' :: cs => unsigned true cs
  | '+' :: cs => unsigned false cs
  | cs => unsigned false cs

/-! ### The floats of integer texts -/

theorem flatten_splitOn (a : Char) (cs : List Char) :
    (cs.splitOn a).flatten = cs.filter (· != a) := by
  induction cs with
  | nil => rfl
  | cons c cs ih =>
    rw [List.splitOn_cons_eq_if_modifyHead]
    by_cases hc : c = a
    · subst hc
      simp [ih]
    · obtain ⟨first, rest, hsplit⟩ := List.exists_cons_of_ne_nil (List.splitOn_ne_nil a cs)
      rw [hsplit] at ih
      simpa [hc, hsplit] using ih

/-- The fold of `intOfDigits` ends in a number only on digits. -/
theorem isSome_of_foldl {cs : List Char} {acc : Option ℕ} {n : ℕ}
    (h : cs.foldl (fun acc c => do return 10 * (← acc) + (← decimalValue c)) acc = some n) :
    acc.isSome = true ∧ ∀ c ∈ cs, (decimalValue c).isSome = true := by
  induction cs generalizing acc with
  | nil =>
    obtain rfl : acc = some n := h
    exact ⟨rfl, List.forall_mem_nil _⟩
  | cons c cs ih =>
    rw [List.foldl_cons] at h
    obtain ⟨hstep, hrest⟩ := ih h
    rcases acc with _ | m
    · simp at hstep
    · cases hc : decimalValue c with
      | none => simp [hc] at hstep
      | some d => exact ⟨rfl, List.forall_mem_cons.2 ⟨by simp [hc], hrest⟩⟩

/-- Digits in groups have neither a point nor an exponent. -/
theorem mem_of_digitGroups {cs ds : List Char} {n : ℕ} (hgroups : digitGroups cs = some ds)
    (hdigits : intOfDigits (String.ofList ds) = some n) {c : Char} (hc : c ∈ cs) :
    c = '_' ∨ (decimalValue c).isSome = true := by
  unfold digitGroups at hgroups
  dsimp only at hgroups
  split_ifs at hgroups
  obtain rfl := Option.some.inj hgroups
  rw [flatten_splitOn, intOfDigits, String.toList_ofList] at hdigits
  have hall := (isSome_of_foldl hdigits).2
  by_cases hunderscore : c = '_'
  · exact .inl hunderscore
  · exact .inr (hall c (List.mem_filter.2 ⟨hc, by simpa using hunderscore⟩))

theorem decimal_of_digitGroups {cs ds : List Char} {n : ℕ} (hgroups : digitGroups cs = some ds)
    (hdigits : intOfDigits (String.ofList ds) = some n) : decimal cs = some (n : ℚ) := by
  have hplain : ∀ c ∈ cs, c ≠ 'e' ∧ c ≠ 'E' ∧ c ≠ '.' := by
    intro c hc
    have hchar := mem_of_digitGroups hgroups hdigits hc
    refine ⟨?_, ?_, ?_⟩ <;> rintro rfl <;> exact absurd hchar (by decide)
  have hmantissa : (cs.takeWhile fun c => c ≠ 'e' ∧ c ≠ 'E') = cs := by
    rw [List.takeWhile_eq_self_iff]
    intro c hc
    simpa using ⟨(hplain c hc).1, (hplain c hc).2.1⟩
  have hexponent : (cs.dropWhile fun c => c ≠ 'e' ∧ c ≠ 'E') = [] := by
    rw [List.dropWhile_eq_nil_iff]
    intro c hc
    simpa using ⟨(hplain c hc).1, (hplain c hc).2.1⟩
  have hwhole : (cs.takeWhile (· ≠ '.')) = cs := by
    rw [List.takeWhile_eq_self_iff]
    intro c hc
    simpa using (hplain c hc).2.2
  have hfraction : (cs.dropWhile (· ≠ '.')) = [] := by
    rw [List.dropWhile_eq_nil_iff]
    intro c hc
    simpa using (hplain c hc).2.2
  have hne : cs ≠ [] := by
    rintro rfl
    simp [digitGroups] at hgroups
  have hds : ds ≠ [] := by
    intro hnil
    unfold digitGroups at hgroups
    dsimp only at hgroups
    split_ifs at hgroups with hempty
    have hflatten : (cs.splitOn '_').flatten = [] := (Option.some.inj hgroups).trans hnil
    obtain ⟨first, rest, hsplit⟩ := List.exists_cons_of_ne_nil (List.splitOn_ne_nil '_' cs)
    simp [hsplit] at hflatten hempty
    exact hempty.1 hflatten.1
  unfold decimal
  simp only [hmantissa, hexponent, hwhole, hfraction, digitPart, hne, hgroups, if_false]
  simp [hds, hdigits]

theorem unsigned_of_digits {cs : List Char} {k : ℕ} (negative : Bool)
    (hgroups : ¬(cs.splitOn '_').any List.isEmpty = true)
    (hdigits : intOfDigits (String.ofList (cs.splitOn '_').flatten) = some k) :
    unsigned negative cs = some (ofRat (if negative then -(k : ℚ) else k)) := by
  have hsome : digitGroups cs = some (cs.splitOn '_').flatten := by
    unfold digitGroups
    rw [if_neg hgroups]
  rw [unsigned, decimal_of_digitGroups hsome hdigits]

theorem ofText_minus {s : String} {cs : List Char} (h : (strip s).toList = '-' :: cs) :
    ofText s = unsigned true cs := by
  rw [ofText, h]
  rfl

theorem ofText_plus {s : String} {cs : List Char} (h : (strip s).toList = '+' :: cs) :
    ofText s = unsigned false cs := by
  rw [ofText, h]
  rfl

theorem ofText_plain {s : String} (hminus : ∀ cs, (strip s).toList ≠ '-' :: cs)
    (hplus : ∀ cs, (strip s).toList ≠ '+' :: cs) :
    ofText s = unsigned false (strip s).toList := by
  unfold ofText
  split
  · rename_i cs heq
    exact absurd heq (hminus cs)
  · rename_i cs heq
    exact absurd heq (hplus cs)
  · rfl

/-- **The float of a text of an integer is the float nearest to the integer.** -/
theorem ofText_of_intOfText {s : String} {n : ℤ} (h : intOfText s = some n) :
    ofText s = some (ofRat n) := by
  unfold intOfText at h
  dsimp only at h
  split at h
  · rename_i ds heq
    split_ifs at h with hgroups
    obtain ⟨m, hm, rfl⟩ := Option.map_eq_some_iff.1 h
    obtain ⟨k, hk, hcast⟩ := Option.bind_eq_some_iff.1 hm
    obtain rfl := Option.some.inj hcast
    rw [ofText_minus heq, unsigned_of_digits true hgroups hk]
    simp
  · rename_i ds heq
    split_ifs at h with hgroups
    obtain ⟨m, hm, rfl⟩ := Option.map_eq_some_iff.1 h
    obtain ⟨k, hk, hcast⟩ := Option.bind_eq_some_iff.1 hm
    obtain rfl := Option.some.inj hcast
    rw [ofText_plus heq, unsigned_of_digits false hgroups hk]
    simp
  · rename_i hminus hplus
    split_ifs at h with hgroups
    obtain ⟨m, hm, rfl⟩ := Option.map_eq_some_iff.1 h
    obtain ⟨k, hk, hcast⟩ := Option.bind_eq_some_iff.1 hm
    obtain rfl := Option.some.inj hcast
    rw [ofText_plain hminus hplus, unsigned_of_digits false hgroups hk]
    simp

end Double
end Py
end QualityFlow
