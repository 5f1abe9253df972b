/-
# Decimal numerals

A numeral has digits before a point, digits behind it and an exponent, of which the last two
may be missing; no zero opens it but the one of zero units.  `float` reads a numeral as the
number that it stands for, and the digits of a float are laid out as one.
-/

import Mathlib.Tactic.NormNum
import QualityFlow.Py.Value

namespace QualityFlow
namespace Py

/-! ### Digits -/

/-- Characters that are ASCII digits. -/
def Digits (cs : List Char) : Prop := ∀ c ∈ cs, c.isDigit = true

theorem Digits.append {cs ds : List Char} (hcs : Digits cs) (hds : Digits ds) :
    Digits (cs ++ ds) := by
  intro c hc
  rcases List.mem_append.1 hc with h | h
  · exact hcs c h
  · exact hds c h

theorem Digits.take {cs : List Char} (h : Digits cs) (n : ℕ) : Digits (cs.take n) :=
  fun c hc => h c (List.mem_of_mem_take hc)

theorem Digits.drop {cs : List Char} (h : Digits cs) (n : ℕ) : Digits (cs.drop n) :=
  fun c hc => h c (List.mem_of_mem_drop hc)

theorem Digits.zeros (n : ℕ) : Digits (List.replicate n '0') := by
  intro c hc
  rw [List.eq_of_mem_replicate hc]
  rfl

theorem Digits.toString (n : ℕ) : Digits (toString n).toList :=
  fun _ => isDigit_of_mem_toString

/-- A digit is none of the characters that end it. -/
theorem Digits.not_mem {cs : List Char} (h : Digits cs) {c : Char} (hc : c.isDigit = false) :
    c ∉ cs := by
  intro hmem
  rw [h c hmem] at hc
  exact absurd hc (by decide)

theorem decimalValue_of_isDigit {c : Char} (h : c.isDigit = true) :
    decimalValue c = some (c.toNat - '0'.toNat) := by
  rw [Char.isDigit_iff_toNat] at h
  obtain ⟨hlow, hhigh⟩ := h
  rw [← Char.ofNat_toNat c]
  generalize c.toNat = n at hlow hhigh
  have h0 : '0'.toNat = 48 := rfl
  have h9 : '9'.toNat = 57 := rfl
  rw [h0] at hlow
  rw [h9] at hhigh
  interval_cases n <;> rfl

/-- **`int` reads ASCII digits as the number of base ten.** -/
theorem intOfDigits_of_digits {cs : List Char} (h : Digits cs) :
    intOfDigits (String.ofList cs) = some (Nat.ofDigitChars 10 cs 0) := by
  rw [intOfDigits, String.toList_ofList]
  generalize 0 = n
  induction cs generalizing n with
  | nil => rfl
  | cons c cs ih =>
    have hc := decimalValue_of_isDigit (h c List.mem_cons_self)
    have hrest : Digits cs := fun d hd => h d (List.mem_cons_of_mem c hd)
    rw [List.foldl_cons, Nat.ofDigitChars_cons, ← ih hrest]
    simp only [hc]
    rfl

theorem digitGroups_of_digits {cs : List Char} (h : Digits cs) (hne : cs ≠ []) :
    Double.digitGroups cs = some cs := by
  have hsplit : cs.splitOn '_' = [cs] := List.splitOn_eq_singleton (h.not_mem rfl)
  have hempty : ([cs].any List.isEmpty) = false := by simpa using hne
  unfold Double.digitGroups
  dsimp only
  rw [hsplit, hempty]
  simp

theorem digitPart_of_digits {cs : List Char} (h : Digits cs) : Double.digitPart cs = some cs := by
  unfold Double.digitPart
  split_ifs with hnil
  · rw [hnil]
  · exact digitGroups_of_digits h hnil

theorem ofDigitChars_zeros_append (n : ℕ) (cs : List Char) :
    Nat.ofDigitChars 10 (List.replicate n '0' ++ cs) 0 = Nat.ofDigitChars 10 cs 0 := by
  rw [Nat.ofDigitChars_append, Nat.ofDigitChars_replicate_zero, Nat.mul_zero]

theorem ofDigitChars_append_zeros (cs : List Char) (n : ℕ) :
    Nat.ofDigitChars 10 (cs ++ List.replicate n '0') 0 = 10 ^ n * Nat.ofDigitChars 10 cs 0 := by
  rw [Nat.ofDigitChars_append, Nat.ofDigitChars_replicate_zero]

theorem ofDigitChars_toString (n : ℕ) : Nat.ofDigitChars 10 (toString n).toList 0 = n := by
  rw [Nat.toString_eq_ofList_toDigits, String.toList_ofList, Nat.ofDigitChars_ten_toDigits]

/-- The digits of a number that is not zero do not open with one. -/
theorem head?_toString {n : ℕ} (hn : n ≠ 0) : (toString n).toList.head? ≠ some '0' := by
  rw [Nat.toString_eq_ofList_toDigits, String.toList_ofList]
  induction n using Nat.strong_induction_on with
  | _ n ih =>
    rcases Nat.lt_or_ge n 10 with hlt | hge
    · rw [Nat.toDigits_of_lt_base hlt]
      interval_cases n <;> simp_all [Nat.digitChar]
    · rw [Nat.toDigits_of_base_le (by decide) hge,
        List.head?_append_of_ne_nil _ Nat.toDigits_ne_nil]
      exact ih (n / 10) (by omega) (by omega)

/-! ### Numerals -/

/-- A numeral without a sign.  An exponent is whether it is negative, and its digits. -/
structure Numeral where
  whole : List Char
  fraction : List Char
  exponent : Option (Bool × List Char)
  whole_digits : Digits whole
  whole_ne_nil : whole ≠ []
  whole_zero : whole.head? = some '0' → whole = ['0']
  fraction_digits : Digits fraction
  exponent_digits : ∀ e ∈ exponent, Digits e.2 ∧ e.2 ≠ []

namespace Numeral

/-- The point and the digits behind it. -/
def fractionText (n : Numeral) : List Char := if n.fraction = [] then [] else '.' :: n.fraction

/-- The exponent with its mark. -/
def exponentText (n : Numeral) : List Char :=
  match n.exponent with
  | none => []
  | some (negative, ds) => 'e' :: (if negative then '-' else '+') :: ds

/-- The characters of a numeral. -/
def text (n : Numeral) : List Char := n.whole ++ n.fractionText ++ n.exponentText

/-- The power of ten that the exponent names. -/
def scale (n : Numeral) : ℤ :=
  match n.exponent with
  | none => 0
  | some (negative, ds) =>
    if negative then -(Nat.ofDigitChars 10 ds 0 : ℤ) else Nat.ofDigitChars 10 ds 0

/-- The number that a numeral stands for. -/
def value (n : Numeral) : ℚ :=
  Nat.ofDigitChars 10 (n.whole ++ n.fraction) 0 * 10 ^ (n.scale - n.fraction.length)

theorem exponentPart_eq {negative : Bool} {ds : List Char} (h : Digits ds) (hne : ds ≠ []) :
    Double.exponentPart ((if negative then '-' else '+') :: ds) =
      some (if negative then -(Nat.ofDigitChars 10 ds 0 : ℤ) else Nat.ofDigitChars 10 ds 0) := by
  have hgroups := digitGroups_of_digits h hne
  have hdigits := intOfDigits_of_digits h
  cases negative <;> simp [Double.exponentPart, hgroups, hdigits]

/-- **`float` reads a numeral as the number that it stands for.** -/
theorem decimal_text (n : Numeral) : Double.decimal n.text = some n.value := by
  have hfraction : ∀ c ∈ n.fractionText, c ≠ 'e' ∧ c ≠ 'E' := by
    intro c hc
    unfold fractionText at hc
    split_ifs at hc
    · exact absurd hc List.not_mem_nil
    · rcases List.mem_cons.1 hc with rfl | hc
      · decide
      · constructor <;> rintro rfl
        · exact n.fraction_digits.not_mem rfl hc
        · exact n.fraction_digits.not_mem rfl hc
  have hmantissa : ∀ c ∈ n.whole ++ n.fractionText, decide (c ≠ 'e' ∧ c ≠ 'E') = true := by
    intro c hc
    rw [decide_eq_true_iff]
    rcases List.mem_append.1 hc with hc | hc
    · constructor <;> rintro rfl
      · exact n.whole_digits.not_mem rfl hc
      · exact n.whole_digits.not_mem rfl hc
    · exact hfraction c hc
  have htake : (n.text.takeWhile fun c => c ≠ 'e' ∧ c ≠ 'E') = n.whole ++ n.fractionText := by
    rw [text, List.takeWhile_append_of_pos hmantissa]
    unfold exponentText
    split <;> simp
  have hdrop : (n.text.dropWhile fun c => c ≠ 'e' ∧ c ≠ 'E') = n.exponentText := by
    rw [text, List.dropWhile_append_of_pos hmantissa]
    unfold exponentText
    split <;> simp
  have hpoint : ∀ c ∈ n.whole, decide (c ≠ '.') = true := by
    intro c hc
    rw [decide_eq_true_iff]
    rintro rfl
    exact n.whole_digits.not_mem rfl hc
  have hwhole : (n.whole ++ n.fractionText).takeWhile (· ≠ '.') = n.whole := by
    rw [List.takeWhile_append_of_pos hpoint]
    unfold fractionText
    split_ifs <;> simp
  have hrest : ((n.whole ++ n.fractionText).dropWhile (· ≠ '.')).drop 1 = n.fraction := by
    rw [List.dropWhile_append_of_pos hpoint]
    unfold fractionText
    split_ifs with hnil <;> simp [hnil]
  have hne : n.whole ++ n.fraction ≠ [] := by simp [n.whole_ne_nil]
  have hdigits := intOfDigits_of_digits (n.whole_digits.append n.fraction_digits)
  unfold Double.decimal value scale
  simp only [htake, hdrop, hwhole, hrest, digitPart_of_digits n.whole_digits,
    digitPart_of_digits n.fraction_digits]
  unfold exponentText
  cases hexponent : n.exponent with
  | none => simp only [Option.bind_eq_bind, Option.bind_some, if_neg hne, hdigits, Option.pure_def]
  | some e =>
    obtain ⟨hds, hds_ne⟩ := n.exponent_digits e hexponent
    simp only [exponentPart_eq hds hds_ne, Option.bind_eq_bind, Option.bind_some, if_neg hne,
      hdigits, Option.pure_def]

end Numeral

/-! ### The layout of a float -/

/-- Digits with a point among them are a numeral. -/
theorem exists_numeral_of_point {whole fraction : List Char} (hwhole : Digits whole)
    (hwhole_ne : whole ≠ []) (hzero : whole.head? = some '0' → whole = ['0'])
    (hfraction : Digits fraction) (hfraction_ne : fraction ≠ []) :
    ∃ n : Numeral, n.text = whole ++ '.' :: fraction ∧ n.fraction ≠ [] ∧
      n.value = Nat.ofDigitChars 10 (whole ++ fraction) 0 * 10 ^ (-(fraction.length : ℤ)) := by
  refine ⟨{ whole := whole
            fraction := fraction
            exponent := none
            whole_digits := hwhole
            whole_ne_nil := hwhole_ne
            whole_zero := hzero
            fraction_digits := hfraction
            exponent_digits := by simp }, ?_, hfraction_ne, ?_⟩
  · simp only [Numeral.text, Numeral.fractionText, Numeral.exponentText, if_neg hfraction_ne,
      List.append_nil]
  · simp only [Numeral.value, Numeral.scale, zero_sub]

section Layout

variable {ds : List Char} (hdigits : Digits ds) (hne : ds ≠ []) (hhead : ds.head? ≠ some '0')
include hdigits hne

/-- The digits below the point. -/
theorem exists_numeral_below {point : ℤ} (hlow : -4 < point) (hzero : point ≤ 0) :
    ∃ n : Numeral, n.text = Double.layout ds point ∧ n.fraction ≠ [] ∧
      n.value = Nat.ofDigitChars 10 ds 0 * 10 ^ (point - ds.length) := by
  have htake : point.toNat = 0 := by omega
  have hfraction : List.replicate (-point).toNat '0' ++ ds ≠ [] := by simp [hne]
  obtain ⟨n, htext, hpart, hvalue⟩ := exists_numeral_of_point (Digits.zeros 1) (by simp)
    (fun _ => rfl) ((Digits.zeros (-point).toNat).append hdigits) hfraction
  refine ⟨n, ?_, hpart, ?_⟩
  · rw [htext, Double.layout, if_pos ⟨hlow, by omega⟩]
    simp [htake, hne]
  · rw [hvalue, ← List.append_assoc, List.replicate_append_replicate, ofDigitChars_zeros_append]
    congr 2
    simp only [List.length_append, List.length_replicate]
    omega

include hhead

/-- The point among the digits, or behind them. -/
theorem exists_numeral_above {point : ℤ} (hpos : 0 < point) (hhigh : point ≤ 16) :
    ∃ n : Numeral, n.text = Double.layout ds point ∧ n.fraction ≠ [] ∧
      n.value = Nat.ofDigitChars 10 ds 0 * 10 ^ (point - ds.length) := by
  obtain ⟨k, hk⟩ : ∃ k : ℕ, point = k + 1 := ⟨(point - 1).toNat, by omega⟩
  have htoNat : point.toNat = k + 1 := by omega
  have hzeros : (-point).toNat = 0 := by omega
  have hopen : (ds.take (k + 1)).head? ≠ some '0' := by
    obtain ⟨c, cs, rfl⟩ := List.exists_cons_of_ne_nil hne
    exact hhead
  have htake_ne : ds.take (k + 1) ≠ [] := by simp [hne]
  rcases Nat.lt_or_ge (k + 1) ds.length with hshort | hlong
  · have hfraction : ds.drop (k + 1) ≠ [] := by
      rw [Ne, List.drop_eq_nil_iff]
      omega
    have hnone : k + 1 - ds.length = 0 := by omega
    obtain ⟨n, htext, hpart, hvalue⟩ := exists_numeral_of_point (hdigits.take (k + 1)) htake_ne
      (fun h => absurd h hopen) (hdigits.drop (k + 1)) hfraction
    refine ⟨n, ?_, hpart, ?_⟩
    · rw [htext, Double.layout, if_pos ⟨by omega, hhigh⟩, htoNat, hzeros, hnone]
      simp only [List.replicate_zero, List.nil_append, List.append_nil, if_neg htake_ne,
        if_neg hfraction]
    · rw [hvalue, List.take_append_drop]
      congr 2
      rw [List.length_drop]
      omega
  · have hdrop : ds.drop (k + 1) = [] := List.drop_eq_nil_iff.2 hlong
    have htake : ds.take (k + 1) = ds := List.take_of_length_le hlong
    have hwhole_ne : ds ++ List.replicate (k + 1 - ds.length) '0' ≠ [] := by simp [hne]
    have hwhole_open : (ds ++ List.replicate (k + 1 - ds.length) '0').head? ≠ some '0' := by
      rw [List.head?_append_of_ne_nil _ hne]
      exact hhead
    obtain ⟨n, htext, hpart, hvalue⟩ := exists_numeral_of_point
      (hdigits.append (Digits.zeros (k + 1 - ds.length))) hwhole_ne
      (fun h => absurd h hwhole_open) (Digits.zeros 1) (by simp)
    refine ⟨n, ?_, hpart, ?_⟩
    · rw [htext, Double.layout, if_pos ⟨by omega, hhigh⟩, htoNat, hzeros, hdrop, htake]
      simp only [List.replicate_zero, List.append_nil, if_neg hwhole_ne, if_true]
      rfl
    · rw [hvalue, List.append_assoc, List.replicate_append_replicate, ofDigitChars_append_zeros]
      push_cast
      rw [mul_comm _ (Nat.ofDigitChars 10 ds 0 : ℚ), ← zpow_natCast, mul_assoc,
        ← zpow_add₀ (by norm_num)]
      congr 2
      rw [List.length_singleton]
      omega

/-- The digits with an exponent. -/
theorem exists_numeral_exponent {point : ℤ} (h : ¬(-4 < point ∧ point ≤ 16)) :
    ∃ n : Numeral, n.text = Double.layout ds point ∧ n.exponent.isSome = true ∧
      n.value = Nat.ofDigitChars 10 ds 0 * 10 ^ (point - ds.length) := by
  obtain ⟨c, cs, rfl⟩ := List.exists_cons_of_ne_nil hne
  have hc : c ≠ '0' := by
    rintro rfl
    exact hhead rfl
  have hexponent : Digits (List.replicate (2 - (toString (point - 1).natAbs).toList.length) '0' ++
      (toString (point - 1).natAbs).toList) :=
    (Digits.zeros _).append (Digits.toString _)
  have hexponent_ne : (toString (point - 1).natAbs).toList ≠ [] := by
    rw [Nat.toString_eq_ofList_toDigits, String.toList_ofList]
    exact Nat.toDigits_ne_nil
  refine ⟨{ whole := [c]
            fraction := cs
            exponent := some (decide (point - 1 < 0),
              List.replicate (2 - (toString (point - 1).natAbs).toList.length) '0' ++
                (toString (point - 1).natAbs).toList)
            whole_digits := hdigits.take 1
            whole_ne_nil := by simp
            whole_zero := by simp [hc]
            fraction_digits := hdigits.drop 1
            exponent_digits := ?_ }, ?_, rfl, ?_⟩
  · rintro e he
    obtain rfl := Option.some.inj he
    exact ⟨hexponent, List.append_ne_nil_of_right_ne_nil _ hexponent_ne⟩
  · rw [Numeral.text, Numeral.fractionText, Numeral.exponentText, Double.layout, if_neg h]
    simp
  · have hscale : (if decide (point - 1 < 0) = true then -((point - 1).natAbs : ℤ)
        else (point - 1).natAbs) = point - 1 := by
      simp only [decide_eq_true_iff]
      split_ifs <;> omega
    rw [Numeral.value, Numeral.scale]
    simp only [ofDigitChars_zeros_append, ofDigitChars_toString, hscale]
    rw [List.singleton_append]
    congr 2
    rw [List.length_cons]
    push_cast
    ring

/-- **The digits of a number are laid out as a numeral that stands for it.** -/
theorem exists_numeral_layout (point : ℤ) :
    ∃ n : Numeral, n.text = Double.layout ds point ∧
      (n.fraction ≠ [] ∨ n.exponent.isSome = true) ∧
      n.value = Nat.ofDigitChars 10 ds 0 * 10 ^ (point - ds.length) := by
  by_cases h : -4 < point ∧ point ≤ 16
  · rcases le_or_gt point 0 with hzero | hpos
    · obtain ⟨n, htext, hfraction, hvalue⟩ := exists_numeral_below hdigits hne h.1 hzero
      exact ⟨n, htext, .inl hfraction, hvalue⟩
    · obtain ⟨n, htext, hfraction, hvalue⟩ := exists_numeral_above hdigits hne hhead hpos h.2
      exact ⟨n, htext, .inl hfraction, hvalue⟩
  · obtain ⟨n, htext, hexponent, hvalue⟩ := exists_numeral_exponent hdigits hne hhead h
    exact ⟨n, htext, .inr hexponent, hvalue⟩

end Layout

end Py
end QualityFlow
