/-
# Floats and their texts

`float(repr(x)) == x`.  A number that is near enough to a float is rounded to it, and one of
the two numbers of seventeen digits around a float is, so that `repr` has digits to write; and
the digits with their point, or with an exponent, are read as the number that they stand for.
-/

import Mathlib.Data.List.DropRight
import Mathlib.Tactic.NormNum
import QualityFlow.Py.Numeral

namespace QualityFlow
namespace Py

/-! ### Rounding to a number near by -/

theorem roundHalfEven_of_near {x : ℚ} {n : ℤ} (h : |x - n| < 1 / 2) : roundHalfEven x = n := by
  obtain ⟨hlow, hhigh⟩ := abs_lt.1 h
  have hle := Int.floor_le x
  have hlt := Int.lt_floor_add_one x
  unfold roundHalfEven
  dsimp only
  rcases le_or_gt (n : ℚ) x with hnx | hxn
  · have hfloor : ⌊x⌋ = n := Int.floor_eq_iff.2 ⟨hnx, by linarith⟩
    rw [hfloor, if_pos (by linarith)]
  · have hfloor : ⌊x⌋ = n - 1 := by
      rw [Int.floor_eq_iff]
      push_cast
      constructor <;> linarith
    have hcast : ((n - 1 : ℤ) : ℚ) = n - 1 := by push_cast; rfl
    rw [hfloor, hcast, if_neg (by linarith), if_pos (by linarith)]
    omega

theorem roundHalfEven_neg (x : ℚ) : roundHalfEven (-x) = -roundHalfEven x := by
  rcases eq_or_ne (⌊x⌋ : ℚ) x with hint | hint
  · have hneg : -x = ((-⌊x⌋ : ℤ) : ℚ) := by
      push_cast
      rw [hint]
    rw [hneg, roundHalfEven_intCast, ← hint, roundHalfEven_intCast, Int.floor_intCast]
  · have hle : (⌊x⌋ : ℚ) < x := lt_of_le_of_ne (Int.floor_le x) hint
    have hlt := Int.lt_floor_add_one x
    have hfloor : ⌊-x⌋ = -⌊x⌋ - 1 := by
      rw [Int.floor_eq_iff]
      push_cast
      constructor <;> linarith
    have hcast : ((-⌊x⌋ - 1 : ℤ) : ℚ) = -⌊x⌋ - 1 := by push_cast; rfl
    have heven : Even (-⌊x⌋ - 1) ↔ ¬Even ⌊x⌋ := by
      rw [Int.even_sub_one, even_neg]
    unfold roundHalfEven
    dsimp only
    rw [hfloor, hcast]
    by_cases hbelow : x - ⌊x⌋ < 1 / 2
    · rw [if_neg (by linarith), if_pos (by linarith), if_pos hbelow]
      omega
    · by_cases habove : 1 / 2 < x - ⌊x⌋
      · rw [if_pos (by linarith), if_neg hbelow, if_pos habove]
        omega
      · rw [if_neg (by linarith), if_neg (by linarith), if_neg hbelow, if_neg habove]
        by_cases hparity : Even ⌊x⌋
        · rw [if_neg (by rwa [heven, not_not]), if_pos hparity]
          omega
        · rw [if_pos (heven.2 hparity), if_neg hparity]
          omega

namespace Format

variable {F : Format}

theorem unit_neg (q : ℚ) : F.unit (-q) = F.unit q := by
  rw [unit, unit, abs_neg]

/-- **The numbers below zero are rounded as those above it.** -/
theorem round_neg (q : ℚ) : F.round (-q) = -F.round q := by
  rw [round, round, unit_neg, neg_div, roundHalfEven_neg]
  push_cast
  ring

/-- A number is rounded to the multiple of its unit that is less than half a unit away. -/
theorem round_of_multiple {d q : ℚ} {m : ℤ} (hq : q = m * 2 ^ F.unit d)
    (hnear : |d - q| < 2 ^ F.unit d / 2) : F.round d = q := by
  have hpos : (0 : ℚ) < 2 ^ F.unit d := by positivity
  have hround : roundHalfEven (d / 2 ^ F.unit d) = m := by
    refine roundHalfEven_of_near ?_
    have hdiv : d / 2 ^ F.unit d - m = (d - q) / 2 ^ F.unit d := by
      rw [hq]
      field_simp
    rw [hdiv, abs_div, abs_of_pos hpos, div_lt_iff₀ hpos]
    linarith
  rw [round, hround, hq]

/-- A number is below the unit times as many units as a significand has. -/
theorem lt_unit {q : ℚ} (hq : 0 < q) : q < 2 ^ (F.precision + F.unit q : ℤ) := by
  have hlt : q < 2 ^ (Int.log 2 q + 1) := by
    exact_mod_cast Int.lt_zpow_succ_log_self Nat.one_lt_two q
  have hle : Int.log 2 q + 1 ≤ F.precision + F.unit q := by
    have := le_max_left (Int.log 2 |q| + 1 - F.precision) F.minExponent
    unfold unit
    rw [abs_of_pos hq] at this ⊢
    omega
  exact hlt.trans_le (zpow_le_zpow_right₀ one_le_two hle)

/-- A difference that is small beside a number is less than half the unit of the number. -/
theorem half_unit_of_small {q x : ℚ} (hq : 0 < q) (h : x * 2 ^ (F.precision + 1) ≤ q) :
    x < 2 ^ F.unit q / 2 := by
  have hlt := lt_unit (F := F) hq
  rw [zpow_add₀ two_ne_zero, zpow_natCast] at hlt
  have hpow : (0 : ℚ) < 2 ^ F.precision := by positivity
  have hstep : x * 2 * 2 ^ F.precision < 2 ^ F.unit q * 2 ^ F.precision := by
    rw [pow_succ] at h
    linarith
  have := lt_of_mul_lt_mul_right hstep hpow.le
  linarith

/-- A number of the format is a power of two away from the powers of two above it. -/
theorem le_sub_unit {q : ℚ} {m : ℤ} (hq : 0 < q) (hm : q = m * 2 ^ F.unit q) :
    q ≤ 2 ^ (F.precision + F.unit q : ℤ) - 2 ^ F.unit q := by
  have hpos : (0 : ℚ) < 2 ^ F.unit q := by positivity
  have hlt := lt_unit (F := F) hq
  rw [zpow_add₀ two_ne_zero, zpow_natCast] at hlt ⊢
  generalize (2 : ℚ) ^ F.unit q = u at hm hpos hlt ⊢
  have hm' : m < 2 ^ F.precision := by
    rw [hm] at hlt
    exact_mod_cast lt_of_mul_lt_mul_right hlt hpos.le
  have hle : (m : ℚ) ≤ 2 ^ F.precision - 1 := by
    have : m ≤ 2 ^ F.precision - 1 := by omega
    exact_mod_cast this
  calc q = m * u := hm
    _ ≤ (2 ^ F.precision - 1) * u := mul_le_mul_of_nonneg_right hle hpos.le
    _ = 2 ^ F.precision * u - u := by ring

/-- **A number near a number of the format is rounded to it.** -/
theorem round_of_near {d q : ℚ} (hexact : F.Exact q) (hd : 0 < d) (hq : 0 < q)
    (hnear : |d - q| * 2 ^ (F.precision + 1) ≤ q)
    (hnear' : |d - q| * 2 ^ (F.precision + 1) ≤ d) : F.round d = q := by
  obtain ⟨m, hm⟩ : ∃ m : ℤ, q = m * 2 ^ F.unit q :=
    ⟨_, ((F.round_eq_self_iff q).2 hexact).symm⟩
  have hle : F.unit d ≤ F.unit q := by
    by_contra hlt
    -- the larger number would be at the next power of two, a whole unit away
    have hunit : F.unit d = Int.log 2 d + 1 - F.precision := by
      have hmin : F.minExponent ≤ F.unit q := le_max_right _ _
      have hmax : F.unit d = max (Int.log 2 |d| + 1 - F.precision) F.minExponent := rfl
      rw [abs_of_pos hd] at hmax
      omega
    have hpower : (2 : ℚ) ^ (F.precision + F.unit q : ℤ) ≤ d := by
      have hlog : (2 : ℚ) ^ Int.log 2 d ≤ d := by
        exact_mod_cast Int.zpow_log_le_self (b := 2) Nat.one_lt_two hd
      refine le_trans (zpow_le_zpow_right₀ one_le_two ?_) hlog
      omega
    have hfar := le_sub_unit hq hm
    have hhalf := half_unit_of_small hq hnear
    have hpos : (0 : ℚ) < 2 ^ F.unit q := by positivity
    have := le_abs_self (d - q)
    linarith
  obtain ⟨k, hk⟩ := Int.le.dest hle
  have hmultiple : q = (m * 2 ^ k : ℤ) * 2 ^ F.unit d := by
    conv_lhs => rw [hm, ← hk, zpow_add₀ two_ne_zero, zpow_natCast]
    push_cast
    ring
  exact round_of_multiple hmultiple (half_unit_of_small hd hnear')

end Format

namespace Double

/-- A float that there is: a finite one is a number of the format. -/
def IsFloat : Double → Prop
  | .finite q => ofRat q = .finite q
  | _ => True

instance : DecidablePred IsFloat := fun x => by
  cases x <;> unfold IsFloat <;> infer_instance

theorem ofRat_eq_finite_iff {d q : ℚ} :
    ofRat d = .finite q ↔ binary64.round d = q ∧ |q| < 2 ^ maxExponent := by
  unfold ofRat
  dsimp only
  constructor
  · intro h
    split_ifs at h with hbound
    obtain rfl := finite.inj h
    exact ⟨rfl, hbound⟩
  · rintro ⟨rfl, hbound⟩
    rw [if_pos hbound]

theorem ofRat_neg {d q : ℚ} (h : ofRat d = .finite q) : ofRat (-d) = .finite (-q) := by
  rw [ofRat_eq_finite_iff] at h ⊢
  rw [Format.round_neg, h.1, abs_neg]
  exact ⟨rfl, h.2⟩

theorem isFloat_abs {q : ℚ} (h : IsFloat (.finite q)) : IsFloat (.finite |q|) := by
  rcases abs_choice q with habs | habs
  · rw [habs]
    exact h
  · rw [habs]
    exact ofRat_neg h

/-! ### The digits of a float -/

theorem ofRat_of_shortDecimal? {q : ℚ} {n k : ℕ} {place : ℤ}
    (h : shortDecimal? q n = some (k, place)) : ofRat (k * 10 ^ place) = .finite q := by
  have hmem : (k, place) ∈
      (decimalsAround q n).filter fun d => ofRat (d.1 * 10 ^ d.2) = .finite q := by
    unfold shortDecimal? at h
    dsimp only at h
    split at h
    · simp at h
    · rename_i d heq
      rw [heq, ← Option.some.inj h]
      exact List.mem_cons_self
    · rename_i d e ds heq
      rw [heq]
      split_ifs at h
      · rw [← Option.some.inj h]
        exact List.mem_cons_self
      · rw [← Option.some.inj h]
        exact List.mem_cons_of_mem _ List.mem_cons_self
  simpa using (List.mem_filter.1 hmem).2

theorem isSome_shortDecimal? {q : ℚ} {n : ℕ} {d : ℕ × ℤ} (hd : d ∈ decimalsAround q n)
    (h : ofRat (d.1 * 10 ^ d.2) = .finite q) : (shortDecimal? q n).isSome = true := by
  have hmem : d ∈ (decimalsAround q n).filter fun d => ofRat (d.1 * 10 ^ d.2) = .finite q :=
    List.mem_filter.2 ⟨hd, by simpa using h⟩
  unfold shortDecimal?
  dsimp only
  split
  · rename_i heq
    rw [heq] at hmem
    exact absurd hmem List.not_mem_nil
  · rfl
  · split_ifs <;> rfl

/-- One of the two numbers around a float is half a last place away, or nearer. -/
theorem exists_near {q : ℚ} (hq : 0 < q) (n : ℕ) :
    ∃ d ∈ decimalsAround q n, |d.1 * 10 ^ d.2 - q| ≤ 10 ^ (decimalPoint q - n) / 2 := by
  have hpos : (0 : ℚ) < 10 ^ (decimalPoint q - n) := by positivity
  unfold decimalsAround
  dsimp only
  generalize decimalPoint q - n = place at hpos
  have hfloor : ((⌊q / 10 ^ place⌋.toNat : ℕ) : ℚ) = ⌊q / 10 ^ place⌋ := by
    have : 0 ≤ ⌊q / 10 ^ place⌋ := Int.floor_nonneg.2 (by positivity)
    exact_mod_cast Int.toNat_of_nonneg this
  have hle : (⌊q / 10 ^ place⌋ : ℚ) * 10 ^ place ≤ q :=
    (le_div_iff₀ hpos).1 (Int.floor_le _)
  have hlt : q < (⌊q / 10 ^ place⌋ + 1) * 10 ^ place :=
    (div_lt_iff₀ hpos).1 (Int.lt_floor_add_one _)
  rw [← hfloor] at hle hlt
  generalize ⌊q / 10 ^ place⌋.toNat = below at hle hlt
  rcases le_total (q - below * 10 ^ place) (10 ^ place / 2) with hnear | hfar
  · refine ⟨(below, place), List.mem_cons_self, ?_⟩
    dsimp only
    rw [abs_sub_comm, abs_of_nonneg (by linarith)]
    exact hnear
  · refine ⟨(below + 1, place), List.mem_cons_of_mem _ List.mem_cons_self, ?_⟩
    dsimp only
    push_cast
    rw [abs_of_pos (by linarith)]
    linarith

/-- **Seventeen digits are enough.** -/
theorem isSome_shortDecimal?_seventeen {q : ℚ} (hq : 0 < q) (h : IsFloat (.finite q)) :
    (shortDecimal? q 17).isSome = true := by
  obtain ⟨d, hd, hnear⟩ := exists_near hq 17
  refine isSome_shortDecimal? hd ?_
  obtain ⟨hround, hbound⟩ := ofRat_eq_finite_iff.1 h
  rw [ofRat_eq_finite_iff]
  refine ⟨?_, hbound⟩
  generalize (d.1 * 10 ^ d.2 : ℚ) = r at hnear ⊢
  -- the last of the seventeen digits is beyond half of the last bit
  have hplace : (10 : ℚ) ^ (decimalPoint q - (17 : ℕ)) * 10 ^ 16 ≤ q := by
    have hlog : (10 : ℚ) ^ Int.log 10 q ≤ q := by
      exact_mod_cast Int.zpow_log_le_self (b := 10) (by norm_num) hq
    have hpow : (10 : ℚ) ^ (decimalPoint q - (17 : ℕ)) * 10 ^ 16 = 10 ^ Int.log 10 q := by
      rw [← zpow_natCast, ← zpow_add₀ (by norm_num), decimalPoint]
      congr 1
      push_cast
      ring
    rw [hpow]
    exact hlog
  have hsmall : |r - q| * (2 * 10 ^ 16) ≤ q := by
    generalize (10 : ℚ) ^ (decimalPoint q - (17 : ℕ)) = place at hnear hplace
    linarith
  have habs := abs_nonneg (r - q)
  have hlow := neg_abs_le (r - q)
  refine Format.round_of_near ((binary64.round_eq_self_iff q).1 hround) ?_ hq ?_ ?_
  · norm_num at hsmall
    linarith
  · norm_num [binary64] at hsmall ⊢
    linarith
  · norm_num [binary64] at hsmall ⊢
    linarith

/-- The zeros at the end of a list of digits. -/
theorem exists_append_zeros (cs : List Char) :
    ∃ m : ℕ, cs = cs.rdropWhile (· == '0') ++ List.replicate m '0' := by
  induction cs using List.reverseRecOn with
  | nil => exact ⟨0, by simp⟩
  | append_singleton cs c ih =>
    by_cases hc : c = '0'
    · obtain ⟨m, hm⟩ := ih
      refine ⟨m + 1, ?_⟩
      rw [List.rdropWhile_concat_pos _ _ _ (by simp [hc]), List.replicate_succ',
        ← List.append_assoc, ← hm, hc]
    · exact ⟨0, by rw [List.rdropWhile_concat_neg _ _ _ (by simpa using hc)]; simp⟩

/-- **The digits of a float are read as the float.** -/
theorem exists_shortest {q : ℚ} (hq : 0 < q) (h : IsFloat (.finite q)) :
    ∃ ds point, shortest q = (ds, point) ∧ Digits ds ∧ ds ≠ [] ∧ ds.head? ≠ some '0' ∧
      ofRat (Nat.ofDigitChars 10 ds 0 * 10 ^ (point - ds.length)) = .finite q := by
  obtain ⟨⟨k, place⟩, hsome⟩ : ∃ d,
      (List.range 17).findSome? (fun n => shortDecimal? q (n + 1)) = some d := by
    rw [← Option.isSome_iff_exists, List.findSome?_isSome_iff]
    exact ⟨16, List.mem_range.2 (by decide), isSome_shortDecimal?_seventeen hq h⟩
  obtain ⟨n, -, hshort⟩ := List.exists_of_findSome?_eq_some hsome
  have hround := ofRat_of_shortDecimal? hshort
  have hk : k ≠ 0 := by
    rintro rfl
    have hzero : binary64.round 0 = 0 :=
      (binary64.round_eq_self_iff 0).2 ⟨0, 0, by simp [binary64], by decide, by simp⟩
    rw [Nat.cast_zero, zero_mul, ofRat_eq_finite_iff, hzero] at hround
    exact hq.ne hround.1
  obtain ⟨m, hm⟩ := exists_append_zeros (toString k).toList
  have hvalue : k = 10 ^ m * Nat.ofDigitChars 10 ((toString k).toList.rdropWhile (· == '0')) 0 := by
    rw [← ofDigitChars_append_zeros, ← hm, ofDigitChars_toString]
  have hdigits := Digits.toString k
  have hhead := head?_toString hk
  refine ⟨(toString k).toList.rdropWhile (· == '0'), (toString k).toList.length + place, ?_, ?_, ?_,
    ?_, ?_⟩
  · simp only [shortest, hsome, Option.getD_some]
  all_goals generalize hds : (toString k).toList.rdropWhile (· == '0') = ds at hm hvalue
  · intro c hc
    refine hdigits c ?_
    rw [hm]
    exact List.mem_append_left _ hc
  · rintro rfl
    rw [Nat.ofDigitChars_nil, Nat.mul_zero] at hvalue
    exact hk hvalue
  · have hne : ds ≠ [] := by
      rintro rfl
      rw [Nat.ofDigitChars_nil, Nat.mul_zero] at hvalue
      exact hk hvalue
    rw [hm, List.head?_append_of_ne_nil _ hne] at hhead
    exact hhead
  · rw [← hround]
    congr 1
    rw [hm]
    rw [hvalue, List.length_append, List.length_replicate]
    push_cast
    rw [mul_comm ((10 : ℚ) ^ m), mul_assoc, ← zpow_natCast, ← zpow_add₀ (by norm_num)]
    congr 2
    ring

/-! ### Texts -/

/-- **`repr` of a float is a numeral, with its sign, and no integer's.** -/
theorem exists_numeral_repr {q : ℚ} (h : IsFloat (.finite q)) :
    ∃ n : Numeral, (repr (.finite q)).toList = (if q < 0 then ['-'] else []) ++ n.text ∧
      (n.fraction ≠ [] ∨ n.exponent.isSome = true) ∧ ofRat n.value = .finite |q| := by
  by_cases hzero : q = 0
  · subst hzero
    obtain ⟨n, htext, hfraction, hvalue⟩ := exists_numeral_of_point (Digits.zeros 1) (by simp)
      (fun _ => rfl) (Digits.zeros 1) (by simp)
    refine ⟨n, ?_, .inl hfraction, ?_⟩
    · rw [htext]
      rfl
    · have hdigits : Nat.ofDigitChars 10 (List.replicate 1 '0' ++ List.replicate 1 '0') 0 = 0 :=
        rfl
      rw [hvalue, hdigits, Nat.cast_zero, zero_mul, abs_zero]
      exact h
  · obtain ⟨ds, point, hshort, hdigits, hne, hhead, hround⟩ :=
      exists_shortest (abs_pos.2 hzero) (isFloat_abs h)
    obtain ⟨n, htext, hpart, hvalue⟩ := exists_numeral_layout hdigits hne hhead point
    refine ⟨n, ?_, hpart, ?_⟩
    · rw [repr, if_neg hzero]
      simp only [hshort, String.toList_append, String.toList_ofList, htext]
      split_ifs <;> rfl
    · rw [hvalue, hround]

theorem isSpace_of_mem_numeral {n : Numeral} {c : Char} (hc : c ∈ n.text) : isSpace c = false := by
  have hplain : ∀ {cs : List Char}, Digits cs → c ∈ cs → isSpace c = false :=
    fun hcs hmem => isSpace_of_isDigit (hcs c hmem)
  rw [Numeral.text, Numeral.fractionText, Numeral.exponentText] at hc
  rcases List.mem_append.1 hc with hc | hc
  · rcases List.mem_append.1 hc with hc | hc
    · exact hplain n.whole_digits hc
    · split_ifs at hc
      · exact absurd hc List.not_mem_nil
      · rcases List.mem_cons.1 hc with rfl | hc
        · decide
        · exact hplain n.fraction_digits hc
  · split at hc
    · exact absurd hc List.not_mem_nil
    · rename_i negative ds hexponent
      rcases List.mem_cons.1 hc with rfl | hc
      · decide
      · rcases List.mem_cons.1 hc with rfl | hc
        · cases negative <;> decide
        · exact hplain (n.exponent_digits _ hexponent).1 hc

/-- `float` of a numeral with a sign. -/
theorem ofText_numeral (n : Numeral) (negative : Bool) :
    ofText (String.ofList ((if negative then ['-'] else []) ++ n.text)) =
      some (ofRat (if negative then -n.value else n.value)) := by
  have hstrip : strip (String.ofList ((if negative then ['-'] else []) ++ n.text)) =
      String.ofList ((if negative then ['-'] else []) ++ n.text) := by
    refine strip_of_forall fun c hc => ?_
    rw [String.toList_ofList] at hc
    rcases List.mem_append.1 hc with hc | hc
    · cases negative
      · exact absurd hc List.not_mem_nil
      · rw [List.eq_of_mem_singleton hc]
        decide
    · exact isSpace_of_mem_numeral hc
  have hchars : (strip (String.ofList ((if negative then ['-'] else []) ++ n.text))).toList =
      (if negative then ['-'] else []) ++ n.text := by
    rw [hstrip, String.toList_ofList]
  cases negative with
  | true =>
    have hread : unsigned true n.text = some (ofRat (-n.value)) := by
      rw [unsigned, n.decimal_text]
      rfl
    exact (ofText_minus hchars).trans hread
  | false =>
    obtain ⟨c, cs, hwhole⟩ := List.exists_cons_of_ne_nil n.whole_ne_nil
    have hc : c.isDigit = true := n.whole_digits c (by rw [hwhole]; exact List.mem_cons_self)
    have htext : n.text = c :: (cs ++ n.fractionText ++ n.exponentText) := by
      rw [Numeral.text, hwhole, List.cons_append, List.cons_append]
    have hsign : ∀ d : Char, d.isDigit = false → ∀ ds, n.text ≠ d :: ds := by
      intro d hd ds heq
      rw [htext] at heq
      rw [(List.cons.inj heq).1, hd] at hc
      exact Bool.false_ne_true hc
    have hplain : (if false = true then ['-'] else []) ++ n.text = n.text := rfl
    rw [hplain] at hchars ⊢
    have hminus := hsign '-' rfl
    have hplus := hsign '+' rfl
    rw [← hchars] at hminus hplus
    rw [ofText_plain hminus hplus, hchars, unsigned, n.decimal_text]

/-- **A float is read back from its text.** -/
theorem ofText_repr {x : Double} (h : IsFloat x) : ofText x.repr = some x := by
  cases x with
  | nan => decide +kernel
  | infinite negative => cases negative <;> decide +kernel
  | finite q =>
    obtain ⟨n, htext, -, hround⟩ := exists_numeral_repr h
    have hrepr : repr (.finite q) =
        String.ofList ((if decide (q < 0) then ['-'] else []) ++ n.text) := by
      rw [← String.ofList_toList (s := repr (.finite q)), htext]
      simp only [decide_eq_true_iff]
    rw [hrepr, ofText_numeral]
    simp only [decide_eq_true_iff]
    split_ifs with hneg
    · rw [ofRat_neg hround, abs_of_neg hneg, neg_neg]
    · rw [hround, abs_of_nonneg (not_lt.1 hneg)]

end Double
end Py
end QualityFlow
