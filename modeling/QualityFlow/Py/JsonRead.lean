/-
# JSON texts are read back

`json.loads(json.dumps(value)) == value` for the values without a `nan` and without an integer
of too many digits.  Strings are read character by character, numbers up to the comma or the
bracket behind them; over a value the proof follows its structure, with whatever may stand
behind it in a text left open.
-/

import QualityFlow.Py.JsonText

namespace QualityFlow
namespace Py
namespace Value

/-! ### Strings -/

theorem hexValue_digitChar {d : ℕ} (h : d < 16) : hexValue (Nat.digitChar d) = some d := by
  interval_cases d <;> rfl

/-- Digits read one after another. -/
def hexFold (acc : Option ℕ) (cs : List Char) : Option ℕ :=
  cs.foldl (fun acc c => do return 16 * (← acc) + (← hexValue c)) acc

theorem hexFold_toDigits (n : ℕ) : hexFold (some 0) (Nat.toDigits 16 n) = some n := by
  induction n using Nat.strong_induction_on with
  | _ n ih =>
    rcases Nat.lt_or_ge n 16 with hlt | hge
    · rw [Nat.toDigits_of_lt_base hlt]
      simp [hexFold, hexValue_digitChar hlt]
    · rw [Nat.toDigits_of_base_le (by decide) hge, hexFold, List.foldl_append]
      have hdiv := ih (n / 16) (by omega)
      rw [hexFold] at hdiv
      rw [hdiv]
      simp [hexValue_digitChar (Nat.mod_lt n (by decide : 0 < 16))]
      omega

/-- **Four hexadecimal digits are read as the number.** -/
theorem exists_unicodeEscape {n : ℕ} (h : n < 65536) : ∃ h₁ h₂ h₃ h₄,
    Json.unicodeEscape n = ['\\', 'u', h₁, h₂, h₃, h₄] ∧ hexNumber [h₁, h₂, h₃, h₄] = some n := by
  have hlength : (Nat.toDigits 16 n).length ≤ 4 :=
    (Nat.length_toDigits_le_iff (by decide) (by decide)).2 h
  have hvalue : hexFold (some 0)
      (List.replicate (4 - (Nat.toDigits 16 n).length) '0' ++ Nat.toDigits 16 n) = some n := by
    have hzeros : ∀ k, hexFold (some 0) (List.replicate k '0') = some 0 := by
      intro k
      induction k with
      | zero => rfl
      | succ k ih => exact ih
    have hopen := hzeros (4 - (Nat.toDigits 16 n).length)
    rw [hexFold] at hopen
    rw [hexFold, List.foldl_append, hopen]
    exact hexFold_toDigits n
  unfold Json.unicodeEscape
  dsimp only
  generalize hcs : List.replicate (4 - (Nat.toDigits 16 n).length) '0' ++ Nat.toDigits 16 n = cs
    at hvalue
  have hfour : cs.length = 4 := by
    rw [← hcs, List.length_append, List.length_replicate]
    omega
  obtain ⟨h₁, h₂, h₃, h₄, rfl⟩ := List.length_eq_four.1 hfour
  exact ⟨h₁, h₂, h₃, h₄, rfl, hvalue⟩

/-- The code units of a character. -/
def units (c : Char) : List ℕ :=
  if c.toNat < 65536 then [c.toNat]
  else [0xd800 + (c.toNat - 65536) / 1024, 0xdc00 + (c.toNat - 65536) % 1024]

theorem toNat_lt (c : Char) : c.toNat < 0x110000 ∧ ¬(0xd800 ≤ c.toNat ∧ c.toNat ≤ 0xdfff) := by
  have hvalid : c.toNat < 0xd800 ∨ 0xdfff < c.toNat ∧ c.toNat < 0x110000 := c.valid
  omega

theorem joinUnits_single {n : ℕ} (h : ¬(0xd800 ≤ n ∧ n ≤ 0xdfff)) (ns : List ℕ) :
    joinUnits (n :: ns) = (joinUnits ns).map (Char.ofNat n :: ·) := by
  rw [joinUnits.eq_def]
  dsimp only
  rw [if_neg (by omega), if_neg (by omega)]

theorem joinUnits_pair {n m : ℕ} (hn : 0xd800 ≤ n ∧ n ≤ 0xdbff) (hm : 0xdc00 ≤ m ∧ m ≤ 0xdfff)
    (ns : List ℕ) : joinUnits (n :: m :: ns) =
      (joinUnits ns).map (Char.ofNat (0x10000 + (n - 0xd800) * 1024 + (m - 0xdc00)) :: ·) := by
  rw [joinUnits.eq_def]
  dsimp only
  rw [if_pos hn, if_pos hm]

/-- **The code units of a text are joined to the text.** -/
theorem joinUnits_units (cs : List Char) : joinUnits (cs.flatMap units) = some cs := by
  induction cs with
  | nil => rfl
  | cons c cs ih =>
    obtain ⟨hlt, hscalar⟩ := toNat_lt c
    rw [List.flatMap_cons, units]
    split_ifs with hplane
    · rw [List.singleton_append, joinUnits_single hscalar, ih, Option.map_some, Char.ofNat_toNat]
    · have hmod : (c.toNat - 65536) % 1024 < 1024 := Nat.mod_lt _ (by decide)
      have hjoin : 0x10000 + (0xd800 + (c.toNat - 65536) / 1024 - 0xd800) * 1024 +
          (0xdc00 + (c.toNat - 65536) % 1024 - 0xdc00) = c.toNat := by omega
      rw [List.cons_append, List.singleton_append, joinUnits_pair (by omega) (by omega), ih, hjoin,
        Option.map_some, Char.ofNat_toNat]

theorem scanUnits_escape {c : Char} {n : ℕ} (hc : c ≠ 'u') (hn : unescape c = some n)
    (cs : List Char) :
    scanUnits ('\\' :: c :: cs) = (scanUnits cs).map fun r => (n :: r.1, r.2) := by
  rw [scanUnits.eq_def]
  dsimp only
  rw [if_neg (by decide), if_pos rfl]
  split
  · rename_i heq
    exact absurd (List.cons.inj heq).1 hc
  · rename_i heq
    obtain ⟨rfl, rfl⟩ := List.cons.inj heq
    rw [hn]
    cases scanUnits cs <;> rfl
  · rename_i heq
    exact absurd heq (List.cons_ne_nil _ _)

theorem scanUnits_unicodeEscape {n : ℕ} (h : n < 65536) (cs : List Char) :
    scanUnits (Json.unicodeEscape n ++ cs) = (scanUnits cs).map fun r => (n :: r.1, r.2) := by
  obtain ⟨h₁, h₂, h₃, h₄, htext, hvalue⟩ := exists_unicodeEscape h
  rw [htext]
  simp only [List.cons_append, List.nil_append]
  rw [scanUnits.eq_def]
  dsimp only
  rw [if_neg (by decide), if_pos rfl]
  show (hexNumber [h₁, h₂, h₃, h₄]).bind (fun n =>
    (scanUnits cs).bind fun r => some (n :: r.1, r.2)) = _
  rw [hvalue]
  cases scanUnits cs <;> rfl

theorem scanUnits_plain {c : Char} (hquote : c ≠ '"') (hslash : c ≠ '\\') (h : 32 ≤ c.toNat)
    (cs : List Char) :
    scanUnits (c :: cs) = (scanUnits cs).map fun r => (c.toNat :: r.1, r.2) := by
  rw [scanUnits.eq_def]
  dsimp only
  rw [if_neg hquote, if_neg hslash, if_neg (by omega)]
  cases scanUnits cs <;> rfl

/-- How a character is written: with a short escape, as it is, or with one escape or two of
its code units. -/
theorem dumpChar_cases (c : Char) :
    (∃ e, Json.dumpChar c = ['\\', e] ∧ e ≠ 'u' ∧ unescape e = some c.toNat ∧ units c = [c.toNat] ∧
      32 ≤ e.toNat ∧ e.toNat ≤ 126) ∨
    (Json.dumpChar c = [c] ∧ c ≠ '"' ∧ c ≠ '\\' ∧ units c = [c.toNat] ∧
      32 ≤ c.toNat ∧ c.toNat ≤ 126) ∨
    (Json.dumpChar c = Json.unicodeEscape c.toNat ∧ c.toNat < 65536 ∧ units c = [c.toNat]) ∨
    ∃ n m, Json.dumpChar c = Json.unicodeEscape n ++ Json.unicodeEscape m ∧ n < 65536 ∧ m < 65536 ∧
      units c = [n, m] := by
  obtain ⟨hlt, -⟩ := toNat_lt c
  unfold Json.dumpChar units
  by_cases hquote : c = '"'
  · subst hquote
    exact .inl ⟨'"', by decide⟩
  by_cases hslash : c = '\\'
  · subst hslash
    exact .inl ⟨'\\', by decide⟩
  by_cases hnewline : c = '\n'
  · subst hnewline
    exact .inl ⟨'n', by decide⟩
  by_cases hreturn : c = '\r'
  · subst hreturn
    exact .inl ⟨'r', by decide⟩
  by_cases htab : c = '\t'
  · subst htab
    exact .inl ⟨'t', by decide⟩
  rw [if_neg hquote, if_neg hslash, if_neg hnewline, if_neg hreturn, if_neg htab]
  by_cases hform : c.toNat = 12
  · rw [if_pos hform, hform]
    exact .inl ⟨'f', by decide⟩
  by_cases hback : c.toNat = 8
  · rw [if_neg hform, if_pos hback, hback]
    exact .inl ⟨'b', by decide⟩
  rw [if_neg hform, if_neg hback]
  by_cases hplain : 32 ≤ c.toNat ∧ c.toNat ≤ 126
  · rw [if_pos hplain, if_pos (by omega)]
    exact .inr (.inl ⟨rfl, hquote, hslash, rfl, hplain⟩)
  rw [if_neg hplain]
  by_cases hplane : c.toNat < 65536
  · rw [if_pos hplane, if_pos hplane]
    exact .inr (.inr (.inl ⟨rfl, hplane, rfl⟩))
  · have hmod : (c.toNat - 65536) % 1024 < 1024 := Nat.mod_lt _ (by decide)
    rw [if_neg hplane, if_neg hplane]
    exact .inr (.inr (.inr ⟨_, _, rfl, by omega, by omega, rfl⟩))

/-- A written character is read as its code units. -/
theorem scanUnits_dumpChar (c : Char) (cs : List Char) :
    scanUnits (Json.dumpChar c ++ cs) = (scanUnits cs).map fun r => (units c ++ r.1, r.2) := by
  rcases dumpChar_cases c with ⟨e, htext, he, hread, hunits, -⟩ |
    ⟨htext, hquote, hslash, hunits, hplain⟩ | ⟨htext, hlt, hunits⟩ |
    ⟨n, m, htext, hn, hm, hunits⟩
  · rw [htext, hunits]
    exact scanUnits_escape he hread cs
  · rw [htext, hunits]
    exact scanUnits_plain hquote hslash hplain.1 cs
  · rw [htext, hunits]
    exact scanUnits_unicodeEscape hlt cs
  · rw [htext, hunits, List.append_assoc, scanUnits_unicodeEscape hn, scanUnits_unicodeEscape hm]
    cases scanUnits cs <;> rfl

/-- **A written string is read back.** -/
theorem scanString_dumpStr (s : String) (rest : List Char) :
    scanString ((s.toList.flatMap Json.dumpChar ++ ['"']) ++ rest) = some (s, rest) := by
  have hunits : ∀ cs : List Char, scanUnits (cs.flatMap Json.dumpChar ++ '"' :: rest) =
      some (cs.flatMap units, rest) := by
    intro cs
    induction cs with
    | nil =>
      rw [List.flatMap_nil, List.nil_append, scanUnits.eq_def]
      rfl
    | cons c cs ih =>
      rw [List.flatMap_cons, List.append_assoc, scanUnits_dumpChar, ih]
      rfl
  rw [List.append_assoc, List.singleton_append, scanString, hunits]
  simp only [Option.bind_eq_bind, Option.bind_some, joinUnits_units, String.ofList_toList]
  rfl

/-! ### Numbers -/

/-- A text that no number goes on in. -/
def EndsNumber (rest : List Char) : Prop :=
  ∀ c ∈ rest.head?, c.isDigit = false ∧ c ≠ '.' ∧ c ≠ 'e' ∧ c ≠ 'E'

theorem takeWhile_digits {ds rest : List Char} (h : Digits ds)
    (hrest : ∀ c ∈ rest.head?, c.isDigit = false) :
    (ds ++ rest).takeWhile Char.isDigit = ds ∧ (ds ++ rest).dropWhile Char.isDigit = rest := by
  rw [List.takeWhile_append_of_pos h, List.dropWhile_append_of_pos h]
  cases rest with
  | nil => simp
  | cons c cs =>
    have hc := hrest c rfl
    simp [hc]

theorem scanWhole_append {ds rest : List Char} (h : Digits ds) (hne : ds ≠ [])
    (hzero : ds.head? = some '0' → ds = ['0']) (hrest : ∀ c ∈ rest.head?, c.isDigit = false) :
    scanWhole (ds ++ rest) = some (ds, rest) := by
  obtain ⟨htake, hdrop⟩ := takeWhile_digits h hrest
  obtain ⟨c, cs, rfl⟩ := List.exists_cons_of_ne_nil hne
  by_cases hc : c = '0'
  · subst hc
    rw [hzero rfl]
    rfl
  · unfold scanWhole
    split
    · rename_i heq
      exact absurd (List.cons.inj heq).1 hc
    · dsimp only
      rw [htake, hdrop, if_neg hne]

theorem scanFraction_append {n : Numeral} {rest : List Char}
    (hrest : ∀ c ∈ rest.head?, c.isDigit = false ∧ c ≠ '.') :
    scanFraction (n.fractionText ++ rest) = (n.fractionText, rest) := by
  unfold Numeral.fractionText
  split_ifs with hnil
  · unfold scanFraction
    split
    · rename_i heq
      rw [List.nil_append] at heq
      subst heq
      exact absurd rfl (hrest '.' rfl).2
    · rfl
  · obtain ⟨htake, hdrop⟩ := takeWhile_digits n.fraction_digits fun c hc => (hrest c hc).1
    simp only [scanFraction, List.cons_append, htake, hdrop, if_neg hnil]

theorem scanExponent_append {n : Numeral} {rest : List Char} (hrest : EndsNumber rest) :
    scanExponent (n.exponentText ++ rest) = (n.exponentText, rest) := by
  unfold Numeral.exponentText
  split
  · cases rest with
    | nil => rfl
    | cons c cs =>
      obtain ⟨-, -, he, hE⟩ := hrest c rfl
      simp [scanExponent, he, hE]
  · rename_i negative ds hexponent
    obtain ⟨hdigits, hne⟩ := n.exponent_digits _ hexponent
    obtain ⟨htake, hdrop⟩ := takeWhile_digits hdigits fun c hc => (hrest c hc).1
    cases negative
    · simp [scanExponent, scanExponentSign, htake, hdrop, hne]
    · simp [scanExponent, scanExponentSign, htake, hdrop, hne]

theorem scanSign_digits {ds rest : List Char} (h : Digits ds) (hne : ds ≠ []) :
    scanSign (ds ++ rest) = ([], ds ++ rest) := by
  obtain ⟨c, cs, rfl⟩ := List.exists_cons_of_ne_nil hne
  have hc := h c List.mem_cons_self
  unfold scanSign
  split
  · rename_i heq
    rw [(List.cons.inj heq).1] at hc
    exact absurd hc (by decide)
  · rfl

/-- The parts of a number, one behind the other. -/
theorem scanNumber_parts {n : Numeral} (negative : Bool) {rest : List Char}
    (hrest : EndsNumber rest) :
    scanNumber ((if negative then ['-'] else []) ++ n.text ++ rest) =
      if n.fractionText = [] ∧ n.exponentText = [] then
        (fun m : ℕ => (.int (if negative then -(m : ℤ) else m), rest)) <$> readDigits n.whole
      else (fun x => (.float x, rest)) <$>
        found (Double.ofText (String.ofList ((if negative then ['-'] else []) ++ n.text))) := by
  have hexponent_head : ∀ c ∈ (n.exponentText ++ rest).head?, c.isDigit = false ∧ c ≠ '.' := by
    intro c hc
    unfold Numeral.exponentText at hc
    split at hc
    · exact ⟨(hrest c hc).1, (hrest c hc).2.1⟩
    · obtain rfl := Option.some.inj hc
      decide
  have hfraction_head : ∀ c ∈ (n.fractionText ++ (n.exponentText ++ rest)).head?,
      c.isDigit = false := by
    intro c hc
    unfold Numeral.fractionText at hc
    split_ifs at hc
    · exact (hexponent_head c hc).1
    · obtain rfl := Option.some.inj hc
      decide
  have hsign : scanSign ((if negative then ['-'] else []) ++ n.text ++ rest) =
      (if negative then ['-'] else [], n.text ++ rest) := by
    cases negative with
    | true => rfl
    | false =>
      show scanSign (n.text ++ rest) = ([], n.text ++ rest)
      rw [Numeral.text, List.append_assoc, List.append_assoc]
      exact scanSign_digits n.whole_digits n.whole_ne_nil
  have hwhole : scanWhole (n.text ++ rest) =
      some (n.whole, n.fractionText ++ (n.exponentText ++ rest)) := by
    rw [Numeral.text, List.append_assoc, List.append_assoc]
    exact scanWhole_append n.whole_digits n.whole_ne_nil n.whole_zero hfraction_head
  unfold scanNumber
  simp only [hsign, hwhole, found, ok_bind, scanFraction_append hexponent_head,
    scanExponent_append hrest]
  by_cases hinteger : n.fractionText = [] ∧ n.exponentText = []
  · rw [if_pos hinteger, if_pos hinteger]
    cases readDigits n.whole <;> cases negative <;> rfl
  · rw [if_neg hinteger, if_neg hinteger, Numeral.text]
    simp only [List.append_assoc]
    cases Double.ofText _ <;> rfl

/-- **A written float is read back.** -/
theorem scanNumber_float {q : ℚ} (h : Double.IsFloat (.finite q)) {rest : List Char}
    (hrest : EndsNumber rest) :
    scanNumber ((floatText (.finite q)).toList ++ rest) = .ok (.float (.finite q), rest) := by
  obtain ⟨n, htext, hpart, -⟩ := Double.exists_numeral_repr h
  have hsign : (floatText (.finite q)).toList =
      (if decide (q < 0) then ['-'] else []) ++ n.text := by
    simp only [decide_eq_true_iff]
    exact htext
  have hinteger : ¬(n.fractionText = [] ∧ n.exponentText = []) := by
    rintro ⟨hfraction, hexponent⟩
    rcases hpart with hne | hsome
    · rw [Numeral.fractionText, if_neg hne] at hfraction
      exact absurd hfraction (List.cons_ne_nil _ _)
    · obtain ⟨e, he⟩ := Option.isSome_iff_exists.1 hsome
      rw [Numeral.exponentText, he] at hexponent
      exact absurd hexponent (List.cons_ne_nil _ _)
  rw [hsign, scanNumber_parts _ hrest, if_neg hinteger, ← hsign, String.ofList_toList]
  rw [floatText, Double.ofText_repr h, found, map_ok]

/-- The digits of an integer are a numeral. -/
theorem exists_numeral_toString (m : ℕ) : ∃ n : Numeral, n.text = (toString m).toList ∧
    n.whole = (toString m).toList ∧ n.fractionText = [] ∧ n.exponentText = [] := by
  have hne : (toString m).toList ≠ [] := by
    rw [Nat.toString_eq_ofList_toDigits, String.toList_ofList]
    exact Nat.toDigits_ne_nil
  refine ⟨{ whole := (toString m).toList
            fraction := []
            exponent := none
            whole_digits := Digits.toString m
            whole_ne_nil := hne
            whole_zero := ?_
            fraction_digits := by simp [Digits]
            exponent_digits := by simp }, ?_, rfl, rfl, rfl⟩
  · intro hzero
    by_cases hm : m = 0
    · rw [hm]
      rfl
    · exact absurd hzero (head?_toString hm)
  · simp [Numeral.text, Numeral.fractionText, Numeral.exponentText]

/-- The text of an integer is its sign and its digits. -/
theorem toList_toString (n : ℤ) : (toString n).toList =
    (if decide (n < 0) then ['-'] else []) ++ (toString n.natAbs).toList := by
  cases n with
  | ofNat m => rfl
  | negSucc m =>
    rw [decide_eq_true (Int.negSucc_lt_zero m), if_pos rfl, Int.natAbs_negSucc]
    show ("-" ++ toString (m + 1)).toList = _
    rw [String.toList_append]
    rfl

/-- The digits of a number are read where it can be written. -/
theorem readDigits_toString {m : ℕ} (hm : m < 10 ^ maxStrDigits) :
    readDigits (toString m).toList = .ok m := by
  have hlength : (toString m).toList.length ≤ maxStrDigits := by
    rw [Nat.toString_eq_ofList_toDigits, String.toList_ofList]
    exact (Nat.length_toDigits_le_iff (by decide) (by decide)).2 hm
  rw [readDigits, if_pos hlength, ofDigitChars_toString]

/-- **A written integer is read back.** -/
theorem scanNumber_int {n : ℤ} (hn : n.natAbs < 10 ^ maxStrDigits) {rest : List Char}
    (hrest : EndsNumber rest) : scanNumber ((toString n).toList ++ rest) = .ok (.int n, rest) := by
  obtain ⟨m, htext, hwhole, hfraction, hexponent⟩ := exists_numeral_toString n.natAbs
  rw [toList_toString, ← htext, scanNumber_parts _ hrest, if_pos ⟨hfraction, hexponent⟩, hwhole,
    readDigits_toString hn, map_ok]
  have hsign : (if decide (n < 0) = true then -(n.natAbs : ℤ) else n.natAbs) = n := by
    simp only [decide_eq_true_iff]
    split_ifs <;> omega
  rw [hsign]

/-! ### What a value starts with -/

/-- A text that starts as a number does. -/
def StartsNumber (cs : List Char) : Prop :=
  ∃ (negative : Bool) (c : Char) (ds : List Char), c.isDigit = true ∧
    cs = (if negative then ['-'] else []) ++ c :: ds

theorem StartsNumber.numeral (n : Numeral) (negative : Bool) (rest : List Char) :
    StartsNumber ((if negative then ['-'] else []) ++ n.text ++ rest) := by
  obtain ⟨c, cs, hwhole⟩ := List.exists_cons_of_ne_nil n.whole_ne_nil
  refine ⟨negative, c, cs ++ n.fractionText ++ n.exponentText ++ rest, ?_, ?_⟩
  · exact n.whole_digits c (by rw [hwhole]; exact List.mem_cons_self)
  · simp [Numeral.text, hwhole]

theorem StartsNumber.int (n : ℤ) (rest : List Char) :
    StartsNumber ((toString n).toList ++ rest) := by
  obtain ⟨m, htext, -⟩ := exists_numeral_toString n.natAbs
  rw [toList_toString, ← htext]
  exact .numeral m _ rest

theorem StartsNumber.float {q : ℚ} (h : Double.IsFloat (.finite q)) (rest : List Char) :
    StartsNumber ((floatText (.finite q)).toList ++ rest) := by
  obtain ⟨n, htext, -⟩ := Double.exists_numeral_repr h
  have hstart := StartsNumber.numeral n (decide (q < 0)) rest
  simp only [decide_eq_true_iff] at hstart
  rw [← htext] at hstart
  exact hstart

/-- A number is no string, no list, no object and no word. -/
theorem scanValue_of_startsNumber {cs : List Char} (h : StartsNumber cs) (fuel : ℕ) :
    scanValue (fuel + 1) cs = scanNumber cs := by
  obtain ⟨negative, c, ds, hc, rfl⟩ := h
  have hne : ∀ d : Char, d.isDigit = false → d ≠ c := by
    rintro d hd rfl
    rw [hc] at hd
    exact absurd hd (by decide)
  cases negative with
  | true =>
    have hword : scanLiteral ('-' :: c :: ds) = none := by
      simp [scanLiteral, literals, hne 'I' rfl]
    show scanValue (fuel + 1) ('-' :: c :: ds) = _
    rw [scanValue, if_neg (by decide), if_neg (by decide), if_neg (by decide), hword]
    rfl
  | false =>
    have hword : scanLiteral (c :: ds) = none := by
      simp [scanLiteral, literals, hne 'n' rfl, hne 't' rfl, hne 'f' rfl, hne 'N' rfl, hne 'I' rfl,
        hne '-' rfl]
    show scanValue (fuel + 1) (c :: ds) = _
    rw [scanValue, if_neg (hne _ rfl).symm, if_neg (hne _ rfl).symm, if_neg (hne _ rfl).symm,
      hword]
    rfl

/-! ### Values -/

mutual

/-- A value that is read back: no `nan`, floats that there are, integers that are not too
long, and objects whose keys differ. -/
def IsJson : Value → Prop
  | .int n => n.natAbs < 10 ^ maxStrDigits
  | .float x => x ≠ .nan ∧ x.IsFloat
  | .arr xs => IsJsonItems xs
  | .obj kvs => (Dict.keys kvs).Nodup ∧ IsJsonFields kvs
  | _ => True

def IsJsonItems : List Value → Prop
  | [] => True
  | x :: xs => IsJson x ∧ IsJsonItems xs

def IsJsonFields : List (String × Value) → Prop
  | [] => True
  | (_, x) :: kvs => IsJson x ∧ IsJsonFields kvs

end

mutual

/-- The characters of a value that is written. -/
def jsonChars : Value → List Char
  | .null => ['n', 'u', 'l', 'l']
  | .bool true => ['t', 'r', 'u', 'e']
  | .bool false => ['f', 'a', 'l', 's', 'e']
  | .int n => (toString n).toList
  | .float x => (floatText x).toList
  | .str s => (Json.dumpStr s).toList
  | .arr [] => ['[', ']']
  | .arr (x :: xs) => '[' :: (jsonChars x ++ itemsTail xs)
  | .obj [] => ['\x7b', '\x7d']
  | .obj ((k, x) :: kvs) =>
    '\x7b' :: ((Json.dumpStr k).toList ++ ':' :: ' ' :: (jsonChars x ++ fieldsTail kvs))

/-- The items behind the first one, and the end of the list. -/
def itemsTail : List Value → List Char
  | [] => [']']
  | x :: xs => ',' :: ' ' :: (jsonChars x ++ itemsTail xs)

/-- The items behind the first one, and the end of the object. -/
def fieldsTail : List (String × Value) → List Char
  | [] => ['\x7d']
  | (k, x) :: kvs =>
    ',' :: ' ' :: ((Json.dumpStr k).toList ++ ':' :: ' ' :: (jsonChars x ++ fieldsTail kvs))

end

theorem skipSpace_of_head {c : Char} (hc : ¬(c = ' ' ∨ c = '\t' ∨ c = '\n' ∨ c = '\r'))
    (cs : List Char) : skipSpace (c :: cs) = c :: cs := by
  rw [skipSpace, List.dropWhile_cons_of_neg (by simpa using hc)]

theorem EndsNumber.cons {c : Char} (hc : c.isDigit = false ∧ c ≠ '.' ∧ c ≠ 'e' ∧ c ≠ 'E')
    (cs : List Char) : EndsNumber (c :: cs) := by
  rintro d hd
  obtain rfl := Option.some.inj hd
  exact hc

theorem EndsNumber.itemsTail (xs : List Value) (rest : List Char) :
    EndsNumber (itemsTail xs ++ rest) := by
  cases xs with
  | nil => exact .cons (by decide) _
  | cons x xs => exact .cons (by decide) _

theorem EndsNumber.fieldsTail (kvs : List (String × Value)) (rest : List Char) :
    EndsNumber (fieldsTail kvs ++ rest) := by
  cases kvs with
  | nil => exact .cons (by decide) _
  | cons kv kvs => exact .cons (by decide) _

/-- What a value is written as starts with no blank and closes nothing. -/
theorem exists_jsonChars {x : Value} (hx : x.IsJson) : ∃ c cs, x.jsonChars = c :: cs ∧
    ¬(c = ' ' ∨ c = '\t' ∨ c = '\n' ∨ c = '\r') ∧ c ≠ ']' := by
  have hnumber : ∀ cs : List Char, StartsNumber (cs ++ []) → ∃ c ds, cs = c :: ds ∧
      ¬(c = ' ' ∨ c = '\t' ∨ c = '\n' ∨ c = '\r') ∧ c ≠ ']' := by
    rintro cs ⟨negative, c, ds, hc, hcs⟩
    rw [List.append_nil] at hcs
    cases negative with
    | true => exact ⟨'-', c :: ds, hcs, by decide, by decide⟩
    | false =>
      refine ⟨c, ds, hcs, ?_, ?_⟩
      · rintro (rfl | rfl | rfl | rfl) <;> exact absurd hc (by decide)
      · rintro rfl
        exact absurd hc (by decide)
  rcases x with _ | b | n | x | s | xs | kvs
  · rw [jsonChars]
    exact ⟨'n', _, rfl, by decide, by decide⟩
  · cases b
    · rw [jsonChars]
      exact ⟨'f', _, rfl, by decide, by decide⟩
    · rw [jsonChars]
      exact ⟨'t', _, rfl, by decide, by decide⟩
  · rw [jsonChars]
    exact hnumber _ (.int n [])
  · rcases x with q | negative | _
    · rw [jsonChars]
      exact hnumber _ (.float hx.2 [])
    · rw [jsonChars]
      cases negative
      · exact ⟨'I', _, rfl, by decide, by decide⟩
      · exact ⟨'-', _, rfl, by decide, by decide⟩
    · exact absurd rfl hx.1
  · exact ⟨'"', _, by rw [jsonChars, Json.dumpStr, String.toList_ofList]; rfl, by decide, by decide⟩
  · cases xs with
    | nil => exact ⟨'[', _, rfl, by decide, by decide⟩
    | cons x xs => exact ⟨'[', _, by rw [jsonChars], by decide, by decide⟩
  · rcases kvs with _ | ⟨⟨k, x⟩, kvs⟩
    · exact ⟨'\x7b', _, rfl, by decide, by decide⟩
    · exact ⟨'\x7b', _, by rw [jsonChars], by decide, by decide⟩

theorem length_jsonChars_pos {x : Value} (hx : x.IsJson) : 0 < x.jsonChars.length := by
  obtain ⟨c, cs, hchars, -⟩ := exists_jsonChars hx
  rw [hchars]
  exact Nat.succ_pos _

theorem skipSpace_jsonChars {x : Value} (hx : x.IsJson) (rest : List Char) :
    skipSpace (x.jsonChars ++ rest) = x.jsonChars ++ rest := by
  obtain ⟨c, cs, hchars, hspace, -⟩ := exists_jsonChars hx
  rw [hchars, List.cons_append, skipSpace_of_head hspace]

theorem skipSpace_blank_jsonChars {x : Value} (hx : x.IsJson) (rest : List Char) :
    skipSpace (' ' :: (x.jsonChars ++ rest)) = x.jsonChars ++ rest :=
  skipSpace_jsonChars hx rest

theorem scanValue_str (fuel : ℕ) (s : String) (rest : List Char) :
    scanValue (fuel + 1) ((Json.dumpStr s).toList ++ rest) = .ok (.str s, rest) := by
  have htext : (Json.dumpStr s).toList ++ rest =
      '"' :: ((s.toList.flatMap Json.dumpChar ++ ['"']) ++ rest) := by
    rw [Json.dumpStr, String.toList_ofList]
    rfl
  rw [htext, scanValue, if_pos rfl, scanString_dumpStr]
  rfl

theorem scanValue_word {c : Char} {cs : List Char} {x : Value} (fuel : ℕ) (rest : List Char)
    (hword : scanLiteral (c :: cs ++ rest) = some (x, rest))
    (hopen : c ≠ '"' ∧ c ≠ '\x7b' ∧ c ≠ '[') :
    scanValue (fuel + 1) (c :: cs ++ rest) = .ok (x, rest) := by
  obtain ⟨hquote, hbrace, hbracket⟩ := hopen
  rw [List.cons_append] at hword ⊢
  rw [scanValue, if_neg hquote, if_neg hbrace, if_neg hbracket, hword]

theorem scanValue_bracket {x : Value} (hx : x.IsJson) (fuel : ℕ) (rest : List Char) :
    scanValue (fuel + 1) ('[' :: (x.jsonChars ++ rest)) =
      (fun r => (.arr r.1, r.2)) <$> scanItems fuel (x.jsonChars ++ rest) := by
  rw [scanValue, if_neg (by decide), if_neg (by decide), if_pos rfl, skipSpace_jsonChars hx]
  obtain ⟨c, cs, hchars, -, hclose⟩ := exists_jsonChars hx
  rw [hchars, List.cons_append]
  split
  · rename_i heq
    exact absurd (List.cons.inj heq).1 hclose
  · cases scanItems fuel _ <;> rfl

theorem scanValue_brace (fuel : ℕ) (k : String) (rest : List Char) :
    scanValue (fuel + 1) ('\x7b' :: ((Json.dumpStr k).toList ++ rest)) =
      (fun r => (.obj r.1, r.2)) <$> scanFields fuel [] ((Json.dumpStr k).toList ++ rest) := by
  rw [scanValue, if_neg (by decide), if_pos rfl, Json.dumpStr, String.toList_ofList]
  rw [List.cons_append, List.cons_append, skipSpace_of_head (by decide)]
  split
  · rename_i heq
    exact absurd (List.cons.inj heq).1 (by decide)
  · cases scanFields fuel [] _ <;> rfl

section Field

variable {x : Value} (hx : x.IsJson) {fuel : ℕ} (d : Dict String Value) (k : String)
include hx

/-- An item of an object, up to what stands behind its value. -/
theorem scanFields_field {tail : List Char} {r : Except Raised (Dict String Value × List Char)}
    (hread : scanValue fuel (x.jsonChars ++ tail) = .ok (x, tail))
    (hnext : (match skipSpace tail with
      | '\x7d' :: rest => .ok (Dict.set d k x, rest)
      | ',' :: cs => scanFields fuel (Dict.set d k x) (skipSpace cs)
      | _ => .error .jsonDecodeError) = r) :
    scanFields (fuel + 1) d ((Json.dumpStr k).toList ++ ':' :: ' ' :: (x.jsonChars ++ tail)) =
      r := by
  have htext : (Json.dumpStr k).toList ++ ':' :: ' ' :: (x.jsonChars ++ tail) =
      '"' :: ((k.toList.flatMap Json.dumpChar ++ ['"']) ++
        ':' :: ' ' :: (x.jsonChars ++ tail)) := by
    rw [Json.dumpStr, String.toList_ofList]
    rfl
  have hcolon : skipSpace (':' :: ' ' :: (x.jsonChars ++ tail)) =
      ':' :: ' ' :: (x.jsonChars ++ tail) := skipSpace_of_head (by decide) _
  rw [htext, scanFields, scanString_dumpStr]
  simp only [found, ok_bind, hcolon, skipSpace_blank_jsonChars hx, hread]
  exact hnext

/-- The last item. -/
theorem scanFields_last {rest : List Char}
    (hread : scanValue fuel (x.jsonChars ++ '\x7d' :: rest) = .ok (x, '\x7d' :: rest)) :
    scanFields (fuel + 1) d
        ((Json.dumpStr k).toList ++ ':' :: ' ' :: (x.jsonChars ++ '\x7d' :: rest)) =
      .ok (Dict.set d k x, rest) := by
  refine scanFields_field hx d k hread ?_
  rw [skipSpace_of_head (by decide)]
  rfl

/-- An item with another one behind it. -/
theorem scanFields_next {cs : List Char}
    (hread : scanValue fuel (x.jsonChars ++ ',' :: ' ' :: cs) = .ok (x, ',' :: ' ' :: cs)) :
    scanFields (fuel + 1) d
        ((Json.dumpStr k).toList ++ ':' :: ' ' :: (x.jsonChars ++ ',' :: ' ' :: cs)) =
      scanFields fuel (Dict.set d k x) (skipSpace cs) := by
  refine scanFields_field hx d k hread ?_
  rw [skipSpace_of_head (by decide)]
  rfl

end Field

mutual

/-- **A written value is read back, whatever stands behind it.** -/
theorem scanValue_jsonChars : ∀ (x : Value) (fuel : ℕ) (rest : List Char), x.IsJson →
    2 * x.jsonChars.length ≤ fuel + 1 → EndsNumber rest →
    scanValue (fuel + 1) (x.jsonChars ++ rest) = .ok (x, rest)
  | .null => by
    intro fuel rest _ _ _
    rw [jsonChars]
    exact scanValue_word fuel rest rfl (by decide)
  | .bool true => by
    intro fuel rest _ _ _
    rw [jsonChars]
    exact scanValue_word fuel rest rfl (by decide)
  | .bool false => by
    intro fuel rest _ _ _
    rw [jsonChars]
    exact scanValue_word fuel rest rfl (by decide)
  | .int n => by
    intro fuel rest hn _ hrest
    rw [jsonChars, scanValue_of_startsNumber (.int n rest)]
    exact scanNumber_int hn hrest
  | .float .nan => by
    intro fuel rest hx _ _
    exact absurd rfl hx.1
  | .float (.infinite true) => by
    intro fuel rest _ _ _
    rw [jsonChars]
    exact scanValue_word fuel rest rfl (by decide)
  | .float (.infinite false) => by
    intro fuel rest _ _ _
    rw [jsonChars]
    exact scanValue_word fuel rest rfl (by decide)
  | .float (.finite q) => by
    intro fuel rest hx _ hrest
    rw [jsonChars, scanValue_of_startsNumber (.float hx.2 rest)]
    exact scanNumber_float hx.2 hrest
  | .str s => by
    intro fuel rest _ _ _
    rw [jsonChars]
    exact scanValue_str fuel s rest
  | .arr [] => by
    intro fuel rest _ _ _
    rw [jsonChars]
    rfl
  | .arr (x :: xs) => by
    rintro fuel rest ⟨hx, hxs⟩ hfuel -
    rw [jsonChars, List.length_cons, List.length_append] at hfuel
    have hpos := length_jsonChars_pos hx
    obtain ⟨fuel, rfl⟩ : ∃ m, fuel = m + 2 := ⟨fuel - 2, by omega⟩
    have hread := scanValue_jsonChars x fuel _ hx (by omega) (.itemsTail xs rest)
    have hitems := scanItems_itemsTail xs fuel _ rest x hxs (by omega) hread
    rw [jsonChars, List.cons_append, List.append_assoc, scanValue_bracket hx, hitems]
    rfl
  | .obj [] => by
    intro fuel rest _ _ _
    rw [jsonChars]
    rfl
  | .obj ((k, x) :: kvs) => by
    rintro fuel rest ⟨hkeys, hx, hkvs⟩ hfuel -
    rw [jsonChars, List.length_cons, List.length_append, List.length_cons, List.length_cons,
      List.length_append] at hfuel
    have hpos := length_jsonChars_pos hx
    obtain ⟨fuel, rfl⟩ : ∃ m, fuel = m + 2 := ⟨fuel - 2, by omega⟩
    have hread := scanValue_jsonChars x fuel _ hx (by omega) (.fieldsTail kvs rest)
    have hfields := scanFields_fieldsTail kvs fuel rest x [] k hx hkvs (by omega) hread
    rw [jsonChars, List.cons_append, List.append_assoc, List.cons_append, List.cons_append,
      List.append_assoc, scanValue_brace, hfields, Dict.update_of_nodup (d := []) hkeys]
    rfl

theorem scanItems_itemsTail : ∀ (xs : List Value) (fuel : ℕ) (cs rest : List Char) (x : Value),
    IsJsonItems xs → 2 * (itemsTail xs).length ≤ fuel + 1 →
    scanValue (fuel + 1) cs = .ok (x, itemsTail xs ++ rest) →
    scanItems (fuel + 2) cs = .ok (x :: xs, rest)
  | [] => by
    intro fuel cs rest x _ _ hread
    rw [scanItems, hread]
    rfl
  | y :: ys => by
    rintro fuel cs rest x ⟨hy, hys⟩ hfuel hread
    rw [itemsTail, List.length_cons, List.length_cons, List.length_append] at hfuel
    have hpos := length_jsonChars_pos hy
    obtain ⟨fuel, rfl⟩ : ∃ m, fuel = m + 1 := ⟨fuel - 1, by omega⟩
    have hread' := scanValue_jsonChars y fuel _ hy (by omega) (.itemsTail ys rest)
    have hitems := scanItems_itemsTail ys fuel _ rest y hys (by omega) hread'
    rw [itemsTail, List.cons_append, List.cons_append, List.append_assoc] at hread
    rw [scanItems, hread]
    simp only [ok_bind]
    rw [skipSpace_of_head (by decide)]
    simp only [skipSpace_blank_jsonChars hy, hitems, ok_bind]
    rfl

theorem scanFields_fieldsTail : ∀ (kvs : List (String × Value)) (fuel : ℕ) (rest : List Char)
    (x : Value) (d : Dict String Value) (k : String), x.IsJson → IsJsonFields kvs →
    2 * (fieldsTail kvs).length ≤ fuel + 1 →
    scanValue (fuel + 1) (x.jsonChars ++ (fieldsTail kvs ++ rest)) =
      .ok (x, fieldsTail kvs ++ rest) →
    scanFields (fuel + 2) d
        ((Json.dumpStr k).toList ++ ':' :: ' ' :: (x.jsonChars ++ (fieldsTail kvs ++ rest))) =
      .ok (Dict.update d ((k, x) :: kvs), rest)
  | [] => by
    intro fuel rest x d k hx _ _ hread
    exact scanFields_last hx d k hread
  | (k', y) :: kvs => by
    rintro fuel rest x d k hx ⟨hy, hkvs⟩ hfuel hread
    rw [fieldsTail, List.length_cons, List.length_cons, List.length_append, List.length_cons,
      List.length_cons, List.length_append] at hfuel
    have hpos := length_jsonChars_pos hy
    obtain ⟨fuel, rfl⟩ : ∃ m, fuel = m + 1 := ⟨fuel - 1, by omega⟩
    have hread' := scanValue_jsonChars y fuel _ hy (by omega) (.fieldsTail kvs rest)
    have hfields := scanFields_fieldsTail kvs fuel rest y (Dict.set d k x) k' hy hkvs
      (by omega) hread'
    have htail : fieldsTail ((k', y) :: kvs) ++ rest = ',' :: ' ' ::
        ((Json.dumpStr k').toList ++ ':' :: ' ' :: (y.jsonChars ++ (fieldsTail kvs ++ rest))) := by
      rw [fieldsTail]
      simp only [List.cons_append, List.append_assoc]
    have hquote : skipSpace ((Json.dumpStr k').toList ++
        ':' :: ' ' :: (y.jsonChars ++ (fieldsTail kvs ++ rest))) =
        (Json.dumpStr k').toList ++ ':' :: ' ' :: (y.jsonChars ++ (fieldsTail kvs ++ rest)) := by
      rw [Json.dumpStr, String.toList_ofList, List.cons_append, List.cons_append,
        skipSpace_of_head (by decide)]
    rw [htail] at hread ⊢
    rw [scanFields_next hx d k hread, hquote, hfields]
    rfl

end

/-! ### Printable texts -/

/-- A text of printable ASCII characters. -/
def Printable (cs : List Char) : Prop := ∀ c ∈ cs, 32 ≤ c.toNat ∧ c.toNat ≤ 126

instance : DecidablePred Printable := fun cs => List.decidableBAll _ cs

theorem Printable.append {cs ds : List Char} (hcs : Printable cs) (hds : Printable ds) :
    Printable (cs ++ ds) := by
  intro c hc
  rcases List.mem_append.1 hc with h | h
  · exact hcs c h
  · exact hds c h

theorem Printable.cons {c : Char} {cs : List Char} (hc : 32 ≤ c.toNat ∧ c.toNat ≤ 126)
    (hcs : Printable cs) : Printable (c :: cs) := List.forall_mem_cons.2 ⟨hc, hcs⟩

theorem Printable.digits {cs : List Char} (h : Digits cs) : Printable cs := by
  intro c hc
  have hdigit := h c hc
  rw [Char.isDigit_iff_toNat] at hdigit
  have h0 : '0'.toNat = 48 := rfl
  have h9 : '9'.toNat = 57 := rfl
  omega

theorem Printable.numeral (n : Numeral) : Printable n.text := by
  refine ((Printable.digits n.whole_digits).append ?_).append ?_
  · unfold Numeral.fractionText
    split_ifs
    · exact List.forall_mem_nil _
    · exact .cons (by decide) (.digits n.fraction_digits)
  · unfold Numeral.exponentText
    split
    · exact List.forall_mem_nil _
    · rename_i negative ds hexponent
      refine .cons (by decide) (.cons ?_ (.digits (n.exponent_digits _ hexponent).1))
      cases negative <;> decide

theorem Printable.sign (negative : Bool) : Printable (if negative then ['-'] else []) := by
  cases negative
  · exact List.forall_mem_nil _
  · exact .cons (by decide) (List.forall_mem_nil _)

theorem Printable.toDigits (n : ℕ) : Printable (Nat.toDigits 16 n) := by
  induction n using Nat.strong_induction_on with
  | _ n ih =>
    have hdigit : ∀ d < 16, Printable [Nat.digitChar d] := by
      intro d hd
      refine .cons ?_ (List.forall_mem_nil _)
      interval_cases d <;> decide
    rcases Nat.lt_or_ge n 16 with hlt | hge
    · rw [Nat.toDigits_of_lt_base hlt]
      exact hdigit n hlt
    · rw [Nat.toDigits_of_base_le (by decide) hge]
      exact (ih (n / 16) (by omega)).append (hdigit _ (Nat.mod_lt n (by decide)))

theorem Printable.unicodeEscape (n : ℕ) : Printable (Json.unicodeEscape n) :=
  .cons (by decide) (.cons (by decide) ((Printable.digits (Digits.zeros _)).append (.toDigits n)))

/-- A string is written with printable characters, whatever it holds. -/
theorem Printable.dumpStr (s : String) : Printable (Json.dumpStr s).toList := by
  rw [Json.dumpStr, String.toList_ofList]
  refine .append (.cons (by decide) ?_) (.cons (by decide) (List.forall_mem_nil _))
  intro d hd
  obtain ⟨c, -, hc⟩ := List.mem_flatMap.1 hd
  have hchar : Printable (Json.dumpChar c) := by
    rcases dumpChar_cases c with ⟨e, htext, -, -, -, he⟩ | ⟨htext, -, -, -, hc⟩ | ⟨htext, -⟩ |
      ⟨n, m, htext, -⟩
    · rw [htext]
      exact .cons (by decide) (.cons he (List.forall_mem_nil _))
    · rw [htext]
      exact .cons hc (List.forall_mem_nil _)
    · rw [htext]
      exact .unicodeEscape _
    · rw [htext]
      exact (Printable.unicodeEscape n).append (.unicodeEscape m)
  exact hchar d hc

mutual

/-- **A value is written with printable characters.** -/
theorem printable_jsonChars : ∀ x : Value, x.IsJson → Printable x.jsonChars
  | .null, _ => by decide
  | .bool true, _ => by decide
  | .bool false, _ => by decide
  | .int n, _ => by
    rw [jsonChars, toList_toString]
    exact (Printable.sign _).append (.digits (Digits.toString _))
  | .float .nan, hx => absurd rfl hx.1
  | .float (.infinite true), _ => by decide
  | .float (.infinite false), _ => by decide
  | .float (.finite q), hx => by
    obtain ⟨n, htext, -⟩ := Double.exists_numeral_repr hx.2
    have hsign := Printable.sign (decide (q < 0))
    simp only [decide_eq_true_iff] at hsign
    rw [jsonChars, floatText, htext]
    exact hsign.append (.numeral n)
  | .str s, _ => by
    rw [jsonChars]
    exact .dumpStr s
  | .arr [], _ => by decide
  | .arr (x :: xs), hx => by
    rw [jsonChars]
    exact .cons (by decide) ((printable_jsonChars x hx.1).append (printable_itemsTail xs hx.2))
  | .obj [], _ => by decide
  | .obj ((k, x) :: kvs), hx => by
    rw [jsonChars]
    exact .cons (by decide) ((Printable.dumpStr k).append (.cons (by decide) (.cons (by decide)
      ((printable_jsonChars x hx.2.1).append (printable_fieldsTail kvs hx.2.2)))))

theorem printable_itemsTail : ∀ xs : List Value, IsJsonItems xs → Printable (itemsTail xs)
  | [], _ => by decide
  | x :: xs, hxs => by
    rw [itemsTail]
    exact .cons (by decide) (.cons (by decide)
      ((printable_jsonChars x hxs.1).append (printable_itemsTail xs hxs.2)))

theorem printable_fieldsTail : ∀ kvs : List (String × Value), IsJsonFields kvs →
    Printable (fieldsTail kvs)
  | [], _ => by decide
  | (k, x) :: kvs, hkvs => by
    rw [fieldsTail]
    exact .cons (by decide) (.cons (by decide) ((Printable.dumpStr k).append (.cons (by decide)
      (.cons (by decide) ((printable_jsonChars x hkvs.1).append
        (printable_fieldsTail kvs hkvs.2))))))

end

/-! ### What is written -/

theorem toList_intercalate_cons (x : String) (xs : List String) :
    (", ".intercalate (x :: xs)).toList =
      x.toList ++ xs.flatMap fun y => ',' :: ' ' :: y.toList := by
  induction xs generalizing x with
  | nil => simp
  | cons y ys ih =>
    have hcomma : ", ".toList = [',', ' '] := rfl
    rw [String.intercalate_cons_cons, String.toList_append, String.toList_append, ih y, hcomma]
    simp

/-- The text of a list is its first item and its tail. -/
theorem bracketed_cons (opening closing : Char) (cs : List Char) (texts : List String) :
    Form.bracketed (String.ofList [opening]) (String.ofList [closing])
        (String.ofList cs :: texts) =
      String.ofList (opening ::
        (cs ++ ((texts.flatMap fun text => ',' :: ' ' :: text.toList) ++ [closing]))) := by
  rw [← String.toList_inj, Form.bracketed, String.toList_append, String.toList_append,
    toList_intercalate_cons]
  simp

mutual

/-- **A value is written as its characters.** -/
theorem dumps_form : ∀ x : Value, x.IsJson → x.form.dumps false id = .ok (String.ofList x.jsonChars)
  | .null, _ => rfl
  | .bool true, _ => rfl
  | .bool false, _ => rfl
  | .int n, hn => by
    have hn : n.natAbs < 10 ^ maxStrDigits := hn
    rw [form, Form.dumps, jsonChars, String.ofList_toList, id, intText, if_pos hn]
  | .float x, _ => by rw [form, Form.dumps, jsonChars, String.ofList_toList, id]
  | .str s, _ => by rw [form, Form.dumps, jsonChars, String.ofList_toList, id]
  | .arr [], _ => rfl
  | .arr (x :: xs), ⟨hx, hxs⟩ => by
    obtain ⟨texts, htexts, htail⟩ := dumps_formList xs hxs
    rw [form, formList, Form.dumps, Form.dumpsList, List.mapM_cons, id, dumps_form x hx, ok_bind,
      htexts, ok_bind, pure_eq_ok, map_ok, jsonChars, htail]
    exact congrArg Except.ok (bracketed_cons '[' ']' x.jsonChars texts)
  | .obj [], _ => rfl
  | .obj ((k, x) :: kvs), ⟨_, hx, hkvs⟩ => by
    obtain ⟨texts, htexts, htail⟩ := dumps_formItems kvs hkvs
    rw [form, formItems, Form.dumps, Form.dumpsItems, Form.ordered, if_neg Bool.false_ne_true,
      List.mapM_cons, dumps_form x hx, map_ok, ok_bind, htexts, ok_bind, pure_eq_ok, map_ok,
      jsonChars, htail]
    have hitem : Json.dumpStr k ++ ": " ++ String.ofList x.jsonChars =
        String.ofList ((Json.dumpStr k).toList ++ ':' :: ' ' :: x.jsonChars) := by
      have hcolon : ": ".toList = [':', ' '] := rfl
      rw [← String.toList_inj, String.toList_append, String.toList_append, hcolon]
      simp
    rw [hitem]
    refine congrArg Except.ok ((bracketed_cons '\x7b' '\x7d' _ texts).trans ?_)
    simp

theorem dumps_formList : ∀ xs : List Value, IsJsonItems xs →
    ∃ texts : List String, (Form.dumpsList false id (formList xs)).mapM id = .ok texts ∧
      itemsTail xs = (texts.flatMap fun text => ',' :: ' ' :: text.toList) ++ [']']
  | [], _ => ⟨[], rfl, rfl⟩
  | x :: xs, ⟨hx, hxs⟩ => by
    obtain ⟨texts, htexts, htail⟩ := dumps_formList xs hxs
    refine ⟨String.ofList x.jsonChars :: texts, ?_, ?_⟩
    · rw [formList, Form.dumpsList, List.mapM_cons, id, dumps_form x hx, ok_bind, htexts, ok_bind,
        pure_eq_ok]
    · rw [itemsTail, htail]
      simp

theorem dumps_formItems : ∀ kvs : List (String × Value), IsJsonFields kvs →
    ∃ texts : List String,
      ((Form.dumpsItems false id (formItems kvs)).mapM fun kv =>
        (Json.dumpStr kv.1 ++ ": " ++ ·) <$> kv.2) = .ok texts ∧
      fieldsTail kvs = (texts.flatMap fun text => ',' :: ' ' :: text.toList) ++ ['\x7d']
  | [], _ => ⟨[], rfl, rfl⟩
  | (k, x) :: kvs, ⟨hx, hkvs⟩ => by
    obtain ⟨texts, htexts, htail⟩ := dumps_formItems kvs hkvs
    refine ⟨(Json.dumpStr k ++ ": " ++ String.ofList x.jsonChars) :: texts, ?_, ?_⟩
    · rw [formItems, Form.dumpsItems, List.mapM_cons, dumps_form x hx, map_ok, ok_bind, htexts,
        ok_bind, pure_eq_ok]
    · have hcolon : ": ".toList = [':', ' '] := rfl
      rw [fieldsTail, htail, List.flatMap_cons, String.toList_append, String.toList_append, hcolon]
      simp

end

/-- The text of a value. -/
theorem dumps_eq {x : Value} (hx : x.IsJson) : x.dumps = .ok (String.ofList x.jsonChars) :=
  dumps_form x hx

/-- **`json.loads` reads what `json.dumps` has written.** -/
theorem loads_jsonChars {x : Value} (hx : x.IsJson) :
    loads (String.ofList x.jsonChars) = .ok x := by
  obtain ⟨c, cs, hchars, hspace, -⟩ := exists_jsonChars hx
  have hmark : x.jsonChars.head? ≠ some '\ufeff' := by
    have hprintable := printable_jsonChars x hx
    rw [hchars] at hprintable ⊢
    intro hmark
    rw [Option.some.inj hmark] at hprintable
    exact absurd (hprintable _ List.mem_cons_self) (by decide)
  have hread := scanValue_jsonChars x (2 * x.jsonChars.length) [] hx (by omega)
    (by simp [EndsNumber])
  have hblank := skipSpace_jsonChars hx []
  rw [List.append_nil] at hread hblank
  unfold loads
  rw [String.toList_ofList, if_neg hmark, hblank, hread]
  rfl

end Value
end Py
end QualityFlow
