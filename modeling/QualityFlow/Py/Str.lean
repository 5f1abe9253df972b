/-
# Strings as the interpreter sees them

A Python `str` is a sequence of code points, so every operation here goes
through `String.toList`.  The file has the handful of methods the services call
(`strip`, `lstrip`, `split`, `lower`, `upper`, `replace`, `isdigit`, `int`) and
what they leave invariant: stripping twice is stripping once, lowering twice is
lowering once, and splitting a text at a separator it does not contain returns
it whole.

The digit tables are those of the Unicode database: a decimal digit sits at
offset `0 … 9` above one of `decimalZeros`; `str.isdigit` accepts the
characters of `otherDigits` as well, and `int` rejects them.  Case mapping is
exact on ASCII and on every character whose image is ASCII, which is all that a
comparison with an ASCII token can see; other letters keep their case.
-/

import Mathlib.Data.List.DropRight
import Mathlib.Tactic.IntervalCases

namespace QualityFlow
namespace Py

/-- The code points `str.strip` removes. -/
def spaceCodes : List Nat :=
  [0x9, 0xa, 0xb, 0xc, 0xd, 0x1c, 0x1d, 0x1e, 0x1f, 0x20, 0x85, 0xa0, 0x1680, 0x2000, 0x2001,
   0x2002, 0x2003, 0x2004, 0x2005, 0x2006, 0x2007, 0x2008, 0x2009, 0x200a, 0x2028, 0x2029, 0x202f,
   0x205f, 0x3000]

/-- `c.isspace()`. -/
def isSpace (c : Char) : Bool := spaceCodes.contains c.toNat

/-- `s.strip()`. -/
def strip (s : String) : String :=
  String.ofList ((s.toList.dropWhile isSpace).rdropWhile isSpace)

/-- `s.lstrip(c)` for one character. -/
def lstripChar (c : Char) (s : String) : String := String.ofList (s.toList.dropWhile (· == c))

/-- `s.rstrip(c)` for one character. -/
def rstripChar (c : Char) (s : String) : String := String.ofList (s.toList.rdropWhile (· == c))

/-- `s.strip(c)` for one character. -/
def stripChar (c : Char) (s : String) : String :=
  String.ofList ((s.toList.dropWhile (· == c)).rdropWhile (· == c))

/-- `s.startswith(p)`. -/
def startsWith (s p : String) : Bool := p.toList.isPrefixOf s.toList

/-- `s[n:]`. -/
def dropChars (n : Nat) (s : String) : String := String.ofList (s.toList.drop n)

/-- `s.split(c)` for one character. -/
def split (c : Char) (s : String) : List String := (s.toList.splitOn c).map String.ofList

/-- `s.replace(a, b)` for two characters. -/
def replaceChar (a b : Char) (s : String) : String :=
  String.ofList (s.toList.map fun c => if c = a then b else c)

/-- `s.replace(a, "")` for one character. -/
def removeChar (a : Char) (s : String) : String := String.ofList (s.toList.filter (· != a))

/-- The lower case of one character. -/
def lowerChar (c : Char) : List Char :=
  if 'A' ≤ c ∧ c ≤ 'Z' then [Char.ofNat (c.toNat + 32)]
  else if c = '\u212a' then ['k']
  else if c = '\u0130' then ['i', '\u0307']
  else [c]

/-- `s.lower()`. -/
def lower (s : String) : String := String.ofList (s.toList.flatMap lowerChar)

/-- The upper case of one character. -/
def upperChar (c : Char) : List Char :=
  if 'a' ≤ c ∧ c ≤ 'z' then [Char.ofNat (c.toNat - 32)]
  else if c = '\u00df' then ['S', 'S']
  else if c = '\u0131' then ['I']
  else if c = '\u0149' then ['\u02bc', 'N']
  else if c = '\u017f' then ['S']
  else if c = '\u01f0' then ['J', '\u030c']
  else if c = '\u1e96' then ['H', '\u0331']
  else if c = '\u1e97' then ['T', '\u0308']
  else if c = '\u1e98' then ['W', '\u030a']
  else if c = '\u1e99' then ['Y', '\u030a']
  else if c = '\u1e9a' then ['A', '\u02be']
  else if c = '\ufb00' then ['F', 'F']
  else if c = '\ufb01' then ['F', 'I']
  else if c = '\ufb02' then ['F', 'L']
  else if c = '\ufb03' then ['F', 'F', 'I']
  else if c = '\ufb04' then ['F', 'F', 'L']
  else if c = '\ufb05' ∨ c = '\ufb06' then ['S', 'T']
  else [c]

/-- `s.upper()`. -/
def upper (s : String) : String := String.ofList (s.toList.flatMap upperChar)

/-! ### Digits -/

/-- The zeros of the decimal digit blocks (category `Nd`). -/
def decimalZeros : List Nat :=
  [0x30, 0x660, 0x6f0, 0x7c0, 0x966, 0x9e6, 0xa66, 0xae6, 0xb66, 0xbe6, 0xc66, 0xce6, 0xd66, 0xde6,
   0xe50, 0xed0, 0xf20, 0x1040, 0x1090, 0x17e0, 0x1810, 0x1946, 0x19d0, 0x1a80, 0x1a90, 0x1b50,
   0x1bb0, 0x1c40, 0x1c50, 0xa620, 0xa8d0, 0xa900, 0xa9d0, 0xa9f0, 0xaa50, 0xabf0, 0xff10, 0x104a0,
   0x10d30, 0x11066, 0x110f0, 0x11136, 0x111d0, 0x112f0, 0x11450, 0x114d0, 0x11650, 0x116c0,
   0x11730, 0x118e0, 0x11950, 0x11c50, 0x11d50, 0x11da0, 0x16a60, 0x16ac0, 0x16b50, 0x1d7ce,
   0x1d7d8, 0x1d7e2, 0x1d7ec, 0x1d7f6, 0x1e140, 0x1e2f0, 0x1e950, 0x1fbf0]

/-- Characters that are digits without being decimal digits, as closed ranges. -/
def otherDigits : List (Nat × Nat) :=
  [(0xb2, 0xb3), (0xb9, 0xb9), (0x1369, 0x1371), (0x19da, 0x19da), (0x2070, 0x2070),
   (0x2074, 0x2079), (0x2080, 0x2089), (0x2460, 0x2468), (0x2474, 0x247c), (0x2488, 0x2490),
   (0x24ea, 0x24ea), (0x24f5, 0x24fd), (0x24ff, 0x24ff), (0x2776, 0x277e), (0x2780, 0x2788),
   (0x278a, 0x2792), (0x10a40, 0x10a43), (0x10e60, 0x10e68), (0x11052, 0x1105a), (0x1f100, 0x1f10a)]

/-- The value of a decimal digit. -/
def decimalValue (c : Char) : Option Nat :=
  (decimalZeros.find? fun z => z ≤ c.toNat && c.toNat < z + 10).map (c.toNat - ·)

/-- `c.isdigit()`. -/
def isDigitChar (c : Char) : Bool :=
  (decimalValue c).isSome || otherDigits.any fun r => r.1 ≤ c.toNat && c.toNat ≤ r.2

/-- `s.isdigit()`: not empty, and digits only. -/
def isDigit (s : String) : Bool := !s.toList.isEmpty && s.toList.all isDigitChar

/-- `int(s)` on a text of digits; `none` where it raises. -/
def intOfDigits (s : String) : Option Nat :=
  s.toList.foldl (fun acc c => do return 10 * (← acc) + (← decimalValue c)) (some 0)

/-- `int(s)`: a sign, and digits that single underscores may part. -/
def intOfText (s : String) : Option ℤ :=
  let signed (sign : ℤ) (digits : List Char) : Option ℤ :=
    let groups := digits.splitOn '_'
    if groups.any List.isEmpty then none
    else (intOfDigits (String.ofList groups.flatten)).map fun n => sign * n
  match (strip s).toList with
  | '-' :: cs => signed (-1) cs
  | '+' :: cs => signed 1 cs
  | cs => signed 1 cs

/-! ### What the operations leave invariant -/

theorem dropWhile_rdropWhile_dropWhile {α : Type*} (p : α → Bool) (xs : List α) :
    ((xs.dropWhile p).rdropWhile p).dropWhile p = (xs.dropWhile p).rdropWhile p := by
  cases hxs : xs.dropWhile p with
  | nil => simp
  | cons a t =>
    have ha : p a = false := by
      have h := List.dropWhile_get_zero_not p xs (by rw [hxs]; simp)
      simpa [hxs] using h
    cases hr : (a :: t).rdropWhile p with
    | nil => rfl
    | cons b u =>
      obtain ⟨v, hv⟩ := List.rdropWhile_prefix p (l := a :: t)
      rw [hr, List.cons_append] at hv
      obtain ⟨rfl, -⟩ := List.cons.inj hv
      simp [ha]

@[simp] theorem strip_strip (s : String) : strip (strip s) = strip s := by
  simp only [strip, String.toList_ofList]
  rw [dropWhile_rdropWhile_dropWhile, List.rdropWhile_idempotent]

/-- A text that opens with no space still opens so after `strip`. -/
theorem head?_strip_append {p : String} {c : Char} {cs : List Char} (hp : p.toList = c :: cs)
    (hc : isSpace c = false) (s : String) : (strip (p ++ s)).toList.head? = some c := by
  unfold strip
  rw [String.toList_ofList, String.toList_append, hp, List.cons_append,
    List.dropWhile_cons_of_neg (by simp [hc])]
  obtain ⟨t, ht⟩ := List.rdropWhile_prefix isSpace (l := c :: (cs ++ s.toList))
  cases h : (c :: (cs ++ s.toList)).rdropWhile isSpace with
  | nil =>
    have := List.rdropWhile_eq_nil_iff.1 h c List.mem_cons_self
    simp [hc] at this
  | cons d ds =>
    rw [h, List.cons_append] at ht
    rw [(List.cons.inj ht).1]
    rfl

@[simp] theorem strip_empty : strip "" = "" := rfl

theorem lowerChar_idem (c : Char) : (lowerChar c).flatMap lowerChar = lowerChar c := by
  by_cases h : 'A' ≤ c ∧ c ≤ 'Z'
  · have hA : 65 ≤ c.toNat := h.1
    have hZ : c.toNat ≤ 90 := h.2
    rw [← Char.ofNat_toNat c]
    generalize c.toNat = n at hA hZ
    interval_cases n <;> decide
  · unfold lowerChar
    split_ifs with h2 h3
    · decide
    · decide
    · simp [h, h2, h3]

/-- Lowering twice is lowering once. -/
@[simp] theorem lower_lower (s : String) : lower (lower s) = lower s := by
  simp only [lower, String.toList_ofList]
  rw [List.flatMap_assoc]
  simp only [lowerChar_idem]

/-- Dropping from the front commutes with replacing each character by characters
that are spaces just when it is one. -/
theorem dropWhile_isSpace_flatMap {f : Char → List Char} (hne : ∀ c, f c ≠ [])
    (hf : ∀ c, ∀ d ∈ f c, isSpace d = isSpace c) (cs : List Char) :
    (cs.flatMap f).dropWhile isSpace = (cs.dropWhile isSpace).flatMap f := by
  induction cs with
  | nil => rfl
  | cons c cs ih =>
    rw [List.flatMap_cons]
    cases hc : isSpace c with
    | true =>
      have hall : ∀ d ∈ f c, isSpace d = true := fun d hd => by rw [hf c d hd, hc]
      rw [List.dropWhile_append_of_pos hall, ih, List.dropWhile_cons_of_pos hc]
    | false =>
      rw [List.dropWhile_cons_of_neg (by simp [hc]), List.flatMap_cons]
      cases hfc : f c with
      | nil => exact absurd hfc (hne c)
      | cons d ds =>
        have hd : isSpace d = false := by rw [hf c d (by simp [hfc]), hc]
        rw [List.cons_append, List.dropWhile_cons_of_neg (by simp [hd])]

/-- `strip` commutes with such a replacement. -/
theorem strip_flatMap {f : Char → List Char} (hne : ∀ c, f c ≠ [])
    (hf : ∀ c, ∀ d ∈ f c, isSpace d = isSpace c) (s : String) :
    strip (String.ofList (s.toList.flatMap f)) = String.ofList ((strip s).toList.flatMap f) := by
  have hrev : ∀ cs : List Char, (cs.flatMap f).rdropWhile isSpace = (cs.rdropWhile isSpace).flatMap f := by
    intro cs
    rw [List.rdropWhile, List.rdropWhile, List.reverse_flatMap,
      dropWhile_isSpace_flatMap (fun c => by simp [hne c]) (fun c d hd => hf c d (by simpa using hd)),
      List.reverse_flatMap]
    simp [Function.comp_def]
  rw [strip, strip, String.toList_ofList, String.toList_ofList, dropWhile_isSpace_flatMap hne hf, hrev]

theorem lowerChar_ne_nil (c : Char) : lowerChar c ≠ [] := by
  unfold lowerChar
  split_ifs <;> simp

theorem isSpace_lowerChar (c : Char) : ∀ d ∈ lowerChar c, isSpace d = isSpace c := by
  have hall : ((lowerChar c).all fun d => isSpace d == isSpace c) = true := by
    by_cases h : 'A' ≤ c ∧ c ≤ 'Z'
    · have hA : 65 ≤ c.toNat := h.1
      have hZ : c.toNat ≤ 90 := h.2
      rw [← Char.ofNat_toNat c]
      generalize c.toNat = n at hA hZ
      interval_cases n <;> decide
    · unfold lowerChar
      split_ifs with h2 h3
      · subst h2
        decide
      · subst h3
        decide
      · simp
  intro d hd
  exact eq_of_beq (List.all_eq_true.1 hall d hd)

@[simp] theorem strip_lower (s : String) : strip (lower s) = lower (strip s) :=
  strip_flatMap lowerChar_ne_nil isSpace_lowerChar s

/-- `strip` commutes with replacing a character that is no space by one that is none. -/
theorem strip_replaceChar {a b : Char} (ha : isSpace a = false) (hb : isSpace b = false)
    (s : String) : strip (replaceChar a b s) = replaceChar a b (strip s) := by
  have hspace : ∀ c, ∀ d ∈ [if c = a then b else c], isSpace d = isSpace c := by
    intro c d hd
    rw [List.mem_singleton] at hd
    subst hd
    split_ifs with hca
    · rw [hca, ha, hb]
    · rfl
  have h := strip_flatMap (f := fun c => [if c = a then b else c]) (by simp) hspace s
  rw [← List.map_eq_flatMap, ← List.map_eq_flatMap] at h
  exact h

/-- A character that is replaced by another one is gone. -/
theorem not_mem_replaceChar {a b : Char} (h : a ≠ b) (s : String) :
    a ∉ (replaceChar a b s).toList := by
  rw [replaceChar, String.toList_ofList, List.mem_map]
  rintro ⟨c, -, hc⟩
  split_ifs at hc with hca
  · exact h hc.symm
  · exact hca hc

/-- There is nothing to replace where the character does not occur. -/
theorem replaceChar_of_not_mem {a : Char} {s : String} (h : a ∉ s.toList) (b : Char) :
    replaceChar a b s = s := by
  have hmap : (s.toList.map fun c => if c = a then b else c) = s.toList.map id := by
    refine List.map_congr_left fun c hc => ?_
    have hne : c ≠ a := by
      rintro rfl
      exact h hc
    rw [if_neg hne]
    rfl
  rw [replaceChar, hmap, List.map_id, String.ofList_toList]

/-- No lower case letter is an underscore. -/
theorem underscore_not_mem_lower {s : String} (h : '_' ∉ s.toList) : '_' ∉ (lower s).toList := by
  rw [lower, String.toList_ofList, List.mem_flatMap]
  rintro ⟨c, hc, hmem⟩
  have hlow : '_' ∈ lowerChar c → c = '_' := by
    by_cases hAZ : 'A' ≤ c ∧ c ≤ 'Z'
    · have hA : 65 ≤ c.toNat := hAZ.1
      have hZ : c.toNat ≤ 90 := hAZ.2
      rw [← Char.ofNat_toNat c]
      generalize c.toNat = n at hA hZ
      interval_cases n <;> decide
    · unfold lowerChar
      split_ifs
      · simp
      · simp
      · simpa using Eq.symm
  exact h (hlow hmem ▸ hc)

/-- What `strip` leaves does not end in a space. -/
theorem getLast_not_space {s : String} (h : strip s = s) (hne : s.toList ≠ []) :
    ¬isSpace (s.toList.getLast hne) = true := by
  have hs : s.toList = (s.toList.dropWhile isSpace).rdropWhile isSpace := by
    have := congrArg String.toList h
    rw [strip, String.toList_ofList] at this
    exact this.symm
  have hr : s.toList.rdropWhile isSpace = s.toList := by
    rw [hs, List.rdropWhile_idempotent]
  exact List.rdropWhile_eq_self_iff.1 hr hne

/-- A text that opens with no space and does not end in one is what `strip` leaves
of it. -/
theorem strip_eq_self {c : Char} {cs : List Char} (hc : isSpace c = false)
    (hlast : ¬isSpace ((c :: cs).getLast (by simp)) = true) :
    strip (String.ofList (c :: cs)) = String.ofList (c :: cs) := by
  rw [strip, String.toList_ofList, List.dropWhile_cons_of_neg (by simp [hc]),
    List.rdropWhile_eq_self_iff.2 fun _ => hlast]

/-- A text without the separator is split into itself. -/
theorem split_eq_singleton {c : Char} {s : String} (h : c ∉ s.toList) : split c s = [s] := by
  simp [split, List.splitOn_eq_singleton h]

/-- Splitting distributes over a separator in the text. -/
theorem split_append_sep (c : Char) (xs ys : List Char) :
    split c (String.ofList (xs ++ c :: ys))
      = split c (String.ofList xs) ++ split c (String.ofList ys) := by
  simp [split, List.splitOn_append_cons_self]

/-- A text that is not empty and has no blank at either end: what
`str(value or "").strip()` returns when a check for emptiness follows it. -/
@[ext] structure Token where
  val : String
  strip_val : strip val = val
  ne_empty : val ≠ ""
deriving DecidableEq

namespace Token

/-- `s.strip()`, where that is not empty. -/
def ofString? (s : String) : Option Token :=
  if h : strip s = "" then none else some ⟨strip s, strip_strip s, h⟩

@[simp] theorem ofString?_val (t : Token) : ofString? t.val = some t := by
  have h : strip t.val ≠ "" := by
    rw [t.strip_val]
    exact t.ne_empty
  rw [ofString?, dif_neg h]
  congr 1
  ext1
  exact t.strip_val

theorem strip_ne_empty (t : Token) : strip t.val ≠ "" := by
  rw [t.strip_val]
  exact t.ne_empty

end Token

/-- A check of each character, run over the list of them. -/
theorem not_space_of_all {s : String} (h : (s.toList.all fun c => !isSpace c) = true) :
    ∀ c ∈ s.toList, isSpace c = false := fun c hc => by
  simpa using List.all_eq_true.1 h c hc

/-- A text without blanks is what `strip` leaves of it. -/
theorem strip_of_forall {s : String} (h : ∀ c ∈ s.toList, isSpace c = false) : strip s = s := by
  have hdrop : s.toList.dropWhile isSpace = s.toList :=
    List.dropWhile_eq_self_iff.2 fun hpos => by
      have := h (s.toList[0]) (List.getElem_mem hpos)
      simp [this]
  have hrdrop : s.toList.rdropWhile isSpace = s.toList :=
    List.rdropWhile_eq_self_iff.2 fun hne => by simp [h _ (List.getLast_mem hne)]
  rw [strip, hdrop, hrdrop, String.ofList_toList]

/-- A decimal numeral has decimal digits only. -/
theorem isDigit_of_mem_toString {n : ℕ} {c : Char} (h : c ∈ (toString n).toList) :
    c.isDigit = true := by
  rw [Nat.toString_eq_ofList_toDigits, String.toList_ofList] at h
  exact Nat.isDigit_of_mem_toDigits (by decide) (by decide) h

theorem isSpace_of_isDigit {c : Char} (h : c.isDigit = true) : isSpace c = false := by
  rw [Char.isDigit_iff_toNat] at h
  have hcodes : ∀ n ∈ spaceCodes, n < 48 ∨ 57 < n := by decide
  rw [isSpace, Bool.eq_false_iff, Ne, List.contains_iff_mem]
  intro hmem
  have := hcodes _ hmem
  have h0 : '0'.toNat = 48 := rfl
  have h9 : '9'.toNat = 57 := rfl
  omega

theorem toString_nat_injective : Function.Injective (toString : ℕ → String) := by
  intro m n h
  have hdigits : Nat.toDigits 10 m = Nat.toDigits 10 n := by
    rw [Nat.toString_eq_ofList_toDigits, Nat.toString_eq_ofList_toDigits] at h
    simpa using congrArg String.toList h
  rw [← Nat.ofDigitChars_ten_toDigits (n := m), hdigits, Nat.ofDigitChars_ten_toDigits]

end Py
end QualityFlow
