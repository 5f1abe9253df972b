/-
# JSON texts

`json.dumps(value, ensure_ascii=True)` and `json.loads(text)`.  Outside a string the texts
that are written have a single space behind each comma and each colon, and inside one every
character that is not printable ASCII is escaped; a character beyond the first plane is two
escapes, which are joined when they are read.  A lone surrogate is no character here, and its
escape an error.  An integer of too many digits is neither written nor read, and raises
another error than a text that is no JSON.
-/

import QualityFlow.Py.Dumps
import QualityFlow.Py.FloatText

namespace QualityFlow
namespace Py
namespace Value

/-! ### `json.dumps` -/

/-- A float as `json.dumps` writes it. -/
def floatText : Double → String
  | .nan => "NaN"
  | .infinite negative => if negative then "-Infinity" else "Infinity"
  | .finite q => (Double.finite q).repr

mutual

/-- A value as it is written. -/
def form : Value → Form (Except Raised String)
  | .null => .atom (.ok "null")
  | .bool true => .atom (.ok "true")
  | .bool false => .atom (.ok "false")
  | .int n => .atom (intText n)
  | .float x => .atom (.ok (floatText x))
  | .str s => .atom (.ok (Json.dumpStr s))
  | .arr xs => .list (formList xs)
  | .obj kvs => .dict (formItems kvs)

def formList : List Value → List (Form (Except Raised String))
  | [] => []
  | x :: xs => form x :: formList xs

def formItems : List (String × Value) → List (String × Form (Except Raised String))
  | [] => []
  | (k, x) :: kvs => (k, form x) :: formItems kvs

end

/-- `json.dumps(value, ensure_ascii=True)`. -/
def dumps (x : Value) : Except Raised String := x.form.dumps false id

/-! ### `json.loads` -/

/-- Blanks between the parts of a text. -/
def skipSpace (cs : List Char) : List Char :=
  cs.dropWhile fun c => c = ' ' ∨ c = '\t' ∨ c = '\n' ∨ c = '\r'

/-- The value of a hexadecimal digit. -/
def hexValue (c : Char) : Option ℕ :=
  if '0' ≤ c ∧ c ≤ '9' then some (c.toNat - 48)
  else if 'a' ≤ c ∧ c ≤ 'f' then some (c.toNat - 87)
  else if 'A' ≤ c ∧ c ≤ 'F' then some (c.toNat - 55)
  else none

/-- The number of hexadecimal digits. -/
def hexNumber (cs : List Char) : Option ℕ :=
  cs.foldl (fun acc c => do return 16 * (← acc) + (← hexValue c)) (some 0)

/-- What a backslash and a character stand for. -/
def unescape (c : Char) : Option ℕ :=
  if c = '"' ∨ c = '\\' ∨ c = '/' then some c.toNat
  else if c = 'b' then some 8
  else if c = 'f' then some 12
  else if c = 'n' then some 10
  else if c = 'r' then some 13
  else if c = 't' then some 9
  else none

/-- A string behind its opening quote: its code units, and what follows the closing quote. -/
def scanUnits : List Char → Option (List ℕ × List Char)
  | [] => none
  | c :: cs =>
    if c = '"' then some ([], cs)
    else if c = '\\' then
      match cs with
      | 'u' :: h₁ :: h₂ :: h₃ :: h₄ :: cs => do
        let n ← hexNumber [h₁, h₂, h₃, h₄]
        let (ns, rest) ← scanUnits cs
        return (n :: ns, rest)
      | c :: cs => do
        let n ← unescape c
        let (ns, rest) ← scanUnits cs
        return (n :: ns, rest)
      | [] => none
    else if c.toNat < 32 then none
    else do
      let (ns, rest) ← scanUnits cs
      return (c.toNat :: ns, rest)

/-- Code units as characters: a surrogate and the one behind it are one character. -/
def joinUnits : List ℕ → Option (List Char)
  | [] => some []
  | n :: ns =>
    if 0xd800 ≤ n ∧ n ≤ 0xdbff then
      match ns with
      | m :: ns =>
        if 0xdc00 ≤ m ∧ m ≤ 0xdfff then
          (joinUnits ns).map (Char.ofNat (0x10000 + (n - 0xd800) * 1024 + (m - 0xdc00)) :: ·)
        else none
      | [] => none
    else if 0xdc00 ≤ n ∧ n ≤ 0xdfff then none
    else (joinUnits ns).map (Char.ofNat n :: ·)

/-- A string behind its opening quote. -/
def scanString (cs : List Char) : Option (String × List Char) := do
  let (units, rest) ← scanUnits cs
  return (String.ofList (← joinUnits units), rest)

/-- The sign of a number. -/
def scanSign : List Char → List Char × List Char
  | '-' :: cs => (['-'], cs)
  | cs => ([], cs)

/-- The digits before the point. -/
def scanWhole : List Char → Option (List Char × List Char)
  | '0' :: cs => some (['0'], cs)
  | cs =>
    let ds := cs.takeWhile Char.isDigit
    if ds = [] then none else some (ds, cs.dropWhile Char.isDigit)

/-- The point and the digits behind it, if there are any. -/
def scanFraction : List Char → List Char × List Char
  | '.' :: cs =>
    let ds := cs.takeWhile Char.isDigit
    if ds = [] then ([], '.' :: cs) else ('.' :: ds, cs.dropWhile Char.isDigit)
  | cs => ([], cs)

/-- The sign of an exponent. -/
def scanExponentSign : List Char → List Char × List Char
  | '-' :: cs => (['-'], cs)
  | '+' :: cs => (['+'], cs)
  | cs => ([], cs)

/-- The exponent, if there is one. -/
def scanExponent : List Char → List Char × List Char
  | [] => ([], [])
  | c :: cs =>
    let (sign, rest) := scanExponentSign cs
    let ds := rest.takeWhile Char.isDigit
    if (c = 'e' ∨ c = 'E') ∧ ds ≠ [] then (c :: (sign ++ ds), rest.dropWhile Char.isDigit)
    else ([], c :: cs)

/-- What is found in a text, or the error that it is no JSON. -/
def found {α : Type} : Option α → Except Raised α
  | some a => .ok a
  | none => .error .jsonDecodeError

/-- `int(digits)`. -/
def readDigits (ds : List Char) : Except Raised ℕ :=
  if ds.length ≤ maxStrDigits then .ok (Nat.ofDigitChars 10 ds 0)
  else .error (.valueError
    ("Exceeds the limit (4300 digits) for integer string conversion: value has " ++
      toString ds.length ++ " digits; use sys.set_int_max_str_digits() to increase the limit"))

/-- A number. -/
def scanNumber (cs : List Char) : Except Raised (Value × List Char) := do
  let (sign, cs) := scanSign cs
  let (whole, cs) ← found (scanWhole cs)
  let (fraction, cs) := scanFraction cs
  let (exponent, cs) := scanExponent cs
  if fraction = [] ∧ exponent = [] then
    let n : ℤ ← (Nat.cast : ℕ → ℤ) <$> readDigits whole
    return (.int (if sign = [] then n else -n), cs)
  else
    let x ← found (Double.ofText (String.ofList (sign ++ whole ++ fraction ++ exponent)))
    return (.float x, cs)

/-- The words of the format. -/
def literals : List (List Char × Value) :=
  [("null".toList, .null), ("true".toList, .bool true), ("false".toList, .bool false),
   ("NaN".toList, .float .nan), ("Infinity".toList, .float (.infinite false)),
   ("-Infinity".toList, .float (.infinite true))]

/-- A word. -/
def scanLiteral (cs : List Char) : Option (Value × List Char) :=
  literals.findSome? fun l => if l.1.isPrefixOf cs then some (l.2, cs.drop l.1.length) else none

mutual

/-- A value. -/
def scanValue : ℕ → List Char → Except Raised (Value × List Char)
  | 0, _ => .error .jsonDecodeError
  | _ + 1, [] => .error .jsonDecodeError
  | fuel + 1, c :: cs =>
    if c = '"' then do
      let (s, rest) ← found (scanString cs)
      return (.str s, rest)
    else if c = '\x7b' then
      match skipSpace cs with
      | '\x7d' :: rest => .ok (.obj [], rest)
      | cs => do
        let (kvs, rest) ← scanFields fuel [] cs
        return (.obj kvs, rest)
    else if c = '[' then
      match skipSpace cs with
      | ']' :: rest => .ok (.arr [], rest)
      | cs => do
        let (xs, rest) ← scanItems fuel cs
        return (.arr xs, rest)
    else
      match scanLiteral (c :: cs) with
      | some word => .ok word
      | none => scanNumber (c :: cs)

/-- The items of a list. -/
def scanItems : ℕ → List Char → Except Raised (List Value × List Char)
  | 0, _ => .error .jsonDecodeError
  | fuel + 1, cs => do
    let (x, cs) ← scanValue fuel cs
    match skipSpace cs with
    | ']' :: rest => .ok ([x], rest)
    | ',' :: cs => do
      let (xs, rest) ← scanItems fuel (skipSpace cs)
      return (x :: xs, rest)
    | _ => .error .jsonDecodeError

/-- The items of an object, which are put into a `dict`. -/
def scanFields : ℕ → Dict String Value → List Char →
    Except Raised (Dict String Value × List Char)
  | fuel + 1, d, '"' :: cs => do
    let (key, cs) ← found (scanString cs)
    match skipSpace cs with
    | ':' :: cs => do
      let (x, cs) ← scanValue fuel (skipSpace cs)
      match skipSpace cs with
      | '\x7d' :: rest => .ok (Dict.set d key x, rest)
      | ',' :: cs => scanFields fuel (Dict.set d key x) (skipSpace cs)
      | _ => .error .jsonDecodeError
    | _ => .error .jsonDecodeError
  | _, _, _ => .error .jsonDecodeError

end

/-- `json.loads(text)`. -/
def loads (s : String) : Except Raised Value :=
  if s.toList.head? = some '\ufeff' then .error .jsonDecodeError
  else do
    let (x, rest) ← scanValue (2 * s.toList.length + 1) (skipSpace s.toList)
    if skipSpace rest = [] then return x else throw .jsonDecodeError

end Value
end Py
end QualityFlow
