/-
# Values with floats

JSON values whose floats are those of the interpreter, with the infinities and `nan`, as the
interpreter makes them of texts and writes them back.  `repr` of a float is the shortest
decimal number that is read as the float, and of those the nearest to it.
-/

import QualityFlow.Py.Double
import QualityFlow.Py.Json

namespace QualityFlow
namespace Py

/-! ### `repr(x)` -/

namespace Double

/-- The power of ten above a number. -/
def decimalPoint (q : ℚ) : ℤ := Int.log 10 q + 1

/-- The decimal numbers of `n` digits on both sides of a number, as digits and the place of
the last one. -/
def decimalsAround (q : ℚ) (n : ℕ) : List (ℕ × ℤ) :=
  let place := decimalPoint q - n
  let below := ⌊q / 10 ^ place⌋.toNat
  [(below, place), (below + 1, place)]

/-- The decimal number of `n` digits that is read as a positive number: the nearest one. -/
def shortDecimal? (q : ℚ) (n : ℕ) : Option (ℕ × ℤ) :=
  let distance (d : ℕ × ℤ) : ℚ := |d.1 * 10 ^ d.2 - q|
  match (decimalsAround q n).filter fun d => ofRat (d.1 * 10 ^ d.2) = .finite q with
  | [] => none
  | [d] => some d
  | d :: e :: _ =>
    if distance d < distance e ∨ distance d = distance e ∧ d.1 % 2 = 0 then some d else some e

/-- The digits of a positive number, without the zeros at the end, and where its point is. -/
def shortest (q : ℚ) : List Char × ℤ :=
  let (n, place) := ((List.range 17).findSome? fun n => shortDecimal? q (n + 1)).getD (0, 0)
  let digits := (toString n).toList
  (digits.rdropWhile (· == '0'), digits.length + place)

/-- The digits with a point among them, or with an exponent. -/
def layout (digits : List Char) (point : ℤ) : List Char :=
  if -4 < point ∧ point ≤ 16 then
    let whole := digits.take point.toNat ++ List.replicate (point.toNat - digits.length) '0'
    let fraction := List.replicate (-point).toNat '0' ++ digits.drop point.toNat
    (if whole = [] then ['0'] else whole) ++ '.' :: (if fraction = [] then ['0'] else fraction)
  else
    let exponent := (toString (point - 1).natAbs).toList
    digits.take 1 ++ (if digits.length = 1 then [] else '.' :: digits.drop 1) ++
      ['e', if point - 1 < 0 then '-' else '+'] ++
      List.replicate (2 - exponent.length) '0' ++ exponent

/-- `repr(x)`. -/
def repr : Double → String
  | .nan => "nan"
  | .infinite negative => if negative then "-inf" else "inf"
  | .finite q =>
    if q = 0 then "0.0"
    else
      let (digits, point) := shortest |q|
      (if q < 0 then "-" else "") ++ String.ofList (layout digits point)

end Double

/-! ### Values -/

/-- A JSON value, or what the interpreter makes of one. -/
inductive Value where
  | null
  | bool (b : Bool)
  | int (n : ℤ)
  | float (x : Double)
  | str (s : String)
  | arr (xs : List Value)
  | obj (kvs : List (String × Value))

namespace Value

instance : Inhabited Value := ⟨.null⟩

/-- `bool(value)`. -/
def truthy : Value → Bool
  | .null => false
  | .bool b => b
  | .int n => n ≠ 0
  | .float x => x.truthy
  | .str s => s ≠ ""
  | .arr xs => !xs.isEmpty
  | .obj kvs => !kvs.isEmpty

mutual

/-- `repr(value)`. -/
def repr : Value → String
  | .null => "None"
  | .bool true => "True"
  | .bool false => "False"
  | .int n => toString n
  | .float x => x.repr
  | .str s => Json.reprStr s
  | .arr xs => "[" ++ ", ".intercalate (reprList xs) ++ "]"
  | .obj kvs => "\x7b" ++ ", ".intercalate (reprItems kvs) ++ "\x7d"

def reprList : List Value → List String
  | [] => []
  | x :: xs => repr x :: reprList xs

def reprItems : List (String × Value) → List String
  | [] => []
  | (k, x) :: kvs => (Json.reprStr k ++ ": " ++ repr x) :: reprItems kvs

end

/-- `str(value)`. -/
def pyStr : Value → String
  | .str s => s
  | x => repr x

/-- `str(value or "").strip()`. -/
def token (x : Value) : String := if x.truthy then strip x.pyStr else ""

/-- `d.get(key)`, `None` where the key is missing. -/
def field (d : List (String × Value)) (key : String) : Value := (Dict.get? d key).getD .null

/-- A text that may be missing. -/
def ofOption : Option Token → Value
  | none => .null
  | some t => .str t.val

@[simp] theorem token_null : token .null = "" := rfl

@[simp] theorem token_str (s : String) : token (.str s) = strip s := by
  by_cases h : s = ""
  · subst h
    rfl
  · simp [token, truthy, pyStr, h]

@[simp] theorem ofString?_token_ofOption (o : Option Token) :
    Token.ofString? (ofOption o).token = o := by
  cases o with
  | none => rfl
  | some t => rw [ofOption, token_str, t.strip_val, Token.ofString?_val]

end Value
end Py
end QualityFlow
