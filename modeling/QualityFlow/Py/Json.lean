/-
# JSON values

What a request body, a stored configuration or a template configuration holds.
A float is kept as the decimal fraction its `repr` denotes, so that equal floats
are equal terms; the non-finite ones are left out.  `pyStr` is `str(value)`,
which the services apply to values of any type before they strip them, and
`truthy` is `bool(value)`, which decides every `value or default`.
-/

import Mathlib.Data.Rat.Defs
import QualityFlow.Py.Dict
import QualityFlow.Py.Str

namespace QualityFlow
namespace Py

/-- A JSON value. -/
inductive Json where
  | null
  | bool (b : Bool)
  | int (n : ℤ)
  | float (q : ℚ)
  | str (s : String)
  | arr (xs : List Json)
  | obj (kvs : List (String × Json))

namespace Json

instance : Inhabited Json := ⟨.null⟩

mutual

/-- Structural equality of two values. -/
def beq : Json → Json → Bool
  | .null, .null => true
  | .bool a, .bool b => a == b
  | .int a, .int b => a == b
  | .float a, .float b => a == b
  | .str a, .str b => a == b
  | .arr xs, .arr ys => beqList xs ys
  | .obj xs, .obj ys => beqItems xs ys
  | _, _ => false

def beqList : List Json → List Json → Bool
  | [], [] => true
  | x :: xs, y :: ys => beq x y && beqList xs ys
  | _, _ => false

def beqItems : List (String × Json) → List (String × Json) → Bool
  | [], [] => true
  | (k, x) :: xs, (k', y) :: ys => k == k' && (beq x y && beqItems xs ys)
  | _, _ => false

end

mutual

theorem beq_iff : ∀ x y : Json, beq x y = true ↔ x = y
  | .null, y => by cases y <;> simp [beq]
  | .bool a, y => by cases y <;> simp [beq]
  | .int a, y => by cases y <;> simp [beq]
  | .float a, y => by cases y <;> simp [beq]
  | .str a, y => by cases y <;> simp [beq]
  | .arr xs, y => by cases y <;> simp [beq, beqList_iff xs]
  | .obj xs, y => by cases y <;> simp [beq, beqItems_iff xs]

theorem beqList_iff : ∀ xs ys : List Json, beqList xs ys = true ↔ xs = ys
  | [], ys => by cases ys <;> simp [beqList]
  | x :: xs, ys => by cases ys <;> simp [beqList, beq_iff x, beqList_iff xs]

theorem beqItems_iff : ∀ xs ys : List (String × Json), beqItems xs ys = true ↔ xs = ys
  | [], ys => by cases ys <;> simp [beqItems]
  | (k, x) :: xs, ys => by
    rcases ys with _ | ⟨⟨k', y⟩, ys⟩ <;> simp [beqItems, beq_iff x, beqItems_iff xs, and_assoc]

end

instance : DecidableEq Json := fun x y => decidable_of_iff (beq x y = true) (beq_iff x y)

/-- `bool(value)`. -/
def truthy : Json → Bool
  | .null => false
  | .bool b => b
  | .int n => n ≠ 0
  | .float q => q ≠ 0
  | .str s => s ≠ ""
  | .arr xs => !xs.isEmpty
  | .obj kvs => !kvs.isEmpty

/-! ### `str(value)` -/

/-- `repr` of a text: single quotes, unless only those would need an escape. -/
def reprStr (s : String) : String :=
  let q := if '\'' ∈ s.toList ∧ '"' ∉ s.toList then '"' else '\''
  let escape (c : Char) : List Char :=
    if c = '\\' then ['\\', '\\']
    else if c = q then ['\\', q]
    else if c = '\n' then ['\\', 'n']
    else if c = '\r' then ['\\', 'r']
    else if c = '\t' then ['\\', 't']
    else [c]
  String.ofList (q :: s.toList.flatMap escape ++ [q])

/-- `repr` of a float given as a decimal fraction. -/
def reprFloat (q : ℚ) : String :=
  let k := ((List.range 400).find? fun k => 10 ^ k % q.den = 0).getD 0
  let digits := toString (q.num.natAbs * (10 ^ k / q.den))
  let whole := digits.toList.take (digits.length - k)
  let fraction := List.replicate (k - digits.length) '0' ++ digits.toList.drop (digits.length - k)
  (if q < 0 then "-" else "") ++ String.ofList
    ((if whole = [] then ['0'] else whole) ++ '.' :: (if fraction = [] then ['0'] else fraction))

mutual

/-- `repr(value)`. -/
def repr : Json → String
  | .null => "None"
  | .bool true => "True"
  | .bool false => "False"
  | .int n => toString n
  | .float q => reprFloat q
  | .str s => reprStr s
  | .arr xs => "[" ++ ", ".intercalate (reprList xs) ++ "]"
  | .obj kvs => "\x7b" ++ ", ".intercalate (reprItems kvs) ++ "\x7d"

def reprList : List Json → List String
  | [] => []
  | x :: xs => repr x :: reprList xs

def reprItems : List (String × Json) → List String
  | [] => []
  | (k, x) :: kvs => (reprStr k ++ ": " ++ repr x) :: reprItems kvs

end

/-- `str(value)`. -/
def pyStr : Json → String
  | .str s => s
  | x => repr x

@[simp] theorem pyStr_str (s : String) : pyStr (.str s) = s := rfl

/-- `str(value or "").strip()`. -/
def token (x : Json) : String := if x.truthy then strip x.pyStr else ""

@[simp] theorem token_null : token .null = "" := rfl

@[simp] theorem token_str (s : String) : token (.str s) = strip s := by
  by_cases h : s = ""
  · subst h
    rfl
  · simp [token, truthy, h]

/-- The text of an array is empty or opens with a bracket. -/
theorem token_arr (xs : List Json) :
    (arr xs).token = "" ∨ (arr xs).token.toList.head? = some '[' := by
  cases xs with
  | nil => exact Or.inl rfl
  | cons x xs =>
    right
    have h : (arr (x :: xs)).token = strip ("[" ++ (", ".intercalate (reprList (x :: xs)) ++ "]")) := by
      rw [← String.append_assoc]
      rfl
    rw [h]
    exact head?_strip_append rfl rfl _

/-- The text of an object is empty or opens with a brace. -/
theorem token_obj (kvs : List (String × Json)) :
    (obj kvs).token = "" ∨ (obj kvs).token.toList.head? = some '\x7b' := by
  cases kvs with
  | nil => exact Or.inl rfl
  | cons kv kvs =>
    right
    have h : (obj (kv :: kvs)).token =
        strip ("\x7b" ++ (", ".intercalate (reprItems (kv :: kvs)) ++ "\x7d")) := by
      rw [← String.append_assoc]
      rfl
    rw [h]
    exact head?_strip_append rfl rfl _

/-- `value` as a `dict`, if it is one. -/
def asObj? : Json → Option (List (String × Json))
  | .obj kvs => some kvs
  | _ => none

/-- `d.get(key)` on a JSON object, `None` where the key is missing. -/
def field (d : List (String × Json)) (key : String) : Json := (Dict.get? d key).getD .null

/-- A text field that may be null. -/
def ofOption : Option String → Json
  | none => .null
  | some s => .str s

end Json
end Py
end QualityFlow
