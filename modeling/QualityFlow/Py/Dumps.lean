/-
# The text of a value

`json.dumps(value, ensure_ascii=True)`, with or without `sort_keys=True`, and `==` between
values.

There is one writer.  It goes through lists and objects and leaves what is neither to a
function that writes it or raises, so that each kind of value (what was read from JSON, values
with the floats of the interpreter, rows of a database) says only what its scalars are.
-/

import Mathlib.Data.List.Sort
import Mathlib.Data.String.Basic
import QualityFlow.Py.Json
import QualityFlow.Py.Loops

namespace QualityFlow
namespace Py
namespace Json

/-! ### Texts -/

/-- `'\\u{0:04x}'.format(n)`. -/
def unicodeEscape (n : ℕ) : List Char :=
  let digits := Nat.toDigits 16 n
  '\\' :: 'u' :: (List.replicate (4 - digits.length) '0' ++ digits)

/-- A character as `json.dumps` writes it. -/
def dumpChar (c : Char) : List Char :=
  if c = '"' then ['\\', '"']
  else if c = '\\' then ['\\', '\\']
  else if c = '\n' then ['\\', 'n']
  else if c = '\r' then ['\\', 'r']
  else if c = '\t' then ['\\', 't']
  else if c.toNat = 12 then ['\\', 'f']
  else if c.toNat = 8 then ['\\', 'b']
  else if 32 ≤ c.toNat ∧ c.toNat ≤ 126 then [c]
  else if c.toNat < 65536 then unicodeEscape c.toNat
  else
    let n := c.toNat - 65536
    unicodeEscape (55296 + n / 1024) ++ unicodeEscape (56320 + n % 1024)

/-- A text as `json.dumps` writes it. -/
def dumpStr (s : String) : String := String.ofList ('"' :: s.toList.flatMap dumpChar ++ ['"'])

end Json

/-! ### Values -/

/-- A value as `json.dumps` goes through it: lists and objects over what is neither. -/
inductive Form (α : Type) where
  | atom (a : α)
  | list (xs : List (Form α))
  | dict (kvs : List (String × Form α))

namespace Form

section

variable {α : Type} {m : Type → Type} [Monad m]

/-- Texts between brackets. -/
def bracketed (opening closing : String) (texts : List String) : String :=
  opening ++ ", ".intercalate texts ++ closing

/-- The items of an object, in the order they are written in. -/
def ordered {β : Type} (sortKeys : Bool) (items : List (String × β)) : List (String × β) :=
  if sortKeys then items.insertionSort fun a b => a.1 ≤ b.1 else items

mutual

/-- `json.dumps(value, ensure_ascii=True, sort_keys=sortKeys)`, where `write` writes what is
no list and no object, or raises. -/
def dumps (sortKeys : Bool) (write : α → m String) : Form α → m String
  | .atom a => write a
  | .list xs => bracketed "[" "]" <$> (dumpsList sortKeys write xs).mapM id
  | .dict kvs =>
    bracketed "\x7b" "\x7d" <$> (ordered sortKeys (dumpsItems sortKeys write kvs)).mapM fun kv =>
      (Json.dumpStr kv.1 ++ ": " ++ ·) <$> kv.2

def dumpsList (sortKeys : Bool) (write : α → m String) : List (Form α) → List (m String)
  | [] => []
  | x :: xs => dumps sortKeys write x :: dumpsList sortKeys write xs

def dumpsItems (sortKeys : Bool) (write : α → m String) :
    List (String × Form α) → List (String × m String)
  | [] => []
  | (k, x) :: kvs => (k, dumps sortKeys write x) :: dumpsItems sortKeys write kvs

end

theorem dumpsList_eq (sortKeys : Bool) (write : α → m String) (xs : List (Form α)) :
    dumpsList sortKeys write xs = xs.map (dumps sortKeys write) := by
  induction xs with
  | nil => rw [dumpsList, List.map_nil]
  | cons x xs ih => rw [dumpsList, ih, List.map_cons]

theorem dumpsItems_eq (sortKeys : Bool) (write : α → m String) (kvs : List (String × Form α)) :
    dumpsItems sortKeys write kvs = kvs.map fun kv => (kv.1, dumps sortKeys write kv.2) := by
  induction kvs with
  | nil => rw [dumpsItems, List.map_nil]
  | cons kv kvs ih => rw [dumpsItems, ih, List.map_cons]

end

mutual

/-- What a value is written from, from left to right. -/
def atoms {α : Type} : Form α → List α
  | .atom a => [a]
  | .list xs => atomsList xs
  | .dict kvs => atomsItems kvs

def atomsList {α : Type} : List (Form α) → List α
  | [] => []
  | x :: xs => x.atoms ++ atomsList xs

def atomsItems {α : Type} : List (String × Form α) → List α
  | [] => []
  | (_, x) :: kvs => x.atoms ++ atomsItems kvs

end

end Form

/-! ### What raises -/

/-- The errors of the standard library that a conversion raises. -/
inductive Raised where
  | valueError (message : String)
  | typeError (message : String)
  | unicodeDecodeError
  | jsonDecodeError
deriving DecidableEq

/-- The longest integer that is written or read, in decimal digits. -/
def maxStrDigits : ℕ := 4300

/-- `str(n)`. -/
def intText (n : ℤ) : Except Raised String :=
  if n.natAbs < 10 ^ maxStrDigits then .ok (toString n)
  else .error (.valueError
    ("Exceeds the limit (4300 digits) for integer string conversion; " ++
      "use sys.set_int_max_str_digits() to increase the limit"))

namespace Form

/-- Values are proved about from their atoms up. -/
theorem induct {α : Type} {P : Form α → Prop} (atom : ∀ a, P (.atom a))
    (list : ∀ xs, (∀ x ∈ xs, P x) → P (.list xs))
    (dict : ∀ kvs : List (String × Form α), (∀ kv ∈ kvs, P kv.2) → P (.dict kvs)) : ∀ v, P v :=
  @Form.rec α P (fun xs => ∀ x ∈ xs, P x) (fun kvs => ∀ kv ∈ kvs, P kv.2) (fun kv => P kv.2)
    atom list dict (by simp) (fun _ _ hx hxs => List.forall_mem_cons.2 ⟨hx, hxs⟩) (by simp)
    (fun _ _ hkv hkvs => List.forall_mem_cons.2 ⟨hkv, hkvs⟩) (fun _ _ h => h)

variable {α ε : Type}

theorem atomsList_eq (xs : List (Form α)) : atomsList xs = xs.flatMap atoms := by
  induction xs with
  | nil => rfl
  | cons x xs ih => rw [atomsList, ih, List.flatMap_cons]

theorem atomsItems_eq (kvs : List (String × Form α)) :
    atomsItems kvs = kvs.flatMap fun kv => kv.2.atoms := by
  induction kvs with
  | nil => rfl
  | cons kv kvs ih => rw [atomsItems, ih, List.flatMap_cons]

theorem mem_ordered {β : Type} {sortKeys : Bool} {items : List (String × β)} {kv : String × β} :
    kv ∈ ordered sortKeys items ↔ kv ∈ items := by
  cases sortKeys with
  | true => exact (List.perm_insertionSort _ _).mem_iff
  | false => exact Iff.rfl

/-- **A value is written where each of its atoms is.** -/
theorem exists_dumps {sortKeys : Bool} {write : α → Except ε String} (v : Form α) :
    (∃ text, v.dumps sortKeys write = .ok text) ↔ ∀ a ∈ v.atoms, ∃ text, write a = .ok text := by
  induction v using induct with
  | atom a => rw [dumps, atoms, List.forall_mem_singleton]
  | list xs ih =>
    rw [dumps, exists_map_eq_ok, exists_mapM_eq_ok, dumpsList_eq, List.forall_mem_map, atoms,
      atomsList_eq, List.forall_mem_flatMap]
    exact forall₂_congr ih
  | dict kvs ih =>
    rw [dumps, exists_map_eq_ok, exists_mapM_eq_ok, atoms, atomsItems_eq, List.forall_mem_flatMap]
    simp only [mem_ordered]
    rw [dumpsItems_eq, List.forall_mem_map]
    refine forall₂_congr fun kv hkv => ?_
    rw [exists_map_eq_ok]
    exact ih kv hkv

end Form

namespace Json

/-! ### JSON -/

mutual

/-- A value as it is written.  Its integers have been read, so they are short enough. -/
def form : Json → Form String
  | .null => .atom "null"
  | .bool true => .atom "true"
  | .bool false => .atom "false"
  | .int n => .atom (toString n)
  | .float q => .atom (reprFloat q)
  | .str s => .atom (dumpStr s)
  | .arr xs => .list (formList xs)
  | .obj kvs => .dict (formItems kvs)

def formList : List Json → List (Form String)
  | [] => []
  | x :: xs => form x :: formList xs

def formItems : List (String × Json) → List (String × Form String)
  | [] => []
  | (k, x) :: kvs => (k, form x) :: formItems kvs

end

/-- `json.dumps(value, ensure_ascii=True, sort_keys=sortKeys)`. -/
def dumps (sortKeys : Bool) (x : Json) : String := Id.run (x.form.dumps sortKeys pure)

/-! ### Equality -/

/-- The number that a value is, a truth value being one too. -/
def number? : Json → Option ℚ
  | .bool b => some (if b then 1 else 0)
  | .int n => some n
  | .float q => some q
  | _ => none

mutual

/-- `value == other`. -/
def pyEq : Json → Json → Bool
  | .null, y => y = .null
  | .bool b, y => y.number? = some (if b then 1 else 0)
  | .int n, y => y.number? = some (n : ℚ)
  | .float q, y => y.number? = some q
  | .str s, y => y = .str s
  | .arr xs, .arr ys => pyEqList xs ys
  | .arr _, _ => false
  | .obj kvs, .obj d => decide (kvs.length = d.length) && pyEqItems kvs d
  | .obj _, _ => false

def pyEqList : List Json → List Json → Bool
  | [], ys => ys.isEmpty
  | _ :: _, [] => false
  | x :: xs, y :: ys => pyEq x y && pyEqList xs ys

def pyEqItems : List (String × Json) → List (String × Json) → Bool
  | [], _ => true
  | (k, x) :: kvs, d =>
    (match Dict.get? d k with
      | some y => pyEq x y
      | none => false) && pyEqItems kvs d

end

end Json
end Py
end QualityFlow
