/-
# Making a value safe for JSON

`app/json_utils/services/json_service.py`.

A value is a tree of lists, tuples and dicts over leaves.  `make_json_safe` gives each leaf to
the first converter that can handle it and keeps the tree, so everything about it is about
leaves: it returns where every leaf is converted, and `json.dumps` writes what it returns where
every converted leaf is written.  The converter for bytes falls back on `base64` for an error
that decoding never raises, so bytes that are not UTF-8 raise.
-/

import QualityFlow.Py.Datetime
import QualityFlow.Py.Dumps
import QualityFlow.Py.Lists
import QualityFlow.Py.Loops
import QualityFlow.Py.Value

namespace QualityFlow
namespace JsonUtils

open Py

/-! ### Values -/

/-- `Decimal`: the coefficient and the exponent of a finite one. -/
inductive Decimal where
  | finite (negative : Bool) (coefficient : ℕ) (exponent : ℤ)
  | infinite (negative : Bool)
  | nan
  | signalingNan

/-- A value that is no list, tuple or dict.  An `object` is of none of the types that a
converter handles, and is given by the name of its type and its `str()`. -/
inductive Leaf where
  | none
  | bool (b : Bool)
  | int (n : ℤ)
  | float (x : Double)
  | str (s : String)
  | bytes (b : ByteArray)
  | date (d : Date)
  | datetime (t : Datetime)
  | time (t : Time) (offset : Option Offset)
  | decimal (d : Decimal)
  | uuid (n : BitVec 128)
  | object (type text : String)

/-- A value with string keys in its dicts. -/
inductive PyObject where
  | leaf (x : Leaf)
  | list (xs : List PyObject)
  | tuple (xs : List PyObject)
  | dict (kvs : List (String × PyObject))

namespace Leaf

/-- `t.isoformat()` of a time of day. -/
def isoTime (t : Time) : Option Offset → String
  | .none => String.ofList t.chars
  | .some o => String.ofList (t.chars ++ o.chars)

/-- `float(d)`. -/
def floatOf : Decimal → Except Raised Double
  | .finite negative coefficient exponent =>
    .ok (Double.ofRat ((if negative then -1 else 1) * coefficient * 10 ^ exponent))
  | .infinite negative => .ok (.infinite negative)
  | .nan => .ok .nan
  | .signalingNan => .error (.valueError "cannot convert signaling NaN to float")

/-- `str(u)`. -/
def uuidText (n : BitVec 128) : String :=
  let digits := Nat.toDigits 16 n.toNat
  let hex := List.replicate (32 - digits.length) '0' ++ digits
  String.ofList (hex.take 8 ++ '-' :: ((hex.drop 8).take 4 ++ '-' :: ((hex.drop 12).take 4 ++
    '-' :: ((hex.drop 16).take 4 ++ '-' :: hex.drop 20))))

/-- `str(obj)`, for what reaches it: a text, or what no converter handles. -/
def pyStr : Leaf → String
  | .str s => s
  | .object _ text => text
  | _ => ""

end Leaf

/-! ### The converters -/

/-- `TypeConverter`. -/
structure TypeConverter where
  canHandle : Leaf → Bool
  convert : Leaf → Except Raised Leaf

/-- `NumberTypeConverter`. -/
def numberTypeConverter : TypeConverter where
  canHandle
    | .bool _ | .int _ | .float _ => true
    | _ => false
  convert x := .ok x

/-- `DateTypeConverter`. -/
def dateTypeConverter : TypeConverter where
  canHandle
    | .date _ | .datetime _ => true
    | _ => false
  convert
    | .date d => .ok (.str d.isoformat)
    | .datetime t => .ok (.str t.isoformat)
    | x => .ok x

/-- `TimeTypeConverter`. -/
def timeTypeConverter : TypeConverter where
  canHandle
    | .time _ _ => true
    | _ => false
  convert
    | .time t offset => .ok (.str (Leaf.isoTime t offset))
    | x => .ok x

/-- `DecimalTypeConverter`. -/
def decimalTypeConverter : TypeConverter where
  canHandle
    | .decimal _ => true
    | _ => false
  convert
    | .decimal d => .float <$> Leaf.floatOf d
    | x => .ok x

/-- `UUIDTypeConverter`. -/
def uuidTypeConverter : TypeConverter where
  canHandle
    | .uuid _ => true
    | _ => false
  convert
    | .uuid n => .ok (.str (Leaf.uuidText n))
    | x => .ok x

/-- `ByteTypeConverter`: the error of `decode` is no `IDNAError`. -/
def byteTypeConverter : TypeConverter where
  canHandle
    | .bytes _ => true
    | _ => false
  convert
    | .bytes b =>
      match String.fromUTF8? b with
      | some s => .ok (.str s)
      | none => .error .unicodeDecodeError
    | x => .ok x

/-- `TYPE_CONVERTERS`. -/
def typeConverters : List TypeConverter :=
  [numberTypeConverter, dateTypeConverter, timeTypeConverter, decimalTypeConverter,
    uuidTypeConverter, byteTypeConverter]

/-- `make_json_safe` on what is no list, tuple or dict. -/
def convertLeaf : Leaf → Except Raised Leaf
  | .none => .ok .none
  | x =>
    match typeConverters.find? fun converter => converter.canHandle x with
    | some converter => converter.convert x
    | none => .ok (.str x.pyStr)

mutual

/-- `make_json_safe`. -/
def makeJsonSafe : PyObject → Except Raised PyObject
  | .leaf x => .leaf <$> convertLeaf x
  | .list xs => .list <$> safeList xs
  | .tuple xs => .list <$> safeList xs
  | .dict kvs => .dict <$> safeItems kvs

def safeList : List PyObject → Except Raised (List PyObject)
  | [] => .ok []
  | x :: xs => do return (← makeJsonSafe x) :: (← safeList xs)

def safeItems : List (String × PyObject) → Except Raised (List (String × PyObject))
  | [] => .ok []
  | (k, x) :: kvs => do return (k, ← makeJsonSafe x) :: (← safeItems kvs)

end

/-! ### Writing JSON -/

namespace Leaf

/-- A leaf as `json.dumps` writes it. -/
def dumps : Leaf → Except Raised String
  | .none => .ok "null"
  | .bool b => .ok (if b then "true" else "false")
  | .int n => intText n
  | .float (.finite q) => .ok (Double.repr (.finite q))
  | .float (.infinite negative) => .ok (if negative then "-Infinity" else "Infinity")
  | .float .nan => .ok "NaN"
  | .str s => .ok (Json.dumpStr s)
  | .bytes _ => notSerializable "bytes"
  | .date _ => notSerializable "date"
  | .datetime _ => notSerializable "datetime"
  | .time _ _ => notSerializable "time"
  | .decimal _ => notSerializable "Decimal"
  | .uuid _ => notSerializable "UUID"
  | .object type _ => notSerializable type
where
  notSerializable (type : String) : Except Raised String :=
    .error (.typeError ("Object of type " ++ type ++ " is not JSON serializable"))

end Leaf

mutual

/-- A value as it is written: a tuple as a list is. -/
def PyObject.form : PyObject → Form Leaf
  | .leaf x => .atom x
  | .list xs => .list (formList xs)
  | .tuple xs => .list (formList xs)
  | .dict kvs => .dict (formItems kvs)

def formList : List PyObject → List (Form Leaf)
  | [] => []
  | x :: xs => x.form :: formList xs

def formItems : List (String × PyObject) → List (String × Form Leaf)
  | [] => []
  | (k, x) :: kvs => (k, x.form) :: formItems kvs

end

/-- `json.dumps(value)`. -/
def dumps (v : PyObject) : Except Raised String := v.form.dumps false Leaf.dumps

/-! ### Values and their leaves -/

namespace PyObject

/-- Values are proved about from their leaves up. -/
theorem induct {P : PyObject → Prop} (leaf : ∀ x, P (.leaf x))
    (list : ∀ xs, (∀ x ∈ xs, P x) → P (.list xs)) (tuple : ∀ xs, (∀ x ∈ xs, P x) → P (.tuple xs))
    (dict : ∀ kvs : List (String × PyObject), (∀ kv ∈ kvs, P kv.2) → P (.dict kvs)) :
    ∀ v, P v :=
  @PyObject.rec P (fun xs => ∀ x ∈ xs, P x) (fun kvs => ∀ kv ∈ kvs, P kv.2) (fun kv => P kv.2)
    leaf list tuple dict (by simp) (fun _ _ hx hxs => List.forall_mem_cons.2 ⟨hx, hxs⟩) (by simp)
    (fun _ _ hkv hkvs => List.forall_mem_cons.2 ⟨hkv, hkvs⟩) (fun _ _ h => h)

mutual

/-- The leaves of a value, from left to right. -/
def leaves : PyObject → List Leaf
  | .leaf x => [x]
  | .list xs => leavesList xs
  | .tuple xs => leavesList xs
  | .dict kvs => leavesItems kvs

def leavesList : List PyObject → List Leaf
  | [] => []
  | x :: xs => x.leaves ++ leavesList xs

def leavesItems : List (String × PyObject) → List Leaf
  | [] => []
  | (_, x) :: kvs => x.leaves ++ leavesItems kvs

end

theorem leavesList_eq (xs : List PyObject) : leavesList xs = xs.flatMap leaves := by
  induction xs with
  | nil => rfl
  | cons x xs ih => rw [leavesList, ih, List.flatMap_cons]

theorem leavesItems_eq (kvs : List (String × PyObject)) :
    leavesItems kvs = kvs.flatMap fun kv => kv.2.leaves := by
  induction kvs with
  | nil => rfl
  | cons kv kvs ih => rw [leavesItems, ih, List.flatMap_cons]

/-- A property of the leaves of a list. -/
theorem forall_leaves_list {P : Leaf → Prop} {xs : List PyObject} :
    (∀ x ∈ leavesList xs, P x) ↔ ∀ v ∈ xs, ∀ x ∈ v.leaves, P x := by
  rw [leavesList_eq]
  exact List.forall_mem_flatMap

theorem forall_leaves_items {P : Leaf → Prop} {kvs : List (String × PyObject)} :
    (∀ x ∈ leavesItems kvs, P x) ↔ ∀ kv ∈ kvs, ∀ x ∈ kv.2.leaves, P x := by
  rw [leavesItems_eq]
  exact List.forall_mem_flatMap

end PyObject

/-! ### What is converted -/

theorem safeList_eq (xs : List PyObject) : safeList xs = xs.mapM makeJsonSafe := by
  induction xs with
  | nil => rfl
  | cons x xs ih => rw [safeList, ih, List.mapM_cons]

theorem safeItems_eq (kvs : List (String × PyObject)) :
    safeItems kvs = kvs.mapM fun kv => (fun y => (kv.1, y)) <$> makeJsonSafe kv.2 := by
  induction kvs with
  | nil => rfl
  | cons kv kvs ih =>
    rw [safeItems, ih, List.mapM_cons]
    cases makeJsonSafe kv.2 <;> rfl

/-- A value is converted where each of its leaves is. -/
theorem exists_makeJsonSafe (v : PyObject) :
    (∃ r, makeJsonSafe v = .ok r) ↔ ∀ x ∈ v.leaves, ∃ y, convertLeaf x = .ok y := by
  induction v using PyObject.induct with
  | leaf x => rw [makeJsonSafe, exists_map_eq_ok, PyObject.leaves, List.forall_mem_singleton]
  | list xs ih | tuple xs ih =>
    rw [makeJsonSafe, exists_map_eq_ok, safeList_eq, exists_mapM_eq_ok, PyObject.leaves,
      PyObject.forall_leaves_list]
    exact forall₂_congr ih
  | dict kvs ih =>
    rw [makeJsonSafe, exists_map_eq_ok, safeItems_eq, exists_mapM_eq_ok, PyObject.leaves,
      PyObject.forall_leaves_items]
    refine forall₂_congr fun kv hkv => ?_
    rw [exists_map_eq_ok]
    exact ih kv hkv

mutual

/-- The leaves of a value are what it is written from. -/
theorem atoms_form : ∀ v : PyObject, v.form.atoms = v.leaves
  | .leaf _ => rfl
  | .list xs => atoms_formList xs
  | .tuple xs => atoms_formList xs
  | .dict kvs => atoms_formItems kvs

theorem atoms_formList : ∀ xs : List PyObject,
    Form.atomsList (formList xs) = PyObject.leavesList xs
  | [] => rfl
  | x :: xs => congrArg₂ (· ++ ·) (atoms_form x) (atoms_formList xs)

theorem atoms_formItems : ∀ kvs : List (String × PyObject),
    Form.atomsItems (formItems kvs) = PyObject.leavesItems kvs
  | [] => rfl
  | (_, x) :: kvs => congrArg₂ (· ++ ·) (atoms_form x) (atoms_formItems kvs)

end

/-- A value is written where each of its leaves is. -/
theorem exists_dumps (v : PyObject) :
    (∃ text, dumps v = .ok text) ↔ ∀ x ∈ v.leaves, ∃ text, x.dumps = .ok text := by
  rw [dumps, Form.exists_dumps, atoms_form]

/-- The leaves of what is returned are the converted leaves. -/
theorem leaves_makeJsonSafe {v r : PyObject} (h : makeJsonSafe v = .ok r) :
    List.Forall₂ (fun x y => convertLeaf x = .ok y) v.leaves r.leaves := by
  induction v using PyObject.induct generalizing r with
  | leaf x =>
    obtain ⟨y, hy, rfl⟩ := map_eq_ok.1 h
    exact .cons hy .nil
  | list xs ih | tuple xs ih =>
    obtain ⟨ys, hys, rfl⟩ := map_eq_ok.1 h
    rw [safeList_eq] at hys
    rw [PyObject.leaves, PyObject.leaves, PyObject.leavesList_eq, PyObject.leavesList_eq]
    have hitems := forall₂_mem_left (forall₂_of_mapM hys)
    exact List.rel_flatMap hitems fun x y hxy => ih x hxy.1 hxy.2
  | dict kvs ih =>
    obtain ⟨items, hitems, rfl⟩ := map_eq_ok.1 h
    rw [safeItems_eq] at hitems
    rw [PyObject.leaves, PyObject.leaves, PyObject.leavesItems_eq, PyObject.leavesItems_eq]
    refine List.rel_flatMap (forall₂_mem_left (forall₂_of_mapM hitems)) ?_
    rintro kv item ⟨hkv, hitem⟩
    obtain ⟨y, hy, rfl⟩ := map_eq_ok.1 hitem
    exact ih kv hkv hy

/-! ### Values that are JSON -/

/-- `None`, a truth value, a number or a text. -/
def Leaf.IsJson : Leaf → Prop
  | .none | .bool _ | .int _ | .float _ | .str _ => True
  | _ => False

/-- A value that `json.loads` could have returned. -/
inductive IsJson : PyObject → Prop
  | leaf {x : Leaf} (h : x.IsJson) : IsJson (.leaf x)
  | list {xs : List PyObject} (h : ∀ x ∈ xs, IsJson x) : IsJson (.list xs)
  | dict {kvs : List (String × PyObject)} (h : ∀ kv ∈ kvs, IsJson kv.2) : IsJson (.dict kvs)

theorem convertLeaf_decimal (d : Decimal) :
    convertLeaf (.decimal d) = .float <$> Leaf.floatOf d := rfl

theorem convertLeaf_bytes_of_valid {b : ByteArray} (h : b.IsValidUTF8) :
    convertLeaf (.bytes b) = .ok (.str (String.fromUTF8 b h)) := by
  show (match String.fromUTF8? b with
    | some s => (.ok (.str s) : Except Raised Leaf)
    | none => .error .unicodeDecodeError) = _
  rw [String.fromUTF8?, dif_pos h]

theorem convertLeaf_bytes_of_not_valid {b : ByteArray} (h : ¬b.IsValidUTF8) :
    convertLeaf (.bytes b) = .error .unicodeDecodeError := by
  show (match String.fromUTF8? b with
    | some s => (.ok (.str s) : Except Raised Leaf)
    | none => .error .unicodeDecodeError) = _
  rw [String.fromUTF8?, dif_neg h]

theorem convertLeaf_of_isJson {x : Leaf} (h : x.IsJson) : convertLeaf x = .ok x := by
  cases x <;> first | rfl | exact h.elim

/-- A leaf that is converted is JSON after, and is the same number if it was an integer. -/
theorem convertLeaf_eq_ok {x y : Leaf} (h : convertLeaf x = .ok y) :
    y.IsJson ∧ ∀ n, y = .int n → x = .int n := by
  cases x with
  | decimal d =>
    rw [convertLeaf_decimal] at h
    obtain ⟨q, -, rfl⟩ := map_eq_ok.1 h
    exact ⟨trivial, by simp⟩
  | bytes b =>
    by_cases hb : b.IsValidUTF8
    · rw [convertLeaf_bytes_of_valid hb] at h
      obtain rfl := Except.ok.inj h
      exact ⟨trivial, by simp⟩
    · rw [convertLeaf_bytes_of_not_valid hb] at h
      cases h
  | none | bool | float | str | date | datetime | time | uuid | object =>
    obtain rfl := Except.ok.inj h
    exact ⟨trivial, by simp⟩
  | int n =>
    obtain rfl := Except.ok.inj h
    exact ⟨trivial, fun _ h => h⟩

/-- **A value that is JSON is returned as it is.** -/
theorem makeJsonSafe_of_isJson {v : PyObject} (h : IsJson v) : makeJsonSafe v = .ok v := by
  induction h with
  | leaf h => rw [makeJsonSafe, convertLeaf_of_isJson h, map_ok]
  | @list xs _ ih =>
    have hxs : (xs.map id).mapM makeJsonSafe = .ok xs := mapM_map_ok ih
    rw [List.map_id] at hxs
    rw [makeJsonSafe, safeList_eq, hxs, map_ok]
  | @dict kvs _ ih =>
    have hkvs : (kvs.map id).mapM (fun kv => (fun y => (kv.1, y)) <$> makeJsonSafe kv.2) =
        .ok kvs := mapM_map_ok fun kv hkv => by rw [id, ih kv hkv, map_ok]
    rw [List.map_id] at hkvs
    rw [makeJsonSafe, safeItems_eq, hkvs, map_ok]

/-- What is returned is JSON. -/
theorem isJson_of_makeJsonSafe {v r : PyObject} (h : makeJsonSafe v = .ok r) : IsJson r := by
  induction v using PyObject.induct generalizing r with
  | leaf x =>
    obtain ⟨y, hy, rfl⟩ := map_eq_ok.1 h
    exact .leaf (convertLeaf_eq_ok hy).1
  | list xs ih | tuple xs ih =>
    obtain ⟨ys, hys, rfl⟩ := map_eq_ok.1 h
    rw [safeList_eq] at hys
    refine .list fun y hy => ?_
    obtain ⟨x, hx, hxy⟩ := exists_left_of_forall₂ (forall₂_of_mapM hys) hy
    exact ih x hx hxy
  | dict kvs ih =>
    obtain ⟨items, hitems, rfl⟩ := map_eq_ok.1 h
    rw [safeItems_eq] at hitems
    refine .dict fun item hitem => ?_
    obtain ⟨kv, hkv, hread⟩ := exists_left_of_forall₂ (forall₂_of_mapM hitems) hitem
    obtain ⟨y, hy, rfl⟩ := map_eq_ok.1 hread
    exact ih kv hkv hy

/-! ### What raises -/

namespace Leaf

/-- A leaf that its converter does not raise for. -/
def Converts : Leaf → Prop
  | .bytes b => b.IsValidUTF8
  | .decimal .signalingNan => False
  | _ => True

/-- A leaf that `json.dumps` does not raise for, once it is converted. -/
def Prints : Leaf → Prop
  | .int n => n.natAbs < 10 ^ maxStrDigits
  | _ => True

end Leaf

theorem exists_convertLeaf (x : Leaf) : (∃ y, convertLeaf x = .ok y) ↔ x.Converts := by
  cases x with
  | decimal d =>
    rw [convertLeaf_decimal, exists_map_eq_ok]
    cases d with
    | signalingNan => simp [Leaf.floatOf, Leaf.Converts]
    | finite | infinite | nan => simp [Leaf.floatOf, Leaf.Converts]
  | bytes b =>
    by_cases hb : b.IsValidUTF8
    · simp [convertLeaf_bytes_of_valid hb, Leaf.Converts, hb]
    · simp [convertLeaf_bytes_of_not_valid hb, Leaf.Converts, hb]
  | none | bool | int | float | str | date | datetime | time | uuid | object =>
    exact iff_of_true ⟨_, rfl⟩ trivial

/-- JSON is written, unless it is an integer that is too long. -/
theorem exists_dumps_of_isJson {y : Leaf} (h : y.IsJson) :
    (∃ text, y.dumps = .ok text) ↔ y.Prints := by
  cases y with
  | int n =>
    by_cases hn : n.natAbs < 10 ^ maxStrDigits
    · rw [Leaf.dumps, intText, if_pos hn]
      exact iff_of_true ⟨_, rfl⟩ hn
    · rw [Leaf.dumps, intText, if_neg hn]
      exact iff_of_false (by simp) hn
  | float x => cases x <;> exact iff_of_true ⟨_, rfl⟩ trivial
  | none | bool | str => exact iff_of_true ⟨_, rfl⟩ trivial
  | bytes | date | datetime | time | decimal | uuid | object => exact h.elim

/-- A leaf is written just where it is JSON and not too long. -/
theorem exists_dumps_leaf (x : Leaf) : (∃ text, x.dumps = .ok text) ↔ x.IsJson ∧ x.Prints := by
  by_cases hjson : x.IsJson
  · rw [exists_dumps_of_isJson hjson, and_iff_right hjson]
  · refine iff_of_false ?_ fun h => hjson h.1
    cases x with
    | none | bool | int | float | str => exact absurd trivial hjson
    | bytes | date | datetime | time | decimal | uuid | object =>
      simp [Leaf.dumps, Leaf.dumps.notSerializable]

theorem exists_dumps_convertLeaf {x y : Leaf} (h : convertLeaf x = .ok y) :
    (∃ text, y.dumps = .ok text) ↔ x.Prints := by
  obtain ⟨hjson, hint⟩ := convertLeaf_eq_ok h
  rw [exists_dumps_of_isJson hjson]
  cases x with
  | int n =>
    obtain rfl := Except.ok.inj h
    exact Iff.rfl
  | none | bool | float | str | bytes | date | datetime | time | decimal | uuid | object =>
    refine iff_of_true ?_ trivial
    cases y with
    | int n => cases hint n rfl
    | none | bool | float | str | bytes | date | datetime | time | decimal | uuid | object =>
      trivial

/-- What is claimed of `make_json_safe`: it returns, what it returns is written and returned
again as it is, and JSON is returned as it is. -/
def MadeSafe (v : PyObject) : Prop :=
  ∃ r, makeJsonSafe v = .ok r ∧ (∃ text, dumps r = .ok text) ∧ makeJsonSafe r = .ok r ∧
    (IsJson v → r = v)

/-- **A value is made safe where its leaves are.**  Bytes have to be UTF-8, a decimal no
signaling NaN, and an integer short enough to be written. -/
theorem madeSafe_iff (v : PyObject) : MadeSafe v ↔ ∀ x ∈ v.leaves, x.Converts ∧ x.Prints := by
  have hprints {r : PyObject} (h : makeJsonSafe v = .ok r) :
      (∃ text, dumps r = .ok text) ↔ ∀ x ∈ v.leaves, x.Prints := by
    rw [exists_dumps]
    exact (forall_mem_congr (leaves_makeJsonSafe h) fun x y hxy =>
      (exists_dumps_convertLeaf hxy).symm).symm
  have hconverts : (∃ r, makeJsonSafe v = .ok r) ↔ ∀ x ∈ v.leaves, x.Converts := by
    rw [exists_makeJsonSafe]
    exact forall₂_congr fun x _ => exists_convertLeaf x
  constructor
  · rintro ⟨r, hr, hdumps, -, -⟩ x hx
    exact ⟨hconverts.1 ⟨r, hr⟩ x hx, (hprints hr).1 hdumps x hx⟩
  · intro h
    obtain ⟨r, hr⟩ := hconverts.2 fun x hx => (h x hx).1
    have hdumps := (hprints hr).2 fun x hx => (h x hx).2
    have hagain := makeJsonSafe_of_isJson (isJson_of_makeJsonSafe hr)
    refine ⟨r, hr, hdumps, hagain, fun hjson => ?_⟩
    exact Except.ok.inj (hr.symm.trans (makeJsonSafe_of_isJson hjson))

/-- No text is encoded with the byte `0xff`. -/
theorem not_isValidUTF8_ff : ¬(ByteArray.mk #[0xff]).IsValidUTF8 := by
  intro h
  have hfirst : (0xff : UInt8).IsUTF8FirstByte := h.isUTF8FirstByte_getElem_zero (by decide)
  exact absurd hfirst (by decide)

/-- A row with one byte in it that is not UTF-8 is lost. -/
theorem binaryRow_not_madeSafe :
    ¬MadeSafe (.dict [("id", .leaf (.int 1)), ("blob", .leaf (.bytes ⟨#[0xff]⟩))]) := by
  rintro ⟨r, h, -⟩
  have herror : makeJsonSafe (.dict [("id", .leaf (.int 1)), ("blob", .leaf (.bytes ⟨#[0xff]⟩))]) =
      .error .unicodeDecodeError := by
    simp only [makeJsonSafe, safeItems, convertLeaf_bytes_of_not_valid not_isValidUTF8_ff]
    rfl
  rw [herror] at h
  cases h

end JsonUtils
end QualityFlow
