/-
# Parameter types

The types a dataset parameter can have, and `DatasetParameterResolver.coerce_value`, which
makes a value of a type or raises.  A default is stored as `_serialize_parameter_default_value`
writes it, dates as texts; what is stored is coerced to what it was.
-/

import QualityFlow.Py.Datetime
import QualityFlow.Py.Except
import QualityFlow.Py.Value

namespace QualityFlow
namespace Dataset

open Py

/-- `DATASET_PARAMETER_TYPE_NAMES`. -/
inductive ParameterType where
  | string
  | integer
  | number
  | boolean
  | date
  | datetime
deriving DecidableEq

namespace ParameterType

def name : ParameterType → String
  | .string => "string"
  | .integer => "integer"
  | .number => "number"
  | .boolean => "boolean"
  | .date => "date"
  | .datetime => "datetime"

/-- A type by its name. -/
def ofName? (s : String) : Option ParameterType :=
  [.string, .integer, .number, .boolean, .date, .datetime].find? fun t => t.name = s

@[simp] theorem ofName?_name (t : ParameterType) : ofName? t.name = some t := by
  cases t <;> rfl

end ParameterType

/-- What is compared with a column: a JSON value, a date or a point in time. -/
inductive Operand where
  | json (v : Value)
  | date (d : Date)
  | datetime (t : Datetime)

namespace Operand

/-- `str(value)`. -/
def pyStr : Operand → String
  | .json v => v.pyStr
  | .date d => d.isoformat
  | .datetime t => t.pyStr

/-- `_serialize_parameter_default_value`. -/
def serialize : Operand → Value
  | .json v => v
  | .date d => .str d.isoformat
  | .datetime t => .str t.isoformat

/-- `None`, `True` and `False`. -/
def IsNullOrBool : Operand → Prop
  | .json .null => True
  | .json (.bool _) => True
  | _ => False

end Operand

/-! ### Coercion -/

/-- The digits `int` converts at most. -/
def maxDigits : ℕ := 4300

/-- `int(raw)` of a text. -/
def pyInt (raw : String) : Except String ℤ :=
  let unsigned := if raw.toList.head? = some '-' then raw.toList.drop 1 else raw.toList
  let digits := (unsigned.takeWhile fun c => (decimalValue c).isSome).length
  if maxDigits < digits then
    .error ("Exceeds the limit (4300 digits) for integer string conversion: value has " ++
      toString digits ++ " digits; use sys.set_int_max_str_digits() to increase the limit")
  else
    match intOfText raw with
    | some n => .ok n
    | none => .error ("invalid literal for int() with base 10: " ++
        String.ofList ((Json.reprStr raw).toList.take 200))

/-- `_coerce_integer`. -/
def coerceInteger : Operand → Except String ℤ
  | .json (.int n) => .ok n
  | .json (.float x) =>
    match x.integer? with
    | some n => .ok n
    | none => .error "Expected integer value."
  | .json (.str s) =>
    if isDigit (lstripChar '-' (strip s)) then pyInt (strip s)
    else .error "Expected integer value."
  | _ => .error "Expected integer value."

/-- `_coerce_number`. -/
def coerceNumber : Operand → Except String Value
  | .json (.int n) => .ok (.int n)
  | .json (.float x) => .ok (.float x)
  | .json (.str s) =>
    match Double.ofText (strip s) with
    | none => .error "Expected number value."
    | some x =>
      match x.integer? with
      | some n => .ok (.int n)
      | none => .ok (.float x)
  | _ => .error "Expected number value."

/-- The texts of the truth values. -/
def booleanTexts : Dict String Bool :=
  [("true", true), ("false", false), ("1", true), ("0", false), ("yes", true), ("no", false)]

/-- `_coerce_boolean`. -/
def coerceBoolean : Operand → Except String Bool
  | .json (.bool b) => .ok b
  | .json (.str s) =>
    match booleanTexts.get? (lower (strip s)) with
    | some b => .ok b
    | none => .error "Expected boolean value."
  | .json (.int n) =>
    if n = 0 ∨ n = 1 then .ok (decide (n ≠ 0)) else .error "Expected boolean value."
  | _ => .error "Expected boolean value."

/-- `_coerce_datetime` of a text. -/
def datetimeOfText (s : String) : Except String Datetime :=
  let raw := strip s
  let raw := if raw.toList.getLast? = some 'Z' then
    String.ofList (raw.toList.dropLast ++ "+00:00".toList) else raw
  match Datetime.fromIsoformat raw with
  | some t => .ok t
  | none => .error "Expected datetime value."

/-- `_coerce_date`. -/
def coerceDate : Operand → Except String Date
  | .datetime t => .ok t.date
  | .date d => .ok d
  | .json (.str s) =>
    match Date.fromIsoformat (strip s) with
    | some d => .ok d
    | none => Datetime.date <$> datetimeOfText (strip s)
  | .json _ => .error "Expected date value."

/-- `_coerce_datetime`. -/
def coerceDatetime : Operand → Except String Datetime
  | .datetime t => .ok t
  | .date d => .ok ⟨d, .min, none⟩
  | .json (.str s) => datetimeOfText s
  | .json _ => .error "Expected datetime value."

/-- `coerce_value`. -/
def coerceValue (type : ParameterType) (value : Operand) : Except String Operand :=
  match value with
  | .json .null => .ok (.json .null)
  | value =>
    match type with
    | .string => .ok (.json (.str value.pyStr))
    | .integer => (fun n => .json (.int n)) <$> coerceInteger value
    | .number => .json <$> coerceNumber value
    | .boolean => (fun b => .json (.bool b)) <$> coerceBoolean value
    | .date => .date <$> coerceDate value
    | .datetime => .datetime <$> coerceDatetime value

@[simp] theorem coerceValue_null (type : ParameterType) :
    coerceValue type (.json .null) = .ok (.json .null) := by
  cases type <;> rfl

/-- What a type makes of a value, by the type. -/
theorem coerceValue_of_ne_null (type : ParameterType) {value : Operand}
    (h : value ≠ .json .null) :
    coerceValue type value =
      match type with
      | .string => .ok (.json (.str value.pyStr))
      | .integer => (fun n => .json (.int n)) <$> coerceInteger value
      | .number => .json <$> coerceNumber value
      | .boolean => (fun b => .json (.bool b)) <$> coerceBoolean value
      | .date => .date <$> coerceDate value
      | .datetime => .datetime <$> coerceDatetime value := by
  unfold coerceValue
  split
  · exact absurd rfl h
  · rfl

/-- The values of a type. -/
inductive HasType : ParameterType → Operand → Prop where
  | string (s : String) : HasType .string (.json (.str s))
  | integer (n : ℤ) : HasType .integer (.json (.int n))
  | whole (n : ℤ) : HasType .number (.json (.int n))
  | float (x : Double) : HasType .number (.json (.float x))
  | boolean (b : Bool) : HasType .boolean (.json (.bool b))
  | date (d : Date) : HasType .date (.date d)
  | datetime (t : Datetime) : HasType .datetime (.datetime t)

theorem hasType_of_coerceNumber {value : Operand} {v : Value} (h : coerceNumber value = .ok v) :
    HasType .number (.json v) := by
  unfold coerceNumber at h
  split at h
  · obtain rfl := Except.ok.inj h
    exact .whole _
  · obtain rfl := Except.ok.inj h
    exact .float _
  · split at h
    · cases h
    · split at h
      · obtain rfl := Except.ok.inj h
        exact .whole _
      · obtain rfl := Except.ok.inj h
        exact .float _
  · cases h

/-- **A value is coerced to a value of the type.** -/
theorem hasType_of_coerceValue {type : ParameterType} {value w : Operand}
    (h : coerceValue type value = .ok w) (hvalue : value ≠ .json .null) : HasType type w := by
  rw [coerceValue_of_ne_null type hvalue] at h
  cases type with
  | string =>
    obtain rfl := Except.ok.inj h
    exact .string _
  | integer =>
    obtain ⟨n, -, rfl⟩ := map_eq_ok.1 h
    exact .integer n
  | number =>
    obtain ⟨v, hv, rfl⟩ := map_eq_ok.1 h
    exact hasType_of_coerceNumber hv
  | boolean =>
    obtain ⟨b, -, rfl⟩ := map_eq_ok.1 h
    exact .boolean b
  | date =>
    obtain ⟨d, -, rfl⟩ := map_eq_ok.1 h
    exact .date d
  | datetime =>
    obtain ⟨t, -, rfl⟩ := map_eq_ok.1 h
    exact .datetime t

/-! ### Reading back -/

/-- A date is written without blanks. -/
theorem strip_isoformat_date (d : Date) : strip d.isoformat = d.isoformat := by
  refine strip_of_forall fun c hc => ?_
  rw [Date.isoformat, String.toList_ofList] at hc
  rcases Date.mem_chars hc with hdigit | rfl
  · exact isSpace_of_isDigit hdigit
  · decide

/-- A point in time is written without blanks. -/
theorem strip_isoformat_datetime (t : Datetime) : strip t.isoformat = t.isoformat := by
  refine strip_of_forall fun c hc => ?_
  rw [Datetime.isoformat, String.toList_ofList] at hc
  rcases Datetime.mem_chars hc with hdigit | hmark
  · exact isSpace_of_isDigit hdigit
  · have hmarks : (['T', '+', '-', ':', '.'].all fun c => !isSpace c) = true := by decide
    simpa using List.all_eq_true.1 hmarks c hmark

theorem datetimeOfText_isoformat (t : Datetime) : datetimeOfText t.isoformat = .ok t := by
  have hend : t.isoformat.toList.getLast? ≠ some 'Z' := by
    intro hz
    rw [Datetime.isoformat, String.toList_ofList] at hz
    rcases Datetime.mem_chars (List.mem_of_getLast? hz) with hdigit | hmark
    · exact absurd hdigit (by decide)
    · exact absurd hmark (by decide)
  unfold datetimeOfText
  dsimp only
  rw [strip_isoformat_datetime, if_neg hend, Datetime.fromIsoformat_isoformat]

/-- **A value of a type is made again of the form that is stored.** -/
theorem HasType.coerceValue_serialize {type : ParameterType} {w : Operand} (h : HasType type w) :
    coerceValue type (.json w.serialize) = .ok w := by
  cases h with
  | string | integer | whole | float | boolean => rfl
  | date d =>
    have hread : coerceDate (.json (.str d.isoformat)) = .ok d := by
      rw [coerceDate, strip_isoformat_date, Date.fromIsoformat_isoformat]
    show Operand.date <$> coerceDate (.json (.str d.isoformat)) = _
    rw [hread, map_ok]
  | datetime t =>
    show Operand.datetime <$> datetimeOfText t.isoformat = _
    rw [datetimeOfText_isoformat, map_ok]

theorem HasType.serialize_ne_null {type : ParameterType} {w : Operand} (h : HasType type w) :
    w.serialize ≠ .null := by
  intro hnull
  cases h <;> cases hnull

end Dataset
end QualityFlow
