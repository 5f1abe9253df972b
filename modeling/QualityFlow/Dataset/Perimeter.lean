/-
# The perimeter of a dataset

`DatasetPerimeterCompiler.normalize` reads a perimeter, parameters, columns, a filter and a
sort, and raises where one is malformed.  A normalized filter is a list of conditions and of
groups of conditions; a filter in the legacy form, a list of conditions, becomes one group.

A normalized perimeter is kept here with what the checks have found of it: names differ, a
default is of the type of its parameter, a condition on a parameter is one that the type of the
parameter allows.  `dump` is the object that `normalize` returns.
-/

import QualityFlow.Dataset.Parameters

namespace QualityFlow
namespace Dataset

open Py

/-! ### The normal form -/

/-- `SUPPORTED_OPERATORS`. -/
inductive Operator where
  | eq
  | neq
  | gt
  | gte
  | lt
  | lte
  | contains
  | startsWith
  | endsWith
  | in_
  | notIn
  | isNull
  | isNotNull
deriving DecidableEq

namespace Operator

def name : Operator → String
  | .eq => "eq"
  | .neq => "neq"
  | .gt => "gt"
  | .gte => "gte"
  | .lt => "lt"
  | .lte => "lte"
  | .contains => "contains"
  | .startsWith => "starts_with"
  | .endsWith => "ends_with"
  | .in_ => "in"
  | .notIn => "not_in"
  | .isNull => "is_null"
  | .isNotNull => "is_not_null"

/-- An operator by its name. -/
def ofName? (s : String) : Option Operator :=
  [.eq, .neq, .gt, .gte, .lt, .lte, .contains, .startsWith, .endsWith, .in_, .notIn, .isNull,
    .isNotNull].find? fun op => op.name = s

@[simp] theorem ofName?_name (op : Operator) : ofName? op.name = some op := by
  cases op <;> rfl

@[simp] theorem lower_strip_name (op : Operator) : lower (strip op.name) = op.name := by
  cases op <;> rfl

/-- An operator that takes no value. -/
def isNullCheck (op : Operator) : Bool := op ∈ [.isNull, .isNotNull]

/-- An operator that compares by an order. -/
def isOrder (op : Operator) : Bool := op ∈ [.gt, .gte, .lt, .lte]

/-- `STRING_OPERATORS`. -/
def isText (op : Operator) : Bool := op ∈ [.contains, .startsWith, .endsWith]

/-- An operator that takes a list. -/
def isMembership (op : Operator) : Bool := op ∈ [.in_, .notIn]

end Operator

/-- `is_operator_compatible`. -/
def isOperatorCompatible (type : ParameterType) (op : Operator) : Bool :=
  if op ∈ [.eq, .neq] then true
  else if op ∈ [.gt, .gte, .lt, .lte] then type ∈ [.integer, .number, .date, .datetime]
  else if op ∈ [.contains, .startsWith, .endsWith] then type = .string
  else false

/-- `AND` and `OR`. -/
inductive Logic where
  | and
  | or
deriving DecidableEq

namespace Logic

def name : Logic → String
  | .and => "AND"
  | .or => "OR"

/-- A connective by its name. -/
def ofName? (s : String) : Option Logic := [.and, .or].find? fun l => l.name = s

@[simp] theorem ofName?_name (l : Logic) : ofName? l.name = some l := by
  cases l <;> rfl

@[simp] theorem upper_strip_name (l : Logic) : upper (strip l.name) = l.name := by
  cases l <;> rfl

end Logic

/-- The parameters of a perimeter. -/
abbrev Definitions : Type := DistinctBy ParameterDefinition.name

/-- The value of a condition: none, a literal or the value of a parameter. -/
inductive FilterValue where
  | absent
  | literal (v : Value)
  | parameter (name : Token)

/-- A reference to a parameter. -/
def reference? : Value → Option (List (String × Value))
  | .obj kvs => if lower (Value.field kvs "kind").token = "parameter" then some kvs else none
  | _ => none

/-- A list with an item. -/
def isNonemptyArray : Value → Bool
  | .arr xs => !xs.isEmpty
  | _ => false

def isStr : Value → Bool
  | .str _ => true
  | _ => false

/-- The values an operator takes. -/
inductive Allowed (definitions : Definitions) (op : Operator) : FilterValue → Prop where
  | absent (h : op.isNullCheck = true) : Allowed definitions op .absent
  | literal {v : Value} (h : op.isNullCheck = false) (hv : reference? v = none)
    (hmembership : op.isMembership = true → isNonemptyArray v = true)
    (htext : op.isText = true → isStr v = true) : Allowed definitions op (.literal v)
  | parameter {d : ParameterDefinition} (h : op.isNullCheck = false) (hd : d ∈ definitions.items)
    (hmembership : op.isMembership = false) (hcompatible : isOperatorCompatible d.type op = true) :
    Allowed definitions op (.parameter d.name)

/-- A normalized condition. -/
structure Condition (definitions : Definitions) where
  field : Token
  operator : Operator
  value : FilterValue
  allowed : Allowed definitions operator value

/-- A normalized filter item. -/
inductive FilterItem (definitions : Definitions) where
  | condition (c : Condition definitions)
  | group (logic : Logic) (conditions : List (Condition definitions)) (nonempty : conditions ≠ [])

/-- A normalized filter. -/
structure Filter (definitions : Definitions) where
  logic : Logic
  items : List (FilterItem definitions)
  nonempty : items ≠ []

/-- A column the rows are sorted by. -/
structure SortItem where
  field : Token
  descending : Bool

/-- A normalized perimeter. -/
structure Perimeter where
  parameters : Definitions
  selectedColumns : Option (DistinctBy (id : Token → Token))
  filter : Option (Filter parameters)
  sort : Option (List SortItem)
  present : parameters.items ≠ [] ∨ selectedColumns.isSome ∨ filter.isSome ∨ sort.isSome

/-! ### The object of a normalized perimeter -/

/-- An entry that may be missing. -/
def entry (key : String) : Option Value → List (String × Value)
  | none => []
  | some v => [(key, v)]

@[simp] theorem get?_entry (key key' : String) (o : Option Value) :
    Dict.get? (entry key o) key' = if key = key' then o else none := by
  cases o <;> simp [entry]

def ParameterDefault.dump {type : ParameterType} : ParameterDefault type → List (String × Value)
  | .absent => []
  | .null => [("default_value", .null)]
  | .value w _ => [("default_value", w.serialize)]
  | .builtIn r => [("default_binding", .obj [("kind", .str "built_in"), ("resolver", .str r.name)])]

def ParameterDefinition.dump (d : ParameterDefinition) : Value :=
  .obj ([("name", .str d.name.val), ("type", .str d.type.name),
    ("description", .ofOption d.description)] ++ d.default.dump)

def FilterValue.dump : FilterValue → Option Value
  | .absent => none
  | .literal v => some v
  | .parameter name => some (.obj [("kind", .str "parameter"), ("name", .str name.val)])

def Condition.entries {definitions : Definitions} (c : Condition definitions) :
    List (String × Value) :=
  [("field", .str c.field.val), ("operator", .str c.operator.name)] ++ entry "value" c.value.dump

def FilterItem.dump {definitions : Definitions} : FilterItem definitions → Value
  | .condition c => .obj (("kind", .str "condition") :: c.entries)
  | .group logic conditions _ => .obj [("kind", .str "group"), ("logic", .str logic.name),
      ("conditions", .arr (conditions.map fun c => .obj c.entries))]

def Filter.dump {definitions : Definitions} (f : Filter definitions) : Value :=
  .obj [("logic", .str f.logic.name), ("items", .arr (f.items.map FilterItem.dump))]

def SortItem.dump (s : SortItem) : Value :=
  .obj [("field", .str s.field.val), ("direction", .str (if s.descending then "desc" else "asc"))]

/-- The entries of a perimeter. -/
def perimeterEntries (parameters selectedColumns filter sort : Option Value) :
    List (String × Value) :=
  entry "parameters" parameters ++ entry "selected_columns" selectedColumns ++
    entry "filter" filter ++ entry "sort" sort

def dumpParameters (definitions : Definitions) : Option Value :=
  if definitions.items = [] then none
  else some (.arr (definitions.items.map ParameterDefinition.dump))

def dumpColumns (columns : Option (DistinctBy (id : Token → Token))) : Option Value :=
  columns.map fun cs => .arr (cs.items.map fun c => .str c.val)

def dumpSort (sort : Option (List SortItem)) : Option Value :=
  sort.map fun items => .arr (items.map SortItem.dump)

def Perimeter.dump (p : Perimeter) : Value :=
  .obj (perimeterEntries (dumpParameters p.parameters) (dumpColumns p.selectedColumns)
    (p.filter.map Filter.dump) (dumpSort p.sort))

/-! ### `normalize` -/

/-- `str(value or "").strip()`, which must not be empty. -/
def requireToken (value : Value) (message : String) : Except String Token :=
  match Token.ofString? value.token with
  | some t => .ok t
  | none => .error message

/-- `str(value or default).strip()`. -/
def tokenOr (value : Value) (default : String) : String :=
  if value.truthy then strip value.pyStr else strip default

/-- The path of an item. -/
def indexed (path : String) (i : ℕ) : String := path ++ "[" ++ toString i ++ "]"

/-- `value or []`, which must be a list. -/
def listOrEmpty (path : String) (value : Value) : Except String (List Value) :=
  if value.truthy then
    match value with
    | .arr xs => .ok xs
    | _ => .error (path ++ " must be an array.")
  else .ok []

def isNull : Value → Bool
  | .null => true
  | _ => false

theorem isNull_iff {v : Value} : isNull v = true ↔ v = .null := by
  cases v <;> simp [isNull]

/-- `s.replace("..", ".")`. -/
def replaceDots : List Char → List Char
  | '.' :: '.' :: cs => '.' :: replaceDots cs
  | c :: cs => c :: replaceDots cs
  | [] => []

/-- `_normalize_parameter_default_binding`. -/
def normalizeDefaultBinding (path : String) : Value → Except String Resolver
  | .obj kvs =>
    if lower (Value.field kvs "kind").token ≠ "built_in" then
      .error (path ++ ".kind must be 'built_in'.")
    else
      match Resolver.ofName? (Value.field kvs "resolver").token with
      | some r => .ok r
      | none => .error (path ++ ".resolver must be one of: $now, $today.")
  | _ => .error (path ++ " must be an object.")

/-- The default of a parameter that has a `default_value`. -/
def normalizeDefaultValue (path : String) (type : ParameterType) (raw : Value) :
    Except String (ParameterDefault type) :=
  if hnull : isNull raw then .ok .null
  else
    match hcoerce : coerceValue type (.json raw) with
    | .ok w =>
      .ok (.value w (hasType_of_coerceValue hcoerce fun h => hnull (isNull_iff.2 (by cases h; rfl))))
    | .error text =>
      .error (String.ofList (replaceDots
        (path ++ ".default_value " ++ rstripChar '.' text ++ ".").toList))

/-- `_normalize_parameter_definition`. -/
def normalizeParameterDefinition (path : String) : Value → Except String ParameterDefinition
  | .obj kvs => do
    let name ← requireToken (Value.field kvs "name") (path ++ ".name is required.")
    let typeName := lower (Value.field kvs "type").token
    match ParameterType.ofName? typeName with
    | none => .error (path ++ ".type '" ++ typeName ++ "' is not supported.")
    | some type =>
      let binding := Value.field kvs "default_binding"
      let description := Token.ofString? (Value.field kvs "description").token
      match Dict.get? kvs "default_value" with
      | some raw =>
        if isNull binding then
          return ⟨name, type, description, ← normalizeDefaultValue path type raw⟩
        else .error (path ++ " cannot declare both default_value and default_binding.")
      | none =>
        if isNull binding then return ⟨name, type, description, .absent⟩
        else
          let r ← normalizeDefaultBinding (path ++ ".default_binding") binding
          return ⟨name, type, description, .builtIn r⟩
  | _ => .error (path ++ " must be an object.")

/-- `_normalize_filter_value`, of an operator that takes a value. -/
def normalizeFilterValue (definitions : Definitions) (path : String) (op : Operator)
    (hop : op.isNullCheck = false) (raw : Value) :
    Except String {v : FilterValue // Allowed definitions op v} :=
  match href : reference? raw with
  | some kvs => do
    let name ← requireToken (Value.field kvs "name")
      (path ++ ".name is required for parameter references.")
    match hfind : definitions.items.find? (fun d => d.name = name) with
    | none =>
      .error (path ++ " references unknown dataset parameter '" ++ name.val ++ "'.")
    | some d =>
      if hmembership : op.isMembership = true then
        .error (path ++ " does not support parameter references for operator '" ++ op.name ++ "'.")
      else if hcompatible : isOperatorCompatible d.type op = true then
        .ok ⟨.parameter d.name, .parameter hop (List.mem_of_find?_eq_some hfind)
          (Bool.eq_false_iff.2 hmembership) hcompatible⟩
      else
        .error (path ++ " parameter '" ++ name.val ++ "' with type '" ++ d.type.name ++
          "' is not compatible with operator '" ++ op.name ++ "'.")
  | none =>
    if hmembership : op.isMembership = true ∧ isNonemptyArray raw = false then
      .error (path ++ " must be a non-empty array for operator '" ++ op.name ++ "'.")
    else if htext : op.isText = true ∧ isStr raw = false then
      .error (path ++ " must be a string for operator '" ++ op.name ++ "'.")
    else
      .ok ⟨.literal raw, .literal hop href
        (fun h => by simpa using fun hraw => hmembership ⟨h, hraw⟩)
        (fun h => by simpa using fun hraw => htext ⟨h, hraw⟩)⟩

/-- `_normalize_filter_condition`. -/
def normalizeFilterCondition (definitions : Definitions) (path : String) :
    Value → Except String (Condition definitions)
  | .obj kvs => do
    let field ← requireToken (Value.field kvs "field") (path ++ ".field is required.")
    let operatorName := lower (Value.field kvs "operator").token
    match Operator.ofName? operatorName with
    | none => .error (path ++ ".operator '" ++ operatorName ++ "' is not supported.")
    | some op =>
      if hop : op.isNullCheck = true then .ok ⟨field, op, .absent, .absent hop⟩
      else
        match Dict.get? kvs "value" with
        | none => .error (path ++ ".value is required for operator '" ++ op.name ++ "'.")
        | some raw => do
          let v ← normalizeFilterValue definitions (path ++ ".value") op
            (Bool.eq_false_iff.2 hop) raw
          return ⟨field, op, v.1, v.2⟩
  | _ => .error (path ++ " must be an object.")

/-- The connective of a filter or of a group. -/
def normalizeLogic (path : String) (raw : Value) : Except String Logic :=
  match Logic.ofName? (upper (tokenOr raw "AND")) with
  | some l => .ok l
  | none => .error (path ++ ".logic must be AND or OR.")

/-- `_normalize_filter_item`. -/
def normalizeFilterItem (definitions : Definitions) (path : String) :
    Value → Except String (FilterItem definitions)
  | .obj kvs => do
    let kind := lower (tokenOr (Value.field kvs "kind") "condition")
    if kind = "group" then
      let logic ← normalizeLogic path (Value.field kvs "logic")
      let raws ← listOrEmpty (path ++ ".conditions") (Value.field kvs "conditions")
      let conditions ← enumM
        (fun i => normalizeFilterCondition definitions (indexed (path ++ ".conditions") i)) 0 raws
      if h : conditions = [] then
        .error (path ++ ".conditions must contain at least one condition.")
      else return .group logic conditions h
    else if kind ≠ "condition" then .error (path ++ ".kind must be 'condition' or 'group'.")
    else return .condition (← normalizeFilterCondition definitions path (.obj kvs))
  | _ => .error (path ++ " must be an object.")

/-- The items of a filter, by the items or by the conditions that it has. -/
def normalizeItems (definitions : Definitions) (logic : Logic) (kvs : List (String × Value)) :
    Except String (List (FilterItem definitions)) := do
  let items := Value.field kvs "items"
  if isNull items then
    let raws ← listOrEmpty "filter.conditions" (Value.field kvs "conditions")
    let conditions ← enumM
      (fun i => normalizeFilterCondition definitions (indexed "filter.conditions" i)) 0 raws
    if h : conditions = [] then return []
    else return [.group logic conditions h]
  else
    let raws ← listOrEmpty "filter.items" items
    enumM (fun i => normalizeFilterItem definitions (indexed "filter.items" i)) 0 raws

/-- The filter of a perimeter. -/
def normalizeFilter (definitions : Definitions) :
    Value → Except String (Option (Filter definitions))
  | .null => .ok none
  | .obj kvs => do
    let logic ← normalizeLogic "filter" (Value.field kvs "logic")
    let items ← normalizeItems definitions logic kvs
    if h : items = [] then return none
    else return some ⟨logic, items, h⟩
  | _ => .error "filter must be an object."

/-- The parameters of a perimeter. -/
def normalizeParameters : Value → Except String Definitions
  | .null => .ok ⟨[], List.nodup_nil⟩
  | .arr raws =>
    distinctM ParameterDefinition.name
      (fun d => "Duplicate dataset parameter '" ++ d.name.val ++ "'.")
      (fun i => normalizeParameterDefinition (indexed "parameters" i)) ⟨[], List.nodup_nil⟩ 0 raws
  | _ => .error "parameters must be an array."

/-- A column of a perimeter. -/
def normalizeColumn (raw : Value) : Except String Token :=
  requireToken raw "selected_columns items must be non-empty strings."

/-- The columns of a perimeter. -/
def normalizeColumns : Value → Except String (Option (DistinctBy (id : Token → Token)))
  | .null => .ok none
  | .arr raws =>
    some <$> distinctM id (fun c => "Duplicate selected column '" ++ c.val ++ "'.")
      (fun _ => normalizeColumn) ⟨[], List.nodup_nil⟩ 0 raws
  | _ => .error "selected_columns must be an array."

/-- An item of the sort of a perimeter. -/
def normalizeSortItem (i : ℕ) : Value → Except String SortItem
  | .obj kvs => do
    let field ← requireToken (Value.field kvs "field") (indexed "sort" i ++ ".field is required.")
    let direction := lower (tokenOr (Value.field kvs "direction") "asc")
    if direction = "asc" then return ⟨field, false⟩
    else if direction = "desc" then return ⟨field, true⟩
    else .error (indexed "sort" i ++ ".direction must be 'asc' or 'desc'.")
  | _ => .error (indexed "sort" i ++ " must be an object.")

/-- The sort of a perimeter. -/
def normalizeSort : Value → Except String (Option (List SortItem))
  | .null => .ok none
  | .arr raws => some <$> enumM normalizeSortItem 0 raws
  | _ => .error "sort must be an array."

/-- A perimeter, unless there is nothing in it. -/
def Perimeter.mk? (parameters : Definitions)
    (selectedColumns : Option (DistinctBy (id : Token → Token)))
    (filter : Option (Filter parameters)) (sort : Option (List SortItem)) : Option Perimeter :=
  if h : parameters.items ≠ [] ∨ selectedColumns.isSome ∨ filter.isSome ∨ sort.isSome then
    some ⟨parameters, selectedColumns, filter, sort, h⟩
  else none

/-- `normalize`; `none` is `None`. -/
def normalize : Value → Except String (Option Perimeter)
  | .null => .ok none
  | .obj kvs =>
    if kvs.isEmpty then .ok none
    else do
      let parameters ← normalizeParameters (Value.field kvs "parameters")
      let selectedColumns ← normalizeColumns (Value.field kvs "selected_columns")
      let filter ← normalizeFilter parameters (Value.field kvs "filter")
      let sort ← normalizeSort (Value.field kvs "sort")
      return Perimeter.mk? parameters selectedColumns filter sort
  | _ => .error "perimeter must be an object."

/-- The parameters of a perimeter that may be missing. -/
def parameterDefinitions : Option Perimeter → List ParameterDefinition
  | none => []
  | some p => p.parameters.items

theorem nodup_parameterDefinitions (p : Option Perimeter) :
    ((parameterDefinitions p).map ParameterDefinition.name).Nodup := by
  cases p with
  | none => exact List.nodup_nil
  | some p => exact p.parameters.nodup

end Dataset
end QualityFlow
