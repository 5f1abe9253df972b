/-
# A normalized perimeter is normalized to itself

Each part of a normal form is read back from the object it is kept as: a default from the text
it is stored as, a legacy filter from the group it has become, a reference by its name among
the parameters.  So `normalize` changes a perimeter once.
-/

import QualityFlow.Dataset.Perimeter

namespace QualityFlow
namespace Dataset

open Py

@[simp] theorem requireToken_token (t : Token) (message : String) :
    requireToken (.str t.val) message = .ok t := by
  rw [requireToken, Value.token_str, t.strip_val, Token.ofString?_val]

theorem tokenOr_str {s : String} (h : s ≠ "") (default : String) :
    tokenOr (.str s) default = strip s := by
  rw [tokenOr, if_pos (by simpa [Value.truthy] using h)]
  rfl

@[simp] theorem listOrEmpty_arr (path : String) (xs : List Value) :
    listOrEmpty path (.arr xs) = .ok xs := by
  cases xs <;> rfl

/-! ### Parameters -/

theorem normalizeDefaultValue_serialize (path : String) {type : ParameterType} {w : Operand}
    (hw : HasType type w) : normalizeDefaultValue path type w.serialize = .ok (.value w hw) := by
  have hnull : ¬isNull w.serialize = true := by
    rw [isNull_iff]
    exact hw.serialize_ne_null
  unfold normalizeDefaultValue
  rw [dif_neg hnull]
  split
  · rename_i v hv
    have hread := hw.coerceValue_serialize
    rw [hv] at hread
    obtain rfl := Except.ok.inj hread
    rfl
  · rename_i text htext
    rw [hw.coerceValue_serialize] at htext
    cases htext

theorem normalizeDefaultBinding_dump (path : String) (r : Resolver) :
    normalizeDefaultBinding path (.obj [("kind", .str "built_in"), ("resolver", .str r.name)])
      = .ok r := by
  cases r <;> rfl

/-- **A parameter definition is read back.** -/
theorem normalizeParameterDefinition_dump (path : String) (d : ParameterDefinition) :
    normalizeParameterDefinition path d.dump = .ok d := by
  obtain ⟨name, type, description, default⟩ := d
  have htype : ParameterType.ofName? (lower (strip type.name)) = some type := by
    cases type <;> rfl
  cases default with
  | absent =>
    simp [ParameterDefinition.dump, ParameterDefault.dump, normalizeParameterDefinition,
      Value.field, htype, isNull]
  | null =>
    simp [ParameterDefinition.dump, ParameterDefault.dump, normalizeParameterDefinition,
      Value.field, htype, isNull, normalizeDefaultValue]
  | value w hw =>
    simp [ParameterDefinition.dump, ParameterDefault.dump, normalizeParameterDefinition,
      Value.field, htype, isNull, normalizeDefaultValue_serialize path hw]
  | builtIn r =>
    simp [ParameterDefinition.dump, ParameterDefault.dump, normalizeParameterDefinition,
      Value.field, htype, isNull, normalizeDefaultBinding_dump]

theorem normalizeParameters_dump (definitions : Definitions) :
    normalizeParameters ((dumpParameters definitions).getD .null) = .ok definitions := by
  obtain ⟨ds, hdistinct⟩ := definitions
  by_cases hnil : ds = []
  · subst hnil
    rfl
  · rw [dumpParameters, if_neg hnil, Option.getD_some, normalizeParameters]
    exact distinctM_map 0 (fun i d _ => normalizeParameterDefinition_dump _ d) hdistinct

/-! ### Columns and sort -/

theorem normalizeColumns_dump (columns : Option (DistinctBy (id : Token → Token))) :
    normalizeColumns ((dumpColumns columns).getD .null) = .ok columns := by
  cases columns with
  | none => rfl
  | some cs =>
    obtain ⟨cs, hdistinct⟩ := cs
    have hcolumn : ∀ c, normalizeColumn (.str c.val) = .ok c := fun c => requireToken_token c _
    rw [dumpColumns, Option.map_some, Option.getD_some, normalizeColumns,
      distinctM_map 0 (fun i c _ => hcolumn c) hdistinct]
    rfl

theorem normalizeSortItem_dump (i : ℕ) (s : SortItem) : normalizeSortItem i s.dump = .ok s := by
  obtain ⟨field, descending⟩ := s
  have hasc : lower (strip "asc") = "asc" := rfl
  have hdesc : lower (strip "desc") = "desc" := rfl
  cases descending with
  | false => simp [SortItem.dump, normalizeSortItem, Value.field, tokenOr_str, hasc]
  | true => simp [SortItem.dump, normalizeSortItem, Value.field, tokenOr_str, hdesc]

theorem normalizeSort_dump (sort : Option (List SortItem)) :
    normalizeSort ((dumpSort sort).getD .null) = .ok sort := by
  cases sort with
  | none => rfl
  | some items =>
    rw [dumpSort, Option.map_some, Option.getD_some, normalizeSort,
      enumM_map 0 fun i s _ => normalizeSortItem_dump i s]
    rfl

/-! ### The filter -/

section

variable {definitions : Definitions}

theorem reference?_parameter (name : Token) :
    reference? (.obj [("kind", .str "parameter"), ("name", .str name.val)])
      = some [("kind", .str "parameter"), ("name", .str name.val)] := by
  have hkind : lower (strip "parameter") = "parameter" := rfl
  simp [reference?, Value.field, hkind]

/-- The value of a condition is read back. -/
theorem normalizeFilterValue_literal (path : String) {op : Operator} {v : Value}
    (hop : op.isNullCheck = false) (h : Allowed definitions op (.literal v)) :
    normalizeFilterValue definitions path op hop v = .ok ⟨.literal v, h⟩ := by
  cases h with
  | literal _ hv hmembership htext =>
    unfold normalizeFilterValue
    split
    · rename_i kvs href
      rw [hv] at href
      cases href
    · rw [dif_neg, dif_neg]
      · rintro ⟨ht, hraw⟩
        rw [htext ht] at hraw
        cases hraw
      · rintro ⟨hm, hraw⟩
        rw [hmembership hm] at hraw
        cases hraw

theorem normalizeFilterValue_parameter (path : String) {op : Operator} {name : Token}
    (hop : op.isNullCheck = false) (h : Allowed definitions op (.parameter name)) :
    normalizeFilterValue definitions path op hop
      (.obj [("kind", .str "parameter"), ("name", .str name.val)]) = .ok ⟨.parameter name, h⟩ := by
  cases h with
  | @parameter d _ hd hmembership hcompatible =>
    unfold normalizeFilterValue
    split
    · rename_i kvs href
      rw [reference?_parameter] at href
      obtain rfl := Option.some.inj href
      have hname : Value.field [("kind", .str "parameter"), ("name", .str d.name.val)] "name"
          = .str d.name.val := rfl
      rw [hname, requireToken_token, ok_bind]
      have hfind := definitions.find?_eq_some hd
      split
      · rename_i hnone
        rw [hfind] at hnone
        cases hnone
      · rename_i d' hd'
        rw [hfind] at hd'
        obtain rfl := Option.some.inj hd'
        rw [dif_neg (by simp [hmembership]), dif_pos hcompatible]
    · rename_i href
      rw [reference?_parameter] at href
      cases href

/-- **A condition is read back, whatever else is in its object.** -/
theorem normalizeFilterCondition_entries (path : String) (c : Condition definitions)
    {kvs : List (String × Value)} (hkvs : ∀ key ∈ ["field", "operator", "value"],
      Dict.get? kvs key = Dict.get? c.entries key) :
    normalizeFilterCondition definitions path (.obj kvs) = .ok c := by
  obtain ⟨field, op, value, allowed⟩ := c
  have hfield : Value.field kvs "field" = .str field.val := by
    rw [Value.field, hkvs "field" (by simp)]
    rfl
  have hoperator : Value.field kvs "operator" = .str op.name := by
    rw [Value.field, hkvs "operator" (by simp)]
    rfl
  have hvalue : Dict.get? kvs "value" = value.dump := by
    rw [hkvs "value" (by simp)]
    simp [Condition.entries]
  have hname : lower (Value.token (.str op.name)) = op.name := by
    rw [Value.token_str, Operator.lower_strip_name]
  rw [normalizeFilterCondition, hfield, hoperator, requireToken_token, ok_bind]
  dsimp only
  rw [hname, Operator.ofName?_name, hvalue]
  cases allowed with
  | absent hop =>
    dsimp only
    rw [dif_pos hop]
  | @literal v hop hv hmembership htext =>
    dsimp only [FilterValue.dump]
    rw [dif_neg (by simp [hop]),
      normalizeFilterValue_literal _ hop (.literal hop hv hmembership htext)]
    rfl
  | @parameter d hop hd hmembership hcompatible =>
    dsimp only [FilterValue.dump]
    rw [dif_neg (by simp [hop]),
      normalizeFilterValue_parameter _ hop (.parameter hop hd hmembership hcompatible)]
    rfl

theorem normalizeLogic_name (path : String) (l : Logic) :
    normalizeLogic path (.str l.name) = .ok l := by
  have hne : l.name ≠ "" := by cases l <;> decide
  rw [normalizeLogic, tokenOr_str hne, Logic.upper_strip_name, Logic.ofName?_name]

/-- **A filter item is read back.** -/
theorem normalizeFilterItem_dump (path : String) (item : FilterItem definitions) :
    normalizeFilterItem definitions path item.dump = .ok item := by
  cases item with
  | condition c =>
    have hkind : lower (tokenOr (.str "condition") "condition") = "condition" := by
      rw [tokenOr_str (by decide)]
      rfl
    have hc : normalizeFilterCondition definitions path
        (.obj (("kind", .str "condition") :: c.entries)) = .ok c :=
      normalizeFilterCondition_entries path c (by simp)
    have hfield : Value.field (("kind", .str "condition") :: c.entries) "kind"
        = .str "condition" := rfl
    rw [FilterItem.dump, normalizeFilterItem, hfield, hkind, if_neg (by decide), if_neg (by simp), hc]
    rfl
  | group logic conditions nonempty =>
    have hkind : lower (tokenOr (.str "group") "condition") = "group" := by
      rw [tokenOr_str (by decide)]
      rfl
    have hread : enumM
        (fun i => normalizeFilterCondition definitions (indexed (path ++ ".conditions") i)) 0
        (conditions.map fun c => .obj c.entries) = .ok conditions :=
      enumM_map 0 fun i c _ => normalizeFilterCondition_entries _ c fun _ _ => rfl
    have hfields : ∀ kvs : List (String × Value), kvs = [("kind", .str "group"),
        ("logic", .str logic.name), ("conditions", .arr (conditions.map fun c => .obj c.entries))] →
        Value.field kvs "kind" = .str "group" ∧ Value.field kvs "logic" = .str logic.name ∧
        Value.field kvs "conditions" = .arr (conditions.map fun c => .obj c.entries) := by
      rintro _ rfl
      exact ⟨rfl, rfl, rfl⟩
    obtain ⟨hkindOf, hlogicOf, hconditionsOf⟩ := hfields _ rfl
    rw [FilterItem.dump, normalizeFilterItem, hkindOf, hlogicOf, hconditionsOf, hkind, if_pos rfl,
      normalizeLogic_name, ok_bind, listOrEmpty_arr, ok_bind, hread, ok_bind, dif_neg nonempty]
    rfl

/-- Items that have been written are read as items, not as legacy conditions. -/
theorem normalizeItems_dump (logic : Logic) (items : List (FilterItem definitions)) :
    normalizeItems definitions logic
      [("logic", .str logic.name), ("items", .arr (items.map FilterItem.dump))] = .ok items := by
  have hread : enumM (fun i => normalizeFilterItem definitions (indexed "filter.items" i)) 0
      (items.map FilterItem.dump) = .ok items :=
    enumM_map 0 fun i item _ => normalizeFilterItem_dump _ item
  have hitems : Value.field [("logic", .str logic.name), ("items", .arr (items.map FilterItem.dump))]
      "items" = .arr (items.map FilterItem.dump) := rfl
  have hnull : ¬isNull (.arr (items.map FilterItem.dump)) = true := by simp [isNull]
  rw [normalizeItems, hitems, if_neg hnull, listOrEmpty_arr, ok_bind, hread]

/-- **A filter is read back.** -/
theorem normalizeFilter_dump (filter : Option (Filter definitions)) :
    normalizeFilter definitions ((filter.map Filter.dump).getD .null) = .ok filter := by
  cases filter with
  | none => rfl
  | some f =>
    obtain ⟨logic, items, nonempty⟩ := f
    have hlogic : Value.field [("logic", .str logic.name),
        ("items", .arr (items.map FilterItem.dump))] "logic" = .str logic.name := rfl
    rw [Option.map_some, Option.getD_some, Filter.dump, normalizeFilter, hlogic,
      normalizeLogic_name, ok_bind, normalizeItems_dump, ok_bind, dif_neg nonempty]
    rfl

end

/-! ### The perimeter -/

/-- Each entry of a perimeter is found by its key. -/
theorem field_perimeterEntries (parameters columns filter sort : Option Value) :
    Value.field (perimeterEntries parameters columns filter sort) "parameters"
        = parameters.getD .null ∧
      Value.field (perimeterEntries parameters columns filter sort) "selected_columns"
        = columns.getD .null ∧
      Value.field (perimeterEntries parameters columns filter sort) "filter" = filter.getD .null ∧
      Value.field (perimeterEntries parameters columns filter sort) "sort" = sort.getD .null := by
  simp [Value.field, perimeterEntries, Dict.get?_append]

theorem isEmpty_perimeterEntries (parameters columns filter sort : Option Value) :
    (perimeterEntries parameters columns filter sort).isEmpty = true ↔
      parameters = none ∧ columns = none ∧ filter = none ∧ sort = none := by
  cases parameters <;> cases columns <;> cases filter <;> cases sort <;>
    simp [perimeterEntries, entry]

/-- There is something in the object of a perimeter. -/
theorem Perimeter.not_isEmpty_entries (p : Perimeter) :
    ¬(perimeterEntries (dumpParameters p.parameters) (dumpColumns p.selectedColumns)
      (p.filter.map Filter.dump) (dumpSort p.sort)).isEmpty = true := by
  rw [isEmpty_perimeterEntries]
  rintro ⟨hparameters, hcolumns, hfilter, hsort⟩
  rcases p.present with h | h | h | h
  · rw [dumpParameters, if_neg h] at hparameters
    cases hparameters
  · rw [dumpColumns, Option.map_eq_none_iff] at hcolumns
    simp [hcolumns] at h
  · rw [Option.map_eq_none_iff] at hfilter
    simp [hfilter] at h
  · rw [dumpSort, Option.map_eq_none_iff] at hsort
    simp [hsort] at h

theorem Perimeter.mk?_self (p : Perimeter) :
    Perimeter.mk? p.parameters p.selectedColumns p.filter p.sort = some p := dif_pos p.present

/-- **A normalized perimeter is read back.** -/
theorem normalize_dump (p : Perimeter) : normalize p.dump = .ok (some p) := by
  obtain ⟨hparameters, hcolumns, hfilter, hsort⟩ := field_perimeterEntries
    (dumpParameters p.parameters) (dumpColumns p.selectedColumns) (p.filter.map Filter.dump)
    (dumpSort p.sort)
  rw [Perimeter.dump, normalize, if_neg p.not_isEmpty_entries, hparameters, hcolumns, hfilter,
    hsort, normalizeParameters_dump, ok_bind, normalizeColumns_dump, ok_bind, normalizeFilter_dump,
    ok_bind, normalizeSort_dump, ok_bind, p.mk?_self, pure_eq_ok]

/-- The object that `normalize` returns, or `None`. -/
def dumpOption : Option Perimeter → Value
  | none => .null
  | some p => p.dump

theorem normalize_dumpOption (p : Option Perimeter) : normalize (dumpOption p) = .ok p := by
  cases p with
  | none => rfl
  | some p => exact normalize_dump p

/-- `DatasetPerimeterCompiler.normalize`, from a value to a value. -/
def normalizeJson (raw : Value) : Except String Value := dumpOption <$> normalize raw

/-- **Normalization is idempotent.**  Where a perimeter is normalized, its normal form is
normalized to itself. -/
theorem normalizeJson_idempotent {raw normal : Value} (h : normalizeJson raw = .ok normal) :
    normalizeJson normal = .ok normal := by
  obtain ⟨p, -, rfl⟩ := map_eq_ok.1 h
  rw [normalizeJson, normalize_dumpOption, map_ok]

/-- A parameter with a default as a caller may write it, and a filter in the legacy form. -/
def rawSince : Value :=
  .obj [("parameters", .arr [.obj [("name", .str " since "), ("type", .str "Date"),
      ("default_value", .str "20240229T10:00Z")]]),
    ("filter", .obj [("conditions", .arr [.obj [("field", .str "day"), ("operator", .str "GTE"),
      ("value", .obj [("kind", .str "parameter"), ("name", .str "since")])]])])]

/-- The normal form of `rawSince`. -/
def normalSince : Value :=
  .obj [("parameters", .arr [.obj [("name", .str "since"), ("type", .str "date"),
      ("description", .null), ("default_value", .str "2024-02-29")]]),
    ("filter", .obj [("logic", .str "AND"), ("items", .arr [.obj [("kind", .str "group"),
      ("logic", .str "AND"), ("conditions", .arr [.obj [("field", .str "day"),
        ("operator", .str "gte"),
        ("value", .obj [("kind", .str "parameter"), ("name", .str "since")])]])]])])]

theorem normalizeJson_normalSince : normalizeJson normalSince = .ok normalSince :=
  have hraw : normalizeJson rawSince = .ok normalSince := rfl
  normalizeJson_idempotent hraw

end Dataset
end QualityFlow
