/-
# The parameters of a dataset

A normalized parameter definition has a name, a type and perhaps a default, a value of the type
or one of the built-in functions.  `DatasetParameterResolver.resolve` gives each parameter a
value: the one a caller gives under the name of the parameter, otherwise the default,
otherwise `None`.
-/

import QualityFlow.Dataset.Coercion
import QualityFlow.Py.Loops

namespace QualityFlow
namespace Dataset

open Py

/-- `SUPPORTED_DATASET_BUILT_IN_RESOLVERS`. -/
inductive Resolver where
  | now
  | today
deriving DecidableEq

namespace Resolver

def name : Resolver → String
  | .now => "$now"
  | .today => "$today"

/-- A built-in function by its name. -/
def ofName? (s : String) : Option Resolver := [.now, .today].find? fun r => r.name = s

@[simp] theorem ofName?_name (r : Resolver) : ofName? r.name = some r := by
  cases r <;> rfl

end Resolver

/-- The default of a parameter: none, `None`, a value of the type or a built-in function. -/
inductive ParameterDefault (type : ParameterType) where
  | absent
  | null
  | value (w : Operand) (hasType : HasType type w)
  | builtIn (r : Resolver)

/-- A normalized parameter definition. -/
structure ParameterDefinition where
  name : Token
  type : ParameterType
  description : Option Token
  default : ParameterDefault type

/-- What the clock says when the default of a parameter is read. -/
structure Clock where
  now : Token → Datetime
  today : Token → Date

/-- `resolve_builtin`, for a parameter. -/
def Clock.resolveBuiltin (clock : Clock) (parameter : Token) : Resolver → Operand
  | .now => .datetime (clock.now parameter)
  | .today => .date (clock.today parameter)

/-- The values a caller gives, by names. -/
structure Overrides where
  entries : Dict String Operand
  distinct : entries.keys.Nodup

/-- The `explicit_values` of a call. -/
inductive ExplicitValues where
  | none
  | object (m : Overrides)
  | other

/-- The text of a `DatasetParameterResolutionError`. -/
def resolutionError (datasetId : Option String) (parameter : Token) (reason : String) : String :=
  let dataset := strip (datasetId.getD "")
  "DATASET_PARAMETER_RESOLUTION_FAILED: dataset_id=" ++ (if dataset = "" then "-" else dataset) ++
    "; parameter=" ++ parameter.val ++
    "; reason=" ++ (if strip reason = "" then "Unknown error." else strip reason)

/-- A coercion whose error names the parameter. -/
def coerceParameter (datasetId : Option String) (d : ParameterDefinition) (value : Operand) :
    Except String Operand :=
  match coerceValue d.type value with
  | .ok w => .ok w
  | .error reason => .error (resolutionError datasetId d.name reason)

/-- `_resolve_default_value`. -/
def resolveDefaultValue (datasetId : Option String) (clock : Clock) (d : ParameterDefinition) :
    Except String Operand :=
  match d.default with
  | .value w _ => coerceParameter datasetId d (.json w.serialize)
  | .builtIn r => coerceParameter datasetId d (clock.resolveBuiltin d.name r)
  | .absent | .null => .ok (.json .null)

/-- The value of a parameter. -/
def resolveParameter (datasetId : Option String) (clock : Clock) (m : Dict String Operand)
    (d : ParameterDefinition) : Except String Operand :=
  match m.get? d.name.val with
  | some value => coerceParameter datasetId d value
  | none => resolveDefaultValue datasetId clock d

/-- The entries of a call's `explicit_values`. -/
def ExplicitValues.entries : ExplicitValues → Except String (Dict String Operand)
  | .none => .ok []
  | .object m => .ok m.entries
  | .other => .error "Dataset parameter overrides must be an object."

/-- The values that a call gives: none where it gives no object. -/
def ExplicitValues.given : ExplicitValues → Dict String Operand
  | .object m => m.entries
  | .none | .other => []

/-- A name that is given a value must be that of a parameter. -/
def checkKnown (definitions : List ParameterDefinition) (key : String) : Except String Unit :=
  if strip key ∈ definitions.map (·.name.val) then .ok ()
  else .error ("Unknown dataset parameter '" ++ key ++ "'.")

/-- `resolve`, of the parameters of a normalized perimeter. -/
def resolve (datasetId : Option String) (clock : Clock) (definitions : List ParameterDefinition)
    (explicitValues : ExplicitValues) : Except String (Dict String Operand) :=
  if definitions = [] then .ok []
  else do
    let m ← explicitValues.entries
    m.keys.forM (checkKnown definitions)
    definitions.mapM fun d => (d.name.val, ·) <$> resolveParameter datasetId clock m d

/-! ### What a call resolves -/

/-- The default of a parameter, as the definition gives it. -/
inductive IsDefault (clock : Clock) (d : ParameterDefinition) : Operand → Prop where
  | absent (h : d.default = .absent) : IsDefault clock d (.json .null)
  | null (h : d.default = .null) : IsDefault clock d (.json .null)
  | value {w : Operand} {hw : HasType d.type w} (h : d.default = .value w hw) :
    IsDefault clock d w
  | builtIn {r : Resolver} {w : Operand} (h : d.default = .builtIn r)
    (hw : coerceValue d.type (clock.resolveBuiltin d.name r) = .ok w) : IsDefault clock d w

theorem coerceParameter_eq_ok {datasetId : Option String} {d : ParameterDefinition}
    {value w : Operand} :
    coerceParameter datasetId d value = .ok w ↔ coerceValue d.type value = .ok w := by
  unfold coerceParameter
  cases coerceValue d.type value <;> simp

/-- A default that has been resolved is the one of the definition. -/
theorem resolveDefaultValue_eq_ok {datasetId : Option String} {clock : Clock}
    {d : ParameterDefinition} {w : Operand} :
    resolveDefaultValue datasetId clock d = .ok w ↔ IsDefault clock d w := by
  unfold resolveDefaultValue
  constructor
  · intro h
    split at h
    · rename_i v hv hdefault
      rw [coerceParameter_eq_ok, hv.coerceValue_serialize] at h
      obtain rfl := Except.ok.inj h
      exact .value hdefault
    · rename_i r hdefault
      exact .builtIn hdefault (coerceParameter_eq_ok.1 h)
    · rename_i hdefault
      obtain rfl := Except.ok.inj h
      exact .absent hdefault
    · rename_i hdefault
      obtain rfl := Except.ok.inj h
      exact .null hdefault
  · intro h
    cases h with
    | absent hdefault => rw [hdefault]
    | null hdefault => rw [hdefault]
    | value hdefault =>
      rw [hdefault]
      exact coerceParameter_eq_ok.2 (HasType.coerceValue_serialize ‹_›)
    | builtIn hdefault hw =>
      rw [hdefault]
      exact coerceParameter_eq_ok.2 hw

/-- What a parameter gets: the value under its name, or the default. -/
inductive Gets (clock : Clock) (m : Dict String Operand) (d : ParameterDefinition) :
    Operand → Prop where
  | entry {value w : Operand} (h : m.get? d.name.val = some value)
    (hw : coerceValue d.type value = .ok w) : Gets clock m d w
  | default {w : Operand} (h : m.get? d.name.val = none) (hw : IsDefault clock d w) :
    Gets clock m d w

theorem resolveParameter_eq_ok {datasetId : Option String} {clock : Clock}
    {m : Dict String Operand} {d : ParameterDefinition} {w : Operand} :
    resolveParameter datasetId clock m d = .ok w ↔ Gets clock m d w := by
  unfold resolveParameter
  constructor
  · intro h
    split at h
    · exact .entry ‹_› (coerceParameter_eq_ok.1 h)
    · exact .default ‹_› (resolveDefaultValue_eq_ok.1 h)
  · intro h
    cases h with
    | entry hentry hw =>
      rw [hentry]
      exact coerceParameter_eq_ok.2 hw
    | default hnone hw =>
      rw [hnone]
      exact resolveDefaultValue_eq_ok.2 hw

/-- A parameter gets one value. -/
theorem Gets.unique {clock : Clock} {m : Dict String Operand} {d : ParameterDefinition}
    {w w' : Operand} (h : Gets clock m d w) (h' : Gets clock m d w') : w = w' := by
  have hw : resolveParameter none clock m d = .ok w := resolveParameter_eq_ok.2 h
  have hw' : resolveParameter none clock m d = .ok w' := resolveParameter_eq_ok.2 h'
  exact Except.ok.inj (hw.symm.trans hw')

/-- What has been resolved: the names are those of parameters, and each parameter has got its
value. -/
theorem resolve_spec {datasetId : Option String} {clock : Clock}
    {definitions : List ParameterDefinition} {explicitValues : ExplicitValues}
    {resolved : Dict String Operand} (hdistinct : (definitions.map ParameterDefinition.name).Nodup)
    (h : resolve datasetId clock definitions explicitValues = .ok resolved) :
    (definitions ≠ [] → ∀ kv ∈ explicitValues.given, ∃ d ∈ definitions, d.name.val = strip kv.1) ∧
      ∀ d ∈ definitions, ∃ w, Gets clock explicitValues.given d w ∧
        resolved.get? d.name.val = some w := by
  by_cases hnil : definitions = []
  · subst hnil
    exact ⟨fun hne => absurd rfl hne, fun d hd => absurd hd List.not_mem_nil⟩
  · rw [resolve, if_neg hnil] at h
    obtain ⟨entries, hentries, h⟩ := bind_eq_ok.1 h
    obtain ⟨⟨⟩, hknown, h⟩ := bind_eq_ok.1 h
    have hgiven : entries = explicitValues.given := by
      cases explicitValues with
      | none | object => exact (Except.ok.inj hentries).symm
      | other => cases hentries
    subst hgiven
    constructor
    · intro _ kv hkv
      have hcheck := forM_eq_ok.1 hknown kv.1 (List.mem_map_of_mem hkv)
      unfold checkKnown at hcheck
      split_ifs at hcheck with hmem
      exact List.mem_map.1 hmem
    · intro d hd
      have hnames : (definitions.map fun d => d.name.val).Nodup := by
        have hinjective : Function.Injective Token.val := fun t t' => Token.ext
        have hmap := hdistinct.map hinjective
        rwa [List.map_map] at hmap
      obtain ⟨w, hw, hget⟩ := get?_of_mapM h hnames hd
      exact ⟨w, resolveParameter_eq_ok.1 hw, hget⟩

end Dataset
end QualityFlow
