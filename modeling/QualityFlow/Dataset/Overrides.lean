/-
# Values that are given for parameters

`resolve` checks that a given name is, without its blanks, the name of a parameter, and looks
for a value under the name of the parameter as it stands.  So a name with blanks around it is
accepted and its value is not used; and where there is no parameter, no name is checked.  A text
that is given for a number is read as a float, which has not every integer.
-/

import QualityFlow.Dataset.Perimeter

namespace QualityFlow
namespace Dataset

open Py

/-- Every value that is given is the value of its parameter, made of its type; a parameter for
which none is given has its default; and the text of an integer is that integer. -/
structure OverridesWin (clock : Clock) (definitions : List ParameterDefinition) (m : Overrides)
    (resolved : Dict String Operand) : Prop where
  given : ∀ key value, (key, value) ∈ m.entries → ∃ d ∈ definitions, d.name.val = strip key ∧
    ∃ w, coerceValue d.type value = .ok w ∧ resolved.get? d.name.val = some w
  default : ∀ d ∈ definitions, (∀ kv ∈ m.entries, strip kv.1 ≠ d.name.val) →
    ∃ w, IsDefault clock d w ∧ resolved.get? d.name.val = some w
  integer : ∀ d ∈ definitions, d.type = .number → ∀ key s n,
    (key, .json (.str s)) ∈ m.entries → strip key = d.name.val → intOfText s = some n →
      resolved.get? d.name.val = some (.json (.int n))

/-- There is a parameter if a value is given; a value that is given under a name with blanks is
made what the one under the name itself is made, or the default where there is none; and an
integer that is given as a text for a number is one that a float can be. -/
structure GivenPlainly (clock : Clock) (definitions : List ParameterDefinition) (m : Overrides) :
    Prop where
  declared : definitions = [] → m.entries = []
  trimmed : ∀ key value, (key, value) ∈ m.entries → strip key ≠ key →
    ∀ d ∈ definitions, d.name.val = strip key → ∃ w, coerceValue d.type value = .ok w ∧
      ((∃ value', (d.name.val, value') ∈ m.entries ∧ coerceValue d.type value' = .ok w) ∨
        (∀ value', (d.name.val, value') ∉ m.entries) ∧ IsDefault clock d w)
  integer : ∀ d ∈ definitions, d.type = .number → ∀ key s n,
    (key, .json (.str s)) ∈ m.entries → strip key = d.name.val → intOfText s = some n →
      Double.IsInteger n

section

variable {datasetId : Option String} {clock : Clock} {definitions : List ParameterDefinition}
  {m : Overrides} {resolved : Dict String Operand}

/-- What a number is made of the text of an integer: the integer that its float is. -/
theorem coerceValue_number_str {s : String} {n : ℤ} (hs : intOfText s = some n) :
    coerceValue .number (.json (.str s)) =
      match (Double.ofRat n).integer? with
      | some k => .ok (.json (.int k))
      | none => .ok (.json (.float (Double.ofRat n))) := by
  have hstrip : intOfText (strip s) = some n := by
    rw [← hs]
    simp only [intOfText, strip_strip]
  have hnumber : coerceValue .number (.json (.str s)) = .json <$> coerceNumber (.json (.str s)) :=
    rfl
  rw [hnumber, coerceNumber, Double.ofText_of_intOfText hstrip]
  dsimp only
  cases (Double.ofRat n).integer? <;> rfl

/-- The text of an integer is made the integer just where a float can be the integer. -/
theorem coerceValue_number_str_eq_ok {s : String} {n : ℤ} (hs : intOfText s = some n) :
    coerceValue .number (.json (.str s)) = .ok (.json (.int n)) ↔ Double.IsInteger n := by
  rw [← Double.integer?_ofRat_iff, coerceValue_number_str hs]
  cases (Double.ofRat n).integer? <;> simp

/-- What a parameter gets, by the entries. -/
theorem gets_iff {d : ParameterDefinition} {w : Operand} :
    Gets clock m.entries d w ↔
      (∃ value, (d.name.val, value) ∈ m.entries ∧ coerceValue d.type value = .ok w) ∨
        (∀ value, (d.name.val, value) ∉ m.entries) ∧ IsDefault clock d w := by
  constructor
  · intro h
    cases h with
    | entry hentry hw => exact .inl ⟨_, Dict.mem_of_get? hentry, hw⟩
    | default hnone hw =>
      refine .inr ⟨?_, hw⟩
      intro value hmem
      rw [Dict.get?_of_mem m.distinct hmem] at hnone
      cases hnone
  · rintro (⟨value, hmem, hw⟩ | ⟨hnone, hw⟩)
    · exact .entry (Dict.get?_of_mem m.distinct hmem) hw
    · refine .default ?_ hw
      rw [Option.eq_none_iff_forall_ne_some]
      intro value hget
      exact hnone value (Dict.mem_of_get? hget)

/-- A value that is given under the name itself is the one the parameter gets. -/
theorem gets_of_mem {d : ParameterDefinition} {value w : Operand}
    (hmem : (d.name.val, value) ∈ m.entries) (h : Gets clock m.entries d w) :
    coerceValue d.type value = .ok w := by
  rcases gets_iff.1 h with ⟨value', hmem', hw⟩ | ⟨hnone, -⟩
  · have hget := Dict.get?_of_mem m.distinct hmem
    rw [Dict.get?_of_mem m.distinct hmem'] at hget
    obtain rfl := Option.some.inj hget
    exact hw
  · exact absurd hmem (hnone value)

/-- A parameter gets its default where no value is given for it. -/
theorem Gets.isDefault {d : ParameterDefinition} {w : Operand} (h : Gets clock m.entries d w)
    (hnone : ∀ kv ∈ m.entries, strip kv.1 ≠ d.name.val) : IsDefault clock d w := by
  cases h with
  | @entry value _ hentry _ =>
    have hne : strip d.name.val ≠ d.name.val := hnone (d.name.val, value) (Dict.mem_of_get? hentry)
    exact absurd d.name.strip_val hne
  | default _ hw => exact hw

/-- **What is given wins just where it is given plainly.** -/
theorem overridesWin_iff_of_nodup (hdistinct : (definitions.map ParameterDefinition.name).Nodup)
    (h : resolve datasetId clock definitions (.object m) = .ok resolved) :
    OverridesWin clock definitions m resolved ↔ GivenPlainly clock definitions m := by
  obtain ⟨hknown, hgets⟩ := resolve_spec hdistinct h
  constructor
  · intro hwin
    refine ⟨?_, ?_, ?_⟩
    · intro hnil
      rw [List.eq_nil_iff_forall_not_mem]
      rintro ⟨key, value⟩ hmem
      obtain ⟨d, hd, -⟩ := hwin.given key value hmem
      rw [hnil] at hd
      exact absurd hd List.not_mem_nil
    · intro key value hmem _ d hd hname
      obtain ⟨d', hd', hname', w, hw, hget⟩ := hwin.given key value hmem
      obtain rfl : d' = d := by
        have heq : d'.name = d.name := Token.ext (hname'.trans hname.symm)
        exact List.inj_on_of_nodup_map hdistinct hd' hd heq
      obtain ⟨w', hgets', hget'⟩ := hgets _ hd
      rw [hget] at hget'
      obtain rfl := Option.some.inj hget'
      exact ⟨w, hw, gets_iff.1 hgets'⟩
    · intro d hd htype key s n hmem hkey hs
      have hvalue := hwin.integer d hd htype key s n hmem hkey hs
      obtain ⟨d', hd', hname', w, hw, hget⟩ := hwin.given key _ hmem
      obtain rfl : d' = d := by
        have heq : d'.name = d.name := Token.ext (hname'.trans hkey)
        exact List.inj_on_of_nodup_map hdistinct hd' hd heq
      rw [hvalue] at hget
      obtain rfl := Option.some.inj hget
      rw [htype] at hw
      exact (coerceValue_number_str_eq_ok hs).1 hw
  · intro hplain
    -- each value that is given is the one its parameter gets
    have hgiven : ∀ key value, (key, value) ∈ m.entries → ∀ d ∈ definitions,
        d.name.val = strip key → ∃ w, coerceValue d.type value = .ok w ∧
          resolved.get? d.name.val = some w := by
      intro key value hmem d hd hname
      obtain ⟨w, hw, hget⟩ := hgets d hd
      by_cases hkey : strip key = key
      · rw [hkey] at hname
        exact ⟨w, gets_of_mem (by rwa [hname]) hw, hget⟩
      · obtain ⟨w', hcoerce, hw'⟩ := hplain.trimmed key value hmem hkey d hd hname
        rw [hw.unique (gets_iff.2 hw')] at hget
        exact ⟨w', hcoerce, hget⟩
    refine ⟨?_, ?_, ?_⟩
    · intro key value hmem
      have hne : definitions ≠ [] := by
        intro hnil
        rw [hplain.declared hnil] at hmem
        exact absurd hmem List.not_mem_nil
      obtain ⟨d, hd, hname⟩ := hknown hne _ hmem
      exact ⟨d, hd, hname, hgiven key value hmem d hd hname⟩
    · intro d hd hnone
      obtain ⟨w, hw, hget⟩ := hgets d hd
      exact ⟨w, hw.isDefault hnone, hget⟩
    · intro d hd htype key s n hmem hkey hs
      obtain ⟨w, hw, hget⟩ := hgiven key _ hmem d hd hkey.symm
      have hexact := hplain.integer d hd htype key s n hmem hkey hs
      rw [htype, (coerceValue_number_str_eq_ok hs).2 hexact] at hw
      rw [hget, Except.ok.inj hw]

end

/-- **What is given wins just where it is given plainly**, for the parameters of any normalized
perimeter. -/
theorem overridesWin_iff {datasetId : Option String} {clock : Clock} {p : Option Perimeter}
    {m : Overrides} {resolved : Dict String Operand}
    (h : resolve datasetId clock (parameterDefinitions p) (.object m) = .ok resolved) :
    OverridesWin clock (parameterDefinitions p) m resolved
      ↔ GivenPlainly clock (parameterDefinitions p) m :=
  overridesWin_iff_of_nodup (nodup_parameterDefinitions p) h

/-- A clock that stands still. -/
def stoppedClock : Clock where
  now _ := ⟨⟨2024, 1, 1, by decide⟩, .min, none⟩
  today _ := ⟨2024, 1, 1, by decide⟩

/-- A number for which a text is given. -/
def rawAmount : Value :=
  .obj [("parameters", .arr [.obj [("name", .str "amount"), ("type", .str "number")]])]

/-- The parameter of `rawAmount`. -/
def amountDefinition : ParameterDefinition where
  name := ⟨"amount", by decide, by decide⟩
  type := .number
  description := none
  default := .absent

/-- The normal form of `rawAmount`. -/
def amountPerimeter : Perimeter where
  parameters := ⟨[amountDefinition], by simp⟩
  selectedColumns := none
  filter := none
  sort := none
  present := .inl (by simp)

/-- A value that is given under a name. -/
def given (name : String) (value : Operand) : Overrides where
  entries := [(name, value)]
  distinct := by simp [Dict.keys]

/-- The text of an integer is given. -/
theorem amount_overridesWin_iff :
    OverridesWin stoppedClock amountPerimeter.parameters.items
        (given "amount" (.json (.str "42"))) [("amount", .json (.int 42))]
      ↔ GivenPlainly stoppedClock amountPerimeter.parameters.items
          (given "amount" (.json (.str "42"))) :=
  have hbound : |(42 : ℤ)| < 2 ^ Double.maxExponent :=
    lt_of_lt_of_le (by norm_num : |(42 : ℤ)| < 2 ^ 6)
      (pow_le_pow_right₀ (by norm_num) (by norm_num [Double.maxExponent]))
  have hcoerce : coerceValue .number (.json (.str "42")) = .ok (.json (.int 42)) :=
    (coerceValue_number_str_eq_ok rfl).2 ⟨⟨42, 0, by norm_num, by norm_num⟩, hbound⟩
  have hresolve : resolve none stoppedClock (parameterDefinitions (some amountPerimeter))
      (.object (given "amount" (.json (.str "42")))) = .ok [("amount", .json (.int 42))] := by
    have hvalue : coerceParameter none amountDefinition (.json (.str "42")) = .ok (.json (.int 42)) :=
      coerceParameter_eq_ok.2 hcoerce
    show (do
      let y ← ("amount", ·) <$> coerceParameter none amountDefinition (.json (.str "42"))
      return [y]) = _
    rw [hvalue]
    rfl
  overridesWin_iff hresolve

/-- A value that is given under a name with blanks is accepted, and is not used. -/
theorem blanks_not_overridesWin :
    normalize rawAmount = .ok (some amountPerimeter) ∧
      resolve none stoppedClock (parameterDefinitions (some amountPerimeter))
        (.object (given " amount " (.json (.int 5)))) = .ok [("amount", .json .null)] ∧
      ¬OverridesWin stoppedClock (parameterDefinitions (some amountPerimeter))
        (given " amount " (.json (.int 5))) [("amount", .json .null)] := by
  refine ⟨rfl, rfl, ?_⟩
  intro hwin
  obtain ⟨d, hd, -, w, hw, hget⟩ := hwin.given " amount " (.json (.int 5)) List.mem_cons_self
  obtain rfl := List.mem_singleton.1 hd
  have hfive : w = .json (.int 5) := (Except.ok.inj hw).symm
  have hnull : w = .json .null := (Option.some.inj hget).symm
  rw [hfive] at hnull
  cases hnull

end Dataset
end QualityFlow
