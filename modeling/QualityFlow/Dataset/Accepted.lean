/-
# Which accepted perimeters compile

`normalize` checks that a condition refers to a parameter there is, of a type that the operator
allows, and `resolve` gives every parameter a value.  Neither checks that a comparison by an
order gets something to compare with: a literal may be `None` or a truth value, and a parameter
that is given nothing and has no default is `None`.  Just those perimeters do not compile.
-/

import QualityFlow.Dataset.Compile
import QualityFlow.Dataset.Overrides

namespace QualityFlow
namespace Dataset

open Py

/-- A normalized perimeter compiles with the values of its parameters: every parameter of a
condition has a value, and every comparison by an order has one that it can compare with. -/
structure Compiles (refuses : Operator → Operand → Option String) (columns : List String)
    (p : Option Perimeter) (resolved : Dict String Operand) (limit : Option ℤ) : Prop where
  returns : ∃ q, compile refuses columns resolved (dumpOption p) limit = .ok q
  assigned : ∀ q ∈ p, ∀ c ∈ q.conditions, ∀ name, c.value = .parameter name →
    resolved.has name.val = true
  comparable : ∀ q ∈ p, ∀ c ∈ q.conditions, c.operator.isOrder = true →
    ∃ w, operandOf resolved c.value = .ok w ∧ ¬w.IsNullOrBool

/-- A parameter is given something: a value that is not `None`, or nothing at all where it has a
default that is not `None`. -/
def IsGiven (m : Dict String Operand) (d : ParameterDefinition) : Prop :=
  match m.get? d.name.val with
  | some value => value ≠ .json .null
  | none => d.default ≠ .absent ∧ d.default ≠ .null

/-- Every comparison by an order has something to compare with: a literal that is neither `None`
nor a truth value, or a parameter that is given something. -/
def OrdersGiven (p : Option Perimeter) (m : Dict String Operand) : Prop :=
  ∀ q ∈ p, ∀ c ∈ q.conditions, c.operator.isOrder = true →
    (∀ v, c.value = .literal v → ¬(Operand.json v).IsNullOrBool) ∧
    ∀ name, c.value = .parameter name → ∀ d ∈ q.parameters.items, d.name = name → IsGiven m d

theorem Operator.isOrder_of_isNullCheck {op : Operator} (h : op.isNullCheck = true) :
    op.isOrder = false := by
  cases op <;> simp_all [Operator.isNullCheck, Operator.isOrder]

section

variable {clock : Clock} {m : Dict String Operand} {d : ParameterDefinition} {w : Operand}

/-- The types that are compared by an order have neither `None` nor truth values. -/
theorem HasType.not_isNullOrBool {type : ParameterType} {op : Operator} (h : HasType type w)
    (hop : op.isOrder = true) (hcompatible : isOperatorCompatible type op = true) :
    ¬w.IsNullOrBool := by
  cases h with
  | boolean b => cases op <;> simp_all [isOperatorCompatible, Operator.isOrder]
  | string | integer | whole | float | date | datetime => simp [Operand.IsNullOrBool]

theorem HasType.ne_null {type : ParameterType} (h : HasType type w) : w ≠ .json .null := by
  rintro rfl
  cases h

/-- A value that is coerced is `None` only if it was. -/
theorem ne_null_of_coerceValue {type : ParameterType} {value : Operand}
    (h : coerceValue type value = .ok w) : value ≠ .json .null ↔ w ≠ .json .null := by
  constructor
  · intro hvalue
    exact (hasType_of_coerceValue h hvalue).ne_null
  · rintro hw rfl
    rw [coerceValue_null] at h
    exact hw (Except.ok.inj h).symm

/-- What a parameter gets is of its type, unless it is `None`. -/
theorem Gets.hasType (h : Gets clock m d w) (hw : w ≠ .json .null) : HasType d.type w := by
  cases h with
  | entry _ hcoerce => exact hasType_of_coerceValue hcoerce ((ne_null_of_coerceValue hcoerce).2 hw)
  | default _ hdefault =>
    cases hdefault with
    | absent | null => exact absurd rfl hw
    | @value _ hv _ => exact hv
    | builtIn _ hcoerce =>
      exact hasType_of_coerceValue hcoerce ((ne_null_of_coerceValue hcoerce).2 hw)

/-- **A parameter gets `None` just where it is given nothing.** -/
theorem Gets.ne_null_iff (h : Gets clock m d w) : w ≠ .json .null ↔ IsGiven m d := by
  unfold IsGiven
  cases h with
  | entry hentry hcoerce =>
    rw [hentry]
    exact (ne_null_of_coerceValue hcoerce).symm
  | default hnone hdefault =>
    rw [hnone]
    cases hdefault with
    | absent h => simp [h]
    | null h => simp [h]
    | @value _ hv h => simp [h, hv.ne_null]
    | @builtIn r _ h hcoerce =>
      have hbuiltIn : clock.resolveBuiltin d.name r ≠ .json .null := by cases r <;> simp [Clock.resolveBuiltin]
      simp [h, (ne_null_of_coerceValue hcoerce).1 hbuiltIn]

end

/-- The value that a condition is compared with, by what a call gives. -/
theorem exists_operand {clock : Clock} {m resolved : Dict String Operand}
    {definitions : Definitions}
    (hgets : ∀ d ∈ definitions.items, ∃ w, Gets clock m d w ∧ resolved.get? d.name.val = some w)
    (c : Condition definitions) :
    ∃ w, operandOf resolved c.value = .ok w ∧ (c.operator.isOrder = true → (¬w.IsNullOrBool ↔
      (∀ v, c.value = .literal v → ¬(Operand.json v).IsNullOrBool) ∧
        ∀ name, c.value = .parameter name → ∀ d ∈ definitions.items, d.name = name →
          IsGiven m d)) := by
  obtain ⟨field, op, value, allowed⟩ := c
  cases allowed with
  | absent h =>
    refine ⟨_, rfl, ?_⟩
    intro hop
    rw [Operator.isOrder_of_isNullCheck h] at hop
    cases hop
  | @literal v =>
    refine ⟨_, rfl, ?_⟩
    intro _
    simp
  | @parameter d _ hd _ hcompatible =>
    obtain ⟨w, hw, hget⟩ := hgets d hd
    refine ⟨w, operandOf_parameter.2 hget, ?_⟩
    intro hop
    have hnull : ¬w.IsNullOrBool ↔ w ≠ .json .null := by
      constructor
      · rintro hw rfl
        exact hw trivial
      · intro hne
        exact (hw.hasType hne).not_isNullOrBool hop hcompatible
    rw [hnull, hw.ne_null_iff]
    constructor
    · intro hgiven
      refine ⟨by simp, ?_⟩
      rintro name hname d' hd' rfl
      obtain rfl : d' = d :=
        List.inj_on_of_nodup_map definitions.nodup hd' hd (FilterValue.parameter.inj hname).symm
      exact hgiven
    · rintro ⟨-, hgiven⟩
      exact hgiven d.name rfl d hd rfl

/-- **An accepted perimeter compiles just where its comparisons by an order have something to
compare with.** -/
theorem compiles_iff {refuses : Operator → Operand → Option String}
    (hrefuses : ∀ op value, (refuses op value).isSome = true ↔
      op.isOrder = true ∧ value.IsNullOrBool)
    {datasetId : Option String} {clock : Clock} {p : Option Perimeter}
    {explicitValues : ExplicitValues} {resolved : Dict String Operand}
    (hresolve : resolve datasetId clock (parameterDefinitions p) explicitValues = .ok resolved)
    {columns : List String} (hcolumns : ∀ q ∈ p, ∀ c ∈ q.columnsNamed, c ∈ columns)
    (limit : Option ℤ) :
    Compiles refuses columns p resolved limit ↔ OrdersGiven p explicitValues.given := by
  obtain ⟨-, hgets⟩ := resolve_spec (nodup_parameterDefinitions p) hresolve
  have hoperand : ∀ q ∈ p, ∀ c ∈ q.conditions, ∃ w, operandOf resolved c.value = .ok w ∧
      (c.operator.isOrder = true → (¬w.IsNullOrBool ↔
        (∀ v, c.value = .literal v → ¬(Operand.json v).IsNullOrBool) ∧
          ∀ name, c.value = .parameter name → ∀ d ∈ q.parameters.items, d.name = name →
            IsGiven explicitValues.given d)) := by
    rintro q rfl c -
    exact exists_operand hgets c
  constructor
  · intro h q hq c hc hop
    obtain ⟨w, hw, hiff⟩ := hoperand q hq c hc
    obtain ⟨w', hw', hcomparable⟩ := h.comparable q hq c hc hop
    rw [hw] at hw'
    obtain rfl := Except.ok.inj hw'
    exact (hiff hop).1 hcomparable
  · intro h
    have hcomparable : ∀ q ∈ p, ∀ c ∈ q.conditions, c.operator.isOrder = true →
        ∃ w, operandOf resolved c.value = .ok w ∧ ¬w.IsNullOrBool := by
      intro q hq c hc hop
      obtain ⟨w, hw, hiff⟩ := hoperand q hq c hc
      exact ⟨w, hw, (hiff hop).2 (h q hq c hc hop)⟩
    refine ⟨?_, ?_, hcomparable⟩
    · rw [exists_compile (normalize_dumpOption p) hcolumns]
      intro q hq c hc
      have hcolumn : c.field.val ∈ columns := by
        refine hcolumns q hq _ (List.mem_append_left _ (List.mem_append_right _ ?_))
        exact List.mem_map_of_mem hc
      rw [exists_compileCondition hcolumn hrefuses]
      obtain ⟨w, hw, -⟩ := hoperand q hq c hc
      refine ⟨w, hw, ?_⟩
      rintro ⟨hop, hnull⟩
      obtain ⟨w', hw', hne⟩ := hcomparable q hq c hc hop
      rw [hw] at hw'
      obtain rfl := Except.ok.inj hw'
      exact hne hnull
    · intro q hq c hc name hname
      obtain ⟨w, hw, -⟩ := hoperand q hq c hc
      rw [hname, operandOf_parameter] at hw
      rw [Dict.has, hw, Option.isSome_some]

/-- An order comparison is refused with `None`, `True` and `False`, as the library does. -/
def refusesOrder (op : Operator) (value : Operand) : Option String :=
  match op.isOrder, value with
  | true, .json .null | true, .json (.bool _) =>
    some ("Only '=', '!=', 'is_()', 'is_not()', 'is_distinct_from()', " ++
      "'is_not_distinct_from()' operators can be used with None/True/False")
  | _, _ => none

theorem refusesOrder_isSome (op : Operator) (value : Operand) :
    (refusesOrder op value).isSome = true ↔ op.isOrder = true ∧ value.IsNullOrBool := by
  unfold refusesOrder Operand.IsNullOrBool
  split <;> simp_all

/-- A filter that compares a column with a literal by an order. -/
def rawAmountOver (v : Value) : Value :=
  .obj [("filter", .obj [("items", .arr [.obj [("field", .str "amount"), ("operator", .str "gt"),
    ("value", v)]])])]

theorem strip_amount : strip "amount" = "amount" := by decide

theorem amount_ne : "amount" ≠ "" := by decide

/-- The normal form of `rawAmountOver`. -/
def amountOver (v : Value) (hv : reference? v = none) : Perimeter where
  parameters := ⟨[], List.nodup_nil⟩
  selectedColumns := none
  filter := some ⟨.and, [.condition ⟨⟨"amount", strip_amount, amount_ne⟩, .gt, .literal v,
    .literal rfl hv nofun nofun⟩], by simp⟩
  sort := none
  present := .inr (.inr (.inl rfl))

theorem amountOver_compiles_iff :
    Compiles refusesOrder ["id", "amount"] (some (amountOver (.int 3) rfl)) [] none
      ↔ OrdersGiven (some (amountOver (.int 3) rfl)) ExplicitValues.none.given :=
  have hresolve : resolve none stoppedClock (parameterDefinitions (some (amountOver (.int 3) rfl)))
      .none = .ok [] := rfl
  compiles_iff refusesOrder_isSome hresolve (by
    rintro q hq c hc
    obtain rfl := Option.some.inj hq
    simp_all [Perimeter.columnsNamed, Perimeter.conditions, amountOver, FilterItem.conditions]) none

/-- A perimeter that compares a column with `None` by an order is accepted, and does not
compile. -/
theorem null_not_compiles :
    normalize (rawAmountOver .null) = .ok (some (amountOver .null rfl)) ∧
      resolve none stoppedClock (parameterDefinitions (some (amountOver .null rfl))) .none
        = .ok [] ∧
      ¬Compiles refusesOrder ["id", "amount"] (some (amountOver .null rfl)) [] none := by
  refine ⟨rfl, rfl, ?_⟩
  intro h
  obtain ⟨q, hq⟩ := h.returns
  cases hq

end Dataset
end QualityFlow
