/-
# The query of a perimeter

`DatasetPerimeterCompiler.compile` normalizes a perimeter and makes a `SELECT` of it: the
columns, a `WHERE` clause of the filter, the order and the limit.  It raises where a column is
not one of the table, where a parameter of a condition has no value, and where the library that
builds the clause refuses a comparison; which ones it refuses is a parameter here.
-/

import QualityFlow.Dataset.Idempotent

namespace QualityFlow
namespace Dataset

open Py

/-- A `WHERE` clause. -/
inductive Clause where
  | isNull (column : String)
  | isNotNull (column : String)
  | compare (column : String) (op : Operator) (value : Operand)
  | and (clauses : List Clause)
  | or (clauses : List Clause)

/-- `and_(*clauses)` and `or_(*clauses)`. -/
def Clause.join : Logic → List Clause → Clause
  | .and => .and
  | .or => .or

/-- A `SELECT`. -/
structure Select where
  columns : List String
  whereClause : Option Clause
  orderBy : List (String × Bool)
  limit : Option ℤ

/-- `DatasetQueryCompilation`. -/
structure DatasetQueryCompilation where
  stmt : Select
  columns : List String
  normalizedPerimeter : Option Perimeter

/-- `value is None`. -/
def Operand.isNone : Operand → Bool
  | .json .null => true
  | _ => false

/-- The value of a condition, under the values of the parameters. -/
def operandOf (resolved : Dict String Operand) : FilterValue → Except String Operand
  | .absent => .ok (.json .null)
  | .literal v => .ok (.json v)
  | .parameter name =>
    match resolved.get? name.val with
    | some w => .ok w
    | none => .error ("Resolved dataset parameter '" ++ name.val ++ "' is missing.")

/-- The conditions of a filter item. -/
def FilterItem.conditions {definitions : Definitions} :
    FilterItem definitions → List (Condition definitions)
  | .condition c => [c]
  | .group _ cs _ => cs

/-- The conditions of a perimeter. -/
def Perimeter.conditions (p : Perimeter) : List (Condition p.parameters) :=
  match p.filter with
  | none => []
  | some f => f.items.flatMap FilterItem.conditions

/-- The columns that a perimeter names. -/
def Perimeter.columnsNamed (p : Perimeter) : List String :=
  (match p.selectedColumns with
    | none => []
    | some cs => cs.items.map Token.val) ++
  p.conditions.map (·.field.val) ++
  (p.sort.getD []).map (·.field.val)

section

-- `refuses`: the error with which a comparison is refused, if it is
variable (refuses : Operator → Operand → Option String)

/-- A comparison of a column with a value. -/
def compareColumn (column : String) (op : Operator) (value : Operand) : Except String Clause :=
  match refuses op value with
  | some text => .error text
  | none => .ok (.compare column op value)

variable (columns : List String) (resolved : Dict String Operand)

/-- `_compile_condition`. -/
def compileCondition {definitions : Definitions} (c : Condition definitions) :
    Except String Clause :=
  let column := c.field.val
  if column ∉ columns then .error ("Filter field '" ++ column ++ "' does not exist.")
  else do
    let value ← operandOf resolved c.value
    match c.operator with
    | .isNull => return .isNull column
    | .isNotNull => return .isNotNull column
    | .eq => if value.isNone then return .isNull column else compareColumn refuses column .eq value
    | .neq =>
      if value.isNone then return .isNotNull column else compareColumn refuses column .neq value
    | op => compareColumn refuses column op value

/-- `_compile_filter_item`. -/
def compileFilterItem {definitions : Definitions} : FilterItem definitions → Except String Clause
  | .condition c => compileCondition refuses columns resolved c
  | .group logic conditions _ =>
    .join logic <$> conditions.mapM (compileCondition refuses columns resolved)

/-- The clause of a filter. -/
def compileFilter {definitions : Definitions} (f : Filter definitions) : Except String Clause :=
  .join f.logic <$> f.items.mapM (compileFilterItem refuses columns resolved)

/-- The columns that are read. -/
def compileColumns (p : Option Perimeter) : Except String (List String) :=
  match p.bind Perimeter.selectedColumns with
  | none => .ok columns
  | some cs =>
    if cs.items = [] then .ok columns
    else cs.items.mapM fun c =>
      if c.val ∈ columns then .ok c.val
      else .error ("Selected column '" ++ c.val ++ "' does not exist.")

/-- The `WHERE` clause. -/
def compileWhere : Option Perimeter → Except String (Option Clause)
  | none => .ok none
  | some p =>
    match p.filter with
    | none => .ok none
    | some f => some <$> compileFilter refuses columns resolved f

/-- The order of the rows. -/
def compileSort (p : Option Perimeter) : Except String (List (String × Bool)) :=
  ((p.bind Perimeter.sort).getD []).mapM fun s =>
    if s.field.val ∈ columns then .ok (s.field.val, s.descending)
    else .error ("Sort field '" ++ s.field.val ++ "' does not exist.")

/-- `compile`. -/
def compile (raw : Value) (limit : Option ℤ) : Except String DatasetQueryCompilation := do
  let p ← normalize raw
  let selected ← compileColumns columns p
  let whereClause ← compileWhere refuses columns resolved p
  let orderBy ← compileSort columns p
  return ⟨⟨selected, whereClause, orderBy, limit⟩, selected, p⟩

end

/-! ### What compiles -/

/-- The value of a condition on a parameter. -/
theorem operandOf_parameter {resolved : Dict String Operand} {name : Token} {w : Operand} :
    operandOf resolved (.parameter name) = .ok w ↔ resolved.get? name.val = some w := by
  rw [operandOf]
  cases resolved.get? name.val <;> simp

section

variable {refuses : Operator → Operand → Option String} {columns : List String}
  {resolved : Dict String Operand}

/-- A condition compiles where the table has the column, the parameter has a value and the
comparison is not refused. -/
theorem exists_compileCondition {definitions : Definitions} {c : Condition definitions}
    (hcolumn : c.field.val ∈ columns)
    (hrefuses : ∀ op value, (refuses op value).isSome = true ↔
      op.isOrder = true ∧ value.IsNullOrBool) :
    (∃ clause, compileCondition refuses columns resolved c = .ok clause) ↔
      ∃ w, operandOf resolved c.value = .ok w ∧ ¬(c.operator.isOrder = true ∧ w.IsNullOrBool) := by
  have hcompare : ∀ op w, (∃ clause, compareColumn refuses c.field.val op w = .ok clause) ↔
      ¬(op.isOrder = true ∧ w.IsNullOrBool) := by
    intro op w
    rw [← hrefuses, compareColumn]
    cases refuses op w <;> simp
  unfold compileCondition
  dsimp only
  rw [if_neg (not_not_intro hcolumn)]
  cases hoperand : operandOf resolved c.value with
  | error e => simp
  | ok w =>
    simp only [ok_bind, Except.ok.injEq, exists_eq_left']
    cases hop : c.operator with
    | isNull => simp [Operator.isOrder]
    | isNotNull => simp [Operator.isOrder]
    | eq =>
      split_ifs
      · simp [Operator.isOrder]
      · exact hcompare _ _
    | neq =>
      split_ifs
      · simp [Operator.isOrder]
      · exact hcompare _ _
    | gt | gte | lt | lte | contains | startsWith | endsWith | in_ | notIn => exact hcompare _ _

theorem exists_map_eq_ok {ε α β : Type} {x : Except ε α} {f : α → β} :
    (∃ b, f <$> x = .ok b) ↔ ∃ a, x = .ok a := by
  cases x <;> simp

/-- A filter compiles where its conditions do. -/
theorem exists_compileFilter {definitions : Definitions} {f : Filter definitions} :
    (∃ clause, compileFilter refuses columns resolved f = .ok clause) ↔
      ∀ c ∈ f.items.flatMap FilterItem.conditions,
        ∃ clause, compileCondition refuses columns resolved c = .ok clause := by
  have hitem : ∀ item : FilterItem definitions,
      (∃ clause, compileFilterItem refuses columns resolved item = .ok clause) ↔
        ∀ c ∈ item.conditions, ∃ clause, compileCondition refuses columns resolved c = .ok clause := by
    intro item
    cases item with
    | condition c => simp [compileFilterItem, FilterItem.conditions]
    | group logic conditions _ =>
      rw [compileFilterItem, exists_map_eq_ok, exists_mapM_eq_ok]
      rfl
  rw [compileFilter, exists_map_eq_ok, exists_mapM_eq_ok]
  simp only [hitem, List.mem_flatMap]
  constructor
  · rintro h c ⟨item, hitem, hc⟩
    exact h item hitem c hc
  · intro h item hitem c hc
    exact h c ⟨item, hitem, hc⟩

/-- **A normalized perimeter compiles where its conditions do**, for a table that has the
columns it names. -/
theorem exists_compile {p : Option Perimeter} {raw : Value} (hp : normalize raw = .ok p)
    (hcolumns : ∀ q ∈ p, ∀ c ∈ q.columnsNamed, c ∈ columns) (limit : Option ℤ) :
    (∃ q, compile refuses columns resolved raw limit = .ok q) ↔
      ∀ q ∈ p, ∀ c ∈ q.conditions,
        ∃ clause, compileCondition refuses columns resolved c = .ok clause := by
  have hselected : ∃ selected, compileColumns columns p = .ok selected := by
    unfold compileColumns
    split
    · exact ⟨_, rfl⟩
    · rename_i cs hcs
      split_ifs
      · exact ⟨_, rfl⟩
      · rw [exists_mapM_eq_ok]
        intro c hc
        obtain ⟨q, rfl, hq⟩ := Option.bind_eq_some_iff.1 hcs
        have hmem : c.val ∈ columns := by
          refine hcolumns q rfl _ (List.mem_append_left _ (List.mem_append_left _ ?_))
          rw [hq]
          exact List.mem_map_of_mem hc
        exact ⟨c.val, if_pos hmem⟩
  have hsort : ∃ orderBy, compileSort columns p = .ok orderBy := by
    unfold compileSort
    rw [exists_mapM_eq_ok]
    intro s hs
    cases p with
    | none => exact absurd hs List.not_mem_nil
    | some q =>
      have hmem : s.field.val ∈ columns :=
        hcolumns q rfl _ (List.mem_append_right _ (List.mem_map_of_mem hs))
      exact ⟨(s.field.val, s.descending), if_pos hmem⟩
  have hwhere : (∃ clause, compileWhere refuses columns resolved p = .ok clause) ↔
      ∀ q ∈ p, ∀ c ∈ q.conditions,
        ∃ clause, compileCondition refuses columns resolved c = .ok clause := by
    cases p with
    | none => simp [compileWhere]
    | some q =>
      simp only [compileWhere, Perimeter.conditions, Option.mem_some_iff, forall_eq']
      cases q.filter with
      | none => simp
      | some f => rw [exists_map_eq_ok, exists_compileFilter]
  obtain ⟨selected, hselected⟩ := hselected
  obtain ⟨orderBy, hsort⟩ := hsort
  rw [← hwhere, compile, hp, ok_bind, hselected, ok_bind]
  cases compileWhere refuses columns resolved p with
  | error e => simp
  | ok clause =>
    rw [ok_bind, hsort, ok_bind]
    simp

end

end Dataset
end QualityFlow
