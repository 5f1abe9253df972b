/-
# The rows that a perimeter selects

A raw filter says which rows it is for: those for which its conditions hold, combined by the
connective of the filter and by those of its groups.  What an operator says of a cell and of a
value, and what is `NULL`, are parameters here.  The rows that the `WHERE` clause selects are
those of the form of the filter that is in force: its items where it has the key, its conditions
otherwise.  A filter with both keys is read by its items.
-/

import QualityFlow.Dataset.Compile

namespace QualityFlow
namespace Dataset

open Py

/-! ### What clauses and raw filters say of a row -/

/-- What is `NULL`, and what the operators say of a cell and of a value. -/
structure Meaning (Cell : Type) where
  isNull : Cell → Prop
  test : Operator → Cell → Operand → Prop

/-- All of a list, or one of it. -/
def Combined {α : Type} (logic : Logic) (P : α → Prop) (xs : List α) : Prop :=
  match logic with
  | .and => ∀ x ∈ xs, P x
  | .or => ∃ x ∈ xs, P x

section

variable {Cell : Type} (meaning : Meaning Cell)

mutual

/-- A row satisfies a clause. -/
def Clause.Holds (row : String → Cell) : Clause → Prop
  | .isNull column => meaning.isNull (row column)
  | .isNotNull column => ¬meaning.isNull (row column)
  | .compare column op value => meaning.test op (row column) value
  | .and clauses => Clause.AllHold row clauses
  | .or clauses => Clause.OneHolds row clauses

def Clause.AllHold (row : String → Cell) : List Clause → Prop
  | [] => True
  | c :: cs => Clause.Holds row c ∧ Clause.AllHold row cs

def Clause.OneHolds (row : String → Cell) : List Clause → Prop
  | [] => False
  | c :: cs => Clause.Holds row c ∨ Clause.OneHolds row cs

end

/-- A row is selected. -/
def Select.Selects (stmt : Select) (row : String → Cell) : Prop :=
  ∀ clause, stmt.whereClause = some clause → clause.Holds meaning row

/-- What an operator says of a column and of a value; nothing is equal to `None` but `NULL`. -/
def Compared (row : String → Cell) (column : String) (op : Operator) (value : Operand) : Prop :=
  match op with
  | .isNull => meaning.isNull (row column)
  | .isNotNull => ¬meaning.isNull (row column)
  | .eq => if value.isNone then meaning.isNull (row column) else meaning.test .eq (row column) value
  | .neq =>
    if value.isNone then ¬meaning.isNull (row column) else meaning.test .neq (row column) value
  | op => meaning.test op (row column) value

variable (resolved : Dict String Operand)

/-- The value of a raw condition: that of the parameter it refers to, or the literal. -/
def rawOperand (raw : Value) : Operand :=
  match reference? raw with
  | some kvs => (resolved.get? (Value.field kvs "name").token).getD (.json .null)
  | none => .json raw

/-- A row satisfies a raw condition. -/
def RawConditionHolds (row : String → Cell) : Value → Prop
  | .obj kvs => ∃ op, Operator.ofName? (lower (Value.field kvs "operator").token) = some op ∧
      Compared meaning row (Value.field kvs "field").token op
        (rawOperand resolved (Value.field kvs "value"))
  | _ => False

/-- A value as a list, if it is one. -/
def listOf : Value → List Value
  | .arr xs => xs
  | _ => []

/-- The connective of a raw filter or group. -/
def rawLogic (kvs : List (String × Value)) : Logic :=
  (Logic.ofName? (upper (tokenOr (Value.field kvs "logic") "AND"))).getD .and

/-- A row satisfies a raw item: a condition, or a group of conditions. -/
def RawItemHolds (row : String → Cell) : Value → Prop
  | .obj kvs =>
    if lower (tokenOr (Value.field kvs "kind") "condition") = "group" then
      Combined (rawLogic kvs) (RawConditionHolds meaning resolved row)
        (listOf (Value.field kvs "conditions"))
    else RawConditionHolds meaning resolved row (.obj kvs)
  | _ => False

/-- What there is in a raw filter: an item, or a condition in the legacy form. -/
inductive Present where
  | item (raw : Value)
  | legacy (raw : Value)

/-- A row satisfies what there is. -/
def Present.Holds (row : String → Cell) : Present → Prop
  | .item raw => RawItemHolds meaning resolved row raw
  | .legacy raw => RawConditionHolds meaning resolved row raw

end

/-- All there is in a raw filter. -/
def everyPresent (kvs : List (String × Value)) : List Present :=
  (listOf (Value.field kvs "items")).map .item ++
    (listOf (Value.field kvs "conditions")).map .legacy

/-- What is in force of a raw filter: the items, or the conditions where it has no items. -/
def inForce (kvs : List (String × Value)) : List Present :=
  if isNull (Value.field kvs "items") then (listOf (Value.field kvs "conditions")).map .legacy
  else (listOf (Value.field kvs "items")).map .item

/-- The filter of a raw perimeter. -/
def rawFilter : Value → Value
  | .obj kvs => Value.field kvs "filter"
  | _ => .null

/-- The rows that are selected are those that satisfy all that is present, by the connective of
the filter; and where something is present, there is a clause. -/
structure Keeps {Cell : Type} (meaning : Meaning Cell) (resolved : Dict String Operand)
    (present : List (String × Value) → List Present) (raw : Value) (stmt : Select) : Prop where
  selects : ∀ row, stmt.Selects meaning row ↔
    ∀ kvs, rawFilter raw = .obj kvs → present kvs = [] ∨
      Combined (rawLogic kvs) (Present.Holds meaning resolved row) (present kvs)
  restricts : ∀ kvs, rawFilter raw = .obj kvs → present kvs ≠ [] → stmt.whereClause ≠ none

/-! ### Both passes keep what is said -/

theorem combined_congr {α β : Type} {R : α → β → Prop} {P : α → Prop} {Q : β → Prop}
    {xs : List α} {ys : List β} (h : List.Forall₂ R xs ys)
    (hR : ∀ x y, R x y → (P x ↔ Q y)) (logic : Logic) :
    Combined logic P xs ↔ Combined logic Q ys := by
  cases logic with
  | and => exact forall_mem_congr h hR
  | or => exact exists_mem_congr h hR

theorem combined_map {α β : Type} {P : β → Prop} (logic : Logic) (f : α → β) (xs : List α) :
    Combined logic P (xs.map f) ↔ Combined logic (fun x => P (f x)) xs := by
  cases logic <;> simp [Combined]

section

variable {Cell : Type} {meaning : Meaning Cell} {row : String → Cell}
  {resolved : Dict String Operand}

theorem Clause.holds_join (logic : Logic) (clauses : List Clause) :
    (Clause.join logic clauses).Holds meaning row
      ↔ Combined logic (Clause.Holds meaning row) clauses := by
  cases logic with
  | and =>
    rw [Clause.join, Clause.Holds, Combined]
    induction clauses with
    | nil => simp [Clause.AllHold]
    | cons c cs ih => rw [Clause.AllHold, ih, List.forall_mem_cons]
  | or =>
    rw [Clause.join, Clause.Holds, Combined]
    induction clauses with
    | nil => simp [Clause.OneHolds]
    | cons c cs ih => rw [Clause.OneHolds, ih, List.exists_mem_cons_iff]

/-- A compiled condition says what the condition says. -/
theorem holds_of_compileCondition {refuses : Operator → Operand → Option String}
    {columns : List String} {definitions : Definitions} {c : Condition definitions}
    {clause : Clause} (h : compileCondition refuses columns resolved c = .ok clause) :
    ∃ w, operandOf resolved c.value = .ok w ∧
      (clause.Holds meaning row ↔ Compared meaning row c.field.val c.operator w) := by
  have hcompare : ∀ {op : Operator} {w : Operand},
      compareColumn refuses c.field.val op w = .ok clause →
        (clause.Holds meaning row ↔ meaning.test op (row c.field.val) w) := by
    intro op w hclause
    unfold compareColumn at hclause
    split at hclause
    · cases hclause
    · obtain rfl := Except.ok.inj hclause
      rw [Clause.Holds]
  unfold compileCondition at h
  dsimp only at h
  split_ifs at h
  obtain ⟨w, hw, h⟩ := bind_eq_ok.1 h
  refine ⟨w, hw, ?_⟩
  cases hop : c.operator with
  | isNull =>
    rw [hop] at h
    obtain rfl := Except.ok.inj h
    rw [Clause.Holds, Compared]
  | isNotNull =>
    rw [hop] at h
    obtain rfl := Except.ok.inj h
    rw [Clause.Holds, Compared]
  | eq =>
    simp only [hop] at h
    split_ifs at h with hnone
    · obtain rfl := Except.ok.inj h
      rw [Clause.Holds, Compared, if_pos hnone]
    · rw [hcompare h, Compared, if_neg hnone]
  | neq =>
    simp only [hop] at h
    split_ifs at h with hnone
    · obtain rfl := Except.ok.inj h
      rw [Clause.Holds, Compared, if_pos hnone]
    · rw [hcompare h, Compared, if_neg hnone]
  | gt | gte | lt | lte | contains | startsWith | endsWith | in_ | notIn =>
    rw [hop] at h
    exact hcompare h

theorem strip_token (v : Value) : strip v.token = v.token := by
  unfold Value.token
  split_ifs
  · exact strip_strip _
  · rfl

theorem val_of_requireToken {v : Value} {message : String} {t : Token}
    (h : requireToken v message = .ok t) : t.val = v.token := by
  unfold requireToken Token.ofString? at h
  split at h
  · rename_i t' ht
    obtain rfl := Except.ok.inj h
    split_ifs at ht
    obtain rfl := Option.some.inj ht
    exact strip_token v
  · cases h

/-- A normalized value is the value of the raw condition. -/
theorem rawOperand_of_normalizeFilterValue {definitions : Definitions} {path : String}
    {op : Operator} {hop : op.isNullCheck = false} {raw : Value}
    {v : {v // Allowed definitions op v}} {w : Operand}
    (h : normalizeFilterValue definitions path op hop raw = .ok v)
    (hw : operandOf resolved v.1 = .ok w) : rawOperand resolved raw = w := by
  unfold normalizeFilterValue at h
  unfold rawOperand
  split at h
  · rename_i kvs href
    obtain ⟨name, hname, h⟩ := bind_eq_ok.1 h
    split at h
    · cases h
    · rename_i d hd
      split_ifs at h
      obtain rfl := Except.ok.inj h
      -- the parameter that has been found has the name
      have hfound : d.name = name := by simpa using List.find?_some hd
      have hget := operandOf_parameter.1 hw
      rw [hfound, val_of_requireToken hname] at hget
      rw [href]
      dsimp only
      rw [hget, Option.getD_some]
  · rename_i href
    split_ifs at h
    obtain rfl := Except.ok.inj h
    rw [href]
    exact Except.ok.inj hw

/-- What takes no value says nothing of one. -/
theorem compared_of_isNullCheck {column : String} {op : Operator} (h : op.isNullCheck = true)
    (w w' : Operand) : Compared meaning row column op w ↔ Compared meaning row column op w' := by
  cases op with
  | isNull | isNotNull => rfl
  | eq | neq | gt | gte | lt | lte | contains | startsWith | endsWith | in_ | notIn =>
    exact absurd h (by decide)

/-- **A condition says the same before and after both passes.** -/
theorem condition_holds_iff {refuses : Operator → Operand → Option String} {columns : List String}
    {definitions : Definitions} {path : String} {raw : Value} {c : Condition definitions}
    {clause : Clause} (hc : normalizeFilterCondition definitions path raw = .ok c)
    (hclause : compileCondition refuses columns resolved c = .ok clause) :
    RawConditionHolds meaning resolved row raw ↔ clause.Holds meaning row := by
  obtain ⟨w, hw, hholds⟩ := holds_of_compileCondition hclause
  rw [hholds]
  unfold normalizeFilterCondition at hc
  split at hc
  · rename_i kvs
    obtain ⟨field, hfield, hc⟩ := bind_eq_ok.1 hc
    dsimp only at hc
    split at hc
    · cases hc
    · rename_i op hop
      have hraw : RawConditionHolds meaning resolved row (.obj kvs) ↔
          Compared meaning row field.val op
            (rawOperand resolved (Value.field kvs "value")) := by
        rw [RawConditionHolds, val_of_requireToken hfield]
        constructor
        · rintro ⟨op', hop', hcompared⟩
          rw [hop] at hop'
          obtain rfl := Option.some.inj hop'
          exact hcompared
        · intro hcompared
          exact ⟨op, hop, hcompared⟩
      rw [hraw]
      split_ifs at hc with hcheck
      · obtain rfl := Except.ok.inj hc
        exact compared_of_isNullCheck hcheck _ _
      · split at hc
        · cases hc
        · rename_i value hvalue
          obtain ⟨v, hv, hc⟩ := bind_eq_ok.1 hc
          obtain rfl := Except.ok.inj hc
          have hoperand := rawOperand_of_normalizeFilterValue hv hw
          rw [Value.field, hvalue, Option.getD_some, hoperand]
  · cases hc

/-! ### Items -/

theorem listOf_of_listOrEmpty {path : String} {v : Value} {xs : List Value}
    (h : listOrEmpty path v = .ok xs) : listOf v = xs := by
  unfold listOrEmpty at h
  split_ifs at h with htruthy
  · cases v with
    | arr ys => exact Except.ok.inj h
    | null | bool | int | float | str | obj => cases h
  · obtain rfl := Except.ok.inj h
    cases v with
    | arr ys =>
      cases ys with
      | nil => rfl
      | cons y ys => simp [Value.truthy] at htruthy
    | null | bool | int | float | str | obj => rfl

theorem rawLogic_of_normalizeLogic {path : String} {kvs : List (String × Value)} {logic : Logic}
    (h : normalizeLogic path (Value.field kvs "logic") = .ok logic) : rawLogic kvs = logic := by
  unfold normalizeLogic at h
  unfold rawLogic
  split at h
  · rename_i l hl
    rw [hl, Option.getD_some]
    exact Except.ok.inj h
  · cases h

section

variable {refuses : Operator → Operand → Option String} {columns : List String}
  {definitions : Definitions}

/-- Lists of conditions say the same before and after both passes. -/
theorem conditions_hold_iff {path : ℕ → String} {raws : List Value}
    {conditions : List (Condition definitions)} {clauses : List Clause}
    (hc : enumM (fun i => normalizeFilterCondition definitions (path i)) 0 raws = .ok conditions)
    (hclauses : conditions.mapM (compileCondition refuses columns resolved) = .ok clauses)
    (logic : Logic) :
    Combined logic (RawConditionHolds meaning resolved row) raws
      ↔ (Clause.join logic clauses).Holds meaning row := by
  rw [Clause.holds_join]
  refine combined_congr (forall₂_comp (forall₂_of_enumM hc) (forall₂_of_mapM hclauses)) ?_ logic
  rintro raw clause ⟨c, ⟨i, hraw⟩, hclause⟩
  exact condition_holds_iff hraw hclause

/-- **An item says the same before and after both passes.** -/
theorem item_holds_iff {path : String} {raw : Value} {item : FilterItem definitions}
    {clause : Clause} (hitem : normalizeFilterItem definitions path raw = .ok item)
    (hclause : compileFilterItem refuses columns resolved item = .ok clause) :
    RawItemHolds meaning resolved row raw ↔ clause.Holds meaning row := by
  unfold normalizeFilterItem at hitem
  split at hitem
  · rename_i kvs
    dsimp only at hitem
    rw [RawItemHolds]
    split_ifs at hitem with hgroup hcondition
    · rw [if_pos hgroup]
      obtain ⟨logic, hlogic, hitem⟩ := bind_eq_ok.1 hitem
      obtain ⟨raws, hraws, hitem⟩ := bind_eq_ok.1 hitem
      obtain ⟨conditions, hconditions, hitem⟩ := bind_eq_ok.1 hitem
      split_ifs at hitem
      obtain rfl := Except.ok.inj hitem
      rw [compileFilterItem] at hclause
      obtain ⟨clauses, hclauses, rfl⟩ := map_eq_ok.1 hclause
      rw [rawLogic_of_normalizeLogic hlogic, listOf_of_listOrEmpty hraws]
      exact conditions_hold_iff hconditions hclauses logic
    · rw [if_neg hgroup]
      obtain ⟨c, hc, hitem⟩ := bind_eq_ok.1 hitem
      obtain rfl := Except.ok.inj hitem
      exact condition_holds_iff hc hclause
  · cases hitem

/-- A list of one clause says what the clause says. -/
theorem Clause.holds_join_singleton (logic : Logic) (clause : Clause) :
    (Clause.join logic [clause]).Holds meaning row ↔ clause.Holds meaning row := by
  rw [Clause.holds_join]
  cases logic <;> simp [Combined]

/-- **What is in force of a filter says the same before and after both passes.** -/
theorem filter_holds_iff {kvs : List (String × Value)} {f : Filter definitions} {clause : Clause}
    (hf : normalizeFilter definitions (.obj kvs) = .ok (some f))
    (hclause : compileFilter refuses columns resolved f = .ok clause) :
    Combined (rawLogic kvs) (Present.Holds meaning resolved row) (inForce kvs)
      ↔ clause.Holds meaning row := by
  rw [normalizeFilter] at hf
  obtain ⟨logic, hlogic, hf⟩ := bind_eq_ok.1 hf
  obtain ⟨items, hitems, hf⟩ := bind_eq_ok.1 hf
  split_ifs at hf with hnil
  · cases hf
  obtain rfl := Option.some.inj (Except.ok.inj hf)
  rw [compileFilter] at hclause
  obtain ⟨clauses, hclauses, rfl⟩ := map_eq_ok.1 hclause
  rw [rawLogic_of_normalizeLogic hlogic]
  dsimp only at hclauses ⊢
  unfold normalizeItems at hitems
  unfold inForce
  dsimp only at hitems
  split_ifs at hitems with hnull
  · -- conditions in the legacy form have become one group
    rw [if_pos hnull]
    obtain ⟨raws, hraws, hitems⟩ := bind_eq_ok.1 hitems
    obtain ⟨conditions, hconditions, hitems⟩ := bind_eq_ok.1 hitems
    split_ifs at hitems with hempty
    · exact absurd (Except.ok.inj hitems).symm hnil
    · obtain rfl := Except.ok.inj hitems
      rcases forall₂_of_mapM hclauses with _ | ⟨hgroup, _ | _⟩
      rw [compileFilterItem] at hgroup
      obtain ⟨inner, hinner, rfl⟩ := map_eq_ok.1 hgroup
      rw [listOf_of_listOrEmpty hraws, combined_map, Clause.holds_join_singleton]
      exact conditions_hold_iff hconditions hinner logic
  · rw [if_neg hnull]
    obtain ⟨raws, hraws, hitems⟩ := bind_eq_ok.1 hitems
    rw [listOf_of_listOrEmpty hraws, combined_map, Clause.holds_join]
    refine combined_congr (forall₂_comp (forall₂_of_enumM hitems) (forall₂_of_mapM hclauses)) ?_ _
    rintro raw clause ⟨item, ⟨i, hraw⟩, hclause⟩
    exact item_holds_iff hraw hclause

theorem eq_nil_iff_of_enumM {ε α β : Type} {read : ℕ → α → Except ε β} {i : ℕ} {xs : List α}
    {ys : List β} (h : enumM read i xs = .ok ys) : ys = [] ↔ xs = [] := by
  cases forall₂_of_enumM h with
  | nil => simp
  | cons => simp

/-- A filter is normalized to nothing just where nothing of it is in force. -/
theorem eq_none_iff_inForce {kvs : List (String × Value)} {filter : Option (Filter definitions)}
    (hf : normalizeFilter definitions (.obj kvs) = .ok filter) :
    filter = none ↔ inForce kvs = [] := by
  rw [normalizeFilter] at hf
  obtain ⟨logic, -, hf⟩ := bind_eq_ok.1 hf
  obtain ⟨items, hitems, hf⟩ := bind_eq_ok.1 hf
  have hnone : filter = none ↔ items = [] := by
    split_ifs at hf with hnil
    · simp [← Except.ok.inj hf, hnil]
    · simp [← Except.ok.inj hf, hnil]
  rw [hnone]
  unfold normalizeItems at hitems
  unfold inForce
  dsimp only at hitems
  split_ifs at hitems with hnull
  · rw [if_pos hnull]
    obtain ⟨raws, hraws, hitems⟩ := bind_eq_ok.1 hitems
    obtain ⟨conditions, hconditions, hitems⟩ := bind_eq_ok.1 hitems
    rw [listOf_of_listOrEmpty hraws, List.map_eq_nil_iff, ← eq_nil_iff_of_enumM hconditions]
    split_ifs at hitems with hempty
    · simp [← Except.ok.inj hitems, hempty]
    · simp [← Except.ok.inj hitems, hempty]
  · rw [if_neg hnull]
    obtain ⟨raws, hraws, hitems⟩ := bind_eq_ok.1 hitems
    rw [listOf_of_listOrEmpty hraws, List.map_eq_nil_iff, eq_nil_iff_of_enumM hitems]

theorem exists_obj_of_normalizeFilter {raw : Value} {f : Filter definitions}
    (h : normalizeFilter definitions raw = .ok (some f)) : ∃ kvs, raw = .obj kvs := by
  unfold normalizeFilter at h
  split at h
  · cases h
  · exact ⟨_, rfl⟩
  · cases h

end

/-- The clause of a perimeter is that of its raw filter. -/
theorem compileWhere_of_normalize {raw : Value} {p : Option Perimeter} (hp : normalize raw = .ok p)
    (refuses : Operator → Operand → Option String) (columns : List String) :
    ∃ (definitions : Definitions) (filter : Option (Filter definitions)),
      normalizeFilter definitions (rawFilter raw) = .ok filter ∧
      compileWhere refuses columns resolved p =
        match filter with
        | none => .ok none
        | some f => some <$> compileFilter refuses columns resolved f := by
  have hnothing : p = none → rawFilter raw = .null → ∃ (definitions : Definitions)
      (filter : Option (Filter definitions)),
      normalizeFilter definitions (rawFilter raw) = .ok filter ∧
      compileWhere refuses columns resolved p =
        match filter with
        | none => .ok none
        | some f => some <$> compileFilter refuses columns resolved f := by
    rintro rfl hraw
    exact ⟨⟨[], List.nodup_nil⟩, none, by rw [hraw]; rfl, rfl⟩
  unfold normalize at hp
  split at hp
  · exact hnothing (Except.ok.inj hp).symm rfl
  · rename_i kvs
    split_ifs at hp with hempty
    · rw [List.isEmpty_iff] at hempty
      subst hempty
      exact hnothing (Except.ok.inj hp).symm rfl
    · obtain ⟨parameters, -, hp⟩ := bind_eq_ok.1 hp
      obtain ⟨selectedColumns, -, hp⟩ := bind_eq_ok.1 hp
      obtain ⟨filter, hfilter, hp⟩ := bind_eq_ok.1 hp
      obtain ⟨sort, -, hp⟩ := bind_eq_ok.1 hp
      refine ⟨parameters, filter, hfilter, ?_⟩
      obtain rfl := Except.ok.inj hp
      unfold Perimeter.mk?
      split_ifs with hpresent
      · cases filter <;> rfl
      · cases filter with
        | none => rfl
        | some f => simp at hpresent
  · cases hp

/-- **The rows that a compiled perimeter selects are those that its filter is for**: its items
where it has them, its conditions otherwise. -/
theorem keeps_inForce {refuses : Operator → Operand → Option String} {columns : List String}
    {raw : Value} {limit : Option ℤ} {q : DatasetQueryCompilation}
    (h : compile refuses columns resolved raw limit = .ok q) :
    Keeps meaning resolved inForce raw q.stmt := by
  obtain ⟨p, hp, h⟩ := bind_eq_ok.1 h
  obtain ⟨selected, -, h⟩ := bind_eq_ok.1 h
  obtain ⟨whereClause, hwhere, h⟩ := bind_eq_ok.1 h
  obtain ⟨orderBy, -, h⟩ := bind_eq_ok.1 h
  obtain rfl := Except.ok.inj h
  obtain ⟨definitions, filter, hfilter, hcompiled⟩ := compileWhere_of_normalize hp refuses columns
  rw [hcompiled] at hwhere
  cases filter with
  | none =>
    obtain rfl := Except.ok.inj hwhere
    constructor
    · intro row
      constructor
      · intro _ kvs hkvs
        rw [hkvs] at hfilter
        exact .inl ((eq_none_iff_inForce hfilter).1 rfl)
      · intro _ clause hclause
        cases hclause
    · intro kvs hkvs hpresent
      rw [hkvs] at hfilter
      exact absurd ((eq_none_iff_inForce hfilter).1 rfl) hpresent
  | some f =>
    obtain ⟨clause, hclause, rfl⟩ := map_eq_ok.1 hwhere
    constructor
    · intro row
      constructor
      · intro hselects kvs hkvs
        rw [hkvs] at hfilter
        exact .inr ((filter_holds_iff hfilter hclause).2 (hselects clause rfl))
      · intro hkept clause' hclause'
        obtain rfl := Option.some.inj hclause'
        obtain ⟨kvs, hkvs⟩ := exists_obj_of_normalizeFilter hfilter
        rw [hkvs] at hfilter
        rcases hkept kvs hkvs with hnothing | hcombined
        · have hnone := (eq_none_iff_inForce hfilter).2 hnothing
          cases hnone
        · exact (filter_holds_iff hfilter hclause).1 hcombined
    · intro kvs _ _ hnone
      cases hnone

end

/-- A comparison that the library makes of any column with any value. -/
def refusesNothing (_ : Operator) (_ : Operand) : Option String := none

/-- Cells that are texts, and the operators that compare them for equality. -/
def textMeaning : Meaning (Option String) where
  isNull cell := cell = none
  test op cell value :=
    match op, cell, value with
    | .eq, some s, .json (.str t) => s = t
    | .neq, some s, .json (.str t) => s ≠ t
    | _, _, _ => False

/-- A filter with items, and with a condition in the legacy form beside them. -/
def rawBoth (items : List Value) : Value :=
  .obj [("filter", .obj [("items", .arr items),
    ("conditions", .arr [.obj [("field", .str "status"), ("operator", .str "eq"),
      ("value", .str "READY")]])])]

/-- A filter in the legacy form. -/
def rawReady : Value :=
  .obj [("filter", .obj [("conditions", .arr [.obj [("field", .str "status"),
    ("operator", .str "eq"), ("value", .str "READY")]])])]

theorem rawReady_keeps : ∃ q, compile refusesNothing ["status"] [] rawReady none = .ok q ∧
    Keeps textMeaning [] inForce rawReady q.stmt := by
  refine ⟨_, rfl, ?_⟩
  have hcompile := Eq.refl (compile refusesNothing ["status"] [] rawReady none)
  exact keeps_inForce hcompile

/-- Where there are items, even none of them, a condition beside them is not compiled. -/
theorem rawBoth_not_keeps : ∃ q, compile refusesNothing ["status"] [] (rawBoth []) none = .ok q ∧
    ¬Keeps textMeaning [] everyPresent (rawBoth []) q.stmt := by
  refine ⟨_, rfl, ?_⟩
  intro h
  have hpresent : everyPresent [("items", .arr []), ("conditions", .arr [.obj [("field",
      .str "status"), ("operator", .str "eq"), ("value", .str "READY")]])] ≠ [] := by
    intro hnil
    cases hnil
  exact h.restricts _ rfl hpresent rfl

end Dataset
end QualityFlow
