/-
# Assertions on arrays

`jsonArrayEquals` and `jsonArrayContains`: what the rows of two arrays have to do with
each other where an assertion passes, as multisets of the values the rows have under the
keys that are compared.

The evaluator is not given the resolved actual value but rows of data, which are those
of the actual value only where that is a list.
-/

import QualityFlow.Assert.Evaluators
import Mathlib.Data.Multiset.Defs

namespace QualityFlow
namespace Assert

open Py Command

/-! ### Arrays as multisets -/

/-- Every row has every key. -/
def HasKeys (keys : List String) (rows : List Row) : Prop :=
  ∀ row ∈ rows, ∀ key ∈ keys, Dict.has row key = true

/-- The rows as the multiset of what they have under the keys. -/
def projections (keys : List String) (rows : List Row) : Multiset (List String) :=
  (rows.map (projection keys) : List (List String))

/-- A value is an array of objects. -/
def IsRows (value : Json) (rows : List Row) : Prop := value = .arr (rows.map .obj)

/-- A value is an array of objects, or the one object of such an array. -/
def IsPayload (value : Json) (rows : List Row) : Prop :=
  IsRows value rows ∨ ∃ row, value = .obj row ∧ rows = [row]

/-- How the multisets are related where an assertion on arrays passes. -/
def Related : AssertCode → Multiset (List String) → Multiset (List String) → Prop
  | .jsonArrayEquals => fun actual expected => actual = expected
  | _ => fun actual expected => actual ≤ expected

/-- Two values are arrays of objects that are related on some keys. -/
def ArraysMatch (code : AssertCode) (keys : List String) (actual expected : Json) : Prop :=
  ∃ rows rows', IsRows actual rows ∧ IsPayload expected rows' ∧ HasKeys keys rows ∧
    HasKeys keys rows' ∧ Related code (projections keys rows) (projections keys rows')

/-! ### The helpers of the evaluators -/

theorem normalizeRowsFrom_eq_ok {label : String} {index : ℕ} {items : List Json}
    {rows : List Row} :
    normalizeRowsFrom label index items = .ok rows ↔ items = rows.map .obj := by
  induction items generalizing index rows with
  | nil =>
    rw [normalizeRowsFrom, Except.ok.injEq]
    constructor
    · rintro rfl
      rfl
    · intro h
      exact (List.map_eq_nil_iff.1 h.symm).symm
  | cons item items ih =>
    cases item with
    | obj row =>
      rw [normalizeRowsFrom, bind_eq_ok]
      constructor
      · rintro ⟨rest, hrest, heq⟩
        obtain rfl := Except.ok.inj heq
        rw [ih.1 hrest, List.map_cons]
      · intro h
        obtain ⟨row', rest, rfl, hrow, hrest⟩ := List.map_eq_cons_iff.1 h.symm
        obtain rfl := Json.obj.inj hrow
        exact ⟨rest, ih.2 hrest.symm, rfl⟩
    | _ =>
      simp only [normalizeRowsFrom, reduceCtorEq, false_iff]
      intro h
      obtain ⟨row', rest, -, hrow, -⟩ := List.map_eq_cons_iff.1 h.symm
      simp at hrow

/-- `_normalize_rows` gives the rows of an array of objects, and raises on all else. -/
theorem normalizeRows_eq_ok {value : Json} {label : String} {rows : List Row} :
    normalizeRows value label = .ok rows ↔ IsRows value rows := by
  unfold normalizeRows IsRows
  cases value with
  | arr items => simp only [normalizeRowsFrom_eq_ok, Json.arr.injEq]
  | _ => simp

theorem missingKeys_eq_nil {keys : List String} {row : Row} :
    missingKeys keys row = [] ↔ ∀ key ∈ keys, Dict.has row key = true := by
  simp [missingKeys, List.filter_eq_nil_iff]

theorem buildMultisetFrom_eq_ok {keys : List String} {label : String} {index : ℕ}
    {counter multiset : Counter (List String)} {rows : List Row} :
    buildMultisetFrom keys label index counter rows = .ok multiset
      ↔ HasKeys keys rows ∧ multiset = (rows.map (projection keys)).foldl Counter.add counter := by
  induction rows generalizing index counter with
  | nil =>
    have hnone : HasKeys keys [] := List.forall_mem_nil _
    rw [buildMultisetFrom, Except.ok.injEq, and_iff_right hnone, List.map_nil, List.foldl_nil,
      eq_comm]
  | cons row rows ih =>
    have hcons : HasKeys keys (row :: rows) ↔ missingKeys keys row = [] ∧ HasKeys keys rows := by
      rw [HasKeys, List.forall_mem_cons, missingKeys_eq_nil]
      rfl
    rw [hcons, List.map_cons, List.foldl_cons, buildMultisetFrom]
    by_cases hmissing : missingKeys keys row = []
    · simp only [hmissing, ne_eq, not_true_eq_false, if_false, true_and]
      exact ih
    · simp [hmissing]

/-- `_build_multiset` counts what the rows have under the keys, and raises where one of
them lacks a key. -/
theorem buildMultiset_eq_ok {keys : List String} {label : String}
    {multiset : Counter (List String)} {rows : List Row} :
    buildMultiset rows keys label = .ok multiset
      ↔ HasKeys keys rows ∧ multiset = Counter.ofList (rows.map (projection keys)) :=
  buildMultisetFrom_eq_ok

theorem payloadRows_eq_ok {payload : Json} {label : String} {rows : List Row} :
    payloadRows payload label = .ok rows ↔ IsPayload payload rows := by
  unfold payloadRows IsPayload
  cases payload with
  | obj row => simp [IsRows, eq_comm]
  | _ => simp [normalizeRows_eq_ok]

/-- The commands that compare arrays. -/
def IsArrayCode (code : AssertCode) : Prop := code = .jsonArrayEquals ∨ code = .jsonArrayContains

/-- A command that compares arrays has keys to compare. -/
theorem compareKeys_ne_nil {cfg : AssertConfigurationCommandDto} (h : IsArrayCode cfg.code) :
    compareKeys cfg ≠ [] := by
  have hrequired := cfg.required
  unfold compareKeys
  cases hkeys : cfg.compareKeys with
  | none =>
    unfold AssertCode.requiredError at hrequired
    rw [hkeys] at hrequired
    by_cases href : cfg.expectedRef = none
    · rw [if_pos ⟨h, href⟩] at hrequired
      simp at hrequired
    · rw [if_neg fun hboth => href hboth.2, if_pos ⟨h, rfl⟩] at hrequired
      simp at hrequired
  | some keys => simpa using keys.ne_nil

/-- **What the two array evaluators check.** -/
theorem evaluateArrays_eq_ok {compare : Counter (List String) → Counter (List String) → Bool}
    {message : String} {services : Services} {context : AssertEvaluationContext}
    (hkeys : compareKeys context.cfg ≠ []) (hexpected : context.expected ≠ .null) :
    evaluateArrays compare message services context = .ok ()
      ↔ ∃ rows rows', IsRows (.arr context.data) rows ∧ IsPayload context.expected rows' ∧
          HasKeys (compareKeys context.cfg) rows ∧ HasKeys (compareKeys context.cfg) rows' ∧
          compare (Counter.ofList (rows.map (projection (compareKeys context.cfg))))
            (Counter.ofList (rows'.map (projection (compareKeys context.cfg)))) = true := by
  unfold evaluateArrays
  simp only [if_neg hkeys, bind_eq_ok, normalizeRows_eq_ok, loadExpectedJsonArrayRows,
    if_pos hexpected, payloadRows_eq_ok, buildMultiset_eq_ok]
  constructor
  · rintro ⟨rows, hrows, rows', hrows', _, ⟨hhas, rfl⟩, _, ⟨hhas', rfl⟩, hcompare⟩
    refine ⟨rows, rows', hrows, hrows', hhas, hhas', ?_⟩
    by_contra hnot
    rw [if_neg hnot] at hcompare
    simp at hcompare
  · rintro ⟨rows, rows', hrows, hrows', hhas, hhas', hcompare⟩
    exact ⟨rows, hrows, rows', hrows', _, ⟨hhas, rfl⟩, _, ⟨hhas', rfl⟩, if_pos hcompare⟩

theorem evaluateArrayEquals_eq_ok {services : Services} {context : AssertEvaluationContext}
    (hcode : context.cfg.code = .jsonArrayEquals) (hexpected : context.expected ≠ .null) :
    evaluateArrayEquals services context = .ok ()
      ↔ ArraysMatch context.cfg.code (compareKeys context.cfg) (.arr context.data)
          context.expected := by
  rw [evaluateArrayEquals, evaluateArrays_eq_ok (compareKeys_ne_nil (.inl hcode)) hexpected]
  simp only [Counter.eq_iff, ArraysMatch, hcode, Related, projections]

theorem evaluateArrayContains_eq_ok {services : Services} {context : AssertEvaluationContext}
    (hcode : context.cfg.code = .jsonArrayContains) (hexpected : context.expected ≠ .null) :
    evaluateArrayContains services context = .ok ()
      ↔ ArraysMatch context.cfg.code (compareKeys context.cfg) (.arr context.data)
          context.expected := by
  rw [evaluateArrayContains, evaluateArrays_eq_ok (compareKeys_ne_nil (.inr hcode)) hexpected]
  simp only [List.all_eq_true, decide_eq_true_eq, Counter.le_iff, ArraysMatch, hcode, Related,
    projections]

/-! ### The dispatcher -/

theorem objectType_normal (cfg : AssertConfigurationCommandDto) :
    lower (replaceChar '_' '-' (strip cfg.evaluatedObjectType)) = cfg.evaluatedObjectType :=
  cfg.evaluatedObjectType_normal

theorem normal_arrayEquals :
    lower (replaceChar '_' '-' (strip "json-array-equals")) = "json-array-equals" := by
  decide +kernel

theorem normal_arrayContains :
    lower (replaceChar '_' '-' (strip "json-array-contains")) = "json-array-contains" := by
  decide +kernel

/-- The evaluator of an object type and an assertion on arrays. -/
theorem get?_arrayEquals (services : Services) (objectType : String) :
    (evaluatorMapping services).get? (objectType, "json-array-equals")
      = if objectType = "json-data" then some (evaluateArrayEquals services) else none := by
  by_cases h : objectType = "json-data"
  · subst h
    rfl
  · have hne : ∀ assertType, ("json-data", assertType) ≠ (objectType, "json-array-equals") :=
      fun _ heq => h (Prod.mk.inj heq).1.symm
    simp only [evaluatorMapping, Dict.get?_cons, Dict.get?_nil, if_neg (hne _), if_neg h]

theorem get?_arrayContains (services : Services) (objectType : String) :
    (evaluatorMapping services).get? (objectType, "json-array-contains")
      = if objectType = "json-data" then some (evaluateArrayContains services) else none := by
  by_cases h : objectType = "json-data"
  · subst h
    rfl
  · have hne : ∀ assertType, ("json-data", assertType) ≠ (objectType, "json-array-contains") :=
      fun _ heq => h (Prod.mk.inj heq).1.symm
    simp only [evaluatorMapping, Dict.get?_cons, Dict.get?_nil, if_neg (hne _), if_neg h]

/-- **An assertion on arrays judges the rows it is given.** -/
theorem evaluateAssert_eq_ok {services : Services} {cfg : AssertConfigurationCommandDto}
    {data actual expected : Json} (hcode : IsArrayCode cfg.code) (hexpected : expected ≠ .null) :
    evaluateAssert services cfg data actual expected = .ok ()
      ↔ cfg.evaluatedObjectType = "json-data" ∧
          ArraysMatch cfg.code (compareKeys cfg) (.arr (listOrEmpty data)) expected := by
  unfold evaluateAssert
  rcases hcode with hcode | hcode
  · have htype : cfg.assertType = "json-array-equals" := by
      rw [AssertConfigurationCommandDto.assertType, hcode]
    simp only [objectType_normal, htype, normal_arrayEquals, get?_arrayEquals]
    by_cases h : cfg.evaluatedObjectType = "json-data"
    · rw [if_pos h, and_iff_right h]
      exact evaluateArrayEquals_eq_ok hcode hexpected
    · simp [h]
  · have htype : cfg.assertType = "json-array-contains" := by
      rw [AssertConfigurationCommandDto.assertType, hcode]
    simp only [objectType_normal, htype, normal_arrayContains, get?_arrayContains]
    by_cases h : cfg.evaluatedObjectType = "json-data"
    · rw [if_pos h, and_iff_right h]
      exact evaluateArrayContains_eq_ok hcode hexpected
    · simp [h]

/-! ### The executor -/

/-- The executor returns where the evaluator does. -/
theorem succeeds_iff {services : Services} {operationId : String}
    {cfg : AssertConfigurationCommandDto} {data actual expected : Json}
    (hactual : services.resolveInputReference cfg.actualRef data = .ok actual)
    (hexpected : resolveExpected services cfg data = .ok expected) :
    Succeeds services operationId cfg data
      ↔ evaluateAssert services cfg (dataToEvaluate actual data) actual expected = .ok () := by
  unfold Succeeds execute
  simp only [hactual, hexpected]
  cases evaluateAssert services cfg (dataToEvaluate actual data) actual expected with
  | ok u =>
    constructor
    · intro _
      rfl
    · intro _
      exact ⟨_, rfl⟩
  | error e => simp

/-- A value is a list. -/
def IsList (value : Json) : Prop := ∃ items, value = .arr items

theorem IsRows.isList {value : Json} {rows : List Row} (h : IsRows value rows) : IsList value :=
  ⟨_, h⟩

theorem ArraysMatch.isList {code : AssertCode} {keys : List String} {actual expected : Json}
    (h : ArraysMatch code keys actual expected) : IsList actual := by
  obtain ⟨rows, -, hrows, -⟩ := h
  exact hrows.isList

/-- **An assertion on arrays judges the resolved actual value, just where that is a list,
of an object type that has evaluators or without a match, or where the data that stand in
for it do not pass.** -/
theorem arraysJudged_iff {services : Services} {operationId : String}
    {cfg : AssertConfigurationCommandDto} {data actual expected : Json}
    (hcode : IsArrayCode cfg.code)
    (hactual : services.resolveInputReference cfg.actualRef data = .ok actual)
    (hexpected : resolveExpected services cfg data = .ok expected) (hne : expected ≠ .null) :
    (Succeeds services operationId cfg data
        ↔ ArraysMatch cfg.code (compareKeys cfg) actual expected)
      ↔ (IsList actual → cfg.evaluatedObjectType = "json-data" ∨
            ¬ ArraysMatch cfg.code (compareKeys cfg) actual expected) ∧
          (¬ IsList actual → cfg.evaluatedObjectType ≠ "json-data" ∨
            ¬ ArraysMatch cfg.code (compareKeys cfg) (.arr (listOrEmpty data)) expected) := by
  rw [succeeds_iff hactual hexpected, evaluateAssert_eq_ok hcode hne]
  by_cases hlist : IsList actual
  · obtain ⟨items, rfl⟩ := hlist
    have hlist : IsList (.arr items) := ⟨items, rfl⟩
    simp only [dataToEvaluate, listOrEmpty, hlist, not_true_eq_false, true_implies,
      false_implies, and_true]
    tauto
  · have hdata : dataToEvaluate actual data = data := by
      cases actual with
      | arr items => exact absurd ⟨items, rfl⟩ hlist
      | _ => rfl
    have hno : ¬ ArraysMatch cfg.code (compareKeys cfg) actual expected :=
      fun hmatch => hlist hmatch.isList
    simp only [hdata, hno, hlist, iff_false, false_implies, not_false_eq_true, true_implies,
      true_and]
    tauto

/-! ### Permutations, and both directions -/

theorem projections_perm {keys : List String} {rows rows' : List Row} (h : rows.Perm rows') :
    projections keys rows = projections keys rows' :=
  Multiset.coe_eq_coe.2 (h.map _)

theorem HasKeys.perm {keys : List String} {rows rows' : List Row} (h : rows.Perm rows')
    (hkeys : HasKeys keys rows) : HasKeys keys rows' :=
  fun row hrow => hkeys row (h.mem_iff.2 hrow)

/-- A value as a row. -/
def rowOf : Json → Row
  | .obj row => row
  | _ => []

theorem isRows_iff {items : List Json} {rows : List Row} :
    IsRows (.arr items) rows ↔ rows = items.map rowOf ∧ ∀ item ∈ items, item = .obj (rowOf item) := by
  unfold IsRows
  rw [Json.arr.injEq]
  constructor
  · rintro rfl
    refine ⟨?_, ?_⟩
    · rw [List.map_map]
      exact (List.map_id _).symm
    · rintro item hitem
      obtain ⟨row, -, rfl⟩ := List.mem_map.1 hitem
      rfl
  · rintro ⟨rfl, hall⟩
    rw [List.map_map]
    exact (List.map_id _).symm.trans (List.map_congr_left hall)

theorem IsRows.perm {items items' : List Json} {rows : List Row} (h : items.Perm items')
    (hrows : IsRows (.arr items) rows) : ∃ rows', rows.Perm rows' ∧ IsRows (.arr items') rows' := by
  obtain ⟨rfl, hall⟩ := isRows_iff.1 hrows
  refine ⟨items'.map rowOf, h.map rowOf, isRows_iff.2 ⟨rfl, ?_⟩⟩
  intro item hitem
  exact hall item (h.mem_iff.2 hitem)

/-- The rows of a list are those of an array, the list not being one object. -/
theorem isPayload_arr {items : List Json} {rows : List Row} :
    IsPayload (.arr items) rows ↔ IsRows (.arr items) rows := by
  simp [IsPayload]

theorem ArraysMatch.perm {code : AssertCode} {keys : List String}
    {items items' expected expected' : List Json} (h : items.Perm items')
    (h' : expected.Perm expected') (hmatch : ArraysMatch code keys (.arr items) (.arr expected)) :
    ArraysMatch code keys (.arr items') (.arr expected') := by
  obtain ⟨rows, rows', hrows, hrows', hkeys, hkeys', hrelated⟩ := hmatch
  rw [isPayload_arr] at hrows'
  obtain ⟨rows₂, hperm, hrows₂⟩ := hrows.perm h
  obtain ⟨rows₂', hperm', hrows₂'⟩ := hrows'.perm h'
  refine ⟨rows₂, rows₂', hrows₂, isPayload_arr.2 hrows₂', hkeys.perm hperm, hkeys'.perm hperm', ?_⟩
  rwa [← projections_perm hperm, ← projections_perm hperm']

/-- **The order of the items of the two arrays makes no difference.** -/
theorem arraysMatch_perm {code : AssertCode} {keys : List String}
    {items items' expected expected' : List Json} (h : items.Perm items')
    (h' : expected.Perm expected') :
    ArraysMatch code keys (.arr items) (.arr expected)
      ↔ ArraysMatch code keys (.arr items') (.arr expected') :=
  ⟨ArraysMatch.perm h h', ArraysMatch.perm h.symm h'.symm⟩

/-- **Two arrays are equal just where each is contained in the other.** -/
theorem arraysMatch_equals_iff {keys : List String} {items expected : List Json} :
    ArraysMatch .jsonArrayEquals keys (.arr items) (.arr expected)
      ↔ ArraysMatch .jsonArrayContains keys (.arr items) (.arr expected) ∧
          ArraysMatch .jsonArrayContains keys (.arr expected) (.arr items) := by
  simp only [ArraysMatch, isPayload_arr, Related]
  constructor
  · rintro ⟨rows, rows', hrows, hrows', hkeys, hkeys', heq⟩
    exact ⟨⟨rows, rows', hrows, hrows', hkeys, hkeys', heq.le⟩,
      ⟨rows', rows, hrows', hrows, hkeys', hkeys, heq.ge⟩⟩
  · rintro ⟨⟨rows, rows', hrows, hrows', hkeys, hkeys', hle⟩, rows₂', rows₂, hrows₂', hrows₂, -, -,
      hge⟩
    obtain rfl := (isRows_iff.1 hrows).1.trans (isRows_iff.1 hrows₂).1.symm
    obtain rfl := (isRows_iff.1 hrows').1.trans (isRows_iff.1 hrows₂').1.symm
    exact ⟨rows, rows', hrows, hrows', hkeys, hkeys', le_antisymm hle hge⟩

/-! ### An actual value that is not a list -/

theorem strip_orders : strip "orders" = "orders" := by decide

theorem orders_ne : "orders" ≠ "" := by decide

theorem jsonData_normal : normalizeEvaluatedObjectType "json-data" = "json-data" := by
  decide +kernel

/-- An assertion that a constant is contained in the array of a source, by the key `id`. -/
def containedById : AssertConfigurationCommandDto where
  code := .jsonArrayContains
  commandType := .assert
  errorMessage := none
  evaluatedObjectType := "json-data"
  actualRef := .runtimeValue ⟨"order", by decide, by decide⟩
  actualConstantRef := none
  expected := .null
  expectedRef := some (.source ⟨"orders", strip_orders, orders_ne⟩)
  expectedJsonArrayId := none
  compareKeys := some ⟨[⟨"id", by decide, by decide⟩], by simp⟩
  jsonSchema := none
  evaluatedObjectType_normal := jsonData_normal
  required := by simp [AssertCode.requiredError]

/-- Constants of one value, and sources of another. -/
def servicesOf (constant source : Json) : Services where
  resolveInputReference ref _ :=
    match ref with
    | .runtimeValue _ => .ok constant
    | .source _ => .ok source
  resolveDynamicValue := .ok
  jsonPayload? _ := none
  validate _ _ := none

/-- **An object that is in no array is found contained, where no data came in.** -/
theorem object_found_contained :
    Succeeds (servicesOf (.obj [("id", .int 7)]) (.arr [.obj [("id", .int 1)]])) "command"
        containedById (.arr []) ∧
      ¬ ArraysMatch .jsonArrayContains ["id"] (.obj [("id", .int 7)])
        (.arr [.obj [("id", .int 1)]]) := by
  constructor
  · rw [succeeds_iff rfl rfl, evaluateAssert_eq_ok (.inr rfl) (by simp)]
    refine ⟨rfl, [], [[("id", .int 1)]], rfl, .inl rfl, ?_, ?_, ?_⟩
    · exact List.forall_mem_nil _
    · intro row hrow key hkey
      rw [List.mem_singleton.1 hrow, List.mem_singleton.1 hkey]
      rfl
    · exact Multiset.zero_le _
  · intro hmatch
    obtain ⟨items, hitems⟩ := hmatch.isList
    simp at hitems

/-- Two objects against one, with other data that come in. -/
theorem arraysJudged_iff_orders :
    let actual : Json := .arr [.obj [("id", .int 1)], .obj [("id", .int 2), ("sku", .str "x")]]
    let expected : Json := .arr [.obj [("id", .int 2)]]
    let data : Json := .arr [.obj [("id", .int 3)], .obj [("id", .int 4)]]
    (Succeeds (servicesOf actual expected) "command" containedById data
        ↔ ArraysMatch .jsonArrayContains ["id"] actual expected)
      ↔ (IsList actual → containedById.evaluatedObjectType = "json-data" ∨
            ¬ ArraysMatch .jsonArrayContains ["id"] actual expected) ∧
          (¬ IsList actual →
            containedById.evaluatedObjectType ≠ "json-data" ∨
              ¬ ArraysMatch .jsonArrayContains ["id"] (.arr (listOrEmpty data)) expected) := by
  intro actual expected data
  have hactual : (servicesOf actual expected).resolveInputReference containedById.actualRef data
      = .ok actual := rfl
  have hexpected : resolveExpected (servicesOf actual expected) containedById data
      = .ok expected := rfl
  have hcode : IsArrayCode containedById.code := .inr rfl
  exact @arraysJudged_iff _ "command" _ _ _ _ hcode hactual hexpected (by simp)

end Assert
end QualityFlow
