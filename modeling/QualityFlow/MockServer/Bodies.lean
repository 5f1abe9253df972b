/-
# What a body must contain

`_contains` and `_body_matches` of
`app/mock_servers/services/runtime/mock_runtime_dispatcher.py`.

An expected object asks for some of the keys, an expected array for some of the elements, an
expected text for a part of the text, and any other value for an equal one.  The keys of an
expected object are looked up one by one and the elements of an expected array may all be
found in the same place, so that what a body contains is a preorder, and a body that grows
keeps what it contains.
-/

import Mathlib.Data.List.Infix
import Mathlib.Logic.Relation
import QualityFlow.Py.Dumps

namespace QualityFlow
namespace MockServer

open Py

/-! ### Bodies -/

mutual

/-- No object inside a value has a key twice. -/
def Distinct : Json → Prop
  | .obj kvs => (Dict.keys kvs).Nodup ∧ DistinctItems kvs
  | .arr xs => DistinctList xs
  | .null | .bool _ | .int _ | .float _ | .str _ => True

def DistinctList : List Json → Prop
  | [] => True
  | x :: xs => Distinct x ∧ DistinctList xs

def DistinctItems : List (String × Json) → Prop
  | [] => True
  | kv :: kvs => Distinct kv.2 ∧ DistinctItems kvs

end

/-- A value as the interpreter holds it: its objects are `dict`s. -/
structure Body where
  val : Json
  distinct : Distinct val

/-- One key is added to an object inside a value, or one element to an array. -/
inductive Adds : Json → Json → Prop
  | key (l r : List (String × Json)) (k : String) (x : Json) :
      Adds (.obj (l ++ r)) (.obj (l ++ (k, x) :: r))
  | element (l r : List Json) (x : Json) : Adds (.arr (l ++ r)) (.arr (l ++ x :: r))
  | inKey (l r : List (String × Json)) (k : String) {x y : Json} (h : Adds x y) :
      Adds (.obj (l ++ (k, x) :: r)) (.obj (l ++ (k, y) :: r))
  | inElement (l r : List Json) {x y : Json} (h : Adds x y) :
      Adds (.arr (l ++ x :: r)) (.arr (l ++ y :: r))

/-- A body after any number of additions. -/
def Grows : Body → Body → Prop := Relation.ReflTransGen fun b b' => Adds b.val b'.val

/-! ### Matching -/

mutual

/-- `_contains`. -/
def contains : Json → Json → Bool
  | .obj expected, .obj actual => containsItems expected actual
  | .obj _, _ => false
  | .arr expected, .arr actual => containsList expected actual
  | .arr _, _ => false
  | .str expected, .str actual => decide (expected.toList <:+: actual.toList)
  | expected, actual => expected.pyEq actual

def containsItems : List (String × Json) → List (String × Json) → Bool
  | [], _ => true
  | (key, expectedValue) :: items, actual =>
    (match Dict.get? actual key with
      | none => false
      | some value => contains expectedValue value) && containsItems items actual

def containsList : List Json → List Json → Bool
  | [], _ => true
  | expectedItem :: items, actual =>
    (actual.any fun item => contains expectedItem item) && containsList items actual

end

/-- `MockApiRoute`. -/
structure MockApiRoute where
  id : String
  order : ℤ
  method : String
  path : String
  params : Dict String Json
  headers : Dict String Json
  body : Json
  bodyMatch : String
  priority : ℤ

/-- `_body_matches`. -/
def bodyMatches (route : MockApiRoute) (bodyJson : Json) (bodyRaw : String) : Bool :=
  if route.body = .null then true
  else if isAny route.body then true
  else
    let actual := if bodyJson ≠ .null then bodyJson else .str bodyRaw
    if route.bodyMatch = "equals" then route.body.pyEq actual
    else contains route.body actual
where
  isAny : Json → Bool
    | .str s => upper (strip s) = "ANY"
    | _ => false

/-! ### The lists -/

theorem containsItems_iff {items actual : List (String × Json)} :
    containsItems items actual = true
      ↔ ∀ kv ∈ items, ∃ x, Dict.get? actual kv.1 = some x ∧ contains kv.2 x = true := by
  induction items with
  | nil => simp [containsItems]
  | cons kv items ih =>
    rw [containsItems, Bool.and_eq_true, ih, List.forall_mem_cons]
    refine and_congr_left fun _ => ?_
    cases Dict.get? actual kv.1 with
    | none => simp
    | some x => simp

theorem containsList_iff {items actual : List Json} :
    containsList items actual = true
      ↔ ∀ x ∈ items, ∃ y ∈ actual, contains x y = true := by
  induction items with
  | nil => simp [containsList]
  | cons x items ih =>
    rw [containsList, Bool.and_eq_true, ih, List.forall_mem_cons, List.any_eq_true]

theorem distinctList_iff {xs : List Json} : DistinctList xs ↔ ∀ x ∈ xs, Distinct x := by
  induction xs with
  | nil => simp [DistinctList]
  | cons x xs ih => rw [DistinctList, ih, List.forall_mem_cons]

theorem distinctItems_iff {kvs : List (String × Json)} :
    DistinctItems kvs ↔ ∀ kv ∈ kvs, Distinct kv.2 := by
  induction kvs with
  | nil => simp [DistinctItems]
  | cons kv kvs ih => rw [DistinctItems, ih, List.forall_mem_cons]

/-! ### A preorder -/

theorem contains_str {s : String} {y : Json} :
    contains (.str s) y = true ↔ ∃ t, y = .str t ∧ s.toList <:+: t.toList := by
  cases y with
  | str t => simp [contains]
  | _ => simp [contains, Json.pyEq]

/-- A value that is a number contains what is the same number. -/
theorem contains_number {x y : Json} {q : ℚ} (hx : x.number? = some q) :
    contains x y = true ↔ y.number? = some q := by
  cases x with
  | bool b =>
    obtain rfl := Option.some.inj hx
    simp [contains, Json.pyEq]
  | int n =>
    obtain rfl := Option.some.inj hx
    simp [contains, Json.pyEq]
  | float r =>
    obtain rfl := Option.some.inj hx
    simp [contains, Json.pyEq]
  | _ => simp [Json.number?] at hx

theorem contains_obj {items : List (String × Json)} {y : Json} :
    contains (.obj items) y = true ↔ ∃ actual, y = .obj actual ∧
      ∀ kv ∈ items, ∃ x, Dict.get? actual kv.1 = some x ∧ contains kv.2 x = true := by
  cases y with
  | obj actual => simp [contains, containsItems_iff]
  | _ => simp [contains]

theorem contains_arr {items : List Json} {y : Json} :
    contains (.arr items) y = true ↔ ∃ actual, y = .arr actual ∧
      ∀ x ∈ items, ∃ z ∈ actual, contains x z = true := by
  cases y with
  | arr actual => simp [contains, containsList_iff]
  | _ => simp [contains]

mutual

/-- **What is found in a part of a value is found in the value.** -/
theorem contains_trans : ∀ {x y z : Json}, contains x y = true → contains y z = true →
    contains x z = true
  | .null, y, z, hxy, hyz => by
    obtain rfl : y = .null := by simpa [contains, Json.pyEq] using hxy
    exact hyz
  | .bool b, y, z, hxy, hyz =>
    have hy := (contains_number rfl).1 hxy
    (contains_number rfl).2 ((contains_number hy).1 hyz)
  | .int n, y, z, hxy, hyz =>
    have hy := (contains_number rfl).1 hxy
    (contains_number rfl).2 ((contains_number hy).1 hyz)
  | .float q, y, z, hxy, hyz =>
    have hy := (contains_number rfl).1 hxy
    (contains_number rfl).2 ((contains_number hy).1 hyz)
  | .str s, y, z, hxy, hyz => by
    obtain ⟨t, rfl, hst⟩ := contains_str.1 hxy
    obtain ⟨u, rfl, htu⟩ := contains_str.1 hyz
    exact contains_str.2 ⟨u, rfl, hst.trans htu⟩
  | .arr xs, y, z, hxy, hyz => by
    obtain ⟨ys, rfl, hfound⟩ := contains_arr.1 hxy
    obtain ⟨zs, rfl, hfound'⟩ := contains_arr.1 hyz
    refine contains_arr.2 ⟨zs, rfl, containsList_iff.1 ?_⟩
    exact containsList_trans (containsList_iff.2 hfound) (containsList_iff.2 hfound')
  | .obj kvs, y, z, hxy, hyz => by
    obtain ⟨d, rfl, hfound⟩ := contains_obj.1 hxy
    obtain ⟨e, rfl, hfound'⟩ := contains_obj.1 hyz
    refine contains_obj.2 ⟨e, rfl, containsItems_iff.1 ?_⟩
    exact containsItems_trans (containsItems_iff.2 hfound) (containsItems_iff.2 hfound')

theorem containsList_trans : ∀ {xs ys zs : List Json}, containsList xs ys = true →
    containsList ys zs = true → containsList xs zs = true
  | [], _, _, _, _ => by rw [containsList]
  | x :: xs, ys, zs, hxy, hyz => by
    rw [containsList, Bool.and_eq_true, List.any_eq_true] at hxy ⊢
    obtain ⟨⟨y, hy, hxy⟩, hrest⟩ := hxy
    obtain ⟨z, hz, hyz'⟩ := containsList_iff.1 hyz y hy
    exact ⟨⟨z, hz, contains_trans hxy hyz'⟩, containsList_trans hrest hyz⟩

theorem containsItems_trans : ∀ {kvs d e : List (String × Json)}, containsItems kvs d = true →
    containsItems d e = true → containsItems kvs e = true
  | [], _, _, _, _ => by rw [containsItems]
  | (k, x) :: kvs, d, e, hxy, hyz => by
    have hfound := containsItems_iff.1 hxy
    obtain ⟨y, hy, hxy'⟩ := hfound (k, x) (List.mem_cons_self ..)
    obtain ⟨z, hz, hyz'⟩ := containsItems_iff.1 hyz (k, y) (Dict.mem_of_get? hy)
    have hrest : containsItems kvs d = true :=
      containsItems_iff.2 fun kv hkv => hfound kv (List.mem_cons_of_mem _ hkv)
    have hx : contains x z = true := contains_trans hxy' hyz'
    rw [containsItems, hz, Bool.and_eq_true]
    exact ⟨hx, containsItems_trans hrest hyz⟩

end

mutual

/-- **A value contains itself.** -/
theorem contains_refl : ∀ x : Json, Distinct x → contains x x = true
  | .null, _ => by simp [contains, Json.pyEq]
  | .bool _, _ => (contains_number rfl).2 rfl
  | .int _, _ => (contains_number rfl).2 rfl
  | .float _, _ => (contains_number rfl).2 rfl
  | .str s, _ => contains_str.2 ⟨s, rfl, List.infix_refl _⟩
  | .arr xs, h => by
    rw [Distinct] at h
    exact contains_arr.2 ⟨xs, rfl, fun x hx => ⟨x, hx, contains_refl_list xs h x hx⟩⟩
  | .obj kvs, h => by
    rw [Distinct] at h
    refine contains_obj.2 ⟨kvs, rfl, fun kv hkv => ⟨kv.2, Dict.get?_of_mem h.1 hkv, ?_⟩⟩
    exact contains_refl_items kvs h.2 kv hkv

theorem contains_refl_list : ∀ xs : List Json, DistinctList xs →
    ∀ x ∈ xs, contains x x = true
  | [], _ => List.forall_mem_nil _
  | x :: xs, h => by
    rw [DistinctList] at h
    exact List.forall_mem_cons.2 ⟨contains_refl x h.1, contains_refl_list xs h.2⟩

theorem contains_refl_items : ∀ kvs : List (String × Json), DistinctItems kvs →
    ∀ kv ∈ kvs, contains kv.2 kv.2 = true
  | [], _ => List.forall_mem_nil _
  | (k, x) :: kvs, h => by
    rw [DistinctItems] at h
    exact List.forall_mem_cons.2 ⟨contains_refl x h.1, contains_refl_items kvs h.2⟩

end

/-! ### Equal values -/

mutual

/-- **A value contains what equals it.** -/
theorem contains_of_pyEq : ∀ {x y : Json}, x.pyEq y = true → contains x y = true
  | .null, _, h => by simpa [contains] using h
  | .bool _, _, h => by simpa [contains] using h
  | .int _, _, h => by simpa [contains] using h
  | .float _, _, h => by simpa [contains] using h
  | .str s, y, h => by
    obtain rfl : y = .str s := by simpa [Json.pyEq] using h
    exact contains_str.2 ⟨s, rfl, List.infix_refl _⟩
  | .arr xs, y, h => by
    cases y with
    | arr ys =>
      rw [Json.pyEq] at h
      exact contains_arr.2 ⟨ys, rfl, containsList_of_pyEqList h⟩
    | _ => simp [Json.pyEq] at h
  | .obj kvs, y, h => by
    cases y with
    | obj d =>
      rw [Json.pyEq, Bool.and_eq_true] at h
      exact contains_obj.2 ⟨d, rfl, containsItems_iff.1 (containsItems_of_pyEqItems h.2)⟩
    | _ => simp [Json.pyEq] at h

theorem containsList_of_pyEqList : ∀ {xs ys : List Json}, Json.pyEqList xs ys = true →
    ∀ x ∈ xs, ∃ y ∈ ys, contains x y = true
  | [], _, _ => List.forall_mem_nil _
  | _ :: _, [], h => by simp [Json.pyEqList] at h
  | x :: xs, y :: ys, h => by
    rw [Json.pyEqList, Bool.and_eq_true] at h
    refine List.forall_mem_cons.2
      ⟨⟨y, List.mem_cons_self .., contains_of_pyEq h.1⟩, fun z hz => ?_⟩
    obtain ⟨w, hw, hzw⟩ := containsList_of_pyEqList h.2 z hz
    exact ⟨w, List.mem_cons_of_mem _ hw, hzw⟩

theorem containsItems_of_pyEqItems : ∀ {kvs d : List (String × Json)},
    Json.pyEqItems kvs d = true → containsItems kvs d = true
  | [], _, _ => by rw [containsItems]
  | (k, x) :: kvs, d, h => by
    rw [Json.pyEqItems, Bool.and_eq_true] at h
    rw [containsItems, Bool.and_eq_true]
    refine ⟨?_, containsItems_of_pyEqItems h.2⟩
    cases hget : Dict.get? d k with
    | none => simp [hget] at h
    | some y => exact contains_of_pyEq (by simpa [hget] using h.1)

end

/-! ### A body that grows -/

/-- What one addition makes of a value contains the value. -/
theorem contains_of_adds {x y : Json} (h : Adds x y) (hx : Distinct x) (hy : Distinct y) :
    contains x y = true := by
  induction h with
  | key l r k z =>
    rw [Distinct, distinctItems_iff] at hx hy
    refine contains_obj.2 ⟨_, rfl, fun kv hkv => ⟨kv.2, Dict.get?_of_mem hy.1 ?_, ?_⟩⟩
    · have hsub : (l ++ r).Sublist (l ++ (k, z) :: r) :=
        (List.sublist_cons_self _ _).append_left l
      exact hsub.subset hkv
    · exact contains_refl kv.2 (hx.2 kv hkv)
  | element l r z =>
    rw [Distinct, distinctList_iff] at hx
    refine contains_arr.2 ⟨_, rfl, fun w hw => ⟨w, ?_, contains_refl w (hx w hw)⟩⟩
    have hsub : (l ++ r).Sublist (l ++ z :: r) := (List.sublist_cons_self _ _).append_left l
    exact hsub.subset hw
  | inKey l r k hadds ih =>
    rename_i z w
    rw [Distinct, distinctItems_iff] at hx hy
    have hz : Distinct z := hx.2 (k, z) (by simp)
    have hw : Distinct w := hy.2 (k, w) (by simp)
    refine contains_obj.2 ⟨_, rfl, fun kv hkv => ?_⟩
    rcases List.mem_append.1 hkv with hl | hr
    · have hmem : kv ∈ l ++ (k, w) :: r := List.mem_append_left _ hl
      exact ⟨kv.2, Dict.get?_of_mem hy.1 hmem, contains_refl kv.2 (hx.2 kv hkv)⟩
    · rcases List.mem_cons.1 hr with rfl | hr
      · have hmem : (k, w) ∈ l ++ (k, w) :: r := by simp
        exact ⟨w, Dict.get?_of_mem hy.1 hmem, ih hz hw⟩
      · have hmem : kv ∈ l ++ (k, w) :: r :=
          List.mem_append_right _ (List.mem_cons_of_mem _ hr)
        exact ⟨kv.2, Dict.get?_of_mem hy.1 hmem, contains_refl kv.2 (hx.2 kv hkv)⟩
  | inElement l r hadds ih =>
    rename_i z w
    rw [Distinct, distinctList_iff] at hx hy
    have hz : Distinct z := hx z (by simp)
    have hw : Distinct w := hy w (by simp)
    refine contains_arr.2 ⟨_, rfl, fun v hv => ?_⟩
    rcases List.mem_append.1 hv with hl | hr
    · exact ⟨v, List.mem_append_left _ hl, contains_refl v (hx v hv)⟩
    · rcases List.mem_cons.1 hr with rfl | hr
      · exact ⟨w, by simp, ih hz hw⟩
      · exact ⟨v, List.mem_append_right _ (List.mem_cons_of_mem _ hr), contains_refl v (hx v hv)⟩

theorem contains_of_grows {b b' : Body} (h : Grows b b') : contains b.val b'.val = true := by
  induction h with
  | refl => exact contains_refl b.val b.distinct
  | @tail c d _ hadds ih => exact contains_trans ih (contains_of_adds hadds c.distinct d.distinct)

/-! ### Routes -/

theorem bodyMatches_contains_of_equals {route : MockApiRoute} {bodyJson : Json}
    {bodyRaw : String}
    (h : bodyMatches { route with bodyMatch := "equals" } bodyJson bodyRaw = true) :
    bodyMatches { route with bodyMatch := "contains" } bodyJson bodyRaw = true := by
  have hcontains : ("contains" = "equals") = False := by decide
  unfold bodyMatches at h ⊢
  simp only [hcontains, if_true, if_false] at h ⊢
  split_ifs at h ⊢
  all_goals first | rfl | exact contains_of_pyEq h

/-- **Body matching is a preorder.**  Every value contains itself and the values that equal
it, what is contained in a part is contained in the whole, additions to the actual body
never end a match, and a route that asks for an equal body matches no body that the same
route would not match if it asked for a part. -/
theorem contains_preorder :
    (∀ b : Body, contains b.val b.val = true) ∧
    (∀ a b c : Body, contains a.val b.val = true → contains b.val c.val = true →
      contains a.val c.val = true) ∧
    (∀ a b : Body, a.val.pyEq b.val = true → contains a.val b.val = true) ∧
    (∀ a b b' : Body, Grows b b' → contains a.val b.val = true →
      contains a.val b'.val = true) ∧
    ∀ (route : MockApiRoute) (bodyJson : Body) (bodyRaw : String),
      bodyMatches { route with bodyMatch := "equals" } bodyJson.val bodyRaw = true →
        bodyMatches { route with bodyMatch := "contains" } bodyJson.val bodyRaw = true := by
  refine ⟨fun b => contains_refl b.val b.distinct, fun a b c hab hbc => contains_trans hab hbc,
    fun a b h => contains_of_pyEq h, fun a b b' hgrows h => ?_, fun route bodyJson bodyRaw h => ?_⟩
  · have hkept : contains b.val b'.val = true := contains_of_grows hgrows
    exact contains_trans h hkept
  · exact bodyMatches_contains_of_equals h

/-- An element that is found twice, and a key that was not asked for. -/
example : contains (.obj [("tags", .arr [.str "a", .str ""])])
    (.obj [("id", .int 1), ("tags", .arr [.str "bar"])]) = true := by decide

end MockServer
end QualityFlow
