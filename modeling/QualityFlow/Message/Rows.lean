/-
# The rows of a template

An instance of a path is a value that its segments reach: a segment with a star goes on in
every element of a list, and a list that is reached stands for its elements.  Its ancestors are
the values reached on the way to it.

A dotted key is a path of keys.  A row binds such a path to what it leads to in the instance,
and behind the path of an ancestor to what the rest leads to in that one.  The lookups in the
dictionaries that the source flattens values into are computed from this reading of keys, so
that pairing rows with instances is an induction on the path.
-/

import QualityFlow.Message.Template

namespace QualityFlow
namespace Message

open Py Command

/-! ### Documents -/

/-- A key that can stand in a dotted key. -/
structure Plain (key : String) : Prop where
  ne_empty : key ≠ ""
  strip_eq : strip key = key
  no_dot : '.' ∉ key.toList

/-- A document whose keys can all stand in dotted keys. -/
inductive Named : Value → Prop where
  | null : Named .null
  | bool (b : Bool) : Named (.bool b)
  | int (n : ℤ) : Named (.int n)
  | float (x : Double) : Named (.float x)
  | str (s : String) : Named (.str s)
  | arr {xs : List Value} (items : ∀ x ∈ xs, Named x) : Named (.arr xs)
  | obj {kvs : List (String × Value)} (distinct : (Dict.keys kvs).Nodup)
      (plain : ∀ kv ∈ kvs, Plain kv.1) (items : ∀ kv ∈ kvs, Named kv.2) : Named (.obj kvs)

/-- What a path of keys leads to. -/
def under : Value → List String → Option Value
  | v, [] => some v
  | .obj kvs, k :: ks => (Dict.get? kvs k).bind fun w => under w ks
  | _, _ :: _ => none

/-! ### Instances -/

/-- A value that a path reaches, and the values above it, the outermost first. -/
structure Instance where
  ancestors : List Value
  value : Value

mutual

/-- The elements of a value: of a list those of its items. -/
def elements : Value → List Value
  | .arr xs => elementsOf xs
  | v => [v]

def elementsOf : List Value → List Value
  | [] => []
  | x :: xs => elements x ++ elementsOf xs

end

/-- The items of a list. -/
def items : Value → List Value
  | .arr xs => xs
  | _ => []

/-- The values behind one segment. -/
def next (name : String) (star : Bool) : Value → List Value
  | .obj kvs =>
    match Dict.get? kvs name with
    | none => []
    | some v => if star then items v else [v]
  | _ => []

/-- The instances of a path, in the order of the document. -/
def reached : List (String × Bool) → Value → List Instance
  | [], v => (elements v).map fun w => ⟨[], w⟩
  | (name, star) :: steps, v => (next name star v).flatMap fun w =>
    (reached steps w).map fun inst =>
      if steps = [] then inst else { inst with ancestors := w :: inst.ancestors }

/-- The instances in the input: of a list those in its items. -/
def instances (steps : List (String × Bool)) : Value → List Instance
  | .arr items => items.flatMap (reached steps)
  | v => reached steps v

theorem instances_of_ne_arr {steps : List (String × Bool)} {v : Value}
    (h : ∀ items, v ≠ .arr items) : instances steps v = reached steps v := by
  cases v with
  | arr items => exact absurd rfl (h items)
  | null | bool | int | float | str | obj => rfl

/-- What an instance binds a dotted key to. -/
def OwnBinds (value : Value) (key : String) (x : Value) : Prop :=
  match value with
  | .obj kvs => under (.obj kvs) (split '.' key) = some x
  | _ => key = "value" ∧ x = value

/-- What the ancestor at a place binds a dotted key to, behind its path. -/
def AncestorBinds (names : List String) (ancestors : List Value) (j : ℕ) (key : String)
    (x : Value) : Prop :=
  ∃ a ks, ancestors[j]? = some a ∧ split '.' key = names.take (j + 1) ++ ks ∧ under a ks = some x

/-- What the innermost ancestor that binds a dotted key binds it to. -/
def InnermostBinds (names : List String) (ancestors : List Value) (key : String) (x : Value) :
    Prop :=
  ∃ j, AncestorBinds names ancestors j key x ∧
    ∀ j' > j, ∀ y, ¬AncestorBinds names ancestors j' key y

/-- The row of an instance: its own keys and those of its ancestors, and no others. -/
def RowOf (names : List String) (inst : Instance) (row : Row) : Prop :=
  ∀ key x, row.get? key = some x ↔
    OwnBinds inst.value key x ∨ InnermostBinds names inst.ancestors key x

/-! ### Paths of keys -/

/-- What stands behind some keys. -/
def behind : List String → List String → Option (List String)
  | [], ks => some ks
  | n :: ns, k :: ks => if n = k then behind ns ks else none
  | _ :: _, [] => none

theorem behind_append (ns ms ks : List String) :
    behind (ns ++ ms) ks = (behind ns ks).bind (behind ms) := by
  induction ns generalizing ks with
  | nil => rfl
  | cons n ns ih =>
    cases ks with
    | nil => rfl
    | cons k ks =>
      by_cases hk : n = k
      · simp only [List.cons_append, behind, if_pos hk, ih]
      · simp only [List.cons_append, behind, if_neg hk, Option.bind_none]

theorem behind_eq_some {ns ks rest : List String} :
    behind ns ks = some rest ↔ ks = ns ++ rest := by
  induction ns generalizing ks with
  | nil =>
    rw [behind, List.nil_append]
    exact ⟨Option.some.inj, congrArg some⟩
  | cons n ns ih =>
    cases ks with
    | nil => simp [behind]
    | cons k ks =>
      rw [behind]
      by_cases hk : n = k
      · rw [if_pos hk, ih, List.cons_append, hk, List.cons.injEq]
        exact (and_iff_right rfl).symm
      · rw [if_neg hk]
        refine iff_of_false (by simp) ?_
        intro heq
        exact hk (List.cons.inj heq).1.symm

/-- The keys of a path. -/
def keysOf (path : String) : List String := if path = "" then [] else split '.' path

theorem split_ne_nil (key : String) : split '.' key ≠ [] := by
  unfold split
  rw [Ne, List.map_eq_nil_iff]
  exact List.splitOn_ne_nil _ _

theorem split_injective {key key' : String} (h : split '.' key = split '.' key') : key = key' := by
  unfold split at h
  have hlists : key.toList.splitOn '.' = key'.toList.splitOn '.' :=
    List.map_injective_iff.2 (fun _ _ => String.ofList_injective) h
  have hjoin := congrArg (List.intercalate ['.']) hlists
  rw [List.intercalate_splitOn, List.intercalate_splitOn] at hjoin
  exact String.toList_injective hjoin

theorem extendPath_ne_empty {path key : String} (hkey : Plain key) : extendPath path key ≠ "" := by
  unfold extendPath
  split
  · exact hkey.ne_empty
  · intro heq
    have := congrArg String.toList heq
    simp at this

/-- One more key is the last one of a path. -/
theorem keysOf_extendPath (path : String) {key : String} (hkey : Plain key) :
    keysOf (extendPath path key) = keysOf path ++ [key] := by
  have hself : split '.' key = [key] := split_eq_singleton hkey.no_dot
  have hne : extendPath path key ≠ "" := extendPath_ne_empty hkey
  rw [keysOf, if_neg hne]
  unfold extendPath keysOf
  by_cases hpath : path = ""
  · rw [if_pos hpath, if_pos hpath, hself, List.nil_append]
  · rw [if_neg hpath, if_neg hpath]
    have hsplit := split_append_sep '.' path.toList key.toList
    rw [String.ofList_toList, String.ofList_toList, hself] at hsplit
    rw [← hsplit]
    refine congrArg (split '.') (String.toList_injective ?_)
    rw [String.toList_append, String.toList_append, String.toList_ofList]
    simp

/-! ### Dictionaries of dotted keys -/

mutual

theorem nodup_keys_flattenTemplateValue : ∀ (path : String) (v : Value),
    (Dict.keys (flattenTemplateValue path v)).Nodup
  | path, .obj kvs => by
    rw [flattenTemplateValue]
    apply nodup_keys_flattenItems
    split <;> simp [Dict.keys]
  | path, .null | path, .bool _ | path, .int _ | path, .float _ | path, .str _ | path, .arr _ => by
    simp only [flattenTemplateValue]
    split <;> simp [Dict.keys]

theorem nodup_keys_flattenItems : ∀ (path : String) (kvs : List (String × Value)) (result : Row),
    (Dict.keys result).Nodup → (Dict.keys (flattenItems path kvs result)).Nodup
  | _, [], _, h => by
    rw [flattenItems]
    exact h
  | path, (rawKey, child) :: kvs, result, h => by
    rw [flattenItems]
    split
    · exact nodup_keys_flattenItems path kvs result h
    · exact nodup_keys_flattenItems path kvs _ (Dict.nodup_keys_update h _)

end

/-- What a path of one key and more leads to in an object. -/
def underItems (kvs : List (String × Value)) : List String → Option Value
  | [] => none
  | k :: ks => (Dict.get? kvs k).bind fun w => under w ks

/-- What a value adds under its own path. -/
theorem get?_self (path : String) (v : Value) (key : String) :
    Dict.get? (if path = "" then [] else [(path, v)] : Row) key =
      (behind (keysOf path) (split '.' key)).bind fun rest =>
        if rest = [] then some v else none := by
  by_cases hpath : path = ""
  · have hne := split_ne_nil key
    rw [if_pos hpath, keysOf, if_pos hpath, behind, Option.bind_some, if_neg hne]
    rfl
  · rw [if_neg hpath, keysOf, if_neg hpath, Dict.get?_cons]
    by_cases hkey : path = key
    · have hbehind : behind (split '.' path) (split '.' key) = some [] := by
        rw [behind_eq_some, hkey, List.append_nil]
      rw [if_pos hkey, hbehind]
      rfl
    · rw [if_neg hkey]
      rcases hbehind : behind (split '.' path) (split '.' key) with _ | ⟨⟩ | ⟨k, rest⟩
      · rfl
      · rw [behind_eq_some, List.append_nil] at hbehind
        exact absurd (split_injective hbehind).symm hkey
      · rfl

/-- The loop over the items of an object. -/
theorem get?_flattenItems {path : String} {kvs : List (String × Value)}
    (hdistinct : (Dict.keys kvs).Nodup) (hplain : ∀ kv ∈ kvs, Plain kv.1)
    (hitems : ∀ kv ∈ kvs, ∀ path key, Dict.get? (flattenTemplateValue path kv.2) key =
      (behind (keysOf path) (split '.' key)).bind (under kv.2))
    (result : Row) (key : String) :
    Dict.get? (flattenItems path kvs result) key =
      ((behind (keysOf path) (split '.' key)).bind (underItems kvs)).or (Dict.get? result key) := by
  induction kvs generalizing result with
  | nil =>
    have hnone (rest : List String) : underItems [] rest = none := by
      cases rest <;> rfl
    rw [flattenItems]
    cases behind (keysOf path) (split '.' key) with
    | none => rfl
    | some rest => rw [Option.bind_some, hnone, Option.none_or]
  | cons kv kvs ih =>
    obtain ⟨k, child⟩ := kv
    obtain ⟨hk, hdistinct'⟩ := List.nodup_cons.1 hdistinct
    obtain ⟨hkplain, hplain'⟩ := List.forall_mem_cons.1 hplain
    obtain ⟨hchild, hitems'⟩ := List.forall_mem_cons.1 hitems
    have hmissing : Dict.get? kvs k = none :=
      Option.not_isSome_iff_eq_none.1 fun hsome => hk (Dict.mem_keys_iff.2 hsome)
    rw [flattenItems]
    simp only [hkplain.strip_eq, if_neg hkplain.ne_empty]
    rw [ih hdistinct' hplain' hitems', Dict.get?_update (nodup_keys_flattenTemplateValue _ _), hchild,
      keysOf_extendPath path hkplain, behind_append]
    cases behind (keysOf path) (split '.' key) with
    | none => rfl
    | some rest =>
      cases rest with
      | nil => rfl
      | cons k' rest =>
        simp only [Option.bind_some, underItems, behind, Dict.get?_cons]
        by_cases hsame : k = k'
        · subst hsame
          rw [if_pos rfl, if_pos rfl, hmissing, Option.bind_none, Option.none_or, Option.bind_some,
            Option.bind_some]
        · rw [if_neg hsame, if_neg hsame, Option.bind_none, Option.none_or]

/-- **A dotted key is found in a flattened value where its path leads somewhere.** -/
theorem get?_flattenTemplateValue {v : Value} (hv : Named v) (path key : String) :
    Dict.get? (flattenTemplateValue path v) key =
      (behind (keysOf path) (split '.' key)).bind (under v) := by
  induction hv generalizing path key with
  | obj hdistinct hplain hitems ih =>
    rename_i kvs
    rw [flattenTemplateValue, get?_flattenItems hdistinct hplain ih, get?_self]
    cases behind (keysOf path) (split '.' key) with
    | none => rfl
    | some rest =>
      cases rest with
      | nil => rfl
      | cons k rest =>
        show (underItems kvs (k :: rest)).or none = under (.obj kvs) (k :: rest)
        rw [Option.or_none, under, underItems]
  | null | bool | int | float | str | arr =>
    rw [flattenTemplateValue, get?_self]
    · cases behind (keysOf path) (split '.' key) with
      | none => rfl
      | some rest => cases rest <;> rfl
    · simp

/-! ### Ancestors -/

/-- A dictionary that holds what the ancestors bind. -/
def AncestorsIn (names : List String) (ancestors : List Value) (d : Row) : Prop :=
  ∀ key x, Dict.get? d key = some x ↔ InnermostBinds names ancestors key x

theorem ancestorsIn_nil (names : List String) : AncestorsIn names [] [] := by
  intro key x
  refine iff_of_false (by simp) ?_
  rintro ⟨j, ⟨a, ks, ha, -⟩, -⟩
  simp at ha

theorem ancestorBinds_append_of_lt {names : List String} {ancestors : List Value} {w : Value}
    {j : ℕ} (hj : j < ancestors.length) (key : String) (x : Value) :
    AncestorBinds names (ancestors ++ [w]) j key x ↔ AncestorBinds names ancestors j key x := by
  unfold AncestorBinds
  rw [List.getElem?_append_left hj]

theorem lt_of_ancestorBinds {names : List String} {ancestors : List Value} {j : ℕ} {key : String}
    {x : Value} (h : AncestorBinds names ancestors j key x) : j < ancestors.length := by
  obtain ⟨a, ks, ha, -⟩ := h
  exact (List.getElem?_eq_some_iff.1 ha).1

/-- What the last ancestor binds. -/
theorem ancestorBinds_last_iff {names : List String} {ancestors : List Value} {w : Value}
    {path : String} (hpath : keysOf path = names.take (ancestors.length + 1)) (key : String)
    (x : Value) :
    AncestorBinds names (ancestors ++ [w]) ancestors.length key x ↔
      (behind (keysOf path) (split '.' key)).bind (under w) = some x := by
  unfold AncestorBinds
  rw [List.getElem?_concat_length, hpath, Option.bind_eq_some_iff]
  constructor
  · rintro ⟨a, ks, ha, hkey, hx⟩
    obtain rfl := Option.some.inj ha
    exact ⟨ks, behind_eq_some.2 hkey, hx⟩
  · rintro ⟨ks, hkey, hx⟩
    exact ⟨w, ks, rfl, behind_eq_some.1 hkey, hx⟩

/-- **One more ancestor wins over those above it.** -/
theorem AncestorsIn.extend {names : List String} {ancestors : List Value} {d : Row}
    (h : AncestorsIn names ancestors d) {w : Value} (hw : Named w) {path : String}
    (hpath : keysOf path = names.take (ancestors.length + 1)) :
    AncestorsIn names (ancestors ++ [w]) (d.update (flattenTemplateValue path w)) := by
  intro key x
  have hlast := ancestorBinds_last_iff (w := w) hpath key
  rw [Dict.get?_update (nodup_keys_flattenTemplateValue _ _), get?_flattenTemplateValue hw]
  cases hbind : (behind (keysOf path) (split '.' key)).bind (under w) with
  | some y =>
    rw [hbind] at hlast
    rw [Option.some_or]
    constructor
    · intro hx
      refine ⟨ancestors.length, (hlast x).2 hx, ?_⟩
      intro j' hj' z hz
      have hlt := lt_of_ancestorBinds hz
      rw [List.length_append, List.length_singleton] at hlt
      omega
    · rintro ⟨j, hj, hinner⟩
      have hlt := lt_of_ancestorBinds hj
      rw [List.length_append, List.length_singleton] at hlt
      by_cases heq : j = ancestors.length
      · rw [heq] at hj
        exact (hlast x).1 hj
      · have hy := (hlast y).2 rfl
        exact absurd hy (hinner ancestors.length (by omega) y)
  | none =>
    rw [hbind] at hlast
    have hnot (y : Value) : ¬AncestorBinds names (ancestors ++ [w]) ancestors.length key y := by
      intro hy
      exact absurd ((hlast y).1 hy) (by simp)
    rw [Option.none_or, h key x]
    constructor
    · rintro ⟨j, hj, hinner⟩
      have hlt := lt_of_ancestorBinds hj
      refine ⟨j, (ancestorBinds_append_of_lt hlt key x).2 hj, ?_⟩
      intro j' hj' y hy
      have hlt' := lt_of_ancestorBinds hy
      rw [List.length_append, List.length_singleton] at hlt'
      by_cases heq : j' = ancestors.length
      · rw [heq] at hy
        exact hnot y hy
      · exact hinner j' hj' y ((ancestorBinds_append_of_lt (by omega) key y).1 hy)
    · rintro ⟨j, hj, hinner⟩
      have hlt := lt_of_ancestorBinds hj
      rw [List.length_append, List.length_singleton] at hlt
      have hne : j ≠ ancestors.length := by
        intro heq
        rw [heq] at hj
        exact hnot x hj
      refine ⟨j, (ancestorBinds_append_of_lt (by omega) key x).1 hj, ?_⟩
      intro j' hj' y hy
      have hlt' := lt_of_ancestorBinds hy
      exact hinner j' hj' y ((ancestorBinds_append_of_lt hlt' key y).2 hy)

/-! ### Rows of instances -/

/-- The first name of a path is not one that an instance has. -/
def Apart (names : List String) (value : Value) : Prop :=
  ∀ name ∈ names.head?, name ≠ "value" ∧ ∀ kvs, value = .obj kvs → name ∉ Dict.keys kvs

/-- A key that an ancestor binds opens with the first name of the path. -/
theorem head_of_ancestorBinds {names : List String} {ancestors : List Value} {j : ℕ} {key : String}
    {x : Value} (hlength : ancestors.length ≤ names.length)
    (h : AncestorBinds names ancestors j key x) :
    ∃ name rest, names.head? = some name ∧ split '.' key = name :: rest := by
  have hlt := lt_of_ancestorBinds h
  obtain ⟨a, ks, -, hkey, -⟩ := h
  cases names with
  | nil =>
    rw [List.length_nil] at hlength
    omega
  | cons name names => exact ⟨name, names.take j ++ ks, rfl, hkey⟩

/-- The row that is made of an instance and its ancestors. -/
theorem rowOf_spec {names : List String} {ancestors : List Value} {d : Row} {w : Value}
    (h : AncestorsIn names ancestors d) (hlength : ancestors.length ≤ names.length)
    (hw : Named w) (hlist : ∀ xs, w ≠ .arr xs) (hapart : Apart names w) :
    RowOf names ⟨ancestors, w⟩ (rowOf d w) := by
  intro key x
  dsimp only
  -- an instance and its ancestors bind no key both
  have hclash (hown : ∃ y, OwnBinds w key y) : ¬∃ y, InnermostBinds names ancestors key y := by
    rintro ⟨y, j, hj, -⟩
    obtain ⟨z, hz⟩ := hown
    obtain ⟨name, rest, hname, hkey⟩ := head_of_ancestorBinds hlength hj
    obtain ⟨hvalue, hkeys⟩ := hapart name hname
    unfold OwnBinds at hz
    split at hz
    · rename_i kvs
      rw [hkey, under] at hz
      obtain ⟨u, hu, -⟩ := Option.bind_eq_some_iff.1 hz
      exact hkeys kvs rfl (Dict.mem_keys_iff.2 (by rw [hu]; rfl))
    · rw [hz.1] at hkey
      have hsplit : split '.' "value" = ["value"] := by decide
      rw [hsplit] at hkey
      exact hvalue (List.cons.inj hkey).1.symm
  have hcases (own : Option Value) (hown : ∀ y, own = some y ↔ OwnBinds w key y) :
      own.or (Dict.get? d key) = some x ↔
        OwnBinds w key x ∨ InnermostBinds names ancestors key x := by
    cases own with
    | some y =>
      have hy := (hown y).1 rfl
      rw [Option.some_or, hown x]
      exact (or_iff_left fun hx => hclash ⟨y, hy⟩ ⟨x, hx⟩).symm
    | none =>
      rw [Option.none_or, h key x]
      refine (or_iff_right fun hx => ?_).symm
      exact absurd ((hown x).2 hx) (by simp)
  have hscalar (hrow : rowOf d w = d.set "value" w)
      (hown : ∀ y, OwnBinds w key y ↔ key = "value" ∧ y = w) :
      (rowOf d w).get? key = some x ↔
        OwnBinds w key x ∨ InnermostBinds names ancestors key x := by
    have hvalue := hcases (if "value" = key then some w else none) fun y => by
      rw [hown]
      by_cases hkey : "value" = key
      · rw [if_pos hkey]
        simp [hkey, eq_comm]
      · rw [if_neg hkey]
        simp [Ne.symm hkey]
    rw [hrow, Dict.get?_set, ← hvalue]
    split <;> simp
  cases w with
  | obj kvs =>
    rw [rowOf, Dict.get?_update (nodup_keys_flattenTemplateValue _ _), get?_flattenTemplateValue hw]
    exact hcases _ fun y => Iff.rfl
  | arr xs => exact absurd rfl (hlist xs)
  | null | bool | int | float | str => exact hscalar rfl fun y => Iff.rfl

/-- The rows of a value that is reached. -/
theorem appendMatch_eq (d : Row) : ∀ (v : Value) (found : List Row),
    appendMatch d found v = found ++ (elements v).map (rowOf d)
  | .arr xs, found => by
    rw [appendMatch, elements]
    exact appendMatches_eq d xs found
  | .null, _ | .bool _, _ | .int _, _ | .float _, _ | .str _, _ | .obj _, _ => rfl
where
  appendMatches_eq (d : Row) : ∀ (xs : List Value) (found : List Row),
      appendMatches d found xs = found ++ (elementsOf xs).map (rowOf d)
    | [], found => by rw [appendMatches, elementsOf, List.map_nil, List.append_nil]
    | x :: xs, found => by
      rw [appendMatches, appendMatch_eq d x, appendMatches_eq d xs, elementsOf, List.map_append,
        List.append_assoc]

/-- No element is a list, and all are documents where the value is one. -/
theorem mem_elements {v : Value} (hv : Named v) :
    ∀ w ∈ elements v, Named w ∧ ∀ xs, w ≠ .arr xs := by
  induction hv with
  | arr hitems ih =>
    rename_i xs
    rw [elements]
    intro w hw
    induction xs with
    | nil => exact absurd hw List.not_mem_nil
    | cons x xs ihs =>
      rw [elementsOf, List.mem_append] at hw
      rcases hw with hfirst | hrest
      · exact ih x List.mem_cons_self w hfirst
      · exact ihs (fun y hy => hitems y (List.mem_cons_of_mem _ hy))
          (fun y hy => ih y (List.mem_cons_of_mem _ hy)) hrest
  | null | bool | int | float | str =>
    intro w hw
    obtain rfl := List.mem_singleton.1 hw
    exact ⟨by constructor, fun xs => by simp⟩
  | obj hdistinct hplain hitems =>
    intro w hw
    obtain rfl := List.mem_singleton.1 hw
    exact ⟨.obj hdistinct hplain hitems, fun xs => by simp⟩

/-! ### The walk -/

/-- Rows that are those of the instances below some ancestors. -/
def RowsOf (names : List String) (ancestors : List Value) (insts : List Instance)
    (rows : List Row) : Prop :=
  List.Forall₂ (fun inst row => RowOf names ⟨ancestors ++ inst.ancestors, inst.value⟩ row) insts
    rows

theorem RowsOf.append {names : List String} {ancestors : List Value} {insts insts' : List Instance}
    {rows rows' : List Row} (h : RowsOf names ancestors insts rows)
    (h' : RowsOf names ancestors insts' rows') :
    RowsOf names ancestors (insts ++ insts') (rows ++ rows') :=
  List.rel_append h h'

/-- A loop that appends the rows of each item. -/
theorem foldl_rowsOf {names : List String} {ancestors : List Value}
    {turn : List Row → Value → List Row} {below : Value → List Instance} {items : List Value}
    (h : ∀ w ∈ items, ∀ found, ∃ rows, turn found w = found ++ rows ∧
      RowsOf names ancestors (below w) rows) (found : List Row) :
    ∃ rows, items.foldl turn found = found ++ rows ∧
      RowsOf names ancestors (items.flatMap below) rows := by
  induction items generalizing found with
  | nil => exact ⟨[], (List.append_nil _).symm, .nil⟩
  | cons w items ih =>
    obtain ⟨hw, hitems⟩ := List.forall_mem_cons.1 h
    obtain ⟨rows, hturn, hrows⟩ := hw found
    obtain ⟨rows', hrest, hrows'⟩ := ih hitems (turn found w)
    refine ⟨rows ++ rows', ?_, ?_⟩
    · rw [List.foldl_cons, hrest, hturn, List.append_assoc]
    · rw [List.flatMap_cons]
      exact hrows.append hrows'

/-- **The walk appends one row for each instance below, in their order.** -/
theorem walk_rowsOf {names : List String} {segments : List String} {done : List String}
    {path : String} {ancestors : List Value} {d : Row} {v : Value} (hv : Named v)
    (hnames : names = done ++ (segments.map segmentParts).map Prod.fst) (hpath : keysOf path = done)
    (hlength : ancestors.length ≤ done.length)
    (hall : segments ≠ [] → ancestors.length = done.length)
    (hancestors : AncestorsIn names ancestors d)
    (hapart : ∀ inst ∈ reached (segments.map segmentParts) v, Apart names inst.value)
    (found : List Row) :
    ∃ rows, walk found v d path segments = found ++ rows ∧
      RowsOf names ancestors (reached (segments.map segmentParts) v) rows := by
  induction segments generalizing done path ancestors d v found with
  | nil =>
    refine ⟨(elements v).map (rowOf d), ?_, ?_⟩
    · rw [walk, appendMatch_eq]
    · unfold RowsOf
      rw [List.map_nil, reached, List.forall₂_map_left_iff, List.forall₂_map_right_iff,
        List.forall₂_same]
      intro w hw
      obtain ⟨hnamed, hlist⟩ := mem_elements hv w hw
      rw [List.append_nil]
      apply rowOf_spec hancestors _ hnamed hlist
      · apply hapart ⟨[], w⟩
        rw [List.map_nil, reached]
        exact List.mem_map_of_mem hw
      · rw [hnames, List.length_append]
        omega
  | cons segment segments ih =>
    rcases hparts : segmentParts segment with ⟨name, star⟩
    rw [List.map_cons, hparts, reached] at hapart ⊢
    rw [List.map_cons, hparts, List.map_cons] at hnames
    have hall' := hall (List.cons_ne_nil _ _)
    have hturn {w : Value} (hname : Plain name) (hw : Named w)
        (hbelow : ∀ inst ∈ reached (segments.map segmentParts) w, Apart names inst.value)
        (found : List Row) :
        ∃ rows, walk found w
            (if segments = [] then d else d.update (flattenTemplateValue (extendPath path name) w))
            (extendPath path name) segments = found ++ rows ∧
          RowsOf names ancestors ((reached (segments.map segmentParts) w).map fun inst =>
            if segments.map segmentParts = [] then inst
            else { inst with ancestors := w :: inst.ancestors }) rows := by
      have hpath' : keysOf (extendPath path name) = done ++ [name] := by
        rw [keysOf_extendPath path hname, hpath]
      have hnames' : names = done ++ [name] ++ (segments.map segmentParts).map Prod.fst := by
        rw [hnames, List.append_assoc, List.singleton_append]
      by_cases hlast : segments = []
      · -- the last segment: the value that is reached is no ancestor
        obtain ⟨rows, hwalk, hrows⟩ := ih hw hnames' hpath'
          (by rw [List.length_append, List.length_singleton]; omega)
          (fun hne => absurd hlast hne) hancestors hbelow found
        refine ⟨rows, by rw [if_pos hlast]; exact hwalk, ?_⟩
        have hid : segments.map segmentParts = [] := by rw [hlast, List.map_nil]
        simp only [hid, if_true, List.map_id']
        rwa [hid] at hrows
      · have htake : keysOf (extendPath path name) = names.take (ancestors.length + 1) := by
          rw [hpath', hnames', hall', ← List.length_singleton (a := name), ← List.length_append,
            List.take_left]
        have hlength' : (ancestors ++ [w]).length = (done ++ [name]).length := by
          rw [List.length_append, List.length_append, hall']
          rfl
        obtain ⟨rows, hwalk, hrows⟩ := ih hw hnames' hpath' hlength'.le (fun _ => hlength')
          (hancestors.extend hw htake) hbelow found
        refine ⟨rows, by rw [if_neg hlast]; exact hwalk, ?_⟩
        have hne : segments.map segmentParts ≠ [] := by
          rwa [Ne, List.map_eq_nil_iff]
        unfold RowsOf at hrows ⊢
        rw [List.forall₂_map_left_iff]
        refine hrows.imp fun inst row hrow => ?_
        rw [if_neg hne]
        rwa [List.append_assoc, List.singleton_append] at hrow
    have hnone : ∃ rows, found = found ++ rows ∧ RowsOf names ancestors [] rows :=
      ⟨[], (List.append_nil _).symm, .nil⟩
    have happly {w : Value} (hw : w ∈ next name star v) :
        ∀ inst ∈ reached (segments.map segmentParts) w, Apart names inst.value := by
      intro inst hinst
      have hmem := hapart _ (List.mem_flatMap.2 ⟨w, hw, List.mem_map_of_mem hinst⟩)
      split at hmem
      · exact hmem
      · exact hmem
    rw [walk, hparts]
    dsimp only
    cases hv with
    | null | bool | int | float | str | arr => exact hnone
    | obj hdistinct hplain hitems =>
      rename_i kvs
      dsimp only
      cases hget : Dict.get? kvs name with
      | none =>
        have hnext : next name star (.obj kvs) = [] := by
          rw [next, hget]
        rw [hnext]
        exact hnone
      | some w =>
        have hmem := Dict.mem_of_get? hget
        have hname : Plain name := hplain _ hmem
        have hw : Named w := hitems _ hmem
        dsimp only
        cases star with
        | false =>
          have hnext : next name false (.obj kvs) = [w] := by
            rw [next, hget]
            rfl
          rw [hnext] at happly ⊢
          rw [List.flatMap_singleton]
          exact hturn hname hw (happly (List.mem_singleton_self w)) found
        | true =>
          rw [if_pos rfl]
          cases w with
          | arr items =>
            have hnext : next name true (.obj kvs) = items := by
              rw [next, hget]
              rfl
            rw [hnext] at happly ⊢
            cases hw with
            | arr hbelow =>
              exact foldl_rowsOf (fun w hw => hturn hname (hbelow w hw) (happly hw)) found
          | null | bool | int | float | str | obj =>
            have hnext : next name true (.obj kvs) = [] := by
              rw [next, hget]
              rfl
            rw [hnext]
            exact hnone


/-- The segments of a path, each with its name and whether it goes on in every element. -/
def steps (forEach : Option String) : List (String × Bool) :=
  (normalizeTemplatePath forEach).map segmentParts

/-- The rows of one document. -/
theorem extractTemplateMatches_rowsOf {root : Value} {forEach : Option String} (hroot : Named root)
    (hapart : ∀ inst ∈ reached (steps forEach) root,
      Apart ((steps forEach).map Prod.fst) inst.value) :
    List.Forall₂ (RowOf ((steps forEach).map Prod.fst)) (reached (steps forEach) root)
      (extractTemplateMatches root forEach) := by
  have hnames : (steps forEach).map Prod.fst =
      [] ++ ((normalizeTemplatePath forEach).map segmentParts).map Prod.fst := by
    rw [List.nil_append, steps]
  have hpath : keysOf "" = [] := by
    rw [keysOf, if_pos rfl]
  obtain ⟨rows, hwalk, hrows⟩ := walk_rowsOf hroot hnames hpath le_rfl (fun _ => rfl)
    (ancestorsIn_nil _) hapart []
  rw [extractTemplateMatches, hwalk, List.nil_append]
  exact hrows

/-- **The rows are those of the instances, one for each and in their order.** -/
theorem preview_rowsOf {inputData : Value} {sourceType : String} {forEach : Option String}
    (hsource : strip sourceType ≠ "dataset")
    (hlist : strip sourceType = "jsonArray" → ∃ items, inputData = .arr items)
    (hinput : Named inputData)
    (hapart : ∀ inst ∈ instances (steps forEach) inputData,
      Apart ((steps forEach).map Prod.fst) inst.value) :
    List.Forall₂ (RowOf ((steps forEach).map Prod.fst)) (instances (steps forEach) inputData)
      (previewSendMessageTemplateRows inputData sourceType forEach) := by
  unfold previewSendMessageTemplateRows
  rw [if_neg hsource]
  cases hinput with
  | arr hitems =>
    rename_i items
    dsimp only
    rw [instances] at hapart ⊢
    clear hlist
    induction items with
    | nil => exact .nil
    | cons item items ih =>
      obtain ⟨hitem, hitems'⟩ := List.forall_mem_cons.1 hitems
      rw [List.flatMap_cons] at hapart ⊢
      rw [List.flatMap_cons]
      have hfirst := extractTemplateMatches_rowsOf hitem fun inst hinst =>
        hapart inst (List.mem_append_left _ hinst)
      have hrest := ih hitems' fun inst hinst => hapart inst (List.mem_append_right _ hinst)
      exact List.rel_append hfirst hrest
  | null | bool | int | float | str =>
    have harray : strip sourceType ≠ "jsonArray" := by
      intro heq
      obtain ⟨items, hitems⟩ := hlist heq
      exact absurd hitems (by simp)
    dsimp only
    rw [if_neg harray]
    rw [instances_of_ne_arr (by simp)] at hapart ⊢
    exact extractTemplateMatches_rowsOf (by constructor) hapart
  | obj hdistinct hplain hitems =>
    have harray : strip sourceType ≠ "jsonArray" := by
      intro heq
      obtain ⟨items, hitems⟩ := hlist heq
      exact absurd hitems (by simp)
    dsimp only
    rw [if_neg harray]
    rw [instances_of_ne_arr (by simp)] at hapart ⊢
    exact extractTemplateMatches_rowsOf (.obj hdistinct hplain hitems) hapart

/-! ### Messages -/

/-- What the last constant of a name is evaluated to. -/
def ConstantBinds (moments : ℕ → Moment) (constants : List SendMessageTemplateConstantDto)
    (key : String) (x : Value) : Prop :=
  ∃ j constant, constants[j]? = some constant ∧ constantName constant = key ∧
    (∀ j' > j, ∀ later, constants[j']? = some later → constantName later ≠ key) ∧
    evaluateTemplateConstant (moments j) constant = .ok x

/-- The message of a row: the fields that are selected, and over them the constants. -/
def PayloadOf (moments : ℕ → Moment) (template : SendMessageTemplateDto) (row payload : Row) :
    Prop :=
  ∀ key x, Dict.get? payload key = some x ↔
    ConstantBinds moments template.constants key x ∨
      (∀ constant ∈ template.constants, constantName constant ≠ key) ∧
        (∃ field ∈ template.fields, field.val = key) ∧ Dict.get? row key = some x

theorem get?_takeFields (row : Row) (fields : List Token) (key : String) (x : Value) :
    Dict.get? (takeFields row fields) key = some x ↔
      (∃ field ∈ fields, field.val = key) ∧ Dict.get? row key = some x := by
  -- What one field does to a key.
  obtain ⟨step, hfields, hstep⟩ : ∃ step : Row → Token → Row,
      takeFields row fields = fields.foldl step [] ∧ ∀ payload field,
        Dict.get? (step payload field) key =
          if field.val = key then (Dict.get? row key).or (Dict.get? payload key)
          else Dict.get? payload key := by
    refine ⟨_, rfl, fun payload field => ?_⟩
    by_cases hkey : field.val = key
    · rw [if_pos hkey, hkey]
      cases hrow : Dict.get? row key <;> simp
    · rw [if_neg hkey]
      cases hrow : Dict.get? row field.val with
      | none => rfl
      | some value => exact Dict.get?_set_of_ne hkey _
  have hfold (payload : Row) : Dict.get? (fields.foldl step payload) key =
      if ∃ field ∈ fields, field.val = key then (Dict.get? row key).or (Dict.get? payload key)
      else Dict.get? payload key := by
    clear hfields
    induction fields generalizing payload with
    | nil => simp
    | cons field fields ih =>
      rw [List.foldl_cons, ih, hstep]
      simp only [List.exists_mem_cons_iff]
      by_cases hkey : field.val = key
      · rw [if_pos hkey, if_pos (Or.inl hkey)]
        cases hrow : Dict.get? row key <;> simp
      · simp only [hkey, false_or, if_false]
  have htake : Dict.get? (takeFields row fields) key =
      if ∃ field ∈ fields, field.val = key then (Dict.get? row key).or (Dict.get? [] key)
      else Dict.get? [] key := hfields ▸ hfold []
  rw [Dict.get?_nil, Option.or_none] at htake
  rw [htake]
  split
  · rename_i hfield
    exact (and_iff_right hfield).symm
  · rename_i hfield
    exact iff_of_false (by simp) fun h => hfield h.1

/-- The last constant of a name is among the later ones, or the first where no later one has it. -/
theorem constantBinds_cons {moments : ℕ → Moment} {constant : SendMessageTemplateConstantDto}
    {constants : List SendMessageTemplateConstantDto} {key : String} {x : Value} :
    ConstantBinds moments (constant :: constants) key x ↔
      ConstantBinds (fun k => moments (k + 1)) constants key x ∨
        (∀ later ∈ constants, constantName later ≠ key) ∧ constantName constant = key ∧
          evaluateTemplateConstant (moments 0) constant = .ok x := by
  constructor
  · rintro ⟨j, found, hfound, hname, hlast, hx⟩
    cases j with
    | zero =>
      obtain rfl := Option.some.inj hfound
      refine .inr ⟨fun later hlater => ?_, hname, hx⟩
      obtain ⟨k, hk⟩ := List.mem_iff_getElem?.1 hlater
      exact hlast (k + 1) (Nat.succ_pos k) later hk
    | succ j =>
      refine .inl ⟨j, found, hfound, hname, fun k hk later hlater => ?_, hx⟩
      exact hlast (k + 1) (Nat.succ_lt_succ hk) later hlater
  · rintro (⟨j, found, hfound, hname, hlast, hx⟩ | ⟨hlater, hname, hx⟩)
    · refine ⟨j + 1, found, hfound, hname, fun k hk later hlater => ?_, hx⟩
      cases k with
      | zero => omega
      | succ k => exact hlast k (Nat.lt_of_succ_lt_succ hk) later hlater
    · refine ⟨0, constant, rfl, hname, fun k hk later hfound => ?_, hx⟩
      cases k with
      | zero => omega
      | succ k => exact hlater later (List.mem_of_getElem? hfound)

theorem setConstants_spec (moments : ℕ → Moment) {constants : List SendMessageTemplateConstantDto}
    (j : ℕ) (payload : Row)
    (h : ∀ k constant, constants[k]? = some constant →
      ∃ x, evaluateTemplateConstant (moments (j + k)) constant = .ok x) :
    ∃ payload', setConstants moments j payload constants = .ok payload' ∧
      ∀ key x, Dict.get? payload' key = some x ↔
        ConstantBinds (fun k => moments (j + k)) constants key x ∨
          (∀ constant ∈ constants, constantName constant ≠ key) ∧
            Dict.get? payload key = some x := by
  induction constants generalizing j payload with
  | nil =>
    refine ⟨payload, rfl, fun key x => ?_⟩
    simp [ConstantBinds]
  | cons constant constants ih =>
    obtain ⟨value, hvalue⟩ := h 0 constant rfl
    rw [Nat.add_zero] at hvalue
    have hshift (k : ℕ) : j + 1 + k = j + (k + 1) := by omega
    have hrest : ∀ k later, constants[k]? = some later →
        ∃ x, evaluateTemplateConstant (moments (j + 1 + k)) later = .ok x := by
      intro k later hlater
      rw [hshift]
      exact h (k + 1) later hlater
    obtain ⟨payload', hset, hspec⟩ := ih (j + 1) (payload.set (constantName constant) value) hrest
    refine ⟨payload', by rw [setConstants, hvalue, ok_bind, hset], fun key x => ?_⟩
    rw [hspec key x, constantBinds_cons, Dict.get?_set]
    simp only [hshift, Nat.add_zero, hvalue, List.forall_mem_cons]
    by_cases hname : constantName constant = key
    · simp [hname]
    · simp [hname]

/-- **A template makes one row of each instance, and one message of each row.** -/
theorem sendMessageTemplate_correct (moments : ℕ → ℕ → Moment) (inputData : Value)
    (sourceType : String) (forEach : Option String)
    (hsource : strip sourceType ≠ "dataset")
    (hlist : strip sourceType = "jsonArray" → ∃ items, inputData = .arr items)
    (hinput : Named inputData)
    (hapart : ∀ inst ∈ instances (steps forEach) inputData,
      Apart ((steps forEach).map Prod.fst) inst.value) :
    List.Forall₂ (RowOf ((steps forEach).map Prod.fst)) (instances (steps forEach) inputData)
        (previewSendMessageTemplateRows inputData sourceType forEach) ∧
      ∀ template : SendMessageTemplateDto, template.forEach.map Token.val = forEach →
        (∀ i < (previewSendMessageTemplateRows inputData sourceType forEach).length,
          ∀ (j : ℕ) (constant : SendMessageTemplateConstantDto),
            template.constants[j]? = some constant →
              ∃ x, evaluateTemplateConstant (moments i j) constant = .ok x) →
        ∃ payloads : List Row,
          buildSendMessagePayloads moments inputData sourceType (some template) =
              .ok (payloads.map .obj) ∧
            payloads.length =
              (previewSendMessageTemplateRows inputData sourceType forEach).length ∧
            ∀ (i : ℕ) (row : Row),
              (previewSendMessageTemplateRows inputData sourceType forEach)[i]? = some row →
                ∃ payload, payloads[i]? = some payload ∧
                  PayloadOf (moments i) template row payload := by
  constructor
  · exact preview_rowsOf hsource hlist hinput hapart
  · rintro template rfl hevaluate
    generalize hrows : previewSendMessageTemplateRows inputData sourceType
      (template.forEach.map Token.val) = rows at hevaluate ⊢
    have hmade (i : ℕ) (row : Row) (hi : rows[i]? = some row) :
        ∃ payload, setConstants (moments i) 0 (takeFields row template.fields) template.constants =
            .ok payload ∧ PayloadOf (moments i) template row payload := by
      have hlt := (List.getElem?_eq_some_iff.1 hi).1
      obtain ⟨payload, hset, hspec⟩ := setConstants_spec (moments i) 0
        (takeFields row template.fields) fun k constant hconstant => by
          rw [Nat.zero_add]
          exact hevaluate i hlt k constant hconstant
      refine ⟨payload, hset, fun key x => ?_⟩
      rw [hspec key x, get?_takeFields]
      simp only [Nat.zero_add]
    obtain ⟨payloads, hpayloads, hlength, hall⟩ := exists_enumM_of_getElem?
      (fun i row => setConstants (moments i) 0 (takeFields row template.fields)
        template.constants) 0 rows fun k row hk => by
          rw [Nat.zero_add]
          obtain ⟨payload, hset, -⟩ := hmade k row hk
          exact ⟨payload, hset⟩
    refine ⟨payloads, ?_, hlength, fun i row hi => ?_⟩
    · unfold buildSendMessagePayloads
      dsimp only
      rw [hrows, hpayloads]
      rfl
    · obtain ⟨payload, hpayload, hset⟩ := hall i row hi
      rw [Nat.zero_add] at hset
      obtain ⟨payload', hset', hspec⟩ := hmade i row hi
      rw [hset] at hset'
      obtain rfl := Except.ok.inj hset'
      exact ⟨payload, hpayload, hspec⟩

/-- An order of one line. -/
def orderOf (no sku : String) : Value := .obj [("no", .str no), ("line", .obj [("sku", .str sku)])]

/-- A message of each line, with the article, the number of its order, and a constant. -/
def lineTemplate : SendMessageTemplateDto where
  forEach := some ⟨"$.orders[*].line", by decide, by decide +kernel⟩
  fields := [⟨"sku", by decide, by decide +kernel⟩, ⟨"orders.no", by decide, by decide +kernel⟩]
  constants := [.ofFunction ⟨"sent", by decide, by decide +kernel⟩ .today]
  fields_nodup := by simp
  ne_nil := by simp

/-- Two orders make two rows, and a template two messages of them. -/
theorem orderLines_correct :
    let orders : Value := .obj [("orders", .arr [orderOf "1" "x", orderOf "2" "y"])]
    let moments : ℕ → ℕ → Moment := fun _ _ => ⟨fun _ => .ok .null, "2026-05-28", ""⟩
    let rows := previewSendMessageTemplateRows orders "json" (some "$.orders[*].line")
    List.Forall₂ (RowOf ["orders", "line"])
        [⟨[orderOf "1" "x"], .obj [("sku", .str "x")]⟩, ⟨[orderOf "2" "y"], .obj [("sku", .str "y")]⟩]
        rows ∧
      ∃ payloads : List Row,
        buildSendMessagePayloads moments orders "json" (some lineTemplate)
            = .ok (payloads.map .obj) ∧
          payloads.length = 2 ∧
          ∀ (i : ℕ) (row : Row), rows[i]? = some row →
            ∃ payload, payloads[i]? = some payload ∧
              PayloadOf (moments i) lineTemplate row payload := by
  intro orders moments rows
  have hsteps : steps (some "$.orders[*].line") = [("orders", true), ("line", false)] := by
    decide +kernel
  have hplain (key : String) (hkey : key ∈ ["orders", "no", "line", "sku"]) : Plain key := by
    have hall : ∀ k ∈ ["orders", "no", "line", "sku"],
        k ≠ "" ∧ strip k = k ∧ '.' ∉ k.toList := by
      decide +kernel
    obtain ⟨hne, hstrip, hdot⟩ := hall key hkey
    exact ⟨hne, hstrip, hdot⟩
  have horder (no sku : String) : Named (orderOf no sku) := by
    have hline : Named (.obj [("sku", .str sku)]) := by
      refine .obj (List.nodup_singleton _) ?_ ?_
      · simpa using hplain "sku" (by simp)
      · simpa using Named.str sku
    refine .obj (by simp [Dict.keys]) ?_ ?_
    · simpa using ⟨hplain "no" (by simp), hplain "line" (by simp)⟩
    · simpa using ⟨Named.str no, hline⟩
  have horders : Named orders := by
    refine .obj (List.nodup_singleton _) ?_ ?_
    · simpa using hplain "orders" (by simp)
    · simpa using Named.arr (by simpa using ⟨horder "1" "x", horder "2" "y"⟩)
  have hinstances : instances (steps (some "$.orders[*].line")) orders
      = [⟨[orderOf "1" "x"], .obj [("sku", .str "x")]⟩,
        ⟨[orderOf "2" "y"], .obj [("sku", .str "y")]⟩] := by
    rw [hsteps]
    rfl
  obtain ⟨hrows, hmessages⟩ := sendMessageTemplate_correct moments orders "json"
    (some "$.orders[*].line") (by decide +kernel) (fun harray => absurd harray (by decide +kernel))
    horders (by
      rw [hinstances, hsteps]
      intro inst hinst name hname
      obtain rfl : "orders" = name := Option.some.inj hname
      refine ⟨by decide, fun kvs hkvs => ?_⟩
      rcases List.mem_pair.1 hinst with rfl | rfl <;>
        · obtain rfl := Value.obj.inj hkvs
          simp [Dict.keys])
  rw [hinstances, hsteps] at hrows
  obtain ⟨payloads, hbuilt, hlength, hall⟩ := hmessages lineTemplate rfl (by
    intro i _ j constant hconstant
    obtain rfl : constant = .ofFunction ⟨"sent", by decide, by decide +kernel⟩ .today :=
      List.mem_singleton.1 (List.mem_of_getElem? hconstant)
    exact ⟨_, rfl⟩)
  exact ⟨hrows, payloads, hbuilt, hlength.trans hrows.length_eq.symm, hall⟩

end Message
end QualityFlow
