/-
# Objects that are shared

Dictionaries and lists are objects: a value holds a reference to one, two places may
hold the same reference, and a change is seen through both.  A heap is the list of
the objects made so far, a reference the place of one in it, so an object made
later never takes the place of an earlier one.

Two heaps are compared by a relation between their references.  `Agree` says that
related references lead to objects of one kind with related items, so that no walk
through items can tell them apart; the items a predicate hides are left out of the
comparison.  `Sim` adds that the relation is one to one, which is what lets a change
made on both sides keep it.
-/

import Mathlib.Logic.Relator
import Mathlib.Order.Basic
import QualityFlow.Py.Json

namespace QualityFlow
namespace Py

/-! ### Objects -/

/-- A value: a scalar, or a reference to an object. -/
inductive Val where
  | null
  | bool (b : Bool)
  | int (n : ℤ)
  | float (q : ℚ)
  | str (s : String)
  | ref (l : ℕ)
deriving DecidableEq

/-- An object: a `dict` or a `list`. -/
inductive Obj where
  | dict (d : Dict String Val)
  | list (xs : List Val)
deriving DecidableEq

/-- What an item of an object is found under. -/
inductive Key where
  | name (k : String)
  | index (i : ℕ)
deriving DecidableEq

namespace Obj

/-- The item of a key, where the object has it. -/
def get? : Obj → Key → Option Val
  | .dict d, .name k => d.get? k
  | .list xs, .index i => xs[i]?
  | _, _ => none

/-- `o[key] = v`, for a list at an index it has. -/
def set : Obj → Key → Val → Obj
  | .dict d, .name k, v => .dict (d.set k v)
  | .list xs, .index i, v => .list (xs.set i v)
  | o, _, _ => o

/-- `o.pop(key)`. -/
def erase : Obj → Key → Obj
  | .dict d, .name k => .dict (d.erase k)
  | .list xs, .index i => .list (xs.eraseIdx i)
  | o, _ => o

/-- `o.append(v)`. -/
def append : Obj → Val → Obj
  | .list xs, v => .list (xs ++ [v])
  | o, _ => o

end Obj

/-- The objects, oldest first. -/
abbrev Heap := List Obj

namespace Heap

/-- The object a value refers to. -/
def obj? (h : Heap) : Val → Option Obj
  | .ref l => h[l]?
  | _ => none

/-- `v[key]`, where it is there. -/
def item? (h : Heap) (v : Val) (key : Key) : Option Val := (h.obj? v).bind fun o => o.get? key

/-- A value refers to a dictionary. -/
def IsDict (h : Heap) (v : Val) : Prop := ∃ d, h.obj? v = some (.dict d)

/-- Whether a value refers to a dictionary. -/
def isDict (h : Heap) (v : Val) : Bool :=
  match h.obj? v with
  | some (.dict _) => true
  | _ => false

theorem isDict_iff {h : Heap} {v : Val} : h.isDict v = true ↔ h.IsDict v := by
  unfold isDict IsDict
  split
  · rename_i d hd
    exact ⟨fun _ => ⟨d, hd⟩, fun _ => rfl⟩
  · rename_i hno
    refine ⟨fun h => absurd h (by simp), ?_⟩
    rintro ⟨d, hd⟩
    exact absurd hd (hno d)

/-- `v.get(k)`, with `None` where it is not there. -/
def field (h : Heap) (l : ℕ) (k : String) : Val := (h.item? (.ref l) (.name k)).getD .null

/-- A new object, and where it is. -/
def alloc (h : Heap) (o : Obj) : Heap × ℕ := (h ++ [o], h.length)

/-- `v if isinstance(v, dict) else {}`. -/
def dictOrNew (h : Heap) (v : Val) : Heap × Val :=
  if h.isDict v then (h, v)
  else
    let (h, l) := h.alloc (.dict [])
    (h, .ref l)

/-- `v if isinstance(v, dict) else {}`, as the place of the dictionary. -/
def dictAt (h : Heap) : Val → Heap × ℕ
  | .ref l => if h.isDict (.ref l) then (h, l) else h.alloc (.dict [])
  | _ => h.alloc (.dict [])

/-- `bool(v)`. -/
def truthy (h : Heap) : Val → Bool
  | .null => false
  | .bool b => b
  | .int n => n ≠ 0
  | .float q => q ≠ 0
  | .str s => s ≠ ""
  | .ref l =>
    match h[l]? with
    | some (.dict d) => !d.isEmpty
    | some (.list xs) => !xs.isEmpty
    | none => false

/-- `repr(v)`; an object inside of itself is not written again. -/
def repr (h : Heap) : ℕ → List ℕ → Val → String
  | _, _, .null => "None"
  | _, _, .bool b => if b then "True" else "False"
  | _, _, .int n => toString n
  | _, _, .float q => Json.reprFloat q
  | _, _, .str s => Json.reprStr s
  | 0, _, .ref _ => "..."
  | depth + 1, inside, .ref l =>
    match h[l]? with
    | some (.dict d) =>
      if l ∈ inside then "\x7b...\x7d"
      else
        let items := d.map fun (k, v) => Json.reprStr k ++ ": " ++ repr h depth (l :: inside) v
        "\x7b" ++ ", ".intercalate items ++ "\x7d"
    | some (.list xs) =>
      if l ∈ inside then "[...]"
      else "[" ++ ", ".intercalate (xs.map (repr h depth (l :: inside))) ++ "]"
    | none => "..."

/-- `str(v)`: objects are inside of each other no deeper than there are objects. -/
def str (h : Heap) : Val → String
  | .str s => s
  | v => h.repr (h.length + 1) [] v

/-- `v[key] = w`. -/
def setItem (h : Heap) (l : ℕ) (key : Key) (w : Val) : Heap := h.modify l fun o => o.set key w

/-- `v.pop(key)`. -/
def eraseItem (h : Heap) (l : ℕ) (key : Key) : Heap := h.modify l fun o => o.erase key

/-- `v.append(w)`. -/
def append (h : Heap) (l : ℕ) (w : Val) : Heap := h.modify l fun o => o.append w

theorem modify_self {h : Heap} {l : ℕ} {o : Obj} (ho : h[l]? = some o) (f : Obj → Obj) :
    (h.modify l f)[l]? = some (f o) := by
  rw [List.getElem?_modify, ho]
  simp

theorem modify_of_ne (h : Heap) {l m : ℕ} (hne : l ≠ m) (f : Obj → Obj) :
    (h.modify l f)[m]? = h[m]? := by
  rw [List.getElem?_modify]
  simp [hne]

/-- An object stays where it is while others are made. -/
theorem getElem?_of_isPrefix {h h₂ : Heap} (hpre : h <+: h₂) {l : ℕ} {o : Obj}
    (ho : h[l]? = some o) : h₂[l]? = some o := by
  obtain ⟨more, rfl⟩ := hpre
  rw [List.getElem?_append_left (List.getElem?_eq_some_iff.1 ho).1, ho]

theorem IsDict.of_isPrefix {h h₂ : Heap} (hpre : h <+: h₂) {v : Val} (hv : h.IsDict v) :
    h₂.IsDict v := by
  obtain ⟨d, hd⟩ := hv
  cases v with
  | ref l => exact ⟨d, getElem?_of_isPrefix hpre hd⟩
  | _ => simp [obj?] at hd

/-- The fields of a dictionary stay what they are while others are made. -/
theorem field_of_isPrefix {h h₂ : Heap} (hpre : h <+: h₂) {l : ℕ} (hl : h.IsDict (.ref l))
    (k : String) : h₂.field l k = h.field l k := by
  obtain ⟨d, hd⟩ := hl
  have hd₂ : h₂.obj? (.ref l) = some (.dict d) := getElem?_of_isPrefix hpre hd
  rw [field, field, item?, item?, hd, hd₂]

/-- A change behind the objects of before. -/
theorem prefix_setItem {h h₂ : Heap} (hpre : h <+: h₂) {l : ℕ} (hl : h.length ≤ l) (key : Key)
    (v : Val) : h <+: h₂.setItem l key v := by
  refine List.prefix_iff_getElem?.2 fun i hi => ?_
  have hne : l ≠ i := by omega
  rw [setItem, modify_of_ne h₂ hne]
  exact List.prefix_iff_getElem?.1 hpre i hi

theorem IsDict.setItem {h : Heap} {w : Val} (hw : h.IsDict w) (l : ℕ) (k : String) (v : Val) :
    (h.setItem l (.name k) v).IsDict w := by
  obtain ⟨d, hd⟩ := hw
  cases w with
  | ref m =>
    by_cases hm : l = m
    · subst hm
      exact ⟨d.set k v, modify_self hd _⟩
    · exact ⟨d, (modify_of_ne h hm _).trans hd⟩
  | _ => simp [obj?] at hd

/-- A dictionary that is there is taken as it is. -/
theorem dictAt_eq {h : Heap} {v : Val} (hv : h.IsDict v) :
    (h.dictAt v).1 = h ∧ v = .ref (h.dictAt v).2 := by
  cases v with
  | ref l => simp [dictAt, isDict_iff.2 hv]
  | _ =>
    obtain ⟨d, hd⟩ := hv
    simp [obj?] at hd

theorem isDict_dictAt (h : Heap) (v : Val) : (h.dictAt v).1.IsDict (.ref (h.dictAt v).2) := by
  have hnew : (h.alloc (.dict [])).1.IsDict (.ref (h.alloc (.dict [])).2) :=
    ⟨[], by simp [alloc, obj?]⟩
  cases v with
  | ref l =>
    by_cases hl : h.isDict (.ref l) = true
    · simpa [dictAt, hl] using isDict_iff.1 hl
    · simpa [dictAt, hl] using hnew
  | _ => exact hnew

theorem prefix_dictAt (h : Heap) (v : Val) : h <+: (h.dictAt v).1 := by
  have hnew : h <+: (h.alloc (.dict [])).1 := List.prefix_append _ _
  cases v with
  | ref l =>
    by_cases hl : h.isDict (.ref l) = true
    · simp [dictAt, hl]
    · simpa [dictAt, hl] using hnew
  | _ => exact hnew

mutual

/-- The objects of a JSON value. -/
def ofJson (h : Heap) : Json → Heap × Val
  | .null => (h, .null)
  | .bool b => (h, .bool b)
  | .int n => (h, .int n)
  | .float q => (h, .float q)
  | .str s => (h, .str s)
  | .arr xs =>
    let (h, vs) := ofJsonList h xs
    let (h, l) := h.alloc (.list vs)
    (h, .ref l)
  | .obj kvs =>
    let (h, d) := ofJsonItems h kvs
    let (h, l) := h.alloc (.dict d)
    (h, .ref l)

def ofJsonList (h : Heap) : List Json → Heap × List Val
  | [] => (h, [])
  | x :: xs =>
    let (h, v) := ofJson h x
    let (h, vs) := ofJsonList h xs
    (h, v :: vs)

def ofJsonItems (h : Heap) : List (String × Json) → Heap × Dict String Val
  | [] => (h, [])
  | (k, x) :: kvs =>
    let (h, v) := ofJson h x
    let (h, d) := ofJsonItems h kvs
    (h, (k, v) :: d)

end

end Heap

/-! ### Related values and objects -/

/-- Scalars are related to themselves, references as the relation says. -/
inductive ValRel (ρ : ℕ → ℕ → Prop) : Val → Val → Prop where
  | scalar {v : Val} (h : ∀ l, v ≠ .ref l) : ValRel ρ v v
  | ref {l m : ℕ} (h : ρ l m) : ValRel ρ (.ref l) (.ref m)

/-- Two objects of one kind whose items are related, but for the hidden ones. -/
inductive ObjRel (ρ : ℕ → ℕ → Prop) (hidden : String → Prop) : Obj → Obj → Prop where
  | dict {d d' : Dict String Val}
      (h : ∀ k, ¬ hidden k → Option.Rel (ValRel ρ) (d.get? k) (d'.get? k)) :
      ObjRel ρ hidden (.dict d) (.dict d')
  | list {xs ys : List Val} (h : ∀ i : ℕ, Option.Rel (ValRel ρ) xs[i]? ys[i]?) :
      ObjRel ρ hidden (.list xs) (.list ys)

section

variable {ρ ρ' : ℕ → ℕ → Prop} {hidden : String → Prop} {v v' : Val} {o o' : Obj}

theorem ValRel.mono (hρ : ρ ≤ ρ') (h : ValRel ρ v v') : ValRel ρ' v v' := by
  cases h with
  | scalar hv => exact .scalar hv
  | ref hl => exact .ref (hρ _ _ hl)

theorem ValRel.null : ValRel ρ .null .null := .scalar (by simp)

theorem ValRel.str (s : String) : ValRel ρ (.str s) (.str s) := .scalar (by simp)

theorem ValRel.of_ref {l m : ℕ} (h : ValRel ρ (.ref l) (.ref m)) : ρ l m := by
  cases h with
  | scalar hv => exact absurd rfl (hv l)
  | ref hl => exact hl

theorem ValRel.eq_null_iff (h : ValRel ρ v v') : v = .null ↔ v' = .null := by
  cases h with
  | scalar hv => exact Iff.rfl
  | ref hl => simp

/-- Related optional values, under a larger relation. -/
theorem optionRel_mono {a b : Option Val} (hρ : ρ ≤ ρ') (h : Option.Rel (ValRel ρ) a b) :
    Option.Rel (ValRel ρ') a b := by
  cases h with
  | none => exact .none
  | some h => exact .some (h.mono hρ)

theorem optionRel_cases {a b : Option Val} (h : Option.Rel (ValRel ρ) a b) :
    (a = none ∧ b = none) ∨ ∃ v w, a = some v ∧ b = some w ∧ ValRel ρ v w := by
  cases h with
  | none => exact .inl ⟨rfl, rfl⟩
  | some h => exact .inr ⟨_, _, rfl, rfl, h⟩

/-- Items that are missing together, or related, read as `None` together. -/
theorem getD_rel {a b : Option Val} (h : Option.Rel (ValRel ρ) a b) :
    ValRel ρ (a.getD .null) (b.getD .null) := by
  cases h with
  | none => exact .null
  | some h => exact h

/-- Dictionaries are related entry by entry. -/
theorem dictRel_cons {d d' : Dict String Val} (k : String) (hv : ValRel ρ v v')
    (hd : ∀ k, Option.Rel (ValRel ρ) (d.get? k) (d'.get? k)) (k' : String) :
    Option.Rel (ValRel ρ) (Dict.get? ((k, v) :: d) k') (Dict.get? ((k, v') :: d') k') := by
  rw [Dict.get?_cons, Dict.get?_cons]
  split_ifs
  · exact .some hv
  · exact hd k'

theorem dictRel_nil (k : String) :
    Option.Rel (ValRel ρ) (Dict.get? ([] : Dict String Val) k) (Dict.get? [] k) := .none

theorem optionRel_isSome {a b : Option Val} (h : Option.Rel (ValRel ρ) a b) :
    a.isSome = b.isSome := by
  cases h <;> rfl

theorem ObjRel.mono (hρ : ρ ≤ ρ') (h : ObjRel ρ hidden o o') : ObjRel ρ' hidden o o' := by
  cases h with
  | dict hd => exact .dict fun k hk => optionRel_mono hρ (hd k hk)
  | list hl => exact .list fun i => optionRel_mono hρ (hl i)

/-- Hiding more asks less. -/
theorem ObjRel.hide {hidden' : String → Prop} (hh : ∀ k, hidden k → hidden' k)
    (h : ObjRel ρ hidden o o') : ObjRel ρ hidden' o o' := by
  cases h with
  | dict hd => exact .dict fun k hk => hd k fun hk' => hk (hh k hk')
  | list hl => exact .list hl

theorem ObjRel.get? (h : ObjRel ρ hidden o o') {key : Key}
    (hkey : ∀ k, key = .name k → ¬ hidden k) : Option.Rel (ValRel ρ) (o.get? key) (o'.get? key) := by
  cases h with
  | dict hd =>
    cases key with
    | name k => exact hd k (hkey k rfl)
    | index i => exact .none
  | list hl =>
    cases key with
    | name k => exact .none
    | index i => exact hl i

/-- Two lists with related items are of one length. -/
theorem length_eq_of_rel {xs ys : List Val} (h : ∀ i : ℕ, Option.Rel (ValRel ρ) xs[i]? ys[i]?) :
    xs.length = ys.length := by
  have hlt (i : ℕ) : i < xs.length ↔ i < ys.length := by
    have hsome := congrArg (· = true) (optionRel_isSome (h i))
    simpa [Option.isSome_iff_exists, List.getElem?_eq_some_iff] using hsome
  have h₁ := hlt xs.length
  have h₂ := hlt ys.length
  omega

theorem ObjRel.set (h : ObjRel ρ hidden o o') (key : Key) (hv : ValRel ρ v v') :
    ObjRel ρ hidden (o.set key v) (o'.set key v') := by
  cases h with
  | dict hd =>
    cases key with
    | name k =>
      refine .dict fun k' hk' => ?_
      rw [Dict.get?_set, Dict.get?_set]
      split_ifs
      · exact .some hv
      · exact hd k' hk'
    | index i => exact .dict hd
  | list hl =>
    cases key with
    | name k => exact .list hl
    | index i =>
      refine .list fun j => ?_
      rw [List.getElem?_set, List.getElem?_set, length_eq_of_rel hl]
      split_ifs
      · exact .some hv
      · exact .none
      · exact hl j

theorem ObjRel.erase (h : ObjRel ρ hidden o o') (key : Key) :
    ObjRel ρ hidden (o.erase key) (o'.erase key) := by
  cases h with
  | dict hd =>
    cases key with
    | name k =>
      refine .dict fun k' hk' => ?_
      rw [Dict.get?_erase, Dict.get?_erase]
      split_ifs
      · exact .none
      · exact hd k' hk'
    | index i => exact .dict hd
  | list hl =>
    cases key with
    | name k => exact .list hl
    | index i =>
      refine .list fun j => ?_
      rw [List.getElem?_eraseIdx, List.getElem?_eraseIdx]
      split_ifs
      · exact hl j
      · exact hl (j + 1)

end

theorem ObjRel.append {ρ : ℕ → ℕ → Prop} {hidden : String → Prop} {o o' : Obj} {v v' : Val}
    (h : ObjRel ρ hidden o o') (hv : ValRel ρ v v') :
    ObjRel ρ hidden (o.append v) (o'.append v') := by
  cases h with
  | dict hd => exact .dict hd
  | list hl =>
    refine .list fun i => ?_
    rw [List.getElem?_append, List.getElem?_append, length_eq_of_rel hl]
    split_ifs
    · exact hl i
    · rename_i xs ys hlt
      cases i - ys.length with
      | zero => exact .some hv
      | succ n => exact .none

/-! ### Related heaps -/

/-- Related references lead to related objects, but for the hidden items. -/
def Agree (hide : ℕ → String → Prop) (ρ : ℕ → ℕ → Prop) (h h' : Heap) : Prop :=
  ∀ l m, ρ l m → ∃ o o', h[l]? = some o ∧ h'[m]? = some o' ∧ ObjRel ρ (hide l) o o'

/-- A relation that adds one pair. -/
def extend (ρ : ℕ → ℕ → Prop) (a b : ℕ) : ℕ → ℕ → Prop := fun l m => ρ l m ∨ l = a ∧ m = b

theorem le_extend (ρ : ℕ → ℕ → Prop) (a b : ℕ) : ρ ≤ extend ρ a b := fun _ _ h => .inl h

/-- A one-to-one relation under which two heaps agree; only objects that are there have
hidden items, and the same ones on both sides. -/
structure Sim (hide : ℕ → String → Prop) (ρ : ℕ → ℕ → Prop) (h h' : Heap) : Prop where
  unique : Relator.BiUnique ρ
  agree : Agree hide ρ h h'
  hidden : ∀ l m k, ρ l m → (hide l k ↔ hide m k)
  bound : ∀ l k, hide l k → l < h.length ∧ l < h'.length

section

variable {hide : ℕ → String → Prop} {ρ : ℕ → ℕ → Prop} {h h' : Heap} {v v' w w' : Val} {l m : ℕ}

/-- An item under this key may be compared. -/
def Shown (hide : ℕ → String → Prop) (v : Val) (key : Key) : Prop :=
  ∀ l k, v = .ref l → key = .name k → ¬ hide l k

theorem Agree.obj? (s : Agree hide ρ h h') (hv : ValRel ρ v v') :
    (h.obj? v = none ∧ h'.obj? v' = none) ∨
      ∃ l m o o', v = .ref l ∧ v' = .ref m ∧ ρ l m ∧ h[l]? = some o ∧ h'[m]? = some o' ∧
        ObjRel ρ (hide l) o o' := by
  cases hv with
  | scalar hv =>
    refine .inl ?_
    cases v with
    | ref l => exact absurd rfl (hv l)
    | _ => exact ⟨rfl, rfl⟩
  | ref hlm =>
    obtain ⟨o, o', ho, ho', hrel⟩ := s _ _ hlm
    exact .inr ⟨_, _, o, o', rfl, rfl, hlm, ho, ho', hrel⟩

/-- Related values have related items. -/
theorem Agree.item? (s : Agree hide ρ h h') (hv : ValRel ρ v v') {key : Key}
    (hkey : Shown hide v key) : Option.Rel (ValRel ρ) (h.item? v key) (h'.item? v' key) := by
  unfold Heap.item?
  rcases s.obj? hv with ⟨h₁, h₂⟩ | ⟨l, m, o, o', rfl, rfl, -, ho, ho', hrel⟩
  · rw [h₁, h₂]
    exact .none
  · simp only [Heap.obj?, ho, ho', Option.bind_some]
    exact hrel.get? fun k hk => hkey l k rfl hk

theorem Agree.isDict (s : Agree hide ρ h h') (hv : ValRel ρ v v') : h.isDict v = h'.isDict v' := by
  unfold Heap.isDict
  rcases s.obj? hv with ⟨h₁, h₂⟩ | ⟨l, m, o, o', rfl, rfl, -, ho, ho', hrel⟩
  · rw [h₁, h₂]
  · simp only [Heap.obj?, ho, ho']
    cases hrel <;> rfl

theorem Sim.lt_left (s : Sim hide ρ h h') (hlm : ρ l m) : l < h.length := by
  obtain ⟨o, -, ho, -⟩ := s.agree l m hlm
  exact (List.getElem?_eq_some_iff.1 ho).1

theorem Sim.lt_right (s : Sim hide ρ h h') (hlm : ρ l m) : m < h'.length := by
  obtain ⟨-, o', -, ho', -⟩ := s.agree l m hlm
  exact (List.getElem?_eq_some_iff.1 ho').1

/-- The same change of two related objects keeps two heaps related. -/
theorem Sim.modify (s : Sim hide ρ h h') (hlm : ρ l m) {f g : Obj → Obj}
    (hfg : ∀ o o', ObjRel ρ (hide l) o o' → ObjRel ρ (hide l) (f o) (g o')) :
    Sim hide ρ (h.modify l f) (h'.modify m g) := by
  refine ⟨s.unique, ?_, s.hidden, by simpa using s.bound⟩
  intro a b hab
  obtain ⟨o, o', ho, ho', hrel⟩ := s.agree a b hab
  by_cases ha : l = a
  · subst ha
    obtain rfl := s.unique.2 hlm hab
    exact ⟨f o, g o', Heap.modify_self ho f, Heap.modify_self ho' g, hfg o o' hrel⟩
  · have hb : m ≠ b := by
      rintro rfl
      exact ha (s.unique.1 hlm hab)
    refine ⟨o, o', ?_, ?_, hrel⟩
    · rw [Heap.modify_of_ne h ha, ho]
    · rw [Heap.modify_of_ne h' hb, ho']

theorem Sim.setItem (s : Sim hide ρ h h') (hlm : ρ l m) (key : Key) (hv : ValRel ρ v v') :
    Sim hide ρ (h.setItem l key v) (h'.setItem m key v') :=
  s.modify hlm fun _ _ hrel => hrel.set key hv

theorem Sim.append (s : Sim hide ρ h h') (hlm : ρ l m) (hv : ValRel ρ v v') :
    Sim hide ρ (h.append l v) (h'.append m v') :=
  s.modify hlm fun _ _ hrel => hrel.append hv

theorem Sim.eraseItem (s : Sim hide ρ h h') (hlm : ρ l m) (key : Key) :
    Sim hide ρ (h.eraseItem l key) (h'.eraseItem m key) :=
  s.modify hlm fun _ _ hrel => hrel.erase key

/-- Two new objects with related items are related. -/
theorem Sim.alloc (s : Sim hide ρ h h') {o o' : Obj} (ho : ObjRel ρ (fun _ => False) o o') :
    Sim hide (extend ρ h.length h'.length) (h.alloc o).1 (h'.alloc o').1 := by
  refine ⟨⟨?_, ?_⟩, ?_, ?_, ?_⟩
  · rintro a b c (hac | ⟨rfl, rfl⟩) (hbc | ⟨rfl, hc⟩)
    · exact s.unique.1 hac hbc
    · exact absurd (s.lt_right hac) (by omega)
    · exact absurd (s.lt_right hbc) (by omega)
    · rfl
  · rintro a b c (hab | ⟨rfl, rfl⟩) (hac | ⟨ha, rfl⟩)
    · exact s.unique.2 hab hac
    · exact absurd (s.lt_left hab) (by omega)
    · exact absurd (s.lt_left hac) (by omega)
    · rfl
  · rintro a b (hab | ⟨rfl, rfl⟩)
    · obtain ⟨p, p', hp, hp', hrel⟩ := s.agree a b hab
      refine ⟨p, p', ?_, ?_, hrel.mono (le_extend _ _ _)⟩
      · rw [Heap.alloc, List.getElem?_append_left (s.lt_left hab), hp]
      · rw [Heap.alloc, List.getElem?_append_left (s.lt_right hab), hp']
    · refine ⟨o, o', by simp [Heap.alloc], by simp [Heap.alloc], ?_⟩
      exact (ho.mono (le_extend _ _ _)).hide fun _ hf => hf.elim
  · rintro a b k (hab | ⟨rfl, rfl⟩)
    · exact s.hidden a b k hab
    · constructor
      · intro hk
        exact absurd (s.bound _ _ hk).1 (by omega)
      · intro hk
        exact absurd (s.bound _ _ hk).2 (by omega)
  · intro a k hk
    have := s.bound a k hk
    simp only [Heap.alloc, List.length_append, List.length_singleton]
    omega

theorem ValRel.symm (hv : ValRel ρ v v') : ValRel (fun m l => ρ l m) v' v := by
  cases hv with
  | scalar hv => exact .scalar hv
  | ref hl => exact .ref hl

theorem optionRel_symm {a b : Option Val} (hab : Option.Rel (ValRel ρ) a b) :
    Option.Rel (ValRel fun m l => ρ l m) b a := by
  cases hab with
  | none => exact .none
  | some hv => exact .some hv.symm

theorem ObjRel.symm {hidden : String → Prop} {o o' : Obj} (ho : ObjRel ρ hidden o o') :
    ObjRel (fun m l => ρ l m) hidden o' o := by
  cases ho with
  | dict hd => exact .dict fun k hk => optionRel_symm (hd k hk)
  | list hl => exact .list fun i => optionRel_symm (hl i)

theorem Sim.symm (s : Sim hide ρ h h') : Sim hide (fun m l => ρ l m) h' h := by
  refine ⟨⟨fun _ _ _ h₁ h₂ => s.unique.2 h₁ h₂, fun _ _ _ h₁ h₂ => s.unique.1 h₁ h₂⟩, ?_,
    fun m l k hlm => (s.hidden l m k hlm).symm, fun l k hk => (s.bound l k hk).symm⟩
  intro m l hlm
  obtain ⟨o, o', ho, ho', hrel⟩ := s.agree l m hlm
  exact ⟨o', o, ho', ho, hrel.symm.hide fun k hk => (s.hidden l m k hlm).1 hk⟩

/-- What a change on one side may do to an object: leave it, or change hidden items. -/
inductive Kept (hidden : String → Prop) : Obj → Obj → Prop where
  | refl (o : Obj) : Kept hidden o o
  | dict {d d₂ : Dict String Val} (hsome : ∃ k, hidden k)
      (h : ∀ k, ¬ hidden k → d₂.get? k = d.get? k) : Kept hidden (.dict d) (.dict d₂)

theorem Kept.trans {hidden : String → Prop} {o₁ o₂ o₃ : Obj} (h₁ : Kept hidden o₁ o₂)
    (h₂ : Kept hidden o₂ o₃) : Kept hidden o₁ o₃ := by
  cases h₁ with
  | refl => exact h₂
  | dict hsome hd =>
    cases h₂ with
    | refl => exact .dict hsome hd
    | dict _ hd' => exact .dict hsome fun k hk => (hd' k hk).trans (hd k hk)

theorem Kept.mono {hidden hidden' : String → Prop} (hh : ∀ k, hidden k → hidden' k) {o o₂ : Obj}
    (h : Kept hidden o o₂) : Kept hidden' o o₂ := by
  cases h with
  | refl => exact .refl o
  | dict hsome hd =>
    obtain ⟨k, hk⟩ := hsome
    exact .dict ⟨k, hh k hk⟩ fun k' hk' => hd k' fun hk'' => hk' (hh k' hk'')

/-- A change on one side that keeps the related objects, but for hidden items, keeps the
relation. -/
theorem Sim.frame (s : Sim hide ρ h h') {h₂ : Heap} (hlen : h.length ≤ h₂.length)
    (hkeep : ∀ l m o, ρ l m → h[l]? = some o → ∃ o₂, h₂[l]? = some o₂ ∧ Kept (hide l) o o₂) :
    Sim hide ρ h₂ h' := by
  refine ⟨s.unique, ?_, s.hidden, fun l k hk => ?_⟩
  · intro l m hlm
    obtain ⟨o, o', ho, ho', hrel⟩ := s.agree l m hlm
    obtain ⟨o₂, ho₂, hkept⟩ := hkeep l m o hlm ho
    refine ⟨o₂, o', ho₂, ho', ?_⟩
    cases hkept with
    | refl => exact hrel
    | dict _ hd =>
      cases hrel with
      | dict hrel =>
        refine .dict fun k hk => ?_
        rw [hd k hk]
        exact hrel k hk
  · have := s.bound l k hk
    omega

/-- What can be reached from some values through items that are not hidden. -/
inductive Reach (hide : ℕ → String → Prop) (h : Heap) (roots : Val → Prop) : ℕ → Prop where
  | root {l : ℕ} (hl : roots (.ref l)) : Reach hide h roots l
  | item {l m : ℕ} {o : Obj} {key : Key} (hl : Reach hide h roots l) (ho : h[l]? = some o)
      (hkey : ∀ k, key = .name k → ¬ hide l k) (hm : o.get? key = some (.ref m)) :
      Reach hide h roots m

theorem ValRel.restrict {P : ℕ → Prop} (hv : ValRel ρ v v') (hP : ∀ l, v = .ref l → P l) :
    ValRel (fun l m => ρ l m ∧ P l) v v' := by
  cases hv with
  | scalar hv => exact .scalar hv
  | ref hl => exact .ref ⟨hl, hP _ rfl⟩

/-- A relation may be cut down to what can be reached. -/
theorem Sim.restrict (s : Sim hide ρ h h') (roots : Val → Prop) :
    Sim hide (fun l m => ρ l m ∧ Reach hide h roots l) h h' := by
  refine ⟨⟨fun _ _ _ h₁ h₂ => s.unique.1 h₁.1 h₂.1, fun _ _ _ h₁ h₂ => s.unique.2 h₁.1 h₂.1⟩, ?_,
    fun l m k hlm => s.hidden l m k hlm.1, s.bound⟩
  rintro l m ⟨hlm, hreach⟩
  obtain ⟨o, o', ho, ho', hrel⟩ := s.agree l m hlm
  have hopt {key : Key} (hkey : ∀ k, key = .name k → ¬ hide l k) {b : Option Val}
      (hab : Option.Rel (ValRel ρ) (o.get? key) b) :
      Option.Rel (ValRel fun l m => ρ l m ∧ Reach hide h roots l) (o.get? key) b := by
    cases ha : o.get? key with
    | none =>
      rw [ha] at hab
      cases hab
      exact .none
    | some v =>
      rw [ha] at hab
      cases hab with
      | some hv =>
        refine .some (hv.restrict ?_)
        rintro a rfl
        exact .item hreach ho hkey ha
  refine ⟨o, o', ho, ho', ?_⟩
  cases hrel with
  | dict hd =>
    refine .dict fun k hk => ?_
    have hkey : ∀ k', Key.name k = .name k' → ¬ hide l k' := by
      rintro k' hk'
      obtain rfl := Key.name.inj hk'
      exact hk
    exact hopt hkey (hd k hk)
  | list hl =>
    refine .list fun i => ?_
    have hkey : ∀ k, Key.index i = .name k → ¬ hide l k := by simp
    exact hopt hkey (hl i)

end

/-! ### Values that are made -/

section

variable {hide : ℕ → String → Prop}

mutual

/-- A JSON value made on both sides is related. -/
theorem sim_ofJson : ∀ (x : Json) {ρ : ℕ → ℕ → Prop} {h h' : Heap}, Sim hide ρ h h' →
    ∃ ρ', ρ ≤ ρ' ∧ Sim hide ρ' (h.ofJson x).1 (h'.ofJson x).1 ∧
      ValRel ρ' (h.ofJson x).2 (h'.ofJson x).2
  | .null, _, _, _, s => ⟨_, le_rfl, s, .scalar (by simp [Heap.ofJson])⟩
  | .bool _, _, _, _, s => ⟨_, le_rfl, s, .scalar (by simp [Heap.ofJson])⟩
  | .int _, _, _, _, s => ⟨_, le_rfl, s, .scalar (by simp [Heap.ofJson])⟩
  | .float _, _, _, _, s => ⟨_, le_rfl, s, .scalar (by simp [Heap.ofJson])⟩
  | .str _, _, _, _, s => ⟨_, le_rfl, s, .scalar (by simp [Heap.ofJson])⟩
  | .arr xs, _, _, _, s => by
    obtain ⟨ρ', hle, hs, hvs⟩ := sim_ofJsonList xs s
    exact ⟨_, hle.trans (le_extend _ _ _), hs.alloc (.list hvs), .ref (.inr ⟨rfl, rfl⟩)⟩
  | .obj kvs, _, _, _, s => by
    obtain ⟨ρ', hle, hs, hd⟩ := sim_ofJsonItems kvs s
    exact ⟨_, hle.trans (le_extend _ _ _), hs.alloc (.dict fun k _ => hd k),
      .ref (.inr ⟨rfl, rfl⟩)⟩

theorem sim_ofJsonList : ∀ (xs : List Json) {ρ : ℕ → ℕ → Prop} {h h' : Heap}, Sim hide ρ h h' →
    ∃ ρ', ρ ≤ ρ' ∧ Sim hide ρ' (h.ofJsonList xs).1 (h'.ofJsonList xs).1 ∧
      ∀ i : ℕ, Option.Rel (ValRel ρ') (h.ofJsonList xs).2[i]? (h'.ofJsonList xs).2[i]?
  | [], _, _, _, s => ⟨_, le_rfl, s, fun _ => .none⟩
  | x :: xs, _, _, _, s => by
    obtain ⟨ρ₁, hle₁, hs₁, hv⟩ := sim_ofJson x s
    obtain ⟨ρ₂, hle₂, hs₂, hvs⟩ := sim_ofJsonList xs hs₁
    refine ⟨ρ₂, hle₁.trans hle₂, hs₂, fun i => ?_⟩
    cases i with
    | zero => exact .some (hv.mono hle₂)
    | succ i => exact hvs i

theorem sim_ofJsonItems : ∀ (kvs : List (String × Json)) {ρ : ℕ → ℕ → Prop} {h h' : Heap},
    Sim hide ρ h h' →
    ∃ ρ', ρ ≤ ρ' ∧ Sim hide ρ' (h.ofJsonItems kvs).1 (h'.ofJsonItems kvs).1 ∧
      ∀ k, Option.Rel (ValRel ρ') ((h.ofJsonItems kvs).2.get? k) ((h'.ofJsonItems kvs).2.get? k)
  | [], _, _, _, s => ⟨_, le_rfl, s, fun _ => .none⟩
  | (k, x) :: kvs, _, _, _, s => by
    obtain ⟨ρ₁, hle₁, hs₁, hv⟩ := sim_ofJson x s
    obtain ⟨ρ₂, hle₂, hs₂, hd⟩ := sim_ofJsonItems kvs hs₁
    refine ⟨ρ₂, hle₁.trans hle₂, hs₂, fun k' => ?_⟩
    simp only [Heap.ofJsonItems, Dict.get?_cons]
    split_ifs
    · exact .some (hv.mono hle₂)
    · exact hd k'

end

mutual

/-- Making a value changes no object. -/
theorem prefix_ofJson : ∀ (x : Json) (h : Heap), h <+: (h.ofJson x).1
  | .null, _ | .bool _, _ | .int _, _ | .float _, _ | .str _, _ => List.prefix_rfl
  | .arr xs, h => (prefix_ofJsonList xs h).trans (List.prefix_append _ _)
  | .obj kvs, h => (prefix_ofJsonItems kvs h).trans (List.prefix_append _ _)

theorem prefix_ofJsonList : ∀ (xs : List Json) (h : Heap), h <+: (h.ofJsonList xs).1
  | [], _ => List.prefix_rfl
  | x :: xs, h => (prefix_ofJson x h).trans (prefix_ofJsonList xs _)

theorem prefix_ofJsonItems : ∀ (kvs : List (String × Json)) (h : Heap), h <+: (h.ofJsonItems kvs).1
  | [], _ => List.prefix_rfl
  | (_, x) :: kvs, h => (prefix_ofJson x h).trans (prefix_ofJsonItems kvs _)

end

theorem prefix_dictOrNew (h : Heap) (v : Val) : h <+: (h.dictOrNew v).1 := by
  unfold Heap.dictOrNew
  split_ifs
  · exact List.prefix_rfl
  · exact List.prefix_append _ _

end

end Py
end QualityFlow
