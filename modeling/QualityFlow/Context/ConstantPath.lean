/-
# Paths of constants

`write_context_path`, `remove_context_path` and `resolve_dynamic_value` as the executors use
them: on `$.<scope>.constants.<name>`, with a name that has neither dots nor brackets and is no
number.

Such a path goes to the dictionary of the constants of a scope, and there to the name as a
whole: a write sets it, a removal takes it out, and a reference finds what is under it.
-/

import QualityFlow.Context.ReadBack
import QualityFlow.Suite.FieldPath
import QualityFlow.Suite.Policy

namespace QualityFlow
namespace Context

open Py Command Suite

/-! ### Paths of constants -/

/-- A name that a path takes as a whole. -/
structure ConstantName extends Token where
  plain : ∀ c ∈ val.toList, c ≠ '.' ∧ c ≠ '[' ∧ c ≠ ']'
  notIndex : isDigit val = false

/-- The scope that a constant is in, as a path names it. -/
def rootOf : ConstantContext → ContextRoot
  | .runEnvelope => .runEnvelope
  | .globalScope => .globalScope
  | .localScope => .localScope
  | .resultScope => .result

theorem foldl_segmentStep_plain {cs : List Char} (h : ∀ c ∈ cs, c ≠ '[' ∧ c ≠ ']')
    (s : SegmentState) : cs.foldl segmentStep s = { s with buffer := s.buffer ++ cs } := by
  induction cs generalizing s with
  | nil => simp
  | cons c cs ih =>
    rw [List.forall_mem_cons] at h
    obtain ⟨⟨hopen, hclose⟩, hrest⟩ := h
    rw [List.foldl_cons, ih hrest, segmentStep, if_neg hopen, if_neg hclose]
    simp

/-- A part of a path without brackets is a token. -/
theorem segmentTokens_plain {segment : String} (h : ∀ c ∈ segment.toList, c ≠ '[' ∧ c ≠ ']')
    (hstrip : strip segment = segment) (hne : segment ≠ "") :
    segmentTokens segment = [segment] := by
  have hnil : segment.toList ≠ [] := fun hnil => hne (String.toList_eq_nil_iff.1 hnil)
  unfold segmentTokens
  rw [hstrip, foldl_segmentStep_plain h]
  simp [hnil, hne]

theorem foldl_splitStep_plain {cs : List Char} (h : ∀ c ∈ cs, c ≠ '.' ∧ c ≠ '[' ∧ c ≠ ']')
    (s : SplitState) : cs.foldl splitStep s = { s with buffer := s.buffer ++ cs } := by
  induction cs generalizing s with
  | nil => simp
  | cons c cs ih =>
    rw [List.forall_mem_cons] at h
    obtain ⟨⟨hdot, hopen, hclose⟩, hrest⟩ := h
    rw [List.foldl_cons, ih hrest, splitStep, if_neg (by simp [hdot]), if_neg hopen, if_neg hclose]
    simp

/-- A part of a reference without brackets is a key. -/
theorem refTokens_plain {segment : String} (h : ∀ c ∈ segment.toList, c ≠ '[')
    (hne : segment ≠ "") : refTokens segment = .ok [.name segment] := by
  obtain ⟨c, cs, hcs⟩ : ∃ c cs, segment.toList = c :: cs := by
    cases hlist : segment.toList with
    | nil => exact absurd (String.toList_eq_nil_iff.1 hlist) hne
    | cons c cs => exact ⟨c, cs, rfl⟩
  have htake : (c :: cs).takeWhile (· ≠ '[') = c :: cs := by
    rw [← hcs, List.takeWhile_eq_self_iff]
    simpa using h
  have hopen : c ≠ '[' := h c (by simp [hcs])
  have hstop (rounds : ℕ) : refTokensLoop segment rounds [] = .ok [] := by cases rounds <;> rfl
  unfold refTokens
  rw [hcs, List.length_cons, refTokensLoop]
  · simp only [htake, List.drop_length, hstop, ok_bind, pure_eq_ok]
    rw [← hcs, String.ofList_toList]
  · exact hopen

section

variable (s : ConstantContext) (n : ConstantName)

/-- The text of the path of a constant. -/
theorem constantPath_eq : constantPath s n.toToken = String.ofList
    ('$' :: '.' :: (s.value.toList ++ '.' :: ("constants.".toList ++ n.val.toList))) := by
  rw [← String.toList_inj, constantPath, String.toList_append, String.toList_append,
    String.toList_append, String.toList_ofList]
  have hconstants : ".constants.".toList = '.' :: "constants.".toList := rfl
  rw [hconstants]
  simp

theorem strip_constantPath : strip (constantPath s n.toToken) = constantPath s n.toToken := by
  have h := strip_dollar_token (s.value.toList ++ '.' :: "constants.".toList) n.toToken
  rw [constantPath_eq]
  simpa using h

/-- The parts of the path of a constant. -/
theorem split_constantPath : split '.' (dropChars 2 (constantPath s n.toToken))
    = [s.value, "constants", n.val] := by
  have hscope : '.' ∉ s.value.toList := by cases s <;> decide
  have hname : '.' ∉ n.val.toList := fun h => (n.plain _ h).1 rfl
  have hconstants : "constants.".toList = "constants".toList ++ ['.'] := rfl
  rw [constantPath_eq, dropChars, String.toList_ofList]
  rw [List.drop_succ_cons, List.drop_succ_cons, List.drop_zero, split_append_sep, hconstants,
    List.append_assoc, List.singleton_append, split_append_sep]
  rw [String.ofList_toList, String.ofList_toList, String.ofList_toList, split_eq_singleton hscope,
    split_eq_singleton hname]
  rfl

theorem startsWith_constantPath : startsWith (constantPath s n.toToken) "$." = true := by
  rw [constantPath_eq]
  simp [startsWith]

/-- **The path of a constant goes to its scope, and there to its name among the constants.** -/
theorem contextTarget_constantPath : contextTarget (constantPath s n.toToken)
    = .ok (some (rootOf s, ["constants", n.val])) := by
  have hne : constantPath s n.toToken ≠ "" := by
    rw [constantPath_eq]
    simp [← String.toList_inj]
  have hstarts := startsWith_constantPath s n
  have hnormalized : normalizeTargetPath (constantPath s n.toToken)
      = .ok (dropChars 2 (constantPath s n.toToken)) := by
    rw [normalizeTargetPath, strip_constantPath, if_neg hne, if_pos hstarts]
  have hname : segmentTokens n.val = [n.val] :=
    segmentTokens_plain (fun c hc => (n.plain c hc).2) n.strip_val n.ne_empty
  have hconstants : segmentTokens "constants" = ["constants"] := by decide
  have hscope : segmentTokens s.value = [s.value] := by cases s <;> decide
  have hvalue : s.value ≠ "" := by cases s <;> decide
  have htokens : pathTokens (constantPath s n.toToken) = .ok [s.value, "constants", n.val] := by
    rw [pathTokens, hnormalized, ok_bind, pure_eq_ok, split_constantPath]
    simp [hname, hconstants, hscope, hvalue, n.ne_empty]
  rw [contextTarget, htokens, ok_bind, pure_eq_ok]
  cases s <;> rfl

/-- The parts of the reference to a constant. -/
theorem splitPath_constantPath :
    splitPath (dropChars 2 (constantPath s n.toToken)) = [s.value, "constants", n.val] := by
  have hhead : splitPath (s.value ++ ".constants") = [s.value, "constants"] := by
    cases s <;> decide
  have hscope : refTokens s.value = .ok [.name s.value] := by cases s <;> decide
  have hconstants : refTokens "constants" = .ok [.name "constants"] := by decide
  have htext : dropChars 2 (constantPath s n.toToken)
      = s.value ++ ".constants" ++ "." ++ n.val := by
    rw [← String.toList_inj, constantPath_eq, dropChars, String.toList_ofList,
      String.toList_ofList]
    have hlist : ".constants".toList ++ ".".toList = '.' :: "constants.".toList := rfl
    rw [String.toList_append, String.toList_append, String.toList_append, List.append_assoc,
      List.append_assoc, ← List.append_assoc ".constants".toList, hlist]
    rfl
  have hsplit : splitPath n.val = [n.val] := by
    unfold splitPath
    rw [foldl_splitStep_plain n.plain]
    simp [n.ne_empty]
  rw [htext, splitPath_append_dot, hhead, hsplit]
  · rfl
  · rw [hhead]
    simp [hscope, hconstants]

end

/-! ### A write, a removal and a read -/

/-- What a write to a scope, or a removal from it, raises in a test. -/
def guardScope (kind : SuiteItemKind) (s : ConstantContext) : Except String Unit :=
  if s = .globalScope ∧ kind = .test then
    .error "Global context is immutable during test execution."
  else if s = .runEnvelope ∧ kind = .test then
    .error "RunEnvelope context is immutable during test execution."
  else .ok ()

theorem checkMutable_rootOf (c : RunContext) (s : ConstantContext) :
    checkMutable c (rootOf s) = guardScope c.currentItemKind s := by
  cases s <;> simp [checkMutable, guardScope, rootOf]

theorem toKey_constants : toKey "constants" = .ok (.name "constants") := by decide

theorem toKey_constantName (n : ConstantName) : toKey n.val = .ok (.name n.val) := by
  have hindex : toIndex n.val = .ok none := by
    rw [toIndex, n.strip_val, n.notIndex]
    rfl
  rw [toKey, hindex]
  rfl

section

variable {c : RunContext} {h : Heap} {l : ℕ} {d : Dict String Val} (s : ConstantContext)
  (n : ConstantName)

/-- The constants of a scope are a dictionary. -/
structure ConstantsAt (c : RunContext) (h : Heap) (s : ConstantContext) (l : ℕ)
    (d : Dict String Val) : Prop where
  slot : h.item? (.ref (c.scope (rootOf s))) (.name "constants") = some (.ref l)
  dict : h[l]? = some (.dict d)

namespace ConstantsAt

/-- The scope itself is a dictionary. -/
theorem scope_isDict {s : ConstantContext} (hc : ConstantsAt c h s l d) :
    ∃ fields, h[c.scope (rootOf s)]? = some (.dict fields) := by
  have hslot := hc.slot
  cases hobj : h[c.scope (rootOf s)]? with
  | none => simp [Heap.item?, Heap.obj?, hobj] at hslot
  | some o =>
    cases o with
    | dict fields => exact ⟨fields, rfl⟩
    | list xs => simp [Heap.item?, Heap.obj?, hobj, Obj.get?] at hslot

theorem targetFromRoot_eq {s : ConstantContext} :
    targetFromRoot c h (rootOf s) = (h, c.scope (rootOf s)) := by
  cases s <;> rfl

/-- **A write sets the constant, where the scope may be written.** -/
theorem writeContextPath_eq {s : ConstantContext} (hc : ConstantsAt c h s l d) (v : Val) :
    writeContextPath c h (constantPath s n.toToken) v =
      match guardScope c.currentItemKind s with
      | .error e => (h, .error e)
      | .ok () => (h.setItem l (.name n.val) v, .ok ()) := by
  obtain ⟨fields, hfields⟩ := hc.scope_isDict
  unfold writeContextPath
  rw [contextTarget_constantPath]
  simp only [checkMutable_rootOf, targetFromRoot_eq, reduceCtorEq, if_false]
  cases guardScope c.currentItemKind s with
  | error e => rfl
  | ok u =>
    have hscope : openSlot h (.ref (c.scope (rootOf s))) (.name "constants")
        = .ok (h, c.scope (rootOf s)) := by
      simp [openSlot, Heap.obj?, hfields]
    have hconstants : openSlot h (.ref l) (.name n.val) = .ok (h, l) := by
      simp [openSlot, Heap.obj?, hc.dict]
    simp [assignNestedValue, toKey_constants, toKey_constantName, hscope, hconstants, hc.slot]

/-- **A removal takes the constant out, if it is there.** -/
theorem removeContextPath_eq {s : ConstantContext} (hc : ConstantsAt c h s l d) :
    removeContextPath c h (constantPath s n.toToken) =
      match guardScope c.currentItemKind s with
      | .error e => (h, .error e)
      | .ok () => (if (d.get? n.val).isSome then h.eraseItem l (.name n.val) else h, .ok ()) := by
  unfold removeContextPath
  rw [contextTarget_constantPath]
  simp only [checkMutable_rootOf, targetFromRoot_eq]
  cases guardScope c.currentItemKind s with
  | error e => rfl
  | ok u =>
    have hitem : h.item? (.ref l) (.name n.val) = d.get? n.val := Heap.item?_dict hc.dict n.val
    simp only [removeNestedValue, toKey_constants, toKey_constantName, hc.slot, hitem]
    cases d.get? n.val <;> simp

end ConstantsAt

/-- The dictionary that references are resolved in, behind the objects that were there. -/
theorem buildRunContextScope_entries (c : RunContext) (h : Heap) :
    h <+: (buildRunContextScope c h).1 ∧ ∃ vars response,
      (buildRunContextScope c h).1[(buildRunContextScope c h).2]? = some (.dict
        [("runEnvelope", .ref c.runEnvelope), ("global", .ref c.globalScope),
          ("local", .ref c.localScope), ("result", .ref c.resultScope), ("vars", vars),
          ("response", response)]) := by
  have hvars := prefix_dictOrNew h (h.field c.globalScope "constants")
  unfold buildRunContextScope
  generalize h.dictOrNew (h.field c.globalScope "constants") = x at hvars ⊢
  obtain ⟨h₁, vars⟩ := x
  have hresponse := prefix_dictOrNew h₁ (h₁.field c.resultScope "commands")
  dsimp only at hvars ⊢
  generalize h₁.dictOrNew (h₁.field c.resultScope "commands") = x at hresponse ⊢
  obtain ⟨h₂, response⟩ := x
  dsimp only at hresponse ⊢
  refine ⟨(hvars.trans hresponse).trans (List.prefix_append _ _), vars, response, ?_⟩
  simp [Heap.alloc]

/-- **A reference to a constant leads to what its dictionary holds.** -/
theorem ConstantsAt.resolveIn_eq {s : ConstantContext} (hc : ConstantsAt c h s l d) :
    h <+: (resolveIn c h (constantPath s n.toToken)).1 ∧
      (resolveIn c h (constantPath s n.toToken)).2 = .ok (d.get? n.val) := by
  obtain ⟨hpre, vars, response, hscope⟩ := buildRunContextScope_entries c h
  have hname : refTokens n.val = .ok [.name n.val] :=
    refTokens_plain (fun c hc => (n.plain c hc).2.1) n.ne_empty
  have hconstants : refTokens "constants" = .ok [.name "constants"] := by decide
  have hvalue : refTokens s.value = .ok [.name s.value] := by cases s <;> decide
  obtain ⟨fields, hfields⟩ := hc.scope_isDict
  unfold resolveIn
  generalize buildRunContextScope c h = built at hpre hscope ⊢
  obtain ⟨h₂, scope⟩ := built
  dsimp only at hpre hscope ⊢
  have hfirst : h₂.item? (.ref scope) (.name s.value) = some (.ref (c.scope (rootOf s))) := by
    rw [Heap.item?_dict hscope]
    cases s <;> rfl
  have hsecond : h₂.item? (.ref (c.scope (rootOf s))) (.name "constants") = some (.ref l) := by
    rw [Heap.item?_dict (Heap.getElem?_of_isPrefix hpre hfields), ← Heap.item?_dict hfields]
    exact hc.slot
  have hthird : h₂.item? (.ref l) (.name n.val) = d.get? n.val :=
    Heap.item?_dict (Heap.getElem?_of_isPrefix hpre hc.dict) n.val
  refine ⟨hpre, ?_⟩
  rw [resolveRef_eq (startsWith_constantPath s n), strip_constantPath, splitPath_constantPath]
  have hwalk (v : Val) (key : Key) : walk h₂ v [key] = h₂.item? v key := by simp [walk]
  simp only [resolveParts, hvalue, hconstants, hname, ok_bind, hwalk, hfirst, hsecond, hthird]
  cases d.get? n.val <;> rfl

end

/-! ### What stays as it is -/

section

variable {c c' : RunContext} {h h' : Heap} {sc : ConstantContext} {l : ℕ} {d d' : Dict String Val}

theorem ConstantsAt.congr (hc : ConstantsAt c h sc l d) (hscope : c'.scope = c.scope)
    (hheap : h'[c.scope (rootOf sc)]? = h[c.scope (rootOf sc)]?)
    (hdict : h'[l]? = some (.dict d')) :
    ConstantsAt c' h' sc l d' where
  slot := by
    rw [hscope, Heap.item?, Heap.obj?, hheap]
    exact hc.slot
  dict := hdict

theorem ConstantsAt.of_isPrefix (hc : ConstantsAt c h sc l d) (hpre : h <+: h') :
    ConstantsAt c h' sc l d := by
  obtain ⟨fields, hfields⟩ := hc.scope_isDict
  exact hc.congr rfl ((Heap.getElem?_of_isPrefix hpre hfields).trans hfields.symm)
    (Heap.getElem?_of_isPrefix hpre hc.dict)

/-- The constants of a scope are another dictionary from now on. -/
theorem ConstantsAt.replace (hc : ConstantsAt c h sc l d) {m : ℕ}
    (hm : h[m]? = some (.dict d')) (hne : m ≠ c.scope (rootOf sc)) (hscope : c'.scope = c.scope) :
    ConstantsAt c' (h.setItem (c.scope (rootOf sc)) (.name "constants") (.ref m)) sc m d' where
  slot := by
    obtain ⟨fields, hfields⟩ := hc.scope_isDict
    rw [hscope, Heap.item?_dict (Heap.modify_self hfields _)]
    exact Dict.get?_set_self _ _ _
  dict := (Heap.modify_of_ne h (Ne.symm hne) _).trans hm

/-- A field that is set beside the constants. -/
theorem ConstantsAt.setItem (hc : ConstantsAt c h sc l d) {p : ℕ} {k : String}
    (hk : k ≠ "constants") (hp : p ≠ l) (v : Val) :
    ConstantsAt c (h.setItem p (.name k) v) sc l d where
  slot := by
    obtain ⟨fields, hfields⟩ := hc.scope_isDict
    have hslot := hc.slot
    by_cases heq : p = c.scope (rootOf sc)
    · subst heq
      rw [Heap.item?_dict hfields] at hslot
      rw [Heap.item?_dict (Heap.modify_self hfields _)]
      exact (Dict.get?_set_of_ne hk v).trans hslot
    · rw [Heap.item?, Heap.obj?, Heap.setItem, Heap.modify_of_ne _ heq]
      exact hslot
  dict := (Heap.modify_of_ne h hp _).trans hc.dict

end

end Context
end QualityFlow
