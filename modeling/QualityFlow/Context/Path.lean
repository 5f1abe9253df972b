/-
# Paths into the run context

`_normalize_target_path`, `_segment_tokens`, `_path_tokens`, `extract_context_root`
and `_to_index` of `app/elaborations/services/suite_runs/run_context.py`.

A path is cut at the dots, and each part of it at its brackets.  The first token
names a scope; `vars` is an older name of the global one.
-/

import QualityFlow.Py.Json
import QualityFlow.Py.Except

namespace QualityFlow
namespace Context

open Py

/-- The scopes a path may start in. -/
inductive ContextRoot where
  | runEnvelope
  | globalScope
  | localScope
  | result
  | response
deriving DecidableEq

namespace ContextRoot

def value : ContextRoot → String
  | .runEnvelope => "runEnvelope"
  | .globalScope => "global"
  | .localScope => "local"
  | .result => "result"
  | .response => "response"

/-- The scope of a first token. -/
def ofToken? (token : String) : Option ContextRoot :=
  if token = "vars" then some .globalScope
  else [runEnvelope, globalScope, localScope, result, response].find? fun root =>
    root.value = token

end ContextRoot

/-- `_normalize_target_path`. -/
def normalizeTargetPath (path : String) : Except String String :=
  let normalized := strip path
  if normalized = "" then .error "Target path is required."
  else if startsWith normalized "$." then .ok (dropChars 2 normalized)
  else if startsWith normalized "$" then
    let normalized := dropChars 1 normalized
    if startsWith normalized "." then .ok (dropChars 1 normalized) else .ok normalized
  else .ok normalized

/-- The variables of the loop of `_segment_tokens`. -/
structure SegmentState where
  result : List String
  buffer : List Char
  indexMode : Bool

/-- One round of the loop. -/
def segmentStep (s : SegmentState) (char : Char) : SegmentState :=
  if char = '[' then
    { result := if s.buffer = [] then s.result else s.result ++ [String.ofList s.buffer]
      buffer := []
      indexMode := true }
  else if char = ']' then
    let token := strip (String.ofList s.buffer)
    { result := if token = "" then s.result else s.result ++ [token]
      buffer := []
      indexMode := false }
  else { s with buffer := s.buffer ++ [char] }

/-- `_segment_tokens`. -/
def segmentTokens (segment : String) : List String :=
  let s := (strip segment).toList.foldl segmentStep { result := [], buffer := [], indexMode := false }
  let result :=
    if s.buffer = [] then s.result
    else s.result ++
      [if s.indexMode then strip (String.ofList s.buffer) else String.ofList s.buffer]
  result.filter (· ≠ "")

/-- `_path_tokens`. -/
def pathTokens (path : String) : Except String (List String) := do
  let normalized ← normalizeTargetPath path
  return ((split '.' normalized).filter (· ≠ "")).flatMap segmentTokens

/-- The scope some tokens start in. -/
def rootOfTokens : List String → Option ContextRoot
  | [] => none
  | token :: _ => ContextRoot.ofToken? (strip token)

/-- `extract_context_root`. -/
def extractContextRoot (path : String) : Except String (Option ContextRoot) := do
  return rootOfTokens (← pathTokens path)

/-- `_to_index`; `int` rejects some of the digits that `isdigit` accepts. -/
def toIndex (token : String) : Except String (Option ℕ) :=
  if isDigit (strip token) then
    match intOfDigits (strip token) with
    | some n => .ok (some n)
    | none => .error s!"invalid literal for int() with base 10: {Json.reprStr (strip token)}"
  else .ok none

/-! ### Paths that are put together -/

/-- A path that ends in a name is stripped already. -/
theorem strip_dollar_token (cs : List Char) (t : Token) :
    strip (String.ofList ('$' :: '.' :: (cs ++ t.val.toList)))
      = String.ofList ('$' :: '.' :: (cs ++ t.val.toList)) := by
  have hne : t.val.toList ≠ [] := fun h => t.ne_empty (String.toList_eq_nil_iff.1 h)
  have hlast := getLast_not_space t.strip_val hne
  refine strip_eq_self (by decide) ?_
  rwa [List.getLast_cons (by simp), List.getLast_cons (by simp [hne]),
    List.getLast_append_of_ne_nil _ hne]

/-- **The scope of a path is the one its first part names.** -/
theorem extractContextRoot_dollar {head : String} {root : ContextRoot} (cs : List Char) (t : Token)
    (htokens : segmentTokens head = [head]) (hdot : '.' ∉ head.toList)
    (hroot : ContextRoot.ofToken? (strip head) = some root) :
    extractContextRoot (String.ofList ('$' :: '.' :: (head.toList ++ '.' :: cs ++ t.val.toList)))
      = .ok (some root) := by
  have hhead : head ≠ "" := by
    rintro rfl
    simp [segmentTokens] at htokens
  have hnormalized : normalizeTargetPath
        (String.ofList ('$' :: '.' :: (head.toList ++ '.' :: cs ++ t.val.toList)))
      = .ok (String.ofList (head.toList ++ '.' :: (cs ++ t.val.toList))) := by
    rw [normalizeTargetPath, strip_dollar_token]
    simp [startsWith, dropChars]
  have hsplit : split '.' (String.ofList (head.toList ++ '.' :: (cs ++ t.val.toList)))
      = head :: split '.' (String.ofList (cs ++ t.val.toList)) := by
    rw [split_append_sep, String.ofList_toList, split_eq_singleton hdot]
    rfl
  rw [extractContextRoot, pathTokens, hnormalized, ok_bind, pure_eq_ok, ok_bind, pure_eq_ok, hsplit,
    List.filter_cons_of_pos (by simpa using hhead), List.flatMap_cons, htokens]
  exact congrArg Except.ok hroot

end Context
end QualityFlow
