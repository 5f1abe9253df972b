/-
# References into the run context

`_resolve_ref` of
`app/elaborations/services/suite_runs/run_context_resolver.py` and what it calls.

A reference is cut at the dots outside of brackets, and each part of it into a name
and the indexes behind it.  A part is read only when the walk gets to it, so a part
that is not well formed raises only where everything before it is there.
-/

import QualityFlow.Context.RunContext

namespace QualityFlow
namespace Context

open Py

/-! ### Cutting a reference -/

/-- The variables of the loop of `_split_path`. -/
structure SplitState where
  parts : List String
  buffer : List Char
  bracketLevel : ℕ

/-- One round of the loop. -/
def splitStep (s : SplitState) (char : Char) : SplitState :=
  if char = '.' ∧ s.bracketLevel = 0 then
    { s with parts := s.parts ++ [String.ofList s.buffer], buffer := [] }
  else
    { s with
      buffer := s.buffer ++ [char]
      bracketLevel :=
        if char = '[' then s.bracketLevel + 1
        else if char = ']' then s.bracketLevel - 1
        else s.bracketLevel }

/-- `_split_path`. -/
def splitPath (path : String) : List String :=
  let s := path.toList.foldl splitStep { parts := [], buffer := [], bracketLevel := 0 }
  (s.parts ++ [String.ofList s.buffer]).filter (· ≠ "")

/-- The loop of `_segment_tokens`: each round takes a character at least. -/
def refTokensLoop (segment : String) : ℕ → List Char → Except String (List Key)
  | 0, _ => .ok []
  | _, [] => .ok []
  | rounds + 1, '[' :: remaining =>
    let between := remaining.takeWhile (· ≠ ']')
    if between.length = remaining.length then .error s!"Invalid $ref segment '{segment}'"
    else
      let indexToken := strip (String.ofList between)
      match if indexToken = "" then none else intOfDigits indexToken with
      | none => .error s!"Invalid list index '{indexToken}' in $ref segment '{segment}'"
      | some i => do
        return .index i :: (← refTokensLoop segment rounds (remaining.drop (between.length + 1)))
  | rounds + 1, char :: remaining => do
    let name := (char :: remaining).takeWhile (· ≠ '[')
    return .name (String.ofList name) ::
      (← refTokensLoop segment rounds ((char :: remaining).drop name.length))

/-- `_segment_tokens`. -/
def refTokens (segment : String) : Except String (List Key) :=
  refTokensLoop segment segment.toList.length segment.toList

/-! ### Resolving a reference -/

/-- The walk along the tokens of one part, until an item is missing. -/
def walk (h : Heap) (v : Val) (keys : List Key) : Option Val :=
  keys.foldlM (fun v key => h.item? v key) v

/-- The loop of `_resolve_ref` over the parts of a path. -/
def resolveParts (h : Heap) (v : Val) : List String → Except String (Option Val)
  | [] => .ok (some v)
  | part :: parts => do
    match walk h v (← refTokens part) with
    | none => return none
    | some w => resolveParts h w parts

/-- `_resolve_ref`, with `none` for `_MISSING`. -/
def resolveRef (h : Heap) (scope : ℕ) (expression : String) : Except String (Option Val) :=
  let ref := strip expression
  if ref = "$" then .ok (some (.ref scope))
  else if startsWith ref "$." then resolveParts h (.ref scope) (splitPath (dropChars 2 ref))
  else .error s!"Unsupported $ref '{ref}'. Expected '$.<path>'."

/-- A reference resolved in the scope of a context, with the heap the scope is in. -/
def resolveIn (c : RunContext) (h : Heap) (expression : String) :
    Heap × Except String (Option Val) :=
  let (h, scope) := buildRunContextScope c h
  (h, resolveRef h scope expression)

end Context
end QualityFlow
