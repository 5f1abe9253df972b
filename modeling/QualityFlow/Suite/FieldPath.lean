/-
# A path inside a value and a reference to it

`_resolve_relative_field_path` of
`app/elaborations/services/operations/http_input_node_resolver.py` beside `_resolve_ref` of
`app/elaborations/services/suite_runs/run_context_resolver.py`.

The two cut, read and walk a path each with code of its own.  The reference drops empty parts
and the path raises on them; the path strips its parts and the reference does not.  A reference
that resolves leaves no bracket open, so that what is put behind it is cut as it is cut alone.
-/

import QualityFlow.Context.Walks
import QualityFlow.Suite.Reading

namespace QualityFlow
namespace Suite

open Py Context

/-! ### Paths inside a value that may be shared -/

/-- The loops of `_resolve_relative_field_path`, from a value in a heap. -/
def walkSegmentsIn (h : Heap) : Val → List String → Except String Val
  | current, [] => .ok current
  | current, segment :: segments => do
    let tokens ← relativeSegmentTokens segment
    match walk h current tokens with
    | none => return .null
    | some next => walkSegmentsIn h next segments

/-- `_resolve_relative_field_path`, from a value in a heap. -/
def resolveRelativeFieldPathIn (h : Heap) (value : Val) (fieldPath : String) : Except String Val :=
  let normalized := strip fieldPath
  if normalized = "" then .ok value
  else if startsWith normalized "$" then
    .error "fieldPath must be relative and must not start with '$'."
  else do walkSegmentsIn h value (← splitRelativeFieldPath normalized)

mutual

/-- A value in a heap is that of a tree. -/
def Denotes (h : Heap) : Val → Json → Prop
  | v, .null => v = .null
  | v, .bool b => v = .bool b
  | v, .int n => v = .int n
  | v, .float q => v = .float q
  | v, .str s => v = .str s
  | v, .arr js => ∃ l xs, v = .ref l ∧ h[l]? = some (.list xs) ∧ DenotesList h xs js
  | v, .obj kvs => ∃ l d, v = .ref l ∧ h[l]? = some (.dict d) ∧ DenotesItems h d kvs

def DenotesList (h : Heap) : List Val → List Json → Prop
  | xs, [] => xs = []
  | xs, j :: js => ∃ x rest, xs = x :: rest ∧ Denotes h x j ∧ DenotesList h rest js

def DenotesItems (h : Heap) : Dict String Val → List (String × Json) → Prop
  | d, [] => d = []
  | d, (k, j) :: kvs => ∃ x rest, d = (k, x) :: rest ∧ Denotes h x j ∧ DenotesItems h rest kvs

end

theorem DenotesList.getElem? {h : Heap} {xs : List Val} {js : List Json}
    (hxs : DenotesList h xs js) (i : ℕ) : Option.Rel (Denotes h) xs[i]? js[i]? := by
  induction js generalizing xs i with
  | nil =>
    obtain rfl : xs = [] := by simpa [DenotesList] using hxs
    exact .none
  | cons j js ih =>
    rw [DenotesList] at hxs
    obtain ⟨x, rest, rfl, hx, hrest⟩ := hxs
    cases i with
    | zero => exact .some hx
    | succ i => exact ih hrest i

theorem DenotesItems.get? {h : Heap} {d : Dict String Val} {kvs : List (String × Json)}
    (hd : DenotesItems h d kvs) (k : String) :
    Option.Rel (Denotes h) (d.get? k) (Dict.get? kvs k) := by
  induction kvs generalizing d with
  | nil =>
    obtain rfl : d = [] := by simpa [DenotesItems] using hd
    exact .none
  | cons kv kvs ih =>
    obtain ⟨key, j⟩ := kv
    rw [DenotesItems] at hd
    obtain ⟨x, rest, rfl, hx, hrest⟩ := hd
    rw [Dict.get?_cons, Dict.get?_cons]
    split
    · exact .some hx
    · exact ih hrest

/-- One token leads to the same in both. -/
theorem Denotes.item? {h : Heap} {v : Val} {j : Json} (hv : Denotes h v j) (key : Key) :
    Option.Rel (Denotes h) (h.item? v key) (stepInto j key) := by
  cases j with
  | arr js =>
    rw [Denotes] at hv
    obtain ⟨l, xs, rfl, hl, hxs⟩ := hv
    have hitem : h.item? (.ref l) key = (Obj.list xs).get? key := by
      rw [Heap.item?, Heap.obj?, hl, Option.bind_some]
    rw [hitem]
    cases key with
    | index i => exact hxs.getElem? i
    | name k => exact .none
  | obj kvs =>
    rw [Denotes] at hv
    obtain ⟨l, d, rfl, hl, hd⟩ := hv
    have hitem : h.item? (.ref l) key = (Obj.dict d).get? key := by
      rw [Heap.item?, Heap.obj?, hl, Option.bind_some]
    rw [hitem]
    cases key with
    | index i => exact .none
    | name k => exact hd.get? k
  | null | bool | int | float | str =>
    rw [Denotes] at hv
    subst hv
    exact .none

theorem Denotes.walk {h : Heap} {v : Val} {j : Json} (hv : Denotes h v j) (keys : List Key) :
    Option.Rel (Denotes h) (walk h v keys) (keys.foldlM stepInto j) := by
  induction keys generalizing v j with
  | nil => exact .some hv
  | cons key keys ih =>
    rw [walk_cons, List.foldlM_cons]
    have hitem := hv.item? key
    cases hx : h.item? v key <;> cases hy : stepInto j key <;> rw [hx, hy] at hitem
    · exact .none
    · cases hitem
    · cases hitem
    · cases hitem with
      | some hxy => exact ih hxy

/-- **A path leads to the same in a heap as in the tree that a value is.** -/
theorem Denotes.walkSegmentsIn {h : Heap} {v : Val} {j : Json} (hv : Denotes h v j)
    (segments : List String) :
    (∃ e, walkSegmentsIn h v segments = .error e ∧ walkSegments j segments = .error e) ∨
      ∃ w j', walkSegmentsIn h v segments = .ok w ∧ walkSegments j segments = .ok j' ∧
        Denotes h w j' := by
  induction segments generalizing v j with
  | nil => exact .inr ⟨v, j, rfl, rfl, hv⟩
  | cons segment segments ih =>
    rw [Suite.walkSegmentsIn, walkSegments]
    cases relativeSegmentTokens segment with
    | error e => exact .inl ⟨e, rfl, rfl⟩
    | ok keys =>
      simp only [ok_bind]
      have hwalk := hv.walk keys
      cases hx : Context.walk h v keys <;> cases hy : keys.foldlM stepInto j <;>
        rw [hx, hy] at hwalk
      · exact .inr ⟨.null, .null, rfl, rfl, by rw [Denotes]⟩
      · cases hwalk
      · cases hwalk
      · cases hwalk with
        | some hxy => exact ih hxy

/-- The path of a request's input, which `resolveRelativeFieldPath` walks in the tree. -/
theorem Denotes.resolveRelativeFieldPathIn {h : Heap} {v : Val} {j : Json} (hv : Denotes h v j)
    (fieldPath : String) :
    (∃ e, resolveRelativeFieldPathIn h v fieldPath = .error e ∧
      resolveRelativeFieldPath j fieldPath = .error e) ∨
      ∃ w j', resolveRelativeFieldPathIn h v fieldPath = .ok w ∧
        resolveRelativeFieldPath j fieldPath = .ok j' ∧ Denotes h w j' := by
  unfold Suite.resolveRelativeFieldPathIn resolveRelativeFieldPath
  generalize strip fieldPath = normalized
  by_cases hempty : normalized = ""
  · simp only [if_pos hempty]
    exact .inr ⟨v, j, rfl, rfl, hv⟩
  · by_cases hdollar : startsWith normalized "$" = true
    · simp only [if_neg hempty, if_pos hdollar]
      exact .inl ⟨_, rfl, rfl⟩
    · simp only [if_neg hempty, if_neg hdollar]
      cases splitRelativeFieldPath normalized with
      | error e => exact .inl ⟨e, rfl, rfl⟩
      | ok segments => exact hv.walkSegmentsIn segments

/-- What a path and a reference make of one value: a raise each, `None` for what is missing, or
the same value. -/
inductive PathsAgree : Except String Val → Except String (Option Val) → Prop where
  | raised (e e' : String) : PathsAgree (.error e) (.error e')
  | missing : PathsAgree (.ok .null) (.ok none)
  | found (v : Val) : PathsAgree (.ok v) (.ok (some v))

/-! ### Open brackets -/

/-- The brackets that are open behind a character. -/
def levelStep (level : ℕ) (char : Char) : ℕ :=
  if char = '[' then level + 1 else if char = ']' then level - 1 else level

theorem bracketLevel_splitStep (s : SplitState) (char : Char) :
    (splitStep s char).bracketLevel = levelStep s.bracketLevel char := by
  unfold splitStep levelStep
  split
  · rename_i hdot
    rw [hdot.1]
    rfl
  · rfl

/-- The parts that are there are kept, and the level behind a part is that of its buffer. -/
theorem foldl_splitStep (cs : List Char) (parts : List String) (buffer : List Char) (level : ℕ) :
    cs.foldl splitStep ⟨parts, buffer, level⟩ =
      { cs.foldl splitStep ⟨[], buffer, level⟩ with
        parts := parts ++ (cs.foldl splitStep ⟨[], buffer, level⟩).parts } := by
  induction cs generalizing parts buffer level with
  | nil => simp
  | cons c cs ih =>
    rw [List.foldl_cons, List.foldl_cons]
    by_cases hdot : c = '.' ∧ level = 0
    · have hstep (ps : List String) :
          splitStep ⟨ps, buffer, level⟩ c = ⟨ps ++ [String.ofList buffer], [], level⟩ := by
        unfold splitStep
        rw [if_pos hdot]
      rw [hstep, hstep, ih, ih ([] ++ [String.ofList buffer])]
      simp
    · have hstep (ps : List String) :
          splitStep ⟨ps, buffer, level⟩ c = ⟨ps, buffer ++ [c], levelStep level c⟩ := by
        unfold splitStep levelStep
        rw [if_neg hdot]
      rw [hstep, hstep, ih]

/-- The level is the one that the buffer leaves. -/
theorem bracketLevel_foldl_splitStep (cs : List Char) {s : SplitState}
    (hs : s.buffer.foldl levelStep 0 = s.bracketLevel) :
    (cs.foldl splitStep s).buffer.foldl levelStep 0 = (cs.foldl splitStep s).bracketLevel := by
  induction cs generalizing s with
  | nil => exact hs
  | cons c cs ih =>
    rw [List.foldl_cons]
    apply ih
    rw [bracketLevel_splitStep]
    unfold splitStep
    split
    · rename_i hdot
      rw [hdot.1, hdot.2]
      rfl
    · rw [List.foldl_append, hs]
      rfl

theorem foldl_levelStep_of_not_mem {cs : List Char} (hopen : '[' ∉ cs) (hclose : ']' ∉ cs)
    (level : ℕ) : cs.foldl levelStep level = level := by
  induction cs with
  | nil => rfl
  | cons c cs ih =>
    rw [List.mem_cons, not_or] at hopen hclose
    have hstep : levelStep level c = level := by
      unfold levelStep
      rw [if_neg (Ne.symm hopen.1), if_neg (Ne.symm hclose.1)]
    rw [List.foldl_cons, hstep, ih hopen.2 hclose.2]

/-- A name closes no bracket that is open. -/
theorem foldl_levelStep_zero {cs : List Char} (hopen : '[' ∉ cs) : cs.foldl levelStep 0 = 0 := by
  induction cs with
  | nil => rfl
  | cons c cs ih =>
    rw [List.mem_cons, not_or] at hopen
    have hstep : levelStep 0 c = 0 := by
      unfold levelStep
      rw [if_neg (Ne.symm hopen.1)]
      split <;> rfl
    rw [List.foldl_cons, hstep, ih hopen.2]

/-! ### Tokens -/

/-- An index has digits only. -/
theorem decimalValue_of_intOfDigits {s : String} {n : ℕ} (h : intOfDigits s = some n) :
    ∀ c ∈ s.toList, decimalValue c ≠ none := by
  have hnone (cs : List Char) : cs.foldl (fun (acc : Option ℕ) c => do
      return 10 * (← acc) + (← decimalValue c)) none = none := by
    induction cs with
    | nil => rfl
    | cons c cs ih => exact ih
  have hall (cs : List Char) (acc : Option ℕ) (hfold : cs.foldl (fun (acc : Option ℕ) c => do
      return 10 * (← acc) + (← decimalValue c)) acc = some n) :
      ∀ c ∈ cs, decimalValue c ≠ none := by
    induction cs generalizing acc with
    | nil => exact fun _ hc => absurd hc List.not_mem_nil
    | cons c cs ih =>
      intro d hd
      rcases List.mem_cons.1 hd with rfl | hrest
      · intro hvalue
        have hstep : (do return 10 * (← acc) + (← decimalValue d) : Option ℕ) = none := by
          rw [hvalue]
          cases acc <;> rfl
        rw [List.foldl_cons, hstep, hnone] at hfold
        exact absurd hfold (by simp)
      · exact ih _ hfold d hrest
  exact hall s.toList (some 0) h

theorem mem_strip_of_not_space {s : String} {c : Char} (hc : c ∈ s.toList)
    (hspace : isSpace c = false) : c ∈ (strip s).toList := by
  have hdrop : c ∈ s.toList.dropWhile isSpace := by
    rw [← List.takeWhile_append_dropWhile (p := isSpace) (l := s.toList)] at hc
    rcases List.mem_append.1 hc with htake | hdrop
    · have := List.mem_takeWhile_imp htake
      rw [hspace] at this
      exact absurd this (by decide)
    · exact hdrop
  rw [strip, String.toList_ofList, List.rdropWhile, List.mem_reverse]
  rw [← List.mem_reverse] at hdrop
  rw [← List.takeWhile_append_dropWhile (p := isSpace)
    (l := (s.toList.dropWhile isSpace).reverse)] at hdrop
  rcases List.mem_append.1 hdrop with htake | hkept
  · have := List.mem_takeWhile_imp htake
    rw [hspace] at this
    exact absurd this (by decide)
  · exact hkept

/-- The text up to a character that is there. -/
theorem exists_drop_takeWhile {c : Char} {cs : List Char}
    (h : (cs.takeWhile (· ≠ c)).length ≠ cs.length) :
    cs = cs.takeWhile (· ≠ c) ++ c :: cs.drop ((cs.takeWhile (· ≠ c)).length + 1) := by
  induction cs with
  | nil => exact absurd rfl h
  | cons d cs ih =>
    by_cases hd : d = c
    · subst hd
      simp
    · rw [List.takeWhile_cons_of_pos (by simpa using hd)] at h ⊢
      rw [List.length_cons, List.length_cons] at h
      have hrest := ih fun heq => h (by rw [heq])
      rw [List.cons_append, List.length_cons, List.drop_succ_cons, ← hrest]

theorem not_mem_takeWhile_ne (c : Char) (cs : List Char) : c ∉ cs.takeWhile (· ≠ c) := by
  intro hmem
  have := List.mem_takeWhile_imp hmem
  simp at this

/-- No bracket is opened between those of an index. -/
theorem not_mem_of_index {between : List Char} {i : ℕ}
    (h : (if strip (String.ofList between) = "" then none
      else intOfDigits (strip (String.ofList between))) = some i) : '[' ∉ between := by
  intro hmem
  have hstrip : '[' ∈ (strip (String.ofList between)).toList :=
    mem_strip_of_not_space (by rwa [String.toList_ofList]) (by decide)
  split at h
  · exact absurd h (by simp)
  · exact decimalValue_of_intOfDigits h '[' hstrip (by decide)

/-- **A part that can be read leaves no bracket open.** -/
theorem foldl_levelStep_of_refTokensLoop {segment : String} {rounds : ℕ} {cs : List Char}
    {keys : List Key} (hrounds : cs.length ≤ rounds)
    (h : refTokensLoop segment rounds cs = .ok keys) : cs.foldl levelStep 0 = 0 := by
  induction rounds generalizing cs keys with
  | zero =>
    obtain rfl := List.length_eq_zero_iff.1 (Nat.le_zero.1 hrounds)
    rfl
  | succ rounds ih =>
    rcases cs with _ | ⟨c, remaining⟩
    · rfl
    · rw [List.length_cons] at hrounds
      by_cases hopen : c = '['
      · subst hopen
        rw [refTokensLoop] at h
        dsimp only at h
        split at h
        · exact absurd h (by simp)
        · rename_i hclosed
          split at h
          · exact absurd h (by simp)
          · rename_i i hindex
            obtain ⟨rest, hrest, -⟩ := bind_eq_ok.1 h
            have hcut := exists_drop_takeWhile hclosed
            have hlength : (remaining.drop
                ((remaining.takeWhile (· ≠ ']')).length + 1)).length ≤ rounds := by
              rw [List.length_drop]
              omega
            have hbetween := foldl_levelStep_of_not_mem (not_mem_of_index hindex)
              (not_mem_takeWhile_ne ']' remaining) 1
            calc ('[' :: remaining).foldl levelStep 0
                = remaining.foldl levelStep 1 := rfl
              _ = (remaining.drop ((remaining.takeWhile (· ≠ ']')).length + 1)).foldl
                    levelStep 0 := by
                  conv_lhs => rw [hcut]
                  rw [List.foldl_append, hbetween]
                  rfl
              _ = 0 := ih hlength hrest
      · have hname := List.prefix_iff_eq_append.1
          (List.takeWhile_prefix (· ≠ '[') (l := c :: remaining))
        rw [refTokensLoop] at h
        · obtain ⟨rest, hrest, -⟩ := bind_eq_ok.1 h
          have hlength : ((c :: remaining).drop
              ((c :: remaining).takeWhile (· ≠ '[')).length).length ≤ rounds := by
            rw [List.takeWhile_cons_of_pos (by simpa using hopen), List.length_cons,
              List.drop_succ_cons, List.length_drop]
            omega
          rw [← hname, List.foldl_append, foldl_levelStep_zero (not_mem_takeWhile_ne '[' _)]
          exact ih hlength hrest
        · simpa using hopen

/-- Both read the same tokens of a text, and raise on the same. -/
theorem toOption_relativeTokensLoop (segment segment' : String) (rounds : ℕ) (cs : List Char) :
    (relativeTokensLoop segment rounds cs).toOption =
      (refTokensLoop segment' rounds cs).toOption := by
  induction rounds generalizing cs with
  | zero => rfl
  | succ rounds ih =>
    have hbind (key : Key) (cs : List Char) :
        (do return key :: (← relativeTokensLoop segment rounds cs) :
            Except String (List Key)).toOption =
          (do return key :: (← refTokensLoop segment' rounds cs) :
            Except String (List Key)).toOption := by
      have hrest := ih cs
      cases hrelative : relativeTokensLoop segment rounds cs <;>
        cases href : refTokensLoop segment' rounds cs <;> rw [hrelative, href] at hrest <;>
        simp_all [Except.toOption]
    rcases cs with _ | ⟨c, remaining⟩
    · rfl
    · by_cases hopen : c = '['
      · subst hopen
        rw [relativeTokensLoop, refTokensLoop]
        dsimp only
        generalize remaining.takeWhile (· ≠ ']') = between
        generalize strip (String.ofList between) = indexToken
        by_cases hclosed : between.length = remaining.length
        · rw [if_pos hclosed, if_pos hclosed]
          rfl
        · rw [if_neg hclosed, if_neg hclosed]
          cases if indexToken = "" then none else intOfDigits indexToken with
          | none => rfl
          | some i => exact hbind (.index i) _
      · rw [relativeTokensLoop, refTokensLoop]
        · exact hbind _ _
        · simpa using hopen
        · simpa using hopen

/-- A part without blanks at its ends is read alike by both. -/
theorem toOption_relativeSegmentTokens {segment : String} (h : strip segment = segment) :
    (relativeSegmentTokens segment).toOption = (refTokens segment).toOption := by
  unfold relativeSegmentTokens refTokens
  rw [h]
  exact toOption_relativeTokensLoop _ _ _ _

/-! ### Walks -/

/-- Both walk along parts without blanks at their ends alike. -/
theorem walkSegmentsIn_agrees (h : Heap) (v : Val) {parts : List String}
    (hparts : ∀ part ∈ parts, strip part = part) :
    PathsAgree (walkSegmentsIn h v parts) (resolveParts h v parts) := by
  induction parts generalizing v with
  | nil => exact .found v
  | cons part parts ih =>
    obtain ⟨hpart, hrest⟩ := List.forall_mem_cons.1 hparts
    have htokens := toOption_relativeSegmentTokens hpart
    rw [walkSegmentsIn, resolveParts]
    rcases hrelative : relativeSegmentTokens part with e | keys <;>
      rcases href : refTokens part with e' | keys' <;> rw [hrelative, href] at htokens
    · exact .raised e e'
    · exact absurd htokens (by simp [Except.toOption])
    · exact absurd htokens (by simp [Except.toOption])
    · obtain rfl : keys = keys' := by simpa [Except.toOption] using htokens
      simp only [ok_bind]
      cases walk h v keys with
      | none => exact .missing
      | some w => exact ih w hrest

/-- A walk that comes to a value goes on from it. -/
theorem resolveParts_append {h : Heap} {v w : Val} {parts : List String}
    (hw : resolveParts h v parts = .ok (some w)) (rest : List String) :
    resolveParts h v (parts ++ rest) = resolveParts h w rest := by
  induction parts generalizing v with
  | nil =>
    obtain rfl : v = w := by simpa [resolveParts] using hw
    rfl
  | cons part parts ih =>
    rw [resolveParts] at hw
    rw [List.cons_append, resolveParts]
    obtain ⟨keys, hkeys, hnext⟩ := bind_eq_ok.1 hw
    rw [hkeys, ok_bind]
    cases hwalk : walk h v keys with
    | none =>
      rw [hwalk] at hnext
      exact absurd hnext (by simp)
    | some x =>
      rw [hwalk] at hnext
      exact ih hnext

/-- A walk that comes to a value has read all parts. -/
theorem refTokens_of_resolveParts {h : Heap} {v w : Val} {parts : List String}
    (hw : resolveParts h v parts = .ok (some w)) :
    ∀ part ∈ parts, ∃ keys, refTokens part = .ok keys := by
  induction parts generalizing v with
  | nil => exact fun _ hpart => absurd hpart List.not_mem_nil
  | cons part parts ih =>
    rw [resolveParts] at hw
    obtain ⟨keys, hkeys, hnext⟩ := bind_eq_ok.1 hw
    intro part' hpart'
    rcases List.mem_cons.1 hpart' with rfl | hrest
    · exact ⟨keys, hkeys⟩
    · cases hwalk : walk h v keys with
      | none =>
        rw [hwalk] at hnext
        exact absurd hnext (by simp)
      | some x =>
        rw [hwalk] at hnext
        exact ih hnext part' hrest

/-! ### Cutting -/

/-- **Behind a path that leaves no bracket open, a dot and more are cut as they are alone.** -/
theorem splitPath_append_dot {path : String}
    (h : ∀ part ∈ splitPath path, ∃ keys, refTokens part = .ok keys) (rest : String) :
    splitPath (path ++ "." ++ rest) = splitPath path ++ splitPath rest := by
  set s := path.toList.foldl splitStep ⟨[], [], 0⟩ with hs
  have hsplit : splitPath path = (s.parts ++ [String.ofList s.buffer]).filter (· ≠ "") := rfl
  have hclosed : s.bracketLevel = 0 := by
    have hlevel := bracketLevel_foldl_splitStep path.toList (s := ⟨[], [], 0⟩) rfl
    rw [← hs] at hlevel
    rw [← hlevel]
    by_cases hempty : s.buffer = []
    · rw [hempty]
      rfl
    · have hmem : String.ofList s.buffer ∈ splitPath path := by
        rw [hsplit]
        apply List.mem_filter.2
        refine ⟨List.mem_append_right _ (List.mem_singleton_self _), ?_⟩
        simpa [← String.toList_inj] using hempty
      obtain ⟨keys, hkeys⟩ := h _ hmem
      unfold refTokens at hkeys
      rw [String.toList_ofList] at hkeys
      exact foldl_levelStep_of_refTokensLoop le_rfl hkeys
  have hdot : ".".toList.foldl splitStep s = ⟨s.parts ++ [String.ofList s.buffer], [], 0⟩ := by
    show splitStep s '.' = _
    unfold splitStep
    rw [if_pos ⟨rfl, hclosed⟩, hclosed]
  have hfold : (path ++ "." ++ rest).toList.foldl splitStep ⟨[], [], 0⟩ =
      rest.toList.foldl splitStep ⟨s.parts ++ [String.ofList s.buffer], [], 0⟩ := by
    rw [String.toList_append, String.toList_append, List.foldl_append, List.foldl_append, ← hs,
      hdot]
  conv_lhs => unfold splitPath
  rw [hfold, foldl_splitStep, hsplit]
  unfold splitPath
  simp only [List.append_assoc, List.filter_append]

/-- What the relative parser accepts, the other cuts alike. -/
theorem splitPath_of_splitRelativeFieldPath {path : String} {parts : List String}
    (h : splitRelativeFieldPath path = .ok parts) : splitPath path = parts := by
  unfold splitRelativeFieldPath at h
  dsimp only at h
  split at h
  · exact absurd h (by simp)
  · rename_i hvalid
    obtain rfl := Except.ok.inj h
    have hnone := (not_or.1 (not_or.1 (not_or.1 hvalid).2).2).2
    unfold splitPath
    apply List.filter_eq_self.2
    intro part hpart
    have hne : part ≠ "" := by
      rintro rfl
      exact hnone hpart
    simpa using hne

/-! ### Both languages -/

/-- A path that the relative parser takes, without blanks at the ends of its parts. -/
structure RelativePath (fieldPath : String) : Prop where
  relative : startsWith fieldPath "$" = false
  trimmed : strip fieldPath = fieldPath
  accepted : fieldPath = "" ∨ ∃ parts, splitRelativeFieldPath fieldPath = .ok parts ∧
    ∀ part ∈ parts, strip part = part

/-- A reference with a path behind it is trimmed where both are. -/
theorem strip_append_dot {path rest : String} (hpath : startsWith path "$." = true)
    (hrest : strip rest = rest) : strip (path ++ "." ++ rest) = path ++ "." ++ rest := by
  obtain ⟨cs, hcs⟩ := List.isPrefixOf_iff_prefix.1 hpath
  have hlist : (path ++ "." ++ rest).toList = '$' :: ('.' :: cs ++ '.' :: rest.toList) := by
    rw [String.toList_append, String.toList_append, ← hcs]
    simp
  have hlast : ¬isSpace (('$' :: ('.' :: cs ++ '.' :: rest.toList)).getLast (by simp)) = true := by
    by_cases hempty : rest.toList = []
    · simp [hempty]
      decide
    · have hend := getLast_not_space hrest hempty
      rw [List.getLast_cons (by simp), List.getLast_append_of_ne_nil _ (List.cons_ne_nil _ _),
        List.getLast_cons hempty]
      exact hend
  have hstrip := strip_eq_self (by decide) hlast
  rwa [← hlist, String.ofList_toList] at hstrip

/-- **The two path languages agree**: a path from the value of a reference raises, finds nothing
or finds a value as the reference does with the path behind it. -/
theorem resolveRelativeFieldPathIn_agrees (h : Heap) (scope : ℕ) (path fieldPath : String) (v : Val)
    (htrimmed : strip path = path) (hpath : startsWith path "$." = true)
    (hv : resolveRef h scope path = .ok (some v)) (hfield : RelativePath fieldPath) :
    PathsAgree (resolveRelativeFieldPathIn h v fieldPath)
      (resolveRef h scope (path ++ "." ++ fieldPath)) := by
  have hwalk : resolveParts h (.ref scope) (splitPath (dropChars 2 path)) = .ok (some v) := by
    have hne : path ≠ "$" := by
      rintro rfl
      exact absurd hpath (by decide)
    unfold resolveRef at hv
    simpa only [htrimmed, if_neg hne, if_pos hpath] using hv
  have hboth : startsWith (path ++ "." ++ fieldPath) "$." = true := by
    obtain ⟨cs, hcs⟩ := List.isPrefixOf_iff_prefix.1 hpath
    apply List.isPrefixOf_iff_prefix.2
    rw [String.toList_append, String.toList_append, ← hcs, List.append_assoc, List.append_assoc]
    exact List.prefix_append _ _
  have hdrop : dropChars 2 (path ++ "." ++ fieldPath) = dropChars 2 path ++ "." ++ fieldPath := by
    obtain ⟨cs, hcs⟩ := List.isPrefixOf_iff_prefix.1 hpath
    apply String.toList_injective
    simp only [dropChars, String.toList_append, String.toList_ofList, ← hcs]
    rfl
  have href : resolveRef h scope (path ++ "." ++ fieldPath) =
      resolveParts h v (splitPath fieldPath) := by
    have hne : path ++ "." ++ fieldPath ≠ "$" := by
      intro heq
      rw [heq] at hboth
      exact absurd hboth (by decide)
    unfold resolveRef
    simp only [strip_append_dot hpath hfield.trimmed, if_neg hne, if_pos hboth]
    rw [hdrop, splitPath_append_dot (refTokens_of_resolveParts hwalk), resolveParts_append hwalk]
  rw [href]
  unfold resolveRelativeFieldPathIn
  simp only [hfield.trimmed]
  rcases hfield.accepted with rfl | ⟨parts, hparts, hsegments⟩
  · rw [if_pos rfl]
    exact .found v
  · by_cases hempty : fieldPath = ""
    · rw [if_pos hempty, hempty]
      exact .found v
    · rw [if_neg hempty, if_neg (by rw [hfield.relative]; decide), hparts, ok_bind,
        splitPath_of_splitRelativeFieldPath hparts]
      exact walkSegmentsIn_agrees h v hsegments

/-- An item of a list in the scope. -/
theorem item_agrees :
    PathsAgree
      (resolveRelativeFieldPathIn
        [.dict [("a", .ref 1)], .dict [("b", .ref 2)], .list [.int 5]] (.ref 1) "b[0]")
      (resolveRef [.dict [("a", .ref 1)], .dict [("b", .ref 2)], .list [.int 5]] 0
        ("$.a" ++ "." ++ "b[0]")) :=
  resolveRelativeFieldPathIn_agrees _ 0 "$.a" "b[0]" (.ref 1) (by decide +kernel)
    (by decide +kernel) rfl
    { relative := by decide +kernel
      trimmed := by decide +kernel
      accepted := .inr ⟨["b[0]"], rfl, by decide +kernel⟩ }

end Suite
end QualityFlow
