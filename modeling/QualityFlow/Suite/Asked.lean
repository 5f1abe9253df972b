/-
# Where a command asks

The reads of `app/elaborations/services/operations/http_input_node_resolver.py`,
`command_data_resolver.py` and the executors that call them.

A source is looked up at a leaf of an HTTP command or at a reference of another command,
and nowhere else.  A constant is read at the same places, and for the parameters of a
dataset that has been looked up.
-/

import QualityFlow.Suite.Reading

namespace QualityFlow
namespace Suite

open Py Command
open Asks (ofExcept mayAsk_bind mayAsk_ask madeOf_call madeOf_bind madeOf_ofExcept madeOf_mapM)

/-- A source that is looked up, or a constant that is read. -/
def Question.Reads : Question → Prop
  | .source _ | .constant _ _ => True
  | .definition _ | .dynamic _ | .jsonArray _ | .dataset _ | .rows _ _ | .queue _ | .clock _
  | .post _ _ => False

/-! ### Leaves -/

/-- The leaves of a tree, in the order they are resolved in. -/
def treeNodes : HttpInputTree → List HttpInputNode
  | .null => []
  | .node node => [node]
  | .arr items => listNodes items
  | .obj items => itemsNodes items
where
  listNodes : List HttpInputTree → List HttpInputNode
    | [] => []
    | item :: items => treeNodes item ++ listNodes items
  itemsNodes : List (String × HttpInputTree) → List HttpInputNode
    | [] => []
    | (_, item) :: items => treeNodes item ++ itemsNodes items

def kvNodes (params : Option HttpKvParams) : List HttpInputNode :=
  ((params.map HttpKvParams.items).getD []).map Prod.snd

def authNodes : Option HttpAuthorization → List HttpInputNode
  | none | some .empty => []
  | some (.basic username password) => [username, password]
  | some (.bearer token) => [token]
  | some (.apiKey username apiKey authEndpoint) => [username, apiKey, authEndpoint]
  | some (.oauth2 tokenUrl clientId clientSecret) => [tokenUrl, clientId, clientSecret]

def bodyNodes : HttpBody → List HttpInputNode
  | .json tree | .text tree => treeNodes tree
  | .formUrlEncoded none => []
  | .formUrlEncoded (some form) => form.items.map fun kv => kv.2.val

/-- The leaves of a request, in the order they are resolved in. -/
def requestNodes (fields : HttpRequestFields) (body : Option HttpBody) : List HttpInputNode :=
  kvNodes fields.pathParams ++ kvNodes fields.headers ++ authNodes fields.authorization ++
    kvNodes fields.queryParams ++ (body.map bodyNodes).getD []

/-- The leaves of an HTTP command. -/
def commandNodes : ConfigurationCommandDto → List HttpInputNode
  | .readApi c => requestNodes c.toHttpRequestFields none
  | .writeApi c => requestNodes c.toHttpRequestFields (some c.body)
  | _ => []

/-- The references of a command that is no HTTP command. -/
def commandRefs (cfg : ConfigurationCommandDto) : List InputRefDto :=
  cfg.inputRef?.toList ++ cfg.actualRef?.toList ++ cfg.expectedRef?.toList

section

variable {possible : ∀ q : Question, q.Answer → Prop} {q : Question}

theorem mayAsk_resolveDefinitionPath {definitionId : String}
    (h : (resolveDefinitionPath definitionId).MayAsk possible q) : q = .definition definitionId := by
  rcases mayAsk_ask.1 h with rfl | ⟨answer, -, hask⟩
  · rfl
  · cases answer <;> simp at hask

theorem mayAsk_readConstant {definitionId : String}
    (h : (readConstant definitionId).MayAsk possible q) :
    q = .definition definitionId ∨ ∃ path, q = .constant definitionId path := by
  rcases mayAsk_bind.1 h with hpath | ⟨⟨definition, path⟩, -, hrest⟩
  · exact .inl (mayAsk_resolveDefinitionPath hpath)
  · rcases mayAsk_bind.1 hrest with hvalue | ⟨resolved, -, hdone⟩
    · rcases mayAsk_ask.1 hvalue with rfl | ⟨answer, -, hask⟩
      · exact .inr ⟨path, rfl⟩
      · simp at hask
    · simp at hdone

/-- A parameter of a dataset reads a constant, or the clock. -/
theorem mayAsk_resolveBinding {parameterName : String} {binding : Json}
    (h : (resolveBinding parameterName binding).MayAsk possible q) :
    (∃ fields, binding = .obj fields ∧ lower (Json.field fields "kind").token = "constant_ref" ∧
        (q = .definition (Json.field fields "definitionId").token ∨
          ∃ path, q = .constant (Json.field fields "definitionId").token path)) ∨
      ∃ resolver, q = .clock resolver := by
  cases binding with
  | obj fields =>
    simp only [resolveBinding] at h
    split_ifs at h with hconstant hbuiltIn
    · rcases mayAsk_bind.1 h with hread | ⟨⟨definition, path, resolved⟩, -, hrest⟩
      · exact .inl ⟨fields, rfl, hconstant, mayAsk_readConstant hread⟩
      · simp only at hrest
        split_ifs at hrest <;> simp at hrest
    · simp only [resolveBuiltin] at h
      split_ifs at h
      · rcases mayAsk_ask.1 h with rfl | ⟨answer, -, hask⟩
        · exact .inr ⟨_, rfl⟩
        · simp at hask
      · simp at h
    · simp at h
  | _ => simp [resolveBinding] at h

theorem mayAsk_resolveDatasetParameterBindings {bindings : List (String × Json)}
    (h : (resolveDatasetParameterBindings bindings).MayAsk possible q) :
    ∃ kv ∈ bindings, (resolveBinding kv.1 kv.2).MayAsk possible q := by
  induction bindings with
  | nil => simp [resolveDatasetParameterBindings] at h
  | cons kv bindings ih =>
    rcases mayAsk_bind.1 h with hfirst | ⟨value, -, hrest⟩
    · exact ⟨kv, List.mem_cons_self, hfirst⟩
    · rcases mayAsk_bind.1 hrest with hrest | ⟨values, -, hdone⟩
      · obtain ⟨kv', hkv', hask⟩ := ih hrest
        exact ⟨kv', List.mem_cons_of_mem _ hkv', hask⟩
      · simp at hdone

/-- Of the reads of a source that has been found, all are for the parameters of a dataset. -/
theorem mayAsk_resolveFoundSource {source : List (String × Json)} (hq : q.Reads)
    (h : (resolveFoundSource source).MayAsk possible q) :
    (Json.field source "sourceType").token = "dataset" ∧
      (resolveDatasetParameterBindings (parameterBindings source)).MayAsk possible q := by
  unfold resolveFoundSource at h
  simp only at h
  split_ifs at h with hjson hdataset
  · rcases mayAsk_ask.1 h with rfl | ⟨answer, -, hask⟩
    · exact hq.elim
    · split at hask <;> simp at hask
  · refine ⟨hdataset, ?_⟩
    rcases mayAsk_bind.1 h with hfound | ⟨⟨⟩, -, h⟩
    · rcases mayAsk_ask.1 hfound with rfl | ⟨answer, -, hask⟩
      · exact hq.elim
      · simp at hask
    rcases mayAsk_bind.1 h with hbindings | ⟨parameters, -, h⟩
    · exact hbindings
    rcases mayAsk_bind.1 h with hrows | ⟨rows, -, hdone⟩
    · rcases mayAsk_ask.1 hrows with rfl | ⟨answer, -, hask⟩
      · exact hq.elim
      · simp at hask
    · simp at hdone
  · simp at h

theorem not_mayAsk_source_of_found {source : List (String × Json)} {sourceCode : String} :
    ¬ (resolveFoundSource source).MayAsk possible (.source sourceCode) := by
  intro h
  obtain ⟨-, hbindings⟩ := mayAsk_resolveFoundSource (by trivial) h
  obtain ⟨kv, -, hbinding⟩ := mayAsk_resolveDatasetParameterBindings hbindings
  rcases mayAsk_resolveBinding hbinding with ⟨fields, -, -, hq | ⟨path, hq⟩⟩ | ⟨resolver, hq⟩
  all_goals simp at hq

/-- A lookup asks for its source, and then for what the source needs. -/
theorem mayAsk_resolveSourcePayload {sourceCode : Token}
    (h : (resolveSourcePayload sourceCode.val).MayAsk possible q) :
    q = .source sourceCode.val ∨ ∃ source, possible (.source sourceCode.val) (some source) ∧
      (resolveFoundSource source).MayAsk possible q := by
  rw [resolveSourcePayload, sourceCode.strip_val] at h
  rcases mayAsk_ask.1 h with rfl | ⟨answer, hanswer, hask⟩
  · exact .inl rfl
  · cases answer with
    | none => simp at hask
    | some source => exact .inr ⟨source, hanswer, hask⟩

end

/-! ### Requests -/

/-- A computation that is made of lookups of some sources and of some other questions. -/
abbrev LooksUp (S : Token → Prop) (P : Question → Prop) {α : Type} (x : Reading α) : Prop :=
  x.MadeOf (fun sourceCode : Token => resolveSourcePayload sourceCode.val) S P

section

variable {S : Token → Prop} {P : Question → Prop} (hP : ∀ q : Question, ¬ q.Reads → P q)

include hP

theorem looksUp_resolveDefinitionPath (definitionId : String) :
    LooksUp S P (resolveDefinitionPath definitionId) := by
  refine .ask (hP _ id) fun answer => ?_
  cases answer with
  | none => exact .raised _
  | some definition => exact .done _

theorem looksUp_readConstant {definitionId : String}
    (hconstant : ∀ path, P (.constant definitionId path)) :
    LooksUp S P (readConstant definitionId) := by
  refine madeOf_bind (looksUp_resolveDefinitionPath hP definitionId) fun found => ?_
  have hvalue : LooksUp S P (.ask (.constant definitionId found.2) ofExcept) :=
    .ask (hconstant _) fun answer => madeOf_ofExcept answer
  exact madeOf_bind hvalue fun resolved => .done _

/-- A leaf reads the constant or the source that it names. -/
theorem looksUp_resolveHttpInputNode {node : HttpInputNode}
    (hconstant : ∀ definitionId ∈ node.definitionId?, ∀ path, P (.constant definitionId path))
    (hsource : ∀ sourceCode, node = .source sourceCode → S sourceCode) :
    LooksUp S P (resolveHttpInputNode node) := by
  cases node with
  | literal value => exact .ask (hP _ id) fun answer => madeOf_ofExcept answer
  | runtimeValue definitionId fieldPath =>
    refine madeOf_bind (looksUp_readConstant hP (hconstant _ rfl)) ?_
    rintro ⟨definition, path, resolved⟩
    simp only
    split_ifs with hsame
    · exact .done _
    · cases fieldPath with
      | none => exact .done _
      | some fieldPath => exact madeOf_ofExcept _
  | source sourceCode => exact madeOf_bind (madeOf_call (hsource _ rfl)) fun payload => .done _
  | builtIn resolver => exact .ask (hP _ id) fun answer => .done _

omit hP

mutual

theorem looksUp_resolveHttpInputTree : ∀ {tree : HttpInputTree},
    (∀ node ∈ treeNodes tree, LooksUp S P (resolveHttpInputNode node)) →
      LooksUp S P (resolveHttpInputTree tree)
  | .null, _ => .done _
  | .node node, h => h node (List.mem_singleton_self _)
  | .arr _, h => madeOf_bind (looksUp_resolveHttpInputList h) fun _ => .done _
  | .obj _, h => madeOf_bind (looksUp_resolveHttpInputItems h) fun _ => .done _

theorem looksUp_resolveHttpInputList : ∀ {items : List HttpInputTree},
    (∀ node ∈ treeNodes.listNodes items, LooksUp S P (resolveHttpInputNode node)) →
      LooksUp S P (resolveHttpInputList items)
  | [], _ => .done _
  | _ :: _, h => by
    have hitem := looksUp_resolveHttpInputTree fun node hnode => h node (List.mem_append_left _ hnode)
    have hitems := looksUp_resolveHttpInputList fun node hnode =>
      h node (List.mem_append_right _ hnode)
    exact madeOf_bind hitem fun value => madeOf_bind hitems fun values => .done _

theorem looksUp_resolveHttpInputItems : ∀ {items : List (String × HttpInputTree)},
    (∀ node ∈ treeNodes.itemsNodes items, LooksUp S P (resolveHttpInputNode node)) →
      LooksUp S P (resolveHttpInputItems items)
  | [], _ => .done _
  | (_, _) :: _, h => by
    have hitem := looksUp_resolveHttpInputTree fun node hnode => h node (List.mem_append_left _ hnode)
    have hitems := looksUp_resolveHttpInputItems fun node hnode =>
      h node (List.mem_append_right _ hnode)
    exact madeOf_bind hitem fun value => madeOf_bind hitems fun values => .done _

end

theorem looksUp_resolveKvItems {params : Option HttpKvParams}
    (h : ∀ node ∈ kvNodes params, LooksUp S P (resolveHttpInputNode node)) :
    LooksUp S P (resolveKvItems params) := by
  refine madeOf_bind (madeOf_mapM fun kv hkv => ?_) fun resolved => .done _
  exact madeOf_bind (h kv.2 (List.mem_map_of_mem hkv)) fun value => .done _

theorem looksUp_resolvePathParamsAndUrl {url : String} {pathParams : Option HttpKvParams}
    (h : ∀ node ∈ kvNodes pathParams, LooksUp S P (resolveHttpInputNode node)) :
    LooksUp S P (resolvePathParamsAndUrl url pathParams) := by
  cases pathParams with
  | none =>
    simp only [resolvePathParamsAndUrl]
    split_ifs
    · exact .done _
    · exact .raised _
  | some params =>
    refine madeOf_bind (madeOf_mapM fun kv hkv => ?_) fun resolved =>
      madeOf_bind (madeOf_ofExcept _) fun texts => .done _
    refine madeOf_bind (h kv.2 (List.mem_map_of_mem hkv)) fun value => ?_
    split_ifs
    · exact .raised _
    · exact .done _

theorem looksUp_resolveLeaf {node : HttpInputNode} (h : LooksUp S P (resolveHttpInputNode node)) :
    LooksUp S P (resolveLeaf node) :=
  madeOf_bind h fun _ => .done _

include hP

theorem looksUp_requestToken (endpoint : String) (payload : List (String × String))
    (request response : String) : LooksUp S P (requestToken endpoint payload request response) := by
  refine .ask (hP _ id) fun answer => ?_
  cases answer with
  | body value =>
    simp only
    split_ifs
    · exact .raised _
    · exact .done _
  | _ => exact .raised _

theorem looksUp_compileAuthorization {authorization : Option HttpAuthorization}
    (h : ∀ node ∈ authNodes authorization, LooksUp S P (resolveHttpInputNode node)) :
    LooksUp S P (compileAuthorization authorization) := by
  have hleaf {node : HttpInputNode} (hnode : node ∈ authNodes authorization) :
      LooksUp S P (resolveLeaf node) := looksUp_resolveLeaf (h node hnode)
  cases authorization with
  | none => exact .done _
  | some authorization =>
    cases authorization with
    | empty => exact .done _
    | basic username password =>
      refine madeOf_bind (hleaf (by simp [authNodes])) fun username => ?_
      refine madeOf_bind (hleaf (by simp [authNodes])) fun password => ?_
      exact madeOf_bind (madeOf_ofExcept _) fun _ => .done _
    | bearer token =>
      refine madeOf_bind (hleaf (by simp [authNodes])) fun token => ?_
      exact madeOf_bind (madeOf_ofExcept _) fun _ => .done _
    | apiKey username apiKey authEndpoint =>
      refine madeOf_bind (hleaf (by simp [authNodes])) fun username => ?_
      refine madeOf_bind (hleaf (by simp [authNodes])) fun apiKey => ?_
      refine madeOf_bind (hleaf (by simp [authNodes])) fun authEndpoint => ?_
      refine madeOf_bind (madeOf_ofExcept _) fun _ => madeOf_bind (madeOf_ofExcept _) fun _ => ?_
      exact madeOf_bind (madeOf_ofExcept _) fun _ => looksUp_requestToken hP _ _ _ _
    | oauth2 tokenUrl clientId clientSecret =>
      refine madeOf_bind (hleaf (by simp [authNodes])) fun tokenUrl => ?_
      refine madeOf_bind (hleaf (by simp [authNodes])) fun clientId => ?_
      refine madeOf_bind (hleaf (by simp [authNodes])) fun clientSecret => ?_
      refine madeOf_bind (madeOf_ofExcept _) fun _ => madeOf_bind (madeOf_ofExcept _) fun _ => ?_
      exact looksUp_requestToken hP _ _ _ _

theorem looksUp_checkFormNode (key : String) (node : HttpInputNode) :
    LooksUp S P (checkFormNode key node) := by
  cases node with
  | source sourceCode => exact .raised _
  | runtimeValue definitionId fieldPath =>
    refine madeOf_bind (looksUp_resolveDefinitionPath hP _) fun found => ?_
    simp only
    split_ifs
    · exact .raised _
    · exact .done _
  | _ => exact .done _

theorem looksUp_resolveHttpBody {body : HttpBody}
    (h : ∀ node ∈ bodyNodes body, LooksUp S P (resolveHttpInputNode node)) :
    LooksUp S P (resolveHttpBody body) := by
  cases body with
  | json tree => exact looksUp_resolveHttpInputTree h
  | text tree => exact looksUp_resolveHttpInputTree h
  | formUrlEncoded form =>
    cases form with
    | none => exact .done _
    | some form =>
      refine madeOf_bind (madeOf_mapM fun kv hkv => ?_) fun fields => .done _
      have hnode : LooksUp S P (resolveHttpInputNode kv.2.val) := h _ (List.mem_map_of_mem hkv)
      refine madeOf_bind (looksUp_checkFormNode hP _ _) fun _ => madeOf_bind hnode fun value => ?_
      cases value with
      | arr | obj => exact .raised _
      | _ => exact .done _

/-- **A request reads at its leaves.** -/
theorem looksUp_requestKwargs {fields : HttpRequestFields} {body : Option HttpBody}
    (h : ∀ node ∈ requestNodes fields body, LooksUp S P (resolveHttpInputNode node)) :
    LooksUp S P (requestKwargs fields body) := by
  simp only [requestNodes, List.forall_mem_append] at h
  obtain ⟨⟨⟨⟨hpath, hheaders⟩, hauth⟩, hquery⟩, hbody⟩ := h
  refine madeOf_bind (looksUp_resolvePathParamsAndUrl hpath) fun url => ?_
  refine madeOf_bind (madeOf_bind (looksUp_resolveKvItems hheaders) fun _ => .done _) fun headers => ?_
  refine madeOf_bind (looksUp_compileAuthorization hP hauth) fun authHeaders => ?_
  refine madeOf_bind (madeOf_bind (looksUp_resolveKvItems hquery) fun _ => .done _) fun params => ?_
  cases body with
  | none => exact .done _
  | some body => exact madeOf_bind (looksUp_resolveHttpBody hP hbody) fun _ => .done _

/-! ### Commands -/

theorem looksUp_resolveInputReference {ref : InputRefDto} {data : Json}
    (hconstant : ∀ definitionId ∈ ref.definitionId?, ∀ path, P (.constant definitionId path))
    (hsource : ∀ sourceCode, ref = .source sourceCode → S sourceCode) :
    LooksUp S P (resolveInputReference (some ref) data) := by
  cases ref with
  | runtimeValue definitionId =>
    have hread : LooksUp S P (resolveDefinitionInputData definitionId.val) :=
      madeOf_bind (looksUp_readConstant hP (hconstant _ rfl)) fun _ => .done _
    refine madeOf_bind hread fun resolved => ?_
    exact madeOf_bind (looksUp_resolveDefinitionPath hP _) fun _ => .done _
  | source sourceCode => exact madeOf_call (hsource _ rfl)

theorem looksUp_assertOperands {cfg : AssertConfigurationCommandDto} {data : Json}
    (h : ∀ ref ∈ cfg.actualRef :: cfg.expectedRef.toList,
      LooksUp S P (resolveInputReference (some ref) data)) :
    LooksUp S P (assertOperands cfg data) := by
  have hexpected : LooksUp S P (resolveExpected cfg) := by
    unfold resolveExpected
    split_ifs
    · exact .done _
    · exact .ask (hP _ id) fun answer => madeOf_ofExcept answer
  refine madeOf_bind (h _ List.mem_cons_self) fun actual => madeOf_bind hexpected fun expected => ?_
  simp only
  split_ifs with href
  · obtain ⟨ref, href⟩ := Option.ne_none_iff_exists'.1 href.2
    rw [href] at h ⊢
    exact madeOf_bind (h ref (by simp)) fun _ => .done _
  · exact .done _

/-- The constants that a command hands on to a suite. -/
def handedOn : ConfigurationCommandDto → List String
  | .runSuite c => c.runtimeValueRefs.map fun ref => ref.definitionId.val
  | _ => []

/-- **What a command reads, it reads at a leaf of a request, at one of its references, or at
a constant it hands on.** -/
theorem looksUp_readCommand {cfg : ConfigurationCommandDto} {data : Json}
    (hnodes : ∀ node ∈ commandNodes cfg, LooksUp S P (resolveHttpInputNode node))
    (hrefs : ∀ ref ∈ commandRefs cfg, LooksUp S P (resolveInputReference (some ref) data))
    (hhanded : ∀ definitionId ∈ handedOn cfg, ∀ path, P (.constant definitionId path)) :
    LooksUp S P (readCommand data cfg) := by
  cases cfg with
  | readApi c => exact madeOf_bind (looksUp_requestKwargs hP hnodes) fun _ => .done _
  | writeApi c => exact madeOf_bind (looksUp_requestKwargs hP hnodes) fun _ => .done _
  | sendMessageQueue c =>
    have hinput := hrefs c.inputRef (by simp [commandRefs, ConfigurationCommandDto.inputRef?])
    refine .ask (hP _ id) fun answer => madeOf_bind (madeOf_ofExcept answer) fun _ => ?_
    exact madeOf_bind hinput fun _ => .done _
  | saveTable c =>
    have hinput := hrefs c.inputRef (by simp [commandRefs, ConfigurationCommandDto.inputRef?])
    exact madeOf_bind hinput fun _ => .done _
  | exportDataset c =>
    have hinput := hrefs c.inputRef (by simp [commandRefs, ConfigurationCommandDto.inputRef?])
    exact madeOf_bind hinput fun _ => .done _
  | runSuite c =>
    have hconstants : LooksUp S P (runSuiteConstants c.runtimeValueRefs) := by
      refine madeOf_bind (madeOf_mapM fun ref href => ?_) fun _ => .done _
      exact madeOf_bind (looksUp_readConstant hP (hhanded _ (List.mem_map_of_mem href)))
        fun _ => .done _
    exact madeOf_bind hconstants fun _ => .done _
  | assert c =>
    refine madeOf_bind (looksUp_assertOperands hP fun ref href => hrefs ref ?_) fun _ => .done _
    simpa [commandRefs, ConfigurationCommandDto.inputRef?, ConfigurationCommandDto.actualRef?,
      ConfigurationCommandDto.expectedRef?] using href
  | deleteVariable c =>
    exact madeOf_bind (looksUp_resolveDefinitionPath hP _) fun _ => .done _
  | _ => exact .done _

end

/-! ### Sources and constants of a command -/

/-- The sources that a command names. -/
def SourceOf (cfg : ConfigurationCommandDto) (sourceCode : Token) : Prop :=
  .source sourceCode ∈ commandNodes cfg ∨ .source sourceCode ∈ commandRefs cfg

/-- The constants that a command names. -/
def directIds (cfg : ConfigurationCommandDto) : List String :=
  (commandNodes cfg).filterMap HttpInputNode.definitionId? ++
    (commandRefs cfg).filterMap InputRefDto.definitionId? ++ handedOn cfg

/-- A question that is no lookup, and that reads no other constant than those a command
names. -/
def Question.ReadsOnly (ids : List String) : Question → Prop
  | .source _ => False
  | .constant definitionId _ => definitionId ∈ ids
  | _ => True

/-- A command is made of lookups of the sources it names and of reads of the constants it
names. -/
theorem looksUp_command (cfg : ConfigurationCommandDto) (data : Json) :
    LooksUp (SourceOf cfg) (Question.ReadsOnly (directIds cfg)) (readCommand data cfg) := by
  have hP (q : Question) (hq : ¬ q.Reads) : q.ReadsOnly (directIds cfg) := by
    cases q <;> first | exact absurd trivial hq | trivial
  refine looksUp_readCommand hP (fun node hnode => ?_) (fun ref href => ?_) fun id hid path => ?_
  · refine looksUp_resolveHttpInputNode hP (fun id hid path => ?_) fun sourceCode hsource => ?_
    · refine List.mem_append_left _ (List.mem_append_left _ ?_)
      exact List.mem_filterMap.2 ⟨node, hnode, hid⟩
    · rw [hsource] at hnode
      exact .inl hnode
  · refine looksUp_resolveInputReference hP (fun id hid path => ?_) fun sourceCode hsource => ?_
    · refine List.mem_append_left _ (List.mem_append_right _ ?_)
      exact List.mem_filterMap.2 ⟨ref, href, hid⟩
    · rw [hsource] at href
      exact .inr href
  · exact List.mem_append_right _ hid

section

variable {possible : ∀ q : Question, q.Answer → Prop}

theorem eq_of_mayAsk_source {sourceCode : Token} {code : String}
    (h : (resolveSourcePayload sourceCode.val).MayAsk possible (.source code)) :
    sourceCode.val = code := by
  rcases mayAsk_resolveSourcePayload h with hq | ⟨source, -, hfound⟩
  · exact (Question.source.inj hq).symm
  · exact absurd hfound not_mayAsk_source_of_found

/-- **A source is looked up at a leaf of a request, or at a reference.** -/
theorem source_of_mayAsk {cfg : ConfigurationCommandDto} {data : Json} {sourceCode : String}
    (h : (readCommand data cfg).MayAsk possible (.source sourceCode)) :
    (∃ token, .source token ∈ commandNodes cfg ∧ token.val = sourceCode) ∨
      ∃ token, .source token ∈ commandRefs cfg ∧ token.val = sourceCode := by
  rcases (looksUp_command cfg data).mayAsk h with hq | ⟨token, hnamed | hnamed, hask, -⟩
  · exact hq.elim
  · exact .inl ⟨token, hnamed, eq_of_mayAsk_source hask⟩
  · exact .inr ⟨token, hnamed, eq_of_mayAsk_source hask⟩

end

end Suite
end QualityFlow
