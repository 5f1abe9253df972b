/-
# What the generators append

The commands that `generate_commands` of `app/templating/templates/send_verify.py`
and `app/templating/templates/mock_assert.py` builds, as values: for every
configuration a generator accepts, its commands are those of a program with a list
of assertions, numbered from zero.
-/

import QualityFlow.Template.Generator

namespace QualityFlow
namespace Template

open Py Command Suite

/-! ### Names -/

/-- A prefix of numbered names. -/
structure IdPrefix where
  text : String
  plain : ∀ c ∈ text.toList, isSpace c = false

/-- A numbered name. -/
def IdPrefix.id (p : IdPrefix) (index : ℕ) : Token where
  val := p.text ++ toString index
  strip_val := by
    refine strip_of_forall fun c hc => ?_
    rw [String.toList_append, List.mem_append] at hc
    rcases hc with hc | hc
    · exact p.plain c hc
    · exact isSpace_of_isDigit (isDigit_of_mem_toString hc)
  ne_empty := by
    intro h
    have hlist := congrArg String.toList h
    rw [String.toList_append, Nat.toString_eq_ofList_toDigits, String.toList_ofList] at hlist
    exact Nat.toDigits_ne_nil (List.append_eq_nil_iff.1 hlist).2

theorem IdPrefix.id_injective (p : IdPrefix) : Function.Injective p.id := by
  intro i j h
  have hlist := congrArg String.toList (congrArg Token.val h)
  have hval (k : ℕ) : (p.id k).val = p.text ++ toString k := rfl
  rw [hval, hval, String.toList_append, String.toList_append] at hlist
  exact toString_nat_injective (String.toList_inj.1 (List.append_cancel_left hlist))

/-- The ids of the constants that the assertions of a `send_verify` read. -/
def SendVerify.ids : IdPrefix := ⟨SendVerify.actualPrefix, not_space_of_all (by decide)⟩

/-- The ids of the constants that the assertions of a `mock_assert` read. -/
def MockAssert.ids : IdPrefix := ⟨MockAssert.actualPrefix, not_space_of_all (by decide)⟩

/-- The names of the constants that the assertions read. -/
def actualNames : IdPrefix := ⟨"actual_", not_space_of_all (by decide)⟩

/-- The path a read writes its answer to. -/
def actualTarget (index : ℕ) : TargetPath where
  path := "$.local.constants." ++ (actualNames.id index).val
  normal := by
    have hplain : ∀ c ∈ ("$.local.constants." : String).toList, isSpace c = false :=
      not_space_of_all (by decide)
    have hstrip : strip ("$.local.constants." ++ (actualNames.id index).val)
        = "$.local.constants." ++ (actualNames.id index).val := by
      refine strip_of_forall fun c hc => ?_
      rw [String.toList_append, List.mem_append] at hc
      rcases hc with hc | hc
      · exact hplain c hc
      · rw [show (actualNames.id index).val = "actual_" ++ toString index from rfl,
          String.toList_append, List.mem_append] at hc
        rcases hc with hc | hc
        · exact actualNames.plain c hc
        · exact isSpace_of_isDigit (isDigit_of_mem_toString hc)
    have hne : "$.local.constants." ++ (actualNames.id index).val ≠ "" := by
      intro h
      have hlist := congrArg String.toList h
      simp at hlist
    rw [normalizeTargetPath, hstrip, if_neg hne, if_pos (by simp [startsWith])]

/-! ### Commands -/

/-- The keys of an action, with the defaults of its class. -/
def actionKeys (code : CommandCode) : CommandKeys where
  commandCode := code.value
  commandType := .action
  code_normal := by cases code <;> decide
  code_ne := by cases code <;> decide

/-- The keys of a change of the context. -/
def contextKeys (code : CommandCode) : CommandKeys where
  commandCode := code.value
  commandType := .context
  code_normal := by cases code <;> decide
  code_ne := by cases code <;> decide

/-- Where an assertion reads from. -/
inductive ReadSource where
  | queue (queueId : Token)
  | database (connectionId query : Token)

/-- What a source takes from the configuration of its assertion. -/
def ReadSource.Describes (target : String) (spec : List (String × Json)) : ReadSource → Prop
  | .queue queueId => target = "queue" ∧ queueId.val = (Json.field spec "queue_id").token
  | .database connectionId query => target ≠ "queue" ∧
      connectionId.val = (Json.field spec "connection_id").token ∧
      query.val = (Json.field spec "database_query").token

/-- The constant that a read declares. -/
def declaredConstant (ids : IdPrefix) (index : ℕ) : ResultConstantDto :=
  ⟨ids.id index, actualNames.id index, .json⟩

/-- A read. -/
def ReadSource.command (ids : IdPrefix) (index : ℕ) : ReadSource → ConfigurationCommandDto
  | .queue queueId => .receiveQueue
      { keys := actionKeys .receiveQueue, queueId, maxMessages := 1, retry := 3,
        waitTimeSeconds := 1, target := some (actualTarget index),
        resultConstant := some (declaredConstant ids index), maxMessages_pos := Int.one_pos,
        retry_nonneg := by decide, waitTimeSeconds_nonneg := Int.one_nonneg }
  | .database connectionId query => .queryDatabase
      { keys := actionKeys .queryDatabase, connectionId, query,
        target := some (actualTarget index),
        resultConstant := some (declaredConstant ids index) }

inductive Operator where
  | equals
  | present
deriving DecidableEq

def Operator.code : Operator → AssertCode
  | .equals => .jsonEquals
  | .present => .jsonNotEmpty

/-- An assertion that a generator has let through. -/
structure GeneratedAssert where
  index : ℕ
  source : ReadSource
  operator : Operator
  expected : Json
  required : expected = .null ↔ operator = .present

namespace GeneratedAssert

/-- Its check. -/
def check (ids : IdPrefix) (a : GeneratedAssert) : AssertConfigurationCommandDto where
  code := a.operator.code
  commandType := .assert
  errorMessage := none
  evaluatedObjectType := "json-data"
  actualRef := .runtimeValue (ids.id a.index)
  actualConstantRef := none
  expected := a.expected
  expectedRef := none
  expectedJsonArrayId := none
  compareKeys := none
  jsonSchema := none
  evaluatedObjectType_normal := by decide
  required := by
    have hrequired := a.required
    cases hop : a.operator with
    | equals => simp [Operator.code, AssertCode.requiredError, hrequired, hop]
    | present => simp [Operator.code, AssertCode.requiredError]

/-- The two commands of an assertion. -/
def commands (ids : IdPrefix) (a : GeneratedAssert) : List ConfigurationCommandDto :=
  [a.source.command ids a.index, .assert (a.check ids)]

/-- What an assertion takes from its part of the configuration. -/
structure Describes (target : String) (spec : List (String × Json)) (a : GeneratedAssert) :
    Prop where
  source : a.source.Describes target spec
  operator : operatorToCommandCode.get? (normalizeToken (Json.field spec "operator"))
    = some a.operator.code
  expected : a.operator = .equals → a.expected = Json.field spec "expected"

end GeneratedAssert

/-! ### Numbered commands -/

/-- Commands numbered from zero. -/
structure Numbered (commands : List CreateSuiteItemCommandDto)
    (cfgs : List ConfigurationCommandDto) : Prop where
  orders : commands.map (·.order) = (List.range cfgs.length).map Int.ofNat
  cfgs : commands.map (·.cfg) = cfgs.map some

/-- The variables of a generator that has appended some commands. -/
structure GeneratorState.Holds (s : GeneratorState) (cfgs : List ConfigurationCommandDto) :
    Prop where
  order : s.order = cfgs.length
  numbered : Numbered s.commands cfgs

theorem GeneratorState.holds_push {s : GeneratorState} {cfgs : List ConfigurationCommandDto}
    (h : s.Holds cfgs) (description : String) (cfg : ConfigurationCommandDto) :
    (s.push description cfg).Holds (cfgs ++ [cfg]) where
  order := by simp [push, h.order]
  numbered :=
    { orders := by simp [push, h.numbered.orders, h.order, List.range_succ]
      cfgs := by simp [push, h.numbered.cfgs] }

/-! ### The steps -/

theorem requireToken_eq_ok {message s : String} {t : Token} (h : requireToken message s = .ok t) :
    t.val = strip s := by
  unfold requireToken at h
  split at h
  · rename_i t' ht
    obtain rfl := Except.ok.inj h
    unfold Token.ofString? at ht
    split at ht
    · simp at ht
    · rw [← Option.some.inj ht]
  · simp at h

theorem requireStr_eq_ok {value : Json} {message : String} {t : Token}
    (h : requireStr value message = .ok t) : t.val = value.token := by
  have htoken : strip value.token = value.token := by
    unfold Json.token
    split_ifs <;> simp
  rw [requireToken_eq_ok h, htoken]

@[simp] theorem field_resultConstant_val (definitionId name : Token) :
    ResultConstantDto.field (resultConstant definitionId.val name.val)
      = .ok (some ⟨definitionId, name, .json⟩) := by
  have hjson : normalizeValueType "json" = .ok .json := normalizeValueType_text .json
  simp [ResultConstantDto.field, resultConstant, ResultConstantDto.create, hjson]

/-- The sleep of a generator. -/
def sleepCommands (waitMs : ℤ) : List ConfigurationCommandDto :=
  if 0 < waitMs then [.sleep { keys := actionKeys .sleep, duration := waitMs }] else []

/-- A class applied without the command keys takes its defaults for them. -/
theorem actionKeys_create (code : CommandCode) {d : List (String × Json)}
    (hcode : Dict.get? d "commandCode" = none) (htype : Dict.get? d "commandType" = none) :
    CommandKeys.create d (.str code.value) .action = .ok (actionKeys code) := by
  have hkeys := (actionKeys code).code_normal
  have hne := (actionKeys code).code_ne
  simp only [actionKeys] at hkeys hne
  simp [CommandKeys.create, fieldD, hcode, htype, hkeys, hne, actionKeys]

theorem generateSleep_holds {waitMs : ℤ} {what : String} {s s' : GeneratorState}
    {cfgs : List ConfigurationCommandDto} (h : s.Holds cfgs)
    (hrun : generateSleep waitMs what s = .ok s') : s'.Holds (cfgs ++ sleepCommands waitMs) := by
  unfold generateSleep at hrun
  unfold sleepCommands
  split at hrun
  · rename_i hpos
    obtain ⟨sleep, hsleep, hret⟩ := bind_eq_ok.1 hrun
    have hcreate : SleepConfigurationCommandDto.create [("duration", .int waitMs)]
        = .ok { keys := actionKeys .sleep, duration := waitMs } := by
      rw [SleepConfigurationCommandDto.create, actionKeys_create .sleep rfl rfl]
      rfl
    rw [hcreate] at hsleep
    obtain rfl := Except.ok.inj hsleep
    obtain rfl := Except.ok.inj hret
    rw [if_pos hpos]
    exact GeneratorState.holds_push h _ _
  · rename_i hpos
    obtain rfl := Except.ok.inj hrun
    rw [if_neg hpos, List.append_nil]
    exact h

/-- A read is one of those a source stands for. -/
theorem generateRead_eq_ok {ids : IdPrefix} {index : ℕ} {target : String}
    {spec : List (String × Json)} {s s' : GeneratorState}
    (hrun : generateRead (ids.id index).val (actualNames.id index).val index target spec s
      = .ok s') :
    ∃ (source : ReadSource) (description : String), source.Describes target spec ∧
      s' = s.push description (source.command ids index) := by
  have hpath : TargetPath.field (.str ("$.local.constants." ++ (actualNames.id index).val))
      = .ok (some (actualTarget index)) := TargetPath.field_path (actualTarget index)
  have hresult := field_resultConstant_val (ids.id index) (actualNames.id index)
  unfold generateRead at hrun
  split at hrun
  · rename_i htarget
    obtain ⟨queueId, hqueue, hrun⟩ := bind_eq_ok.1 hrun
    obtain ⟨receive, hreceive, hret⟩ := bind_eq_ok.1 hrun
    have hcreate : ReceiveQueueConfigurationCommandDto.create
        [("queue_id", .str queueId.val), ("max_messages", .int 1), ("retry", .int 3),
         ("wait_time_seconds", .int 1),
         ("target", .str ("$.local.constants." ++ (actualNames.id index).val)),
         ("resultConstant", resultConstant (ids.id index).val (actualNames.id index).val)]
        = .ok { keys := actionKeys .receiveQueue, queueId, maxMessages := 1, retry := 3,
                waitTimeSeconds := 1, target := some (actualTarget index),
                resultConstant := some (declaredConstant ids index),
                maxMessages_pos := by decide, retry_nonneg := by decide,
                waitTimeSeconds_nonneg := by decide } := by
      rw [ReceiveQueueConfigurationCommandDto.create, actionKeys_create .receiveQueue rfl rfl]
      simp [hpath, hresult, declaredConstant]
    rw [hcreate] at hreceive
    obtain rfl := Except.ok.inj hreceive
    exact ⟨.queue queueId, _, ⟨htarget, requireStr_eq_ok hqueue⟩, (Except.ok.inj hret).symm⟩
  · rename_i htarget
    obtain ⟨connectionId, hconnection, hrun⟩ := bind_eq_ok.1 hrun
    obtain ⟨query, hquery, hrun⟩ := bind_eq_ok.1 hrun
    obtain ⟨read, hread, hret⟩ := bind_eq_ok.1 hrun
    have hcreate : QueryDatabaseConfigurationCommandDto.create
        [("connection_id", .str connectionId.val), ("query", .str query.val),
         ("target", .str ("$.local.constants." ++ (actualNames.id index).val)),
         ("resultConstant", resultConstant (ids.id index).val (actualNames.id index).val)]
        = .ok { keys := actionKeys .queryDatabase, connectionId, query,
                target := some (actualTarget index),
                resultConstant := some (declaredConstant ids index) } := by
      rw [QueryDatabaseConfigurationCommandDto.create, actionKeys_create .queryDatabase rfl rfl]
      simp [hpath, hresult, declaredConstant]
    rw [hcreate] at hread
    obtain rfl := Except.ok.inj hread
    exact ⟨.database connectionId query, _,
      ⟨htarget, requireStr_eq_ok hconnection, requireStr_eq_ok hquery⟩,
      (Except.ok.inj hret).symm⟩

theorem operator_of_get? {operator : String} {code : AssertCode}
    (h : operatorToCommandCode.get? operator = some code) :
    operator = "equals" ∧ code = .jsonEquals ∨ operator = "exists" ∧ code = .jsonNotEmpty := by
  have hmem := Dict.mem_of_get? h
  simpa [operatorToCommandCode] using hmem

@[simp] theorem field_runtimeValueRef (definitionId : Token) :
    InputRefDto.field (runtimeValueRef definitionId.val) = .ok (some (.runtimeValue definitionId)) := by
  have hkind : strip "runtimeValue" = "runtimeValue" := rfl
  simp [InputRefDto.field, runtimeValueRef, InputRefDto.create, hkind]

/-- The keys of an assertion. -/
theorem assertKeys_create (code : AssertCode) (d : List (String × Json)) :
    ∃ keys : CommandKeys, CommandKeys.create (("commandCode", .str code.value) ::
      ("commandType", .str CommandType.assert.value) :: d) .null .assert = .ok keys ∧
      keys.commandCode = code.value ∧ keys.commandType = .assert := by
  have hkeys : normalizeCommandCode (.str code.value) = code.value := by cases code <;> decide
  have hne : code.value ≠ "" := by cases code <;> decide
  refine ⟨⟨code.value, .assert, hkeys, hne⟩, ?_, rfl, rfl⟩
  exact CommandKeys.create_modelDump ⟨code.value, .assert, hkeys, hne⟩ d .null .assert

/-- The check of an assertion, up to what it requires. -/
theorem create_check (definitionId : Token) (code : AssertCode) (expected : List (String × Json))
    (hexpected : expected = [] ∨ ∃ v, expected = [("expected", v)]) :
    AssertConfigurationCommandDto.create
      ([("commandCode", .str code.value), ("commandType", .str CommandType.assert.value),
        ("actualRef", runtimeValueRef definitionId.val)] ++ expected)
      = AssertConfigurationCommandDto.checkRequired code .assert none "json-data"
          (.runtimeValue definitionId) none (Json.field expected "expected") none none none none := by
  obtain ⟨keys, hkeys, hcode, htype⟩ := assertKeys_create code
    (("actualRef", runtimeValueRef definitionId.val) :: expected)
  have hactual := field_runtimeValueRef definitionId
  simp only [List.cons_append, List.nil_append]
  rw [AssertConfigurationCommandDto.create, hkeys]
  rcases hexpected with rfl | ⟨v, rfl⟩
  · simp [hactual, hcode, htype, CompareKeys.field, coerceInputRef,
      AssertConfigurationCommandDto.resolveExpectedRef, Token.ofString?]
  · simp [hactual, hcode, htype, CompareKeys.field, coerceInputRef,
      AssertConfigurationCommandDto.resolveExpectedRef, Token.ofString?]

/-- What a check requires of its operand, and the check itself. -/
theorem checkRequired_eq_check {ids : IdPrefix} {index : ℕ} (source : ReadSource)
    (operator : Operator) {expected : Json} {c : AssertConfigurationCommandDto}
    (hpresent : operator = .present → expected = .null)
    (h : AssertConfigurationCommandDto.checkRequired operator.code .assert none "json-data"
      (.runtimeValue (ids.id index)) none expected none none none none = .ok c) :
    ∃ hrequired : expected = .null ↔ operator = .present,
      c = GeneratedAssert.check ids ⟨index, source, operator, expected, hrequired⟩ := by
  unfold AssertConfigurationCommandDto.checkRequired at h
  split at h
  · simp at h
  · rename_i hnone
    have hrequired : expected = .null ↔ operator = .present := by
      refine ⟨fun hnull => ?_, hpresent⟩
      cases operator with
      | equals => simp [Operator.code, AssertCode.requiredError, hnull] at hnone
      | present => rfl
    exact ⟨hrequired, (Except.ok.inj h).symm⟩

/-- An assertion that is let through appends the two commands of one that its part of
the configuration describes. -/
theorem generateAssert_eq_ok {ids : IdPrefix} {index : ℕ} {target : String}
    {spec : List (String × Json)} {s s' : GeneratorState} {cfgs : List ConfigurationCommandDto}
    (hs : s.Holds cfgs) (hrun : generateAssert ids.text index target spec s = .ok s') :
    ∃ a : GeneratedAssert, a.index = index ∧ a.Describes target spec ∧
      s'.Holds (cfgs ++ a.commands ids) := by
  unfold generateAssert at hrun
  simp only at hrun
  cases hop : operatorToCommandCode.get? (normalizeToken (Json.field spec "operator")) with
  | none => simp [hop] at hrun
  | some code =>
    rw [hop] at hrun
    obtain ⟨s₁, hread, hcheck⟩ := bind_eq_ok.1 hrun
    obtain ⟨source, d₁, hsource, rfl⟩ := @generateRead_eq_ok ids _ _ _ _ _ hread
    obtain ⟨expected, hexpected, hcheck⟩ := bind_eq_ok.1 hcheck
    obtain ⟨check, hcreate, hret⟩ := bind_eq_ok.1 hcheck
    obtain rfl := Except.ok.inj hret
    have hholds (a : GeneratedAssert) (hindex : a.index = index) (hsrc : a.source = source)
        (hcheck : check = a.check ids) (description : String) :
        ((s.push d₁ (source.command ids index)).push description (.assert check)).Holds
          (cfgs ++ a.commands ids) := by
      have hpush := GeneratorState.holds_push
        (GeneratorState.holds_push hs d₁ (source.command ids index)) description (.assert check)
      rw [List.append_assoc] at hpush
      rw [GeneratedAssert.commands, hindex, hsrc, ← hcheck]
      exact hpush
    rcases operator_of_get? hop with ⟨hname, rfl⟩ | ⟨hname, rfl⟩
    · unfold expectedArg at hexpected
      rw [if_pos hname] at hexpected
      split at hexpected
      · obtain rfl := Except.ok.inj hexpected
        have hchecked := hcreate
        rw [show ids.text ++ toString index = (ids.id index).val from rfl,
          create_check (ids.id index) .jsonEquals _ (.inr ⟨_, rfl⟩)] at hchecked
        obtain ⟨hrequired, rfl⟩ := checkRequired_eq_check source .equals (by simp) hchecked
        exact ⟨⟨index, source, .equals, _, hrequired⟩, rfl, ⟨hsource, hop, fun _ => rfl⟩,
          hholds _ rfl rfl rfl _⟩
      · simp at hexpected
    · have hne : normalizeToken (Json.field spec "operator") ≠ "equals" := by
        rw [hname]
        decide
      unfold expectedArg at hexpected
      rw [if_neg hne] at hexpected
      obtain rfl := Except.ok.inj hexpected
      have hchecked := hcreate
      rw [show ids.text ++ toString index = (ids.id index).val from rfl,
        create_check (ids.id index) .jsonNotEmpty _ (.inl rfl)] at hchecked
      obtain ⟨hrequired, rfl⟩ := checkRequired_eq_check source .present (fun _ => rfl) hchecked
      exact ⟨⟨index, source, .present, _, hrequired⟩, rfl,
        ⟨hsource, hop, fun h => absurd h (by simp)⟩, hholds _ rfl rfl rfl _⟩

/-! ### The loops -/

/-- The target of an assertion. -/
def assertTarget (spec : List (String × Json)) : String :=
  normalizeToken (Json.field spec "target")

/-- Some assertions are those of some parts of a configuration, in order. -/
def DescribesAll (items : List (List (String × Json) × ℕ)) (asserts : List GeneratedAssert) :
    Prop :=
  List.Forall₂ (fun item a => a.index = item.2 ∧ a.Describes (assertTarget item.1) item.1)
    items asserts

/-- A loop that passes the assertions without a target over appends those of the
others, in order. -/
theorem generateRounds_eq_ok {ids : IdPrefix}
    {round : GeneratorState → List (String × Json) × ℕ → Except String GeneratorState}
    (hround : ∀ s item s', round s item = .ok s' →
      assertTarget item.1 = "none" ∧ s' = s ∨ assertTarget item.1 ≠ "none" ∧
        generateAssert ids.text item.2 (assertTarget item.1) item.1 s = .ok s')
    {items : List (List (String × Json) × ℕ)} {s s' : GeneratorState}
    {cfgs : List ConfigurationCommandDto} (hs : s.Holds cfgs)
    (hrun : items.foldlM round s = .ok s') :
    ∃ asserts : List GeneratedAssert,
      DescribesAll (items.filter fun item => assertTarget item.1 ≠ "none") asserts ∧
        s'.Holds (cfgs ++ asserts.flatMap (GeneratedAssert.commands ids)) := by
  induction items generalizing s cfgs with
  | nil =>
    obtain rfl := Except.ok.inj hrun
    exact ⟨[], .nil, by simpa using hs⟩
  | cons item items ih =>
    obtain ⟨s₁, hfirst, hrest⟩ := foldlM_cons_eq_ok.1 hrun
    rcases hround _ _ _ hfirst with ⟨hnone, rfl⟩ | ⟨htarget, hassert⟩
    · obtain ⟨asserts, hall, hholds⟩ := ih hs hrest
      exact ⟨asserts, by simpa [hnone] using hall, hholds⟩
    · obtain ⟨a, hindex, hdescribes, hs₁⟩ := generateAssert_eq_ok hs hassert
      obtain ⟨asserts, hall, hholds⟩ := ih hs₁ hrest
      refine ⟨a :: asserts, ?_, by simpa using hholds⟩
      rw [List.filter_cons_of_pos (by simpa using htarget)]
      exact .cons ⟨hindex, hdescribes⟩ hall

/-! ### `send_verify` -/

namespace SendVerify

/-- The id of the payload constant. -/
def payloadId : Token := ⟨payloadDefinitionId, by decide, by decide⟩

/-- The command that keeps the payload. -/
def payloadVariable (value : Json) : SetVariableConfigurationCommandDto where
  keys := contextKeys .setVariable
  definitionId := payloadId
  name := ⟨"payload", by decide, by decide⟩
  context := .localScope
  value := .json value
  sourceType := none
  data := .null
  resolver := none
  function := none
  datasetId := none
  jsonArrayId := none
  parameters := none
  target := none
  key := none
  scope := none

/-- The command that sends the payload. -/
def sendPayload (queueId : Token) : SendMessageQueueConfigurationCommandDto where
  keys := actionKeys .sendMessageQueue
  inputRef := .runtimeValue payloadId
  sourceConstantRef := none
  queueId := queueId.val
  messageTemplate := none
  templateId := none
  templateParams := none
  resultConstant := none

/-- What a `send_verify` is, once its configuration has been read. -/
structure Plan where
  queueId : Token
  payloadValue : Json
  waitMs : ℤ
  asserts : List GeneratedAssert

/-- The commands of a plan. -/
def Plan.commands (plan : Plan) : List ConfigurationCommandDto :=
  [.setVariable (payloadVariable plan.payloadValue), .sendMessageQueue (sendPayload plan.queueId)]
    ++ sleepCommands plan.waitMs ++ plan.asserts.flatMap (GeneratedAssert.commands ids)

/-- What a plan takes from a configuration. -/
structure Plan.Describes (config : List (String × Json)) (plan : Plan) : Prop where
  queueId : plan.queueId.val = (Json.field config "queue_id").token
  payloadValue : ∃ payload, Json.field config "payload" = .obj payload ∧
    plan.payloadValue = Json.field payload "value"
  waitMs : coerceWaitMs (Json.field config "wait_ms") 500 = .ok plan.waitMs
  asserts : ∃ specs, coerceAssertList (Json.field config "asserts") = .ok specs ∧
    DescribesAll (specs.zipIdx.filter fun item => assertTarget item.1 ≠ "none") plan.asserts

theorem generateRound_eq_ok {s s' : GeneratorState} {item : List (String × Json) × ℕ}
    (h : generateRound s item = .ok s') :
    assertTarget item.1 = "none" ∧ s' = s ∨ assertTarget item.1 ≠ "none" ∧
      generateAssert ids.text item.2 (assertTarget item.1) item.1 s = .ok s' := by
  unfold generateRound at h
  simp only at h
  split at h
  · simp at h
  · split at h
    · rename_i hnone
      exact .inl ⟨hnone, (Except.ok.inj h).symm⟩
    · rename_i hnone
      exact .inr ⟨hnone, h⟩

theorem create_payload (value : Json) :
    SetVariableConfigurationCommandDto.create
      [("commandCode", .str CommandCode.setVariable.value),
       ("commandType", .str CommandType.context.value),
       ("definitionId", .str payloadDefinitionId), ("name", .str "payload"),
       ("context", .str ConstantContext.localScope.value),
       ("valueType", .str ConstantSourceType.json.text), ("value", value)]
      = .ok (payloadVariable value) := by
  have hkeys (d : List (String × Json)) :
      CommandKeys.create (("commandCode", .str CommandCode.setVariable.value) ::
        ("commandType", .str CommandType.context.value) :: d) (.str CommandCode.setVariable.value)
        .context = .ok (contextKeys .setVariable) :=
    CommandKeys.create_modelDump (contextKeys .setVariable) d _ _
  have hid (message : String) : requireToken message payloadDefinitionId = .ok payloadId :=
    requireToken_val message payloadId
  have hname (message : String) : requireToken message "payload"
      = .ok ⟨"payload", by decide, by decide⟩ :=
    requireToken_val message ⟨"payload", by decide, by decide⟩
  have hcontext : ConstantContext.ofString?
      ((SetVariableConfigurationCommandDto.contextAliases.get? (strip "local")).getD
        (strip "local")) = some .localScope := by decide
  have hvalue (v : Json) (f : String) : VariableValue.create "json" v f = .ok (.json v) := by
    unfold VariableValue.create
    rw [show ConstantSourceType.ofString?
      (if strip "json" = "raw" then "value" else strip "json") = some .json from by decide]
  have hdata : (if value = .null then Json.null else value) = value := by
    split_ifs with h
    · exact h.symm
    · rfl
  rw [SetVariableConfigurationCommandDto.create, hkeys]
  simp [SetVariableConfigurationCommandDto.targetDefaults, firstTruthy, hid, hname,
    ConstantContext.value, ConstantSourceType.text, hcontext, hvalue, hdata, payloadVariable]

theorem create_send (queueId : Token) :
    SendMessageQueueConfigurationCommandDto.create
      [("queue_id", .str queueId.val), ("inputRef", runtimeValueRef payloadDefinitionId)]
      = .ok (sendPayload queueId) := by
  have href : InputRefDto.field (runtimeValueRef payloadDefinitionId)
      = .ok (some (.runtimeValue payloadId)) := field_runtimeValueRef payloadId
  have htemplate : SendMessageTemplateDto.field .null = .ok none := rfl
  rw [SendMessageQueueConfigurationCommandDto.create, actionKeys_create .sendMessageQueue rfl rfl]
  simp [InputFields.create, href, htemplate, coerceInputRef, sendPayload]

/-- The two commands that send the payload. -/
theorem generateSend_eq_ok {queueId : Token} {value : Json} {s s' : GeneratorState}
    {cfgs : List ConfigurationCommandDto} (hs : s.Holds cfgs)
    (hrun : generateSend queueId value s = .ok s') :
    s'.Holds (cfgs ++ [.setVariable (payloadVariable value),
      .sendMessageQueue (sendPayload queueId)]) := by
  obtain ⟨payload, hpayload, hrun⟩ := bind_eq_ok.1 hrun
  obtain ⟨send, hsend, hret⟩ := bind_eq_ok.1 hrun
  rw [create_payload] at hpayload
  rw [create_send] at hsend
  obtain rfl := Except.ok.inj hpayload
  obtain rfl := Except.ok.inj hsend
  obtain rfl := Except.ok.inj hret
  have hpush := GeneratorState.holds_push (GeneratorState.holds_push hs
    "Materialize inline JSON payload" (.setVariable (payloadVariable value)))
    s!"Send message to queue '{queueId.val}'" (.sendMessageQueue (sendPayload queueId))
  rw [List.append_assoc] at hpush
  exact hpush

/-- **A `send_verify` that is accepted is the program its configuration describes.** -/
theorem generateCommands_eq_ok {config : List (String × Json)}
    {commands : List CreateSuiteItemCommandDto} (h : generateCommands config = .ok commands) :
    ∃ plan : Plan, plan.Describes config ∧ Numbered commands plan.commands := by
  obtain ⟨queueId, hqueue, h⟩ := bind_eq_ok.1 h
  obtain ⟨payload, hpayload, h⟩ := bind_eq_ok.1 h
  obtain ⟨waitMs, hwait, h⟩ := bind_eq_ok.1 h
  obtain ⟨specs, hspecs, h⟩ := bind_eq_ok.1 h
  simp only at h
  split at h
  · simp at h
  · obtain ⟨s₁, hsend, h⟩ := bind_eq_ok.1 h
    obtain ⟨s₂, hsleep, h⟩ := bind_eq_ok.1 h
    obtain ⟨s₃, hrounds, hret⟩ := bind_eq_ok.1 h
    obtain rfl := Except.ok.inj hret
    have hstart : ({ order := 0, commands := [] } : GeneratorState).Holds [] :=
      ⟨rfl, ⟨rfl, rfl⟩⟩
    have h₁ := generateSend_eq_ok hstart hsend
    have h₂ := generateSleep_holds h₁ hsleep
    obtain ⟨asserts, hall, h₃⟩ := generateRounds_eq_ok (fun _ _ _ => generateRound_eq_ok) h₂ hrounds
    refine ⟨⟨queueId, Json.field payload "value", waitMs, asserts⟩,
      ⟨requireStr_eq_ok hqueue, ⟨payload, ?_, rfl⟩, hwait, specs, hspecs, hall⟩, h₃.numbered⟩
    unfold requireDict at hpayload
    split at hpayload
    · rename_i d heq
      rw [heq, Except.ok.inj hpayload]
    · simp at hpayload

end SendVerify

/-! ### `mock_assert` -/

namespace MockAssert

/-- What a `mock_assert` is, once its configuration has been read. -/
structure Plan where
  waitMs : ℤ
  asserts : List GeneratedAssert
  ne_nil : asserts ≠ []

/-- The commands of a plan. -/
def Plan.commands (plan : Plan) : List ConfigurationCommandDto :=
  sleepCommands plan.waitMs ++ plan.asserts.flatMap (GeneratedAssert.commands ids)

/-- What a plan takes from a configuration. -/
structure Plan.Describes (config : List (String × Json)) (plan : Plan) : Prop where
  waitMs : coerceWaitMs (Json.field config "wait_ms") 1000 = .ok plan.waitMs
  asserts : ∃ specs, coerceAssertList (Json.field config "asserts") = .ok specs ∧
    DescribesAll specs.zipIdx plan.asserts

theorem generateRound_eq_ok {s s' : GeneratorState} {item : List (String × Json) × ℕ}
    (h : generateRound s item = .ok s') :
    assertTarget item.1 ≠ "none" ∧
      generateAssert ids.text item.2 (assertTarget item.1) item.1 s = .ok s' := by
  unfold generateRound at h
  simp only at h
  split at h
  · simp at h
  · rename_i htarget
    rw [not_not] at htarget
    refine ⟨fun hnone => ?_, h⟩
    rw [show normalizeToken (Json.field item.1 "target") = "none" from hnone] at htarget
    exact absurd htarget (by decide)

theorem targets_of_rounds {items : List (List (String × Json) × ℕ)} {s s' : GeneratorState}
    (h : items.foldlM generateRound s = .ok s') :
    ∀ item ∈ items, assertTarget item.1 ≠ "none" := by
  induction items generalizing s with
  | nil => simp
  | cons item items ih =>
    obtain ⟨s₁, hfirst, hrest⟩ := foldlM_cons_eq_ok.1 h
    rw [List.forall_mem_cons]
    exact ⟨(generateRound_eq_ok hfirst).1, ih hrest⟩

/-- **A `mock_assert` that is accepted is the program its configuration describes.** -/
theorem generateCommands_eq_ok {config : List (String × Json)}
    {commands : List CreateSuiteItemCommandDto} (h : generateCommands config = .ok commands) :
    ∃ plan : Plan, plan.Describes config ∧ Numbered commands plan.commands := by
  obtain ⟨waitMs, hwait, h⟩ := bind_eq_ok.1 h
  obtain ⟨specs, hspecs, h⟩ := bind_eq_ok.1 h
  split at h
  · simp at h
  · rename_i hne
    obtain ⟨s₁, hsleep, h⟩ := bind_eq_ok.1 h
    obtain ⟨s₂, hrounds, hret⟩ := bind_eq_ok.1 h
    obtain rfl := Except.ok.inj hret
    have hstart : ({ order := 0, commands := [] } : GeneratorState).Holds [] :=
      ⟨rfl, ⟨rfl, rfl⟩⟩
    have h₁ := generateSleep_holds hstart hsleep
    obtain ⟨asserts, hall, h₂⟩ := generateRounds_eq_ok
      (fun _ _ _ hround => .inr (generateRound_eq_ok hround)) h₁ hrounds
    rw [List.filter_eq_self.2 (by simpa using targets_of_rounds hrounds)] at hall
    have hnil : asserts ≠ [] := by
      rintro rfl
      cases hitems : specs.zipIdx with
      | nil => exact hne (by simpa using hitems)
      | cons item items =>
        rw [hitems] at hall
        cases hall
    exact ⟨⟨waitMs, asserts, hnil⟩, ⟨hwait, specs, hspecs, hall⟩, h₂.numbered⟩

end MockAssert

end Template
end QualityFlow
