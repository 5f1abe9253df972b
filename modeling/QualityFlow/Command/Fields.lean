/-
# The normalised fields of a command configuration

The rest of the field types of
`app/elaborations/models/dtos/configuration_command_dto.py`: the command keys,
target paths, comparison keys, time limits and message templates.  As with the
references, each type holds what the normaliser returns, and the normaliser
leaves that alone.
-/

import QualityFlow.Command.Http

namespace QualityFlow
namespace Command

open Py

/-! ### Command keys -/

/-- `legacy_mapping` of `_normalize_command_code`. -/
def legacyMapping : Dict String String :=
  [("data", "setVariable"), ("data-from-json-array", "setVariable"), ("data-from-db", "setVariable"),
   ("data-from-queue", "setVariable"), ("read-api", "readApi"), ("write-api", "writeApi"),
   ("publish", "sendMessageQueue"), ("save-internal-db", "saveTable"),
   ("save-external-db", "exportDataset"), ("run-suite", "runSuite"), ("set-var", "setVariable"),
   ("initconstant", "setVariable"), ("deleteconstant", "deleteVariable")]

/-- `_normalize_command_code`. -/
def normalizeCommandCode (value : Json) : String :=
  let raw := value.token
  (legacyMapping.get? (lower (replaceChar '_' '-' raw))).getD raw

/-- No code of the mapping is a legacy one. -/
theorem legacyMapping_fixed {k code : String} (h : (k, code) ∈ legacyMapping) :
    normalizeCommandCode (.str code) = code := by
  have hall : legacyMapping.all fun kv => normalizeCommandCode (.str kv.2) == kv.2 := by rfl
  exact eq_of_beq (List.all_eq_true.1 hall (k, code) h)

/-- Normalising a code twice is normalising it once. -/
@[simp] theorem normalizeCommandCode_idem (value : Json) :
    normalizeCommandCode (.str (normalizeCommandCode value)) = normalizeCommandCode value := by
  cases h : legacyMapping.get? (lower (replaceChar '_' '-' value.token)) with
  | some code =>
    have hcode : normalizeCommandCode value = code := by
      rw [normalizeCommandCode, h, Option.getD_some]
    have hmem := Dict.mem_of_get? h
    rw [hcode]
    exact legacyMapping_fixed hmem
  | none =>
    have hraw : normalizeCommandCode value = value.token := by
      rw [normalizeCommandCode, h, Option.getD_none]
    have hstrip : strip value.token = value.token := by
      unfold Json.token
      split_ifs <;> simp
    rw [hraw, normalizeCommandCode, Json.token_str, hstrip, h, Option.getD_none]

/-- `_normalize_command_type`. -/
def normalizeCommandType (value : Json) : String := lower value.token

/-- The value of a key, or a default where the key is missing. -/
def fieldD (d : List (String × Json)) (key : String) (default : Json) : Json :=
  (Dict.get? d key).getD default

@[simp] theorem fieldD_cons (k : String) (v : Json) (d : List (String × Json)) (key : String)
    (default : Json) :
    fieldD ((k, v) :: d) key default = if k = key then v else fieldD d key default := by
  rw [fieldD, Dict.get?_cons]
  split_ifs <;> rfl

/-- `ConfigurationCommandDto`: the two keys every configuration has. -/
structure CommandKeys where
  commandCode : String
  commandType : CommandType
  code_normal : normalizeCommandCode (.str commandCode) = commandCode
  code_ne : commandCode ≠ ""

theorem CommandKeys.eq_iff {a b : CommandKeys} :
    a = b ↔ a.commandCode = b.commandCode ∧ a.commandType = b.commandType := by
  obtain ⟨code, type, hnormal, hne⟩ := a
  obtain ⟨code', type', hnormal', hne'⟩ := b
  constructor
  · intro h
    rw [h]
    exact ⟨rfl, rfl⟩
  · rintro ⟨hcode, htype⟩
    dsimp only at hcode htype
    subst hcode htype
    rfl

instance : DecidableEq CommandKeys := fun _ _ => decidable_of_iff _ CommandKeys.eq_iff.symm

namespace CommandKeys

/-- `validate_command_keys`, with the defaults a subclass declares. -/
def create (d : List (String × Json)) (defaultCode : Json) (defaultType : CommandType) :
    Except String CommandKeys := do
  let code ← strField (fieldD d "commandCode" defaultCode)
  let type ← strField (fieldD d "commandType" (.str defaultType.value))
  if h : normalizeCommandCode (.str code) = "" then
    .error "commandCode is required."
  else
    match CommandType.ofString? (normalizeCommandType (.str type)) with
    | some type => return ⟨normalizeCommandCode (.str code), type, normalizeCommandCode_idem _, h⟩
    | none => .error "commandType must be one of: context, action, assert."

/-- The keys of a dump. -/
def modelDump (k : CommandKeys) : List (String × Json) :=
  [("commandCode", .str k.commandCode), ("commandType", .str k.commandType.value)]

@[simp] theorem normalizeCommandType_value (t : CommandType) :
    CommandType.ofString? (normalizeCommandType (.str t.value)) = some t := by
  cases t <;> decide

/-- A code is not blank. -/
theorem strip_commandCode_ne (k : CommandKeys) : strip k.commandCode ≠ "" := by
  intro h
  have hnormal := k.code_normal
  rw [normalizeCommandCode, Json.token_str, h] at hnormal
  exact k.code_ne hnormal.symm

/-- The keys are read back from an object that opens with them. -/
@[simp] theorem create_modelDump (k : CommandKeys) (d : List (String × Json)) (defaultCode : Json)
    (defaultType : CommandType) :
    create (("commandCode", .str k.commandCode) :: ("commandType", .str k.commandType.value) :: d)
      defaultCode defaultType = .ok k := by
  have hcode : normalizeCommandCode (.str k.commandCode) ≠ "" := by
    rw [k.code_normal]
    exact k.code_ne
  simp only [create, fieldD_cons, if_true, strField, ok_bind, dif_neg hcode]
  rw [if_neg (by decide)]
  simp [k.code_normal]

end CommandKeys

/-! ### Target paths -/

/-- `_normalize_target_path`. -/
def normalizeTargetPath (value : String) : Option String :=
  let raw := strip value
  if raw = "" then none
  else if startsWith raw "$." then some raw
  else if startsWith raw "$" then some ("$." ++ lstripChar '.' (dropChars 1 raw))
  else some ("$." ++ lstripChar '.' raw)

/-- A path put together from `$.` and the end of a stripped text is stripped. -/
theorem strip_dollar_suffix {raw : String} (h : strip raw = raw) {cs : List Char}
    (hcs : cs <:+ raw.toList) :
    strip (String.ofList ('$' :: '.' :: cs)) = String.ofList ('$' :: '.' :: cs) := by
  refine strip_eq_self (by decide) ?_
  rcases eq_or_ne cs [] with rfl | hne
  · decide
  · have hraw : raw.toList ≠ [] := by
      rintro hnil
      rw [hnil, List.suffix_nil] at hcs
      exact hne hcs
    rw [List.getLast_cons (by simp), List.getLast_cons hne]
    obtain ⟨pre, hpre⟩ := hcs
    have hlast := getLast_not_space h hraw
    simp only [← hpre] at hlast
    rwa [List.getLast_append_of_ne_nil _ hne] at hlast

/-- A normalised path is left alone. -/
theorem normalizeTargetPath_idem {value path : String} (h : normalizeTargetPath value = some path) :
    normalizeTargetPath path = some path := by
  have hstable : ∀ cs : List Char, cs <:+ (strip value).toList →
      normalizeTargetPath (String.ofList ('$' :: '.' :: cs))
        = some (String.ofList ('$' :: '.' :: cs)) := by
    intro cs hcs
    rw [normalizeTargetPath, strip_dollar_suffix (strip_strip value) hcs, if_neg (by simp),
      if_pos (by simp [startsWith])]
  have hcons : ∀ s : String, "$." ++ s = String.ofList ('$' :: '.' :: s.toList) := by
    intro s
    rw [← String.toList_inj]
    simp
  unfold normalizeTargetPath at h
  simp only at h
  split_ifs at h with h1 h2 h3
  · obtain rfl := Option.some.inj h
    rw [normalizeTargetPath, strip_strip, if_neg h1, if_pos h2]
  · obtain rfl := Option.some.inj h
    rw [hcons]
    refine hstable _ ?_
    rw [lstripChar, dropChars, String.toList_ofList, String.toList_ofList]
    exact (List.dropWhile_suffix _).trans (List.drop_suffix _ _)
  · obtain rfl := Option.some.inj h
    rw [hcons]
    refine hstable _ ?_
    rw [lstripChar, String.toList_ofList]
    exact List.dropWhile_suffix _

/-- A path that `_normalize_target_path` returns. -/
structure TargetPath where
  path : String
  normal : normalizeTargetPath path = some path
deriving DecidableEq

namespace TargetPath

/-- `_normalize_target_path`, with what it guarantees. -/
def ofString? (value : String) : Option TargetPath :=
  match h : normalizeTargetPath value with
  | none => none
  | some path => some ⟨path, normalizeTargetPath_idem h⟩

@[simp] theorem ofString?_path (t : TargetPath) : ofString? t.path = some t := by
  unfold ofString?
  split
  · rename_i h
    rw [t.normal] at h
    simp at h
  · rename_i path h
    rw [t.normal] at h
    obtain rfl := Option.some.inj h
    rfl

/-- A field declared `str | None` and normalised so. -/
def field (x : Json) : Except String (Option TargetPath) := do
  return ofString? ((← optStrField x).getD "")

@[simp] theorem field_null : field .null = .ok none := rfl

@[simp] theorem field_path (t : TargetPath) : field (.str t.path) = .ok (some t) := by
  simp [field, optStrField]

end TargetPath

/-! ### Comparison keys -/

/-- A field declared `list[str]`. -/
def strListField : Json → Except String (List String)
  | .arr xs => xs.mapM strField
  | _ => .error "Input should be a valid list"

@[simp] theorem strListField_map (xs : List String) :
    strListField (.arr (xs.map Json.str)) = .ok xs :=
  mapM_map_ok fun _ _ => rfl

/-- The dump of a list of normalised texts. -/
def dumpTokens (ts : List Token) : Json := .arr ((ts.map Token.val).map Json.str)

@[simp] theorem strListField_dumpTokens (ts : List Token) :
    strListField (dumpTokens ts) = .ok (ts.map Token.val) :=
  strListField_map _

/-- The items of a list that are not blank, normalised. -/
def nonBlankTokens (xs : List String) : List Token := xs.filterMap Token.ofString?

@[simp] theorem nonBlankTokens_map_val (ts : List Token) :
    nonBlankTokens (ts.map Token.val) = ts := by
  induction ts with
  | nil => rfl
  | cons t ts ih =>
    rw [nonBlankTokens, List.map_cons, List.filterMap_cons, Token.ofString?_val]
    exact congrArg (t :: ·) ih

/-- `_normalize_compare_keys`. -/
def normalizeCompareKeys : Json → List Token
  | .str s => nonBlankTokens (split ',' (replaceChar '\n' ',' (replaceChar ';' ',' s)))
  | .arr xs => nonBlankTokens (xs.map Json.token)
  | _ => []

/-- `_normalize_compare_keys(value) or None`, where it is not `None`. -/
structure CompareKeys where
  keys : List Token
  ne_nil : keys ≠ []
deriving DecidableEq

namespace CompareKeys

/-- `keys or None`. -/
def ofList (keys : List Token) : Option CompareKeys :=
  if h : keys ≠ [] then some ⟨keys, h⟩ else none

/-- A field declared `list[str] | None` and normalised so. -/
def field : Json → Except String (Option CompareKeys)
  | .null => .ok none
  | x => do return ofList (nonBlankTokens (← strListField x))

/-- The dump of an optional field. -/
def modelDump : Option CompareKeys → Json
  | none => .null
  | some k => dumpTokens k.keys

/-- A dumped list of keys is normalised to itself. -/
@[simp] theorem normalizeCompareKeys_dumpTokens (keys : List Token) :
    normalizeCompareKeys (dumpTokens keys) = keys := by
  have htoken : ((keys.map Token.val).map Json.str).map Json.token = keys.map Token.val := by
    rw [List.map_map, List.map_map]
    refine List.map_congr_left fun t _ => ?_
    show (Json.str t.val).token = t.val
    rw [Json.token_str, t.strip_val]
  rw [dumpTokens, normalizeCompareKeys, htoken, nonBlankTokens_map_val]

@[simp] theorem field_dumpTokens (keys : List Token) :
    field (dumpTokens keys) = .ok (ofList keys) := by
  show (do return ofList (nonBlankTokens (← strListField (dumpTokens keys)))) = _
  rw [strListField_dumpTokens, ok_bind, nonBlankTokens_map_val, pure_eq_ok]

@[simp] theorem ofList_keys (k : CompareKeys) : ofList k.keys = some k := dif_pos k.ne_nil

end CompareKeys

/-! ### Numbers -/

/-- The first integer that `float` raises on, for floats of `p` bits with exponents
below `e`: half a unit in the last place above the largest one. -/
def floatBound (p e : ℕ) : ℕ := 2 ^ (e - p - 1) * (2 ^ (p + 1) - 1)

theorem le_floatBound (p e : ℕ) : 2 ^ (p + 1) - 1 ≤ floatBound p e :=
  Nat.le_mul_of_pos_left _ (Nat.two_pow_pos _)

/-- The bound of a `float`. -/
def floatLimit : ℕ := floatBound 53 1024

theorem thirty_lt_floatLimit : (30 : ℤ) < floatLimit := by
  have h := le_floatBound 53 1024
  unfold floatLimit
  omega

/-- A time limit that passes the check `float(value) > 0`. -/
inductive Timeout where
  | int (n : ℤ) (pos : 0 < n) (lt : n < floatLimit)
  | float (q : ℚ) (pos : 0 < q)

namespace Timeout

/-- The default of the field. -/
def default : Timeout := .int 30 (by decide) thirty_lt_floatLimit

def modelDump : Timeout → Json
  | .int n _ _ => .int n
  | .float q _ => .float q

/-- A text of digits with a decimal point. -/
def floatOfString? (s : String) : Option ℚ :=
  match split '.' (strip s) with
  | [whole, fraction] => do
    let digits ← if whole = "" ∧ fraction = "" then none else intOfDigits (whole ++ fraction)
    return (digits : ℚ) / (10 : ℚ) ^ fraction.length
  | _ => none

/-- The check `float(value) <= 0` raises on. -/
def ofInt (n : ℤ) : Except String Timeout :=
  if pos : 0 < n then
    if lt : n < floatLimit then .ok (.int n pos lt) else .error "int too large to convert to float"
  else .error "timeoutSeconds must be > 0."

def ofFloat (q : ℚ) : Except String Timeout :=
  if pos : 0 < q then .ok (.float q pos) else .error "timeoutSeconds must be > 0."

/-- A field declared `int | float | None`, and the check on it. -/
def field : Json → Except String (Option Timeout)
  | .null => .ok none
  | .int n => some <$> ofInt n
  | .float q => some <$> ofFloat q
  | x =>
    match x, intField x with
    | _, .ok n => some <$> ofInt n
    | .str s, .error _ =>
      match floatOfString? s with
      | some q => some <$> ofFloat q
      | none => .error "Input should be a valid number"
    | _, .error e => .error e

@[simp] theorem field_modelDump (t : Timeout) : field t.modelDump = .ok (some t) := by
  cases t with
  | int n pos lt => rw [modelDump, field, ofInt, dif_pos pos, dif_pos lt, map_ok]
  | float q pos => simp [modelDump, field, ofFloat, pos]

/-- A time limit is a number other than zero. -/
theorem truthy_modelDump (t : Timeout) : t.modelDump.truthy = true := by
  cases t with
  | int n pos lt => simp [modelDump, Json.truthy, pos.ne']
  | float q pos => simp [modelDump, Json.truthy, pos.ne']

end Timeout

/-! ### Message templates -/

/-- The kinds of `SendMessageTemplateConstantDto` whose value is left alone. -/
inductive PlainConstantKind where
  | string
  | number
  | date
  | datetime
  | boolean
deriving DecidableEq

namespace PlainConstantKind

def value : PlainConstantKind → String
  | .string => "string"
  | .number => "number"
  | .date => "date"
  | .datetime => "datetime"
  | .boolean => "boolean"

def ofString? (s : String) : Option PlainConstantKind :=
  [string, number, date, datetime, boolean].find? fun k => k.value = s

end PlainConstantKind

/-- `SendMessageTemplateConstantDto`: its kind decides what its value may be. -/
inductive SendMessageTemplateConstantDto where
  | ofPlain (name : Token) (kind : PlainConstantKind) (value : Json)
  | ofVariable (name : Token) (value : Token)
  | ofFunction (name : Token) (value : RuntimeFunction)

namespace SendMessageTemplateConstantDto

/-- The normalised kind: two aliases, and lower case. -/
def normalizeKind (kind : String) : String :=
  let kind := lower (strip kind)
  if kind = "str" then "string" else if kind = "booleano" then "boolean" else kind

/-- `validate_constant`. -/
def create (d : List (String × Json)) : Except String SendMessageTemplateConstantDto := do
  let name ← strField (Json.field d "name")
  let kind ← strField (Json.field d "kind")
  let value := Json.field d "value"
  let kind := normalizeKind kind
  let name ← requireToken "messageTemplate.constants[].name is required." name
  if kind = "variable" then
    return .ofVariable name (← requireToken
      "messageTemplate.constants[].value is required for variable constants." value.token)
  else if kind = "function" then
    match RuntimeFunction.ofString? (lower value.token) with
    | some f => return .ofFunction name f
    | none => .error "messageTemplate.constants[].value must be one of: now, today."
  else
    match PlainConstantKind.ofString? kind with
    | some k => return .ofPlain name k value
    | none => .error ("messageTemplate.constants[].kind must be one of: string, number, date, "
        ++ "datetime, boolean, variable, function.")

def modelDump : SendMessageTemplateConstantDto → Json
  | .ofPlain n k v => .obj [("name", .str n.val), ("kind", .str k.value), ("value", v)]
  | .ofVariable n v => .obj [("name", .str n.val), ("kind", .str "variable"), ("value", .str v.val)]
  | .ofFunction n f => .obj [("name", .str n.val), ("kind", .str "function"), ("value", .str f.value)]

/-- An item declared `SendMessageTemplateConstantDto`. -/
def item : Json → Except String SendMessageTemplateConstantDto
  | .obj d => create d
  | _ => .error "Input should be a valid dictionary"

theorem item_modelDump (c : SendMessageTemplateConstantDto) : item c.modelDump = .ok c := by
  cases c with
  | ofPlain n k v => cases k <;> simp [modelDump, item, create, Json.field, strField] <;> rfl
  | ofVariable n v =>
    simp [modelDump, item, create, Json.field, strField, v.strip_val,
      show normalizeKind "variable" = "variable" from rfl]
  | ofFunction n f =>
    have hf : RuntimeFunction.ofString? (lower (strip f.value)) = some f := by cases f <;> rfl
    simp [modelDump, item, create, Json.field, strField, hf,
      show normalizeKind "function" = "function" from rfl]

end SendMessageTemplateConstantDto

/-- `SendMessageTemplateDto`. -/
structure SendMessageTemplateDto where
  forEach : Option Token
  fields : List Token
  constants : List SendMessageTemplateConstantDto
  fields_nodup : fields.Nodup
  ne_nil : fields ≠ [] ∨ constants ≠ []

namespace SendMessageTemplateDto

/-- The loop that drops a field it has seen. -/
def dedup (fields : List Token) : List Token :=
  fields.foldl (fun acc f => if f ∈ acc then acc else acc ++ [f]) []

theorem nodup_foldl (fields acc : List Token) (h : acc.Nodup) :
    (fields.foldl (fun acc f => if f ∈ acc then acc else acc ++ [f]) acc).Nodup := by
  induction fields generalizing acc with
  | nil => exact h
  | cons f fields ih =>
    refine ih _ ?_
    show (if f ∈ acc then acc else acc ++ [f]).Nodup
    split_ifs with hf
    · exact h
    · rw [List.nodup_append]
      refine ⟨h, by simp, ?_⟩
      intro a ha b hb hab
      rw [List.mem_singleton] at hb
      rw [hab, hb] at ha
      exact hf ha

theorem nodup_dedup (fields : List Token) : (dedup fields).Nodup :=
  nodup_foldl fields [] List.nodup_nil

theorem foldl_of_nodup (fields acc : List Token) (h : (acc ++ fields).Nodup) :
    fields.foldl (fun acc f => if f ∈ acc then acc else acc ++ [f]) acc = acc ++ fields := by
  induction fields generalizing acc with
  | nil => simp
  | cons f fields ih =>
    have hf : f ∉ acc := by
      intro hmem
      rw [List.nodup_append] at h
      exact h.2.2 f hmem f List.mem_cons_self rfl
    rw [List.foldl_cons, if_neg hf, ih _ (by simpa using h), List.append_assoc,
      List.singleton_append]

/-- Distinct fields are all kept. -/
@[simp] theorem dedup_fields (t : SendMessageTemplateDto) : dedup t.fields = t.fields :=
  foldl_of_nodup t.fields [] (by simpa using t.fields_nodup)

/-- `validate_template`. -/
def create (d : List (String × Json)) : Except String SendMessageTemplateDto := do
  let forEach ← optStrField (Json.field d "forEach")
  let fields ← strListField (fieldD d "fields" (.arr []))
  let constants ← match fieldD d "constants" (.arr []) with
    | .arr xs => xs.mapM SendMessageTemplateConstantDto.item
    | _ => .error "Input should be a valid list"
  let fields := nonBlankTokens fields
  if h : dedup fields ≠ [] ∨ constants ≠ [] then
    return ⟨Token.ofString? (forEach.getD ""), dedup fields, constants, nodup_dedup fields, h⟩
  else
    .error "messageTemplate requires at least one field or constant."

def modelDump (t : SendMessageTemplateDto) : Json :=
  .obj [("forEach", .ofOption (t.forEach.map Token.val)),
    ("fields", dumpTokens t.fields),
    ("constants", .arr (t.constants.map SendMessageTemplateConstantDto.modelDump))]

/-- A field declared `SendMessageTemplateDto | None`. -/
def field : Json → Except String (Option SendMessageTemplateDto)
  | .null => .ok none
  | .obj d => some <$> create d
  | _ => .error "Input should be a valid dictionary"

/-- **A template is read back from its dump.** -/
@[simp] theorem field_modelDump (t : SendMessageTemplateDto) :
    field t.modelDump = .ok (some t) := by
  have hconstants : (t.constants.map SendMessageTemplateConstantDto.modelDump).mapM
      SendMessageTemplateConstantDto.item = .ok t.constants :=
    mapM_map_ok fun c _ => c.item_modelDump
  have hforEach : optStrField (.ofOption (t.forEach.map Token.val))
      = .ok (t.forEach.map Token.val) := by cases t.forEach <;> rfl
  have hback : Token.ofString? ((t.forEach.map Token.val).getD "") = t.forEach := by
    cases t.forEach with
    | none => rfl
    | some f => simp
  have hne := t.ne_nil
  simp [field, modelDump, create, Json.field, hforEach, hconstants, hback, hne]

end SendMessageTemplateDto

end Command
end QualityFlow
