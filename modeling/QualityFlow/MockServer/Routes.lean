/-
# Which route a request takes

The path of a route from its configuration to a request: the checks of
`MockServerApiConfigurationDto` in `app/mock_servers/models/dtos/mock_server_dto.py`, the row
`_build_api_entity` of `app/mock_servers/services/alembic/mock_server_payload_service.py`
writes, the route `load_runtime_server` of
`app/mock_servers/services/runtime/mock_runtime_loader.py` makes of it, and
`_find_matching_api_route` of
`app/mock_servers/services/runtime/mock_runtime_dispatcher.py`.

`_normalize_path`, which the three of them have alike, strips spaces first and slashes after,
and looks at the length before the slashes are gone.  A path that ends in a space before its
slashes, and one of two or more slashes, is not in the form that it makes.
-/

import Mathlib.Data.List.DropRight
import Mathlib.Data.List.Sort
import QualityFlow.MockServer.Bodies
import QualityFlow.Py.Except

namespace QualityFlow
namespace MockServer

open Py

/-! ### Paths -/

/-- `_normalize_path`. -/
def normalizePath (path : String) : String :=
  let raw := strip path
  if raw = "" then "/"
  else
    let raw := if startsWith raw "/" then raw else "/" ++ raw
    if 1 < raw.length then rstripChar '/' raw else raw

/-- A path whose slashes at the end follow neither a space nor, where there are several of
them, nothing at all. -/
def Tidy (path : String) : Prop :=
  strip path = "" ∨ strip path = "/" ∨
    ∃ cs c n, (strip path).toList = cs ++ c :: List.replicate n '/' ∧ c ≠ '/' ∧
      isSpace c = false

/-! ### Routes -/

/-- `MockServerApiConfigurationDto`. -/
structure MockServerApiConfigurationDto where
  method : String
  path : String
  params : Option (Dict String Json)
  authMode : Option String
  headers : Option (Dict String Json)
  body : Json
  bodyMatch : Option String
  preResponseCommands : Option (List (Dict String Json))
  postResponseCommands : Option (List (Dict String Json))
  priority : ℤ

/-- The methods a route can have. -/
def methods : List String := ["GET", "POST", "PUT", "DELETE", "PATCH", "HEAD", "OPTIONS"]

/-- `text or default`. -/
def orText (text : Option String) (default : String) : String :=
  match text with
  | none => default
  | some s => if s = "" then default else s

/-- `validate_configuration`. -/
def validateConfiguration (dto : MockServerApiConfigurationDto) :
    Except String MockServerApiConfigurationDto :=
  let method := upper (strip dto.method)
  let authMode := strip (orText dto.authMode "inherit")
  let bodyMatch := lower (strip (orText dto.bodyMatch "contains"))
  if method ∉ methods then .error ("Unsupported method '" ++ method ++ "'.")
  else if authMode ∉ ["inherit", "none", "custom"] then
    .error "authMode must be 'inherit', 'none' or 'custom'."
  else if bodyMatch ∉ ["contains", "equals"] then
    .error "body_match must be 'contains' or 'equals'."
  else .ok { dto with
    method, path := normalizePath dto.path, authMode := some authMode
    bodyMatch := some bodyMatch }

/-- `MockServerApiEntity`, with the configuration it holds. -/
structure MockServerApiEntity where
  id : String
  order : ℤ
  method : String
  path : String
  configurationJson : MockServerApiConfigurationDto

/-- `_build_api_entity`, with the `id` the row is given. -/
def buildApiEntity (id : String) (order : ℤ) (cfg : MockServerApiConfigurationDto) :
    MockServerApiEntity where
  id
  order
  method := upper (strip cfg.method)
  path := strip cfg.path
  configurationJson := cfg

/-- The route `load_runtime_server` makes of a row whose commands it can read. -/
def loadRoute (entity : MockServerApiEntity) : MockApiRoute :=
  let apiCfg := entity.configurationJson
  { id := entity.id
    order := entity.order
    method := upper (strip (orText (some entity.method) (orText (some apiCfg.method) "GET")))
    path := normalizePath (orText (some entity.path) apiCfg.path)
    params := apiCfg.params.getD []
    headers := apiCfg.headers.getD []
    body := apiCfg.body
    bodyMatch := lower (strip (orText apiCfg.bodyMatch "contains"))
    priority := apiCfg.priority }

/-- The order of the routes of a server. -/
def MockApiRoute.le (a b : MockApiRoute) : Prop :=
  a.priority < b.priority ∨ a.priority = b.priority ∧
    (a.order < b.order ∨ a.order = b.order ∧ a.id ≤ b.id)

instance : DecidableRel MockApiRoute.le := fun _ _ => inferInstanceAs (Decidable (_ ∨ _))

/-- The routes of `load_runtime_server`. -/
def loadRoutes (entities : List MockServerApiEntity) : List MockApiRoute :=
  (entities.map loadRoute).insertionSort MockApiRoute.le

/-! ### Requests -/

/-- `{str(key).strip().lower(): value for key, value in d.items()}`. -/
def lowerKeys {α : Type} (d : Dict String α) : Dict String α :=
  d.foldl (fun d kv => d.set (lower (strip kv.1)) kv.2) []

/-- `_map_matches`. -/
def mapMatches (expectedMap : Dict String Json) (actualMap : Dict String String)
    (normalizeKeys : Bool) : Bool :=
  let sourceMap := if normalizeKeys then lowerKeys actualMap else actualMap
  expectedMap.all fun kv =>
    let lookupKey := if normalizeKeys then lower (strip kv.1) else kv.1
    sourceMap.get? lookupKey = some kv.2.pyStr

/-- The test `route.path != normalized_path`. -/
def pathMatches (route : MockApiRoute) (path : String) : Bool := route.path = normalizePath path

/-- `_find_matching_api_route`. -/
def findMatchingApiRoute (apis : List MockApiRoute) (method path : String)
    (queryParams headers : Dict String String) (bodyJson : Json) (bodyRaw : String) :
    Option MockApiRoute :=
  let normalizedMethod := upper (strip method)
  let normalizedHeaders := lowerKeys headers
  apis.find? fun route =>
    route.method = normalizedMethod && pathMatches route path &&
      mapMatches route.params queryParams false &&
      mapMatches route.headers normalizedHeaders true && bodyMatches route bodyJson bodyRaw

/-! ### What is left of a path -/

theorem rdropWhile_append_replicate (a : Char) (cs : List Char) (n : ℕ) :
    (cs ++ List.replicate n a).rdropWhile (· == a) = cs.rdropWhile (· == a) := by
  induction n with
  | zero => rw [List.replicate_zero, List.append_nil]
  | succ n ih =>
    have hbeq : (a == a) = true := beq_self_eq_true a
    rw [List.replicate_succ', ← List.append_assoc,
      List.rdropWhile_concat_pos (fun x => x == a) _ _ hbeq, ih]

theorem rdropWhile_append_cons {a c : Char} (hc : c ≠ a) (cs : List Char) (n : ℕ) :
    (cs ++ c :: List.replicate n a).rdropWhile (· == a) = cs ++ [c] := by
  have hbeq : ¬(c == a) = true := by simpa using hc
  rw [← List.singleton_append, ← List.append_assoc, rdropWhile_append_replicate,
    List.rdropWhile_concat_neg (fun x => x == a) _ _ hbeq]

/-- A text is a row of one character, or ends in one after another character. -/
theorem exists_replicate_or (a : Char) (cs : List Char) :
    (∃ n, cs = List.replicate n a) ∨ ∃ ds c n, cs = ds ++ c :: List.replicate n a ∧ c ≠ a := by
  induction cs using List.reverseRecOn with
  | nil => exact .inl ⟨0, rfl⟩
  | append_singleton cs c ih =>
    by_cases hc : c = a
    · subst hc
      rcases ih with ⟨n, rfl⟩ | ⟨ds, d, n, rfl, hd⟩
      · exact .inl ⟨n + 1, List.replicate_succ'.symm⟩
      · refine .inr ⟨ds, d, n + 1, ?_, hd⟩
        rw [List.replicate_succ', List.append_assoc, List.cons_append]
    · exact .inr ⟨cs, c, 0, by simp, hc⟩

theorem strip_normalizePath_arg (path : String) :
    normalizePath (strip path) = normalizePath path := by
  unfold normalizePath
  rw [strip_strip]

theorem normalizePath_of_root {path : String} (h : strip path = "" ∨ strip path = "/") :
    normalizePath path = "/" := by
  unfold normalizePath
  rcases h with h | h
  · simp [h]
  · rw [h]
    decide

theorem startsWith_slash_iff {s : String} :
    startsWith s "/" = true ↔ ∃ cs, s.toList = '/' :: cs := by
  unfold startsWith
  have hslash : "/".toList = ['/'] := rfl
  rw [hslash]
  cases s.toList with
  | nil => simp [List.isPrefixOf]
  | cons c cs =>
    simp only [List.isPrefixOf, Bool.and_true, beq_iff_eq, List.cons.injEq, exists_eq_right']
    exact eq_comm

/-- Two or more slashes are all taken off. -/
theorem normalizePath_of_slashes {path : String} {n : ℕ} (h : 2 ≤ n)
    (hpath : (strip path).toList = List.replicate n '/') : normalizePath path = "" := by
  obtain ⟨m, rfl⟩ : ∃ m, n = m + 2 := ⟨n - 2, by omega⟩
  have hne : strip path ≠ "" := by
    intro heq
    rw [heq] at hpath
    simp [List.replicate_succ] at hpath
  have hslash : startsWith (strip path) "/" = true :=
    startsWith_slash_iff.2 ⟨List.replicate (m + 1) '/', hpath⟩
  have hlength : 1 < (strip path).length := by
    rw [← String.length_toList, hpath, List.length_replicate]
    omega
  unfold normalizePath
  simp only [hne, hslash, hlength, if_true, if_false]
  rw [rstripChar, hpath]
  have hnil := rdropWhile_append_replicate '/' [] (m + 2)
  rw [List.nil_append, List.rdropWhile_nil] at hnil
  rw [hnil]

/-- Elsewhere the slashes at the end are taken off, and one stands at the start. -/
theorem normalizePath_of_segment {path : String} {cs : List Char} {c : Char} {n : ℕ}
    (hpath : (strip path).toList = cs ++ c :: List.replicate n '/') (hc : c ≠ '/') :
    ∃ ds, (normalizePath path).toList = '/' :: (ds ++ [c]) := by
  have hne : strip path ≠ "" := by
    intro heq
    rw [heq] at hpath
    simp at hpath
  by_cases hslash : startsWith (strip path) "/" = true
  · obtain ⟨es, hes⟩ := startsWith_slash_iff.1 hslash
    cases cs with
    | nil =>
      rw [hes, List.nil_append] at hpath
      exact absurd (List.cons.inj hpath).1.symm hc
    | cons d ds =>
      rw [hes, List.cons_append] at hpath
      obtain ⟨rfl, hrest⟩ := List.cons.inj hpath
      have hlength : 1 < (strip path).length := by
        rw [← String.length_toList, hes, hrest]
        simp
      refine ⟨ds, ?_⟩
      unfold normalizePath
      simp only [hne, hslash, hlength, if_true, if_false]
      rw [rstripChar, String.toList_ofList, hes, hrest, ← List.cons_append,
        rdropWhile_append_cons hc, List.cons_append]
  · have hlist : ("/" ++ strip path).toList = ('/' :: cs) ++ c :: List.replicate n '/' := by
      rw [String.toList_append, hpath]
      rfl
    have hlength : 1 < ("/" ++ strip path).length := by
      rw [← String.length_toList, hlist]
      simp
    refine ⟨cs, ?_⟩
    unfold normalizePath
    simp only [hne, hslash, hlength, if_true, if_false, Bool.false_eq_true]
    rw [rstripChar, String.toList_ofList, hlist, rdropWhile_append_cons hc, List.cons_append]

/-- A path that opens with a slash and ends in none is kept unless it ends in a space. -/
theorem normalizePath_eq_self_iff {path : String} {cs : List Char} {c : Char}
    (hpath : path.toList = '/' :: (cs ++ [c])) (hc : c ≠ '/') :
    normalizePath path = path ↔ isSpace c = false := by
  have hslash : isSpace '/' = false := by decide
  have hdrop : strip path = String.ofList (('/' :: (cs ++ [c])).rdropWhile isSpace) := by
    rw [strip, hpath, List.dropWhile_cons_of_neg (by simp [hslash])]
  rw [← List.cons_append] at hdrop hpath
  by_cases hspace : isSpace c = true
  · -- the space is stripped, and nothing is put in its place
    rw [List.rdropWhile_concat_pos _ _ _ hspace] at hdrop
    have hshort : (strip path).length < path.length := by
      have hle : (('/' :: cs).rdropWhile isSpace).length ≤ ('/' :: cs).length :=
        (List.rdropWhile_prefix isSpace _).length_le
      rw [← String.length_toList, ← String.length_toList, hdrop, String.toList_ofList, hpath,
        List.length_append]
      simpa [Nat.lt_succ_iff] using hle
    have hhead : ∃ ds, (strip path).toList = '/' :: ds := by
      have happend : path = "/" ++ String.ofList (cs ++ [c]) := by
        apply String.toList_injective
        rw [hpath, String.toList_append, String.toList_ofList (l := cs ++ [c]), List.cons_append]
        rfl
      have hopen : "/".toList = ['/'] := rfl
      have hfirst := head?_strip_append hopen hslash (String.ofList (cs ++ [c]))
      rw [← happend] at hfirst
      exact List.head?_eq_some_iff.1 hfirst
    have hne : strip path ≠ "" := by
      rintro heq
      obtain ⟨ds, hds⟩ := hhead
      rw [heq] at hds
      simp at hds
    have hlength : (normalizePath path).length ≤ (strip path).length := by
      unfold normalizePath
      simp only [hne, startsWith_slash_iff.2 hhead, if_true, if_false]
      split_ifs
      · rw [rstripChar, ← String.length_toList, String.toList_ofList, ← String.length_toList]
        exact (List.rdropWhile_prefix _ _).length_le
      · exact le_rfl
    have hne' : normalizePath path ≠ path := by
      intro heq
      rw [heq] at hlength
      omega
    simp [hspace, hne']
  · have hnot : isSpace c = false := by simpa using hspace
    rw [List.rdropWhile_concat_neg _ _ _ hspace] at hdrop
    have hsame : strip path = path := by
      rw [hdrop, ← hpath, String.ofList_toList]
    have hne : path ≠ "" := by
      rintro rfl
      simp at hpath
    have hstart : startsWith path "/" = true := startsWith_slash_iff.2 ⟨cs ++ [c], hpath⟩
    have hlength : 1 < path.length := by
      rw [← String.length_toList, hpath]
      simp
    have hkept : rstripChar '/' path = path := by
      have hfull := rdropWhile_append_cons hc ('/' :: cs) 0
      rw [rstripChar, hpath]
      rw [List.replicate_zero] at hfull
      rw [hfull, ← hpath, String.ofList_toList]
    refine iff_of_true ?_ hnot
    unfold normalizePath
    simp only [hsame, hne, hstart, hlength, if_true, if_false, hkept]

/-- **Normalizing once more changes nothing just where the path is tidy.** -/
theorem normalizePath_idem_iff (path : String) :
    normalizePath (normalizePath path) = normalizePath path ↔ Tidy path := by
  rcases exists_replicate_or '/' (strip path).toList with ⟨n, hn⟩ | ⟨cs, c, n, hn, hc⟩
  · by_cases hshort : n < 2
    · have hroot : strip path = "" ∨ strip path = "/" := by
        have hn' : n = 0 ∨ n = 1 := by omega
        rcases hn' with rfl | rfl
        · exact .inl (String.toList_injective hn)
        · exact .inr (String.toList_injective hn)
      have htidy : Tidy path := hroot.imp_right .inl
      rw [normalizePath_of_root hroot]
      exact iff_of_true (by decide) htidy
    · have hempty : normalizePath path = "" := normalizePath_of_slashes (by omega) hn
      have hmoved : ¬normalizePath "" = "" := by decide
      rw [hempty]
      refine iff_of_false hmoved ?_
      rintro (h | h | ⟨ds, d, m, hd, hne, -⟩)
      · rw [h] at hn
        have := congrArg List.length hn
        simp at this
        omega
      · rw [h] at hn
        have := congrArg List.length hn
        simp at this
        omega
      · have hmem : d ∈ List.replicate n '/' := by
          rw [← hn, hd]
          simp
        exact hne (List.eq_of_mem_replicate hmem)
  · obtain ⟨ds, hds⟩ := normalizePath_of_segment hn hc
    rw [normalizePath_eq_self_iff hds hc]
    constructor
    · intro hspace
      exact .inr (.inr ⟨cs, c, n, hn, hc, hspace⟩)
    · rintro (h | h | ⟨es, d, m, hd, hne, hspace⟩)
      · rw [h] at hn
        simp at hn
      · have hlast := rdropWhile_append_cons hc cs n
        rw [← hn, h] at hlast
        simp [List.rdropWhile] at hlast
      · have hlast := rdropWhile_append_cons hc cs n
        rw [← hn, hd, rdropWhile_append_cons hne] at hlast
        obtain ⟨-, rfl⟩ := List.append_inj' hlast rfl |>.imp_right List.singleton_inj.1
        exact hspace

/-! ### From the configuration to the request -/

theorem path_of_validateConfiguration {dto cfg : MockServerApiConfigurationDto}
    (h : validateConfiguration dto = .ok cfg) : cfg.path = normalizePath dto.path := by
  unfold validateConfiguration at h
  dsimp only at h
  split_ifs at h
  obtain rfl := Except.ok.inj h
  rfl

theorem normalizePath_orText (path : String) :
    normalizePath (orText (some (strip path)) path) = normalizePath path := by
  unfold orText
  by_cases hempty : strip path = ""
  · simp only [hempty, if_true]
  · simp only [hempty, if_false]
    exact strip_normalizePath_arg path

/-- A stored path is normalized a second time when it is loaded. -/
theorem path_loadRoute (id : String) (order : ℤ) (cfg : MockServerApiConfigurationDto) :
    (loadRoute (buildApiEntity id order cfg)).path = normalizePath cfg.path := by
  simp only [loadRoute, buildApiEntity, normalizePath_orText]

/-- The path test of a route agrees with the normal forms of the configured path and of the
requested one, these are normal forms, and a route answers for the path it was given. -/
def PathsAgree (path : String) (route : MockApiRoute) : Prop :=
  (∀ q, pathMatches route q = true ↔ normalizePath path = normalizePath q) ∧
    normalizePath (normalizePath path) = normalizePath path ∧ pathMatches route path = true

/-- **A configured route answers for its path just where the path is tidy.** -/
theorem pathsAgree_iff {dto cfg : MockServerApiConfigurationDto}
    (h : validateConfiguration dto = .ok cfg) (id : String) (order : ℤ) :
    PathsAgree dto.path (loadRoute (buildApiEntity id order cfg)) ↔ Tidy dto.path := by
  have hloaded : (loadRoute (buildApiEntity id order cfg)).path
      = normalizePath (normalizePath dto.path) := by
    rw [path_loadRoute, path_of_validateConfiguration h]
  unfold PathsAgree pathMatches
  simp only [hloaded, decide_eq_true_eq]
  rw [← normalizePath_idem_iff]
  constructor
  · intro hagree
    exact hagree.2.1
  · intro hidem
    refine ⟨fun q => ?_, hidem, hidem⟩
    rw [hidem]

/-- A route on a path, with nothing else asked of a request. -/
def getDto (path : String) : MockServerApiConfigurationDto where
  method := "get"
  path
  params := none
  authMode := none
  headers := none
  body := .null
  bodyMatch := none
  preResponseCommands := none
  postResponseCommands := none
  priority := 0

/-- The route on a path, as it is stored. -/
def getCfg (path : String) : MockServerApiConfigurationDto :=
  { getDto path with method := "GET", path := normalizePath path, authMode := some "inherit"
                     bodyMatch := some "contains" }

theorem validateConfiguration_getDto (path : String) :
    validateConfiguration (getDto path) = .ok (getCfg path) := by
  have hmethod : upper (strip "get") = "GET" := by decide +kernel
  have hauth : strip (orText none "inherit") = "inherit" := by decide +kernel
  have hmatch : lower (strip (orText none "contains")) = "contains" := by decide +kernel
  have hget : "GET" ∈ methods := by decide
  simp [validateConfiguration, getDto, getCfg, hmethod, hauth, hmatch, hget]

theorem orders_pathsAgree :
    PathsAgree "orders/ " (loadRoute (buildApiEntity "1" 0 (getCfg "orders/ ")))
      ↔ Tidy "orders/ " :=
  pathsAgree_iff (validateConfiguration_getDto "orders/ ") "1" 0

/-- The route on two slashes is stored under no path and loaded as the root, which a request
for two slashes is not for. -/
theorem slashes_not_pathsAgree :
    validateConfiguration (getDto "//") = .ok (getCfg "//") ∧
      ¬PathsAgree "//" (loadRoute (buildApiEntity "1" 0 (getCfg "//"))) := by
  refine ⟨validateConfiguration_getDto "//", fun hagree => ?_⟩
  have hmissed : ¬pathMatches (loadRoute (buildApiEntity "1" 0 (getCfg "//"))) "//" = true := by
    decide +kernel
  exact hmissed hagree.2.2

/-- A request finds the route of its method and its path. -/
example : (findMatchingApiRoute [loadRoute (buildApiEntity "1" 0 (getCfg "orders/"))] "get"
    "/orders" [] [] .null "").isSome = true := by decide +kernel

end MockServer
end QualityFlow
