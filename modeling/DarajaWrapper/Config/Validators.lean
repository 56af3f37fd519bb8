import DarajaWrapper.Middleware.Http
import Mathlib.Data.List.DropRight

/-!
# The validators of the settings

A validator of `Settings` rewrites a value or refuses it. Those of a field run in the order
in which they are written, and the two of the whole model after all of them. The settings
that come out are well formed, and validating them again changes nothing.
-/

namespace DarajaWrapper

open Python

/-- The settings that a validator reads, with their defaults. -/
structure RawSettings where
  darajaBaseUrl : String := "https://sandbox.safaricom.co.ke"
  darajaShortcode : String
  darajaCallbackBaseUrl : String
  postgresUser : Option String := none
  postgresPassword : String
  postgresServer : Option String := none
  postgresPort : ℤ := 5432
  postgresDb : Option String := none
  databaseUrl : Option String := none
  databaseEcho : Bool := false
  trustCallbackIpsInSandbox : Bool := true
  environment : String := "development"
  deriving DecidableEq

def occursIn (needle s : String) : Bool :=
  s.toList.tails.any fun tail => needle.toList.isPrefixOf tail

def plainScheme : String := "postgresql://"

def asyncpgScheme : String := "postgresql+asyncpg://"

def fixAsyncpgScheme (v : String) : String :=
  if startswith v plainScheme then
    asyncpgScheme ++ String.ofList (v.toList.drop plainScheme.length)
  else v

/-- `must_use_asyncpg`, like every validator `none` where it raises `ValueError`. -/
def mustUseAsyncpg (v : String) : Option String :=
  if startswith v asyncpgScheme then some v else none

def databaseUrlField : Option String → Option (Option String)
  | none => some none
  | some v => (mustUseAsyncpg (fixAsyncpgScheme v)).map some

def stripTrailingSlash (v : String) : String := String.ofList (v.toList.rdropWhile (· == '/'))

/-- A plain address that is not of this machine. -/
def isRemoteHttp (v : String) : Bool :=
  startswith v "http://" && !occursIn "localhost" v && !occursIn "127.0.0.1" v

def mustBeHttpsInProd (v : String) : Option String := if isRemoteHttp v then none else some v

/-- `re.fullmatch(r"\d{5,7}", v)`. -/
def isShortcode (v : String) : Bool :=
  5 ≤ v.length && v.length ≤ 7 && v.toList.all isDecimal

def shortcodeMustBeNumeric (v : String) : Option String := if isShortcode v then some v else none

namespace RawSettings

/-- The parts that a database URL is built from. -/
def urlParts (s : RawSettings) : List String :=
  [s.postgresUser.getD "", s.postgresServer.getD "", s.postgresDb.getD "", s.postgresPassword]

def buildDatabaseUrl (s : RawSettings) : RawSettings :=
  if s.databaseUrl.getD "" = "" ∧ ∀ part ∈ s.urlParts, part ≠ "" then
    { s with
      databaseUrl := some (asyncpgScheme ++ s.postgresUser.getD "" ++ ":" ++ s.postgresPassword ++
        "@" ++ s.postgresServer.getD "" ++ ":" ++ toString s.postgresPort ++ "/" ++
        s.postgresDb.getD "") }
  else s

def prodSafetyChecks (s : RawSettings) : Option RawSettings :=
  if !occursIn "sandbox" s.darajaBaseUrl && s.trustCallbackIpsInSandbox then none
  else if s.environment = "production" ∧ s.databaseEcho = true then none
  else some s

/-- `Settings(...)`. -/
def validate (raw : RawSettings) : Option RawSettings := do
  let databaseUrl ← databaseUrlField raw.databaseUrl
  let darajaCallbackBaseUrl ← mustBeHttpsInProd (stripTrailingSlash raw.darajaCallbackBaseUrl)
  let darajaShortcode ← shortcodeMustBeNumeric raw.darajaShortcode
  prodSafetyChecks (buildDatabaseUrl
    { raw with
      darajaBaseUrl := stripTrailingSlash raw.darajaBaseUrl
      darajaCallbackBaseUrl, darajaShortcode, databaseUrl })

/-- What the program may rely on. -/
structure WellFormed (s : RawSettings) : Prop where
  baseUrl : s.darajaBaseUrl.toList.getLast? ≠ some '/'
  callbackBaseUrl : s.darajaCallbackBaseUrl.toList.getLast? ≠ some '/'
  callbackScheme : isRemoteHttp s.darajaCallbackBaseUrl = false
  shortcode : isShortcode s.darajaShortcode = true
  driver : ∀ url, s.databaseUrl = some url → startswith url asyncpgScheme = true
  /-- Without a URL there was nothing to build one from. -/
  parts : s.databaseUrl = none → ∃ part ∈ s.urlParts, part = ""
  allowlist : occursIn "sandbox" s.darajaBaseUrl = false → s.trustCallbackIpsInSandbox = false
  echo : s.environment = "production" → s.databaseEcho = false

end RawSettings

variable {v : String} {raw s : RawSettings}

theorem startswith_append (p rest : String) : startswith (p ++ rest) p = true := by
  rw [startswith, List.isPrefixOf_iff_prefix, String.toList_append]
  exact List.prefix_append _ _

theorem getLast?_ne_iff {cs : List Char} :
    cs.getLast? ≠ some '/' ↔ cs.rdropWhile (· == '/') = cs := by
  rw [List.rdropWhile_eq_self_iff]
  constructor
  · intro h hne hlast
    rw [List.getLast?_eq_some_getLast hne, beq_iff_eq.mp hlast] at h
    exact h rfl
  · intro h hlast
    have hne : cs ≠ [] := by
      rintro rfl
      cases hlast
    rw [List.getLast?_eq_some_getLast hne, Option.some.injEq] at hlast
    exact h hne (beq_iff_eq.mpr hlast)

theorem stripTrailingSlash_eq_self (h : v.toList.getLast? ≠ some '/') :
    stripTrailingSlash v = v := by
  rw [stripTrailingSlash, getLast?_ne_iff.mp h, String.ofList_toList]

theorem getLast?_stripTrailingSlash (v : String) :
    (stripTrailingSlash v).toList.getLast? ≠ some '/' := by
  rw [stripTrailingSlash, String.toList_ofList, getLast?_ne_iff, List.rdropWhile_idempotent]

theorem not_plainScheme (h : startswith v asyncpgScheme = true) :
    startswith v plainScheme = false := by
  by_contra hplain
  rw [Bool.not_eq_false] at hplain
  simp only [startswith, List.isPrefixOf_iff_prefix] at h hplain
  rcases List.prefix_or_prefix_of_prefix h hplain with hprefix | hprefix
  all_goals
    revert hprefix
    decide

theorem fixAsyncpgScheme_of_asyncpg (h : startswith v asyncpgScheme = true) :
    fixAsyncpgScheme v = v := by
  rw [fixAsyncpgScheme, not_plainScheme h]
  rfl

theorem mustUseAsyncpg_eq_some {w : String} (h : mustUseAsyncpg v = some w) :
    startswith w asyncpgScheme = true := by
  unfold mustUseAsyncpg at h
  split_ifs at h with hv
  cases h
  exact hv

theorem driver_of_databaseUrlField {url field : Option String}
    (h : databaseUrlField url = some field) :
    ∀ v, field = some v → startswith v asyncpgScheme = true := by
  rintro v rfl
  cases url with
  | none => cases h
  | some u =>
    obtain ⟨w, hw, heq⟩ := Option.map_eq_some_iff.mp h
    cases heq
    exact mustUseAsyncpg_eq_some hw

theorem databaseUrlField_of_driver {field : Option String}
    (h : ∀ v, field = some v → startswith v asyncpgScheme = true) :
    databaseUrlField field = some field := by
  cases field with
  | none => rfl
  | some v =>
    have hv := h v rfl
    rw [databaseUrlField, fixAsyncpgScheme_of_asyncpg hv, mustUseAsyncpg, if_pos hv]
    rfl

namespace RawSettings

theorem driver_buildDatabaseUrl
    (h : ∀ url, s.databaseUrl = some url → startswith url asyncpgScheme = true) :
    ∀ url, s.buildDatabaseUrl.databaseUrl = some url → startswith url asyncpgScheme = true := by
  unfold buildDatabaseUrl
  split_ifs
  · rintro url hurl
    cases hurl
    simp only [String.append_assoc]
    exact startswith_append _ _
  · exact h

theorem parts_buildDatabaseUrl (h : s.buildDatabaseUrl.databaseUrl = none) :
    ∃ part ∈ s.urlParts, part = "" := by
  unfold buildDatabaseUrl at h
  split_ifs at h with hbuilt
  by_contra hparts
  push Not at hparts
  exact hbuilt ⟨by rw [h]; rfl, hparts⟩

theorem buildDatabaseUrl_eq_self
    (hdriver : ∀ url, s.databaseUrl = some url → startswith url asyncpgScheme = true)
    (hparts : s.databaseUrl = none → ∃ part ∈ s.urlParts, part = "") :
    s.buildDatabaseUrl = s := by
  unfold buildDatabaseUrl
  rw [if_neg]
  rintro ⟨hempty, hfull⟩
  cases hurl : s.databaseUrl with
  | none =>
    obtain ⟨part, hpart, rfl⟩ := hparts hurl
    exact hfull "" hpart rfl
  | some url =>
    rw [hurl, Option.getD_some] at hempty
    have hscheme := hdriver url hurl
    rw [hempty] at hscheme
    revert hscheme
    decide

theorem prodSafetyChecks_eq_some_iff {t : RawSettings} :
    s.prodSafetyChecks = some t ↔ t = s ∧
      (occursIn "sandbox" s.darajaBaseUrl = false → s.trustCallbackIpsInSandbox = false) ∧
      (s.environment = "production" → s.databaseEcho = false) := by
  unfold prodSafetyChecks
  cases occursIn "sandbox" s.darajaBaseUrl <;> cases s.trustCallbackIpsInSandbox <;>
    cases s.databaseEcho <;> by_cases henv : s.environment = "production" <;>
    simp [henv, eq_comm]

theorem validate_eq_some_iff :
    raw.validate = some s ↔ ∃ databaseUrl, databaseUrlField raw.databaseUrl = some databaseUrl ∧
      isRemoteHttp (stripTrailingSlash raw.darajaCallbackBaseUrl) = false ∧
      isShortcode raw.darajaShortcode = true ∧
      prodSafetyChecks (buildDatabaseUrl
        { raw with
          darajaBaseUrl := stripTrailingSlash raw.darajaBaseUrl
          darajaCallbackBaseUrl := stripTrailingSlash raw.darajaCallbackBaseUrl
          databaseUrl }) = some s := by
  unfold validate mustBeHttpsInProd shortcodeMustBeNumeric
  cases databaseUrlField raw.databaseUrl with
  | none => simp
  | some field =>
    cases isRemoteHttp (stripTrailingSlash raw.darajaCallbackBaseUrl) with
    | true => simp
    | false => cases isShortcode raw.darajaShortcode <;> simp

theorem buildDatabaseUrl_eq :
    s.buildDatabaseUrl = { s with databaseUrl := s.buildDatabaseUrl.databaseUrl } := by
  unfold buildDatabaseUrl
  split_ifs <;> rfl

theorem wellFormed_of_validate (h : raw.validate = some s) : WellFormed s := by
  obtain ⟨field, hfield, hscheme, hshortcode, hchecked⟩ := validate_eq_some_iff.mp h
  obtain ⟨rfl, hlist, hecho⟩ := prodSafetyChecks_eq_some_iff.mp hchecked
  rw [buildDatabaseUrl_eq] at hlist hecho ⊢
  exact
    { baseUrl := getLast?_stripTrailingSlash _
      callbackBaseUrl := getLast?_stripTrailingSlash _
      callbackScheme := hscheme
      shortcode := hshortcode
      driver := driver_buildDatabaseUrl (driver_of_databaseUrlField hfield)
      parts := parts_buildDatabaseUrl
      allowlist := hlist
      echo := hecho }

theorem validate_of_wellFormed (h : WellFormed s) : s.validate = some s := by
  refine validate_eq_some_iff.mpr ⟨s.databaseUrl, databaseUrlField_of_driver h.driver, ?_,
    h.shortcode, ?_⟩
  · rw [stripTrailingSlash_eq_self h.callbackBaseUrl]
    exact h.callbackScheme
  · rw [stripTrailingSlash_eq_self h.baseUrl, stripTrailingSlash_eq_self h.callbackBaseUrl,
      buildDatabaseUrl_eq_self h.driver h.parts]
    exact prodSafetyChecks_eq_some_iff.mpr ⟨rfl, h.allowlist, h.echo⟩

/-- Validation leads to well-formed settings only, and leaves exactly those as they are. -/
theorem validate_iff (s : RawSettings) :
    ((∃ raw : RawSettings, raw.validate = some s) ↔ WellFormed s) ∧
      (s.validate = some s ↔ WellFormed s) := by
  refine ⟨⟨?_, fun h => ⟨s, validate_of_wellFormed h⟩⟩,
    ⟨wellFormed_of_validate, validate_of_wellFormed⟩⟩
  rintro ⟨raw, h⟩
  exact wellFormed_of_validate h

end RawSettings

end DarajaWrapper
