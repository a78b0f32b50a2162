import MetadataIndex.Authority.Cache
import MetadataIndex.Authority.Lookup
import MetadataIndex.Json.Setting

/-!
# Settings of a node

A request may come with settings; each that it leaves out is taken from the environment, and else
has a default.
-/

set_option autoImplicit false

namespace MetadataIndex

/-- The settings of a node. -/
structure NodeSettings where
  rules : Json := .null
  rulesPath : Option Json := none
  resolvesAuthority : Bool := false
  template : Option Json := none
  cacheLifetime : Float := 24.0
  /-- The number of authority records above which the cache counts as large. -/
  cacheWarning : Int := 10000
  timeout : Float := 10.0
  retries : Int := 2
  firstPause : Float := 0.5

namespace NodeSettings

/-- The part of a structured value under a name; what is left out is empty. -/
def part (v : Json) (name : String) : Checked Json := do
  return (lookup? name (← v.settings)).getD (.object [])

def dataOf (event : Json) : Checked (List (String × Json)) := do
  (← part (← part event "payload") "data").settings

def configured (environment : String → Option String) (members : List (String × Json))
    (name inEnvironment default : String) : Json :=
  match Json.setting members name with
  | .null => .text ((environment inEnvironment).getD default)
  | .text s => .text (if s.isEmpty then (environment inEnvironment).getD default else s)
  | v => v

def number {α : Type} (read : Json → Checked α) (v : Json) : Checked α :=
  match read v with
  | .ok x => .ok x
  | .error .overflow => .error .overflow
  | .error _ => refuse .malformedNodeSetting

def ofData (environment : String → Option String) (data : List (String × Json)) :
    Checked NodeSettings := do
  let members ← ((lookup? "node_config" data).getD (.object [])).settings
  let setting := configured environment members
  let rules := Json.setting members "rules_config"
  let path := setting "rules_config_s3_path" "RULES_CONFIG_S3_PATH" ""
  if !rules.isGiven && !path.isGiven then refuse .missingRulesSetting
  return {
    rules, rulesPath := path.given?
    resolvesAuthority := (setting "authority_enabled" "AUTHORITY_ENABLED" "false").toSwitch false
    template :=
      (setting "authority_endpoint_template" "AUTHORITY_ENDPOINT_TEMPLATE" "").given?
    cacheLifetime :=
      ← number Json.toFloat (setting "authority_cache_ttl_hours" "AUTHORITY_CACHE_TTL_HOURS" "24")
    cacheWarning := ← number Json.toInt
      (setting "authority_cache_size_warning" "AUTHORITY_CACHE_SIZE_WARNING" "10000")
    timeout :=
      ← number Json.toFloat (setting "authority_timeout_seconds" "AUTHORITY_TIMEOUT_SECONDS" "10")
    retries := ← number Json.toInt (setting "max_retries" "MAX_RETRIES" "2")
    firstPause := ← number Json.toFloat
      (setting "initial_backoff_seconds" "INITIAL_BACKOFF_SECONDS" "0.5") }

def ofEvent (environment : String → Option String) (event : Json) : Checked NodeSettings := do
  ofData environment (← dataOf event)

def lookupOptions (s : NodeSettings) : Checked LookupOptions := do
  let template ← match s.template with
    | some v => some <$> v.asText
    | none => pure none
  LookupOptions.ofKind "rest" {
    timeout := s.timeout, template
    retry := { retries := s.retries, firstPause := s.firstPause } }

/-- The cache with the settings of a node; a new one may not have a negative lifetime. -/
def cache (s : NodeSettings) : Option (AuthorityCache Float) → Checked (AuthorityCache Float)
  | none => AuthorityCache.create s.cacheLifetime (Decimal.floatText s.cacheLifetime) s.cacheWarning
  | some kept => .ok { kept with lifetime := s.cacheLifetime, sizeWarning := s.cacheWarning }

end NodeSettings

end MetadataIndex
