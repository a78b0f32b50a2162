import MetadataIndex.Rule.Basic

/-!
# Reading rules

Rules are read from an object of settings. A rule set leaves out the rules that cannot be read and
keeps all others in their order.
-/

set_option autoImplicit false

namespace MetadataIndex

/-- Reads an expression; a text stands for an expression without surrounding texts. -/
def XPathSource.ofJson (config : Json) : Checked XPathSource :=
  match config with
  | .text xpath => .ok { xpath }
  | _ => do
    let members ← config.settings
    return {
      xpath := (Json.setting members "xpath").displayIfGiven
      leading := (Json.setting members "prefix").displayIfGiven
      trailing := (Json.setting members "suffix").displayIfGiven }

def scopeText (members : List (String × Json)) (setting : ScopeSetting) (default : String) :
    String :=
  Text.lower ((lookup? setting.name members).getD (.text default)).display

def readScope {α : Type} (setting : ScopeSetting) (scopes : List (String × α))
    (field text : String) : Checked α :=
  required (.unknownScope setting field text) (lookup? text scopes)

def readScopes (field : String) (members : List (String × Json)) :
    Checked (NodeScope × ChildScope × ParentScope) := do
  let node ← readScope .node [("first", NodeScope.first), ("all", .all)] field
    (scopeText members .node "all")
  let child ← readScope .child [("none", ChildScope.none), ("all", .all)] field
    (scopeText members .child "none")
  let parents ← readScope .parents [("none", ParentScope.none), ("first", .first), ("all", .all)]
    field (scopeText members .parents "none")
  return (node, child, parents)

def readGeoSource (field : String) (v : Json) : Checked (Option String) :=
  if v.isGiven then
    match v with
    | .text source =>
      if (Geo.Kind.ofName? source).isSome then .ok (some source)
      else refuse (.unknownGeoSource field source)
    | _ => .error .missingPart
  else .ok none

/-- Reads the steps that the values of a rule go through. -/
def ValuePipeline.ofSettings (members : List (String × Json)) : Checked ValuePipeline := do
  let replaceRules ← (← (Json.setting members "replace_rules").sequenceIfGiven).mapM
    ReplaceRule.ofJson
  let normalizers ← (← (Json.setting members "value_normalizers").sequenceIfGiven).mapM
    Normalizer.ofJson
  let nonSort ← (← (Json.setting members "non_sort_configurations").sequenceIfGiven).mapM
    NonSort.ofJson
  return {
    replaceRules
    oneToken := (Json.setting members "one_token").toSwitch false
    splittingCharacter := (Json.setting members "splitting_character").given?
    lowercase := (Json.setting members "lowercase").toSwitch false
    normalizers
    nonSort }

def FieldRule.ofSettings (field : String) (members : List (String × Json)) : Checked FieldRule := do
  let switch (name : String) (default : Bool) : Bool := (Json.setting members name).toSwitch default
  let sources ← (← (Json.setting members "xpaths").sequenceIfGiven).mapM XPathSource.ofJson
  let constant := Json.setting members "constant_value"
  if constant.isNull && sources.isEmpty then refuse (.ruleWithoutSource field)
  let (node, child, parents) ← readScopes field members
  let yearDigits ← ((lookup? "normalize_year_min_digits" members).getD (.int 3)).toInt
  if yearDigits < 1 then refuse (.ruleYearDigits field)
  let geoSource ← readGeoSource field (Json.setting members "geojson_source")
  let authorityDefaults ← (Json.setting members "authority_default_fields").sequenceIfGiven
  let pipeline ← ValuePipeline.ofSettings members
  let groupConfig := Json.setting members "group_entity"
  let group ← if groupConfig.isGiven then (GroupEntity.ofJson groupConfig).map some else pure none
  return {
    field, sources, node, child, parents
    constant := if constant.isNull then none else some constant.display
    valuePostfix := (Json.setting members "value_postfix").displayIfGiven
    oneField := switch "one_field" false
    oneFieldSeparator := ((lookup? "one_field_separator" members).getD (.text " ")).display
    addSortField := switch "add_sort_field" false
    allowDuplicates := switch "allow_duplicate_values" false
    addToDefault := switch "add_to_default" false
    addUntokenized := switch "add_untokenized_version" true
    normalizeYear := switch "normalize_year" false
    yearDigits
    yearField := (Json.setting members "normalize_year_field").given?
    interpolateYears := switch "interpolate_years" false
    geoSource
    geoSeparator :=
      let separator := (Json.setting members "geojson_separator").displayIfGiven
      if separator.isEmpty then " " else separator
    addGeoSearchField := switch "geojson_add_search_field" false
    authorityDefaults, pipeline, group }

def FieldRule.ofJson (field : String) (config : Json) : Checked FieldRule :=
  if field.isEmpty then refuse .ruleWithoutField
  else
    match config with
    | .object members => FieldRule.ofSettings field members
    | _ => refuse (.ruleNotObject field config.kindName)

/-- Whether a rule with this fault is left out of a rule set. -/
def Fault.isMalformedRule : Fault → Bool
  | .refused _ => true
  | .wrongType => true
  | .missingPart => true
  | _ => false

/-- The rules that can be read among the variants of a field, in order. -/
def readVariants (field : String) : List Json → Checked (List FieldRule)
  | [] => .ok []
  | config :: more =>
    match FieldRule.ofJson field config with
    | .ok rule => (readVariants field more).map (rule :: ·)
    | .error fault => if fault.isMalformedRule then readVariants field more else .error fault

/-- The configured variants of a field: an object is one variant. -/
def variantsOf (config : Json) : Checked (List Json) :=
  match config with
  | .object _ => .ok [config]
  | _ => config.sequenceIfGiven

/-- Reads the rules of fields; a field without rules is left out. -/
def readFields : List (String × Json) → Checked (List (String × List FieldRule))
  | [] => .ok []
  | (field, config) :: more => do
    let rules ← readVariants field (← variantsOf config)
    let rest ← readFields more
    return if rules.isEmpty then rest else (field, rules) :: rest

def readNamespaces (v : Json) : Checked (List (String × String)) :=
  if v.isGiven then do
    let members ← v.settings
    return members.map fun (mark, uri) => (mark, uri.display)
  else .ok []

def RuleSet.ofJson (config : Json) : Checked RuleSet :=
  match config.member "fields" with
  | .object members => do
    let fields ← readFields members
    let namespaces ← readNamespaces (config.member "namespaces")
    return { fields, namespaces }
  | _ => refuse .rulesWithoutFields

end MetadataIndex
