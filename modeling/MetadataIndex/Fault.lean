import MetadataIndex.Text.Quoted

/-!
# Faults

What can be wrong with a configuration, a document or a request. A `Refusal` names a cause that is
reported with a message; the other faults of `Fault` are reported by their kind alone. The detail
of a failure in an underlying format is written as a star.
-/

set_option autoImplicit false

namespace MetadataIndex

/-- Which scope setting of a rule is meant. -/
inductive ScopeSetting where
  | node
  | child
  | parents
deriving DecidableEq, Repr

def ScopeSetting.name : ScopeSetting → String
  | .node => "node"
  | .child => "child"
  | .parents => "parents"

/-- A cause that is reported with a message. -/
inductive Refusal where
  | absent (what : String)
  /-- The name or the value of a field to be written is absent. -/
  | absentPair (name value : Option String)
  | absentFieldName
  | absentFieldValue (name : String)
  /-- A text that is no number, or one with too many digits. -/
  | notANumber
  | notOneCharacter (text : String)
  | emptyLiteral
  | malformedPattern (pattern : String)
  /-- A pattern that asks for ASCII classes and for those of all characters. -/
  | bothClasses
  /-- A replace rule that names none of its three kinds. -/
  | unknownReplaceRule
  | notRoman (text : Option String)
  /-- A target length that is no number; its display form. -/
  | malformedLength (shown : String)
  | lengthNotPositive (length : Int)
  | yearDigitsNotPositive
  /-- A gap is to be filled in a field without name. -/
  | emptyFieldName
  | coordinateLength (text : String)
  /-- A point with another number of coordinates than two or three. -/
  | pointDimensions (count : Nat)
  /-- A lifetime of cached records below zero; its display form. -/
  | negativeLifetime (shown : String)
  | templateWithoutPlaceholder (template : String)
  | unknownLookup (name : String)
  | ruleWithoutField
  /-- A rule that is no object; the kind of value it is. -/
  | ruleNotObject (field kind : String)
  | ruleWithoutSource (field : String)
  | unknownScope (setting : ScopeSetting) (field value : String)
  /-- A rule whose least number of year digits is below one. -/
  | ruleYearDigits (field : String)
  | unknownGeoSource (field source : String)
  /-- A nested group without expression; the display form of its name. -/
  | childWithoutXPath (shown : String)
  | rulesWithoutFields
  | noRules
  /-- A rule file without a bucket to read it from. -/
  | bucketUnset
  | rulesFileMissing (bucket key : String)
  | rulesFileUnreadable (bucket key : String)
  | rulesFileMalformed (bucket key : String)
  | rulesFileNotObject (bucket key : String)
  | missingRulesSetting
  | malformedNodeSetting
  | noDocument
  | malformedDocument
  | unknownStructureNode (id : String)
  | noDescribedNode
  | noStructure
  /-- A structure node without metadata block; the display form of its identifier. -/
  | noMetadataBlock (shown : String)
  | recordIndex (index : Int) (position : Nat)
  | uncollectedPlaceholder (placeholder : String)
  | notXmlText
  | documentNotText
  | reported (text : String)
deriving DecidableEq, Repr

/-- The display form of a text that may be absent. -/
def displayOptional : Option String → String
  | some s => s
  | none => "None"

def Refusal.message : Refusal → String
  | absent what => what ++ " may not be None"
  | absentPair name value =>
    "Field name and value may not be None: " ++ displayOptional name ++ "=" ++ displayOptional value
  | absentFieldName => "Field name may not be None"
  | absentFieldValue name => "Value of field '" ++ name ++ "' may not be None"
  | notANumber => "*"
  | notOneCharacter text =>
    "Character replace rule needs exactly one character: " ++ Text.quoted text
  | emptyLiteral => "String replace rule may not be empty"
  | malformedPattern pattern => "Invalid replace rule regex '" ++ pattern ++ "': *"
  | bothClasses => "ASCII and UNICODE flags are incompatible"
  | unknownReplaceRule => "Replace rule needs one of 'char', 'string', 'regex': *"
  | notRoman none => "Not a roman numeral: None"
  | notRoman (some text) => "Not a roman numeral: " ++ Text.quoted text
  | malformedLength shown => "Invalid normalizer length: " ++ shown
  | lengthNotPositive length => "Normalizer length must be positive: " ++ toString length
  | yearDigitsNotPositive => "min_year_digits must be at least 1"
  | emptyFieldName => "field_name may not be empty"
  | coordinateLength text => "Coordinate length must be 8: " ++ text
  | pointDimensions count => "Point needs 2 or 3 coordinates, got " ++ toString count
  | negativeLifetime shown => "ttl_hours must be a non-negative number: " ++ shown
  | templateWithoutPlaceholder template =>
    "Endpoint template must contain '\x7buri\x7d': " ++ template
  | unknownLookup name =>
    "Unknown authority lookup type: '" ++ name ++ "'. Available types: rest"
  | ruleWithoutField => "Field name is required"
  | ruleNotObject field kind => "Rule for " ++ field ++ " must be an object, got " ++ kind
  | ruleWithoutSource field => "Rule for " ++ field ++ " needs xpaths or a constant_value"
  | unknownScope setting field value =>
    "Invalid " ++ setting.name ++ " scope for " ++ field ++ ": " ++ value
  | ruleYearDigits field => "normalize_year_min_digits must be at least 1 for " ++ field
  | unknownGeoSource field source =>
    "Unsupported geojson_source for " ++ field ++ ": " ++ source
  | childWithoutXPath shown => "Child group entity '" ++ shown ++ "' needs an xpath"
  | rulesWithoutFields => "Rules configuration must contain a 'fields' mapping"
  | noRules => "No rules configured: set rules_config or rules_config_s3_path"
  | bucketUnset =>
    "IAC_ASSETS_BUCKET environment variable not set. Cannot load rules from S3."
  | rulesFileMissing bucket key => "Rules file not found: s3://" ++ bucket ++ "/" ++ key
  | rulesFileUnreadable bucket key =>
    "Failed to load rules from s3://" ++ bucket ++ "/" ++ key ++ ": *"
  | rulesFileMalformed bucket key =>
    "Invalid JSON in rules file s3://" ++ bucket ++ "/" ++ key ++ ": *"
  | rulesFileNotObject bucket key =>
    "Rules file s3://" ++ bucket ++ "/" ++ key ++ " must contain a JSON object"
  | missingRulesSetting =>
    "Missing required configuration: rules_config or rules_config_s3_path"
  | malformedNodeSetting => "Invalid node configuration value: *"
  | noDocument => "No document provided in event payload"
  | malformedDocument => "Document is not well-formed XML: *"
  | unknownStructureNode id => "Logical structure node not found: " ++ id
  | noDescribedNode => "No logical structure node with descriptive metadata found"
  | noStructure => "METS document has no logical structure map"
  | noMetadataBlock shown => "No metadata block found for logical structure node " ++ shown
  | recordIndex index position =>
    "Record index " ++ toString index ++ " does not match arena position " ++ toString position
  | uncollectedPlaceholder placeholder =>
    "No value collected for URL placeholder " ++ placeholder
  | notXmlText =>
    "All strings must be XML compatible: Unicode or ASCII, no NULL bytes or control characters"
  | documentNotText => "can only parse strings"
  | reported text => text

/-- What ends an operation without a result. -/
inductive Fault where
  | refused (cause : Refusal)
  | unknownKey
  /-- A position or a group name outside of what exists. -/
  | outOfRange
  | wrongType
  /-- A value that lacks the part it is asked for. -/
  | missingPart
  | overflow
deriving DecidableEq, Repr

abbrev Checked (α : Type) := Except Fault α

/-- Ends with a cause that is reported with a message. -/
def refuse {α : Type} (cause : Refusal) : Checked α := .error (.refused cause)

def required {α : Type} (cause : Refusal) : Option α → Checked α
  | some a => .ok a
  | none => refuse cause

end MetadataIndex
