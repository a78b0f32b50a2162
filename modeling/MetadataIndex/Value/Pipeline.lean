import MetadataIndex.Rule.Basic
import MetadataIndex.Date.Instant
import MetadataIndex.Field.Basic
import MetadataIndex.Value.Token
import MetadataIndex.Text.Entity

/-!
# The value pipeline

Every value of a rule is refined in a fixed order: replacements, character references, dates and
identifiers, folding into one token, small letters, lengths, and parts left out for sorting.
-/

set_option autoImplicit false

namespace MetadataIndex.ValuePipeline

/-- Brings the value of a date field to an instant and the value of the identifier field to an
identifier; a date field without date stays as it is. -/
def normalizeFor (field value : String) : Checked String :=
  if Text.startsWith field "DATE_" then
    (DateText.toInstant value).map fun instant => if instant.isEmpty then value else instant
  else if field = FieldName.identifier then .ok (Value.toIdentifier value)
  else .ok value

/-- Refines a value of a field. The empty value stays as it is. -/
def apply (p : ValuePipeline) (field value : String) : Checked String := do
  if value.isEmpty then return value
  let replaced ← ReplaceRule.applyAll p.replaceRules value
  let unescaped ← Text.unescape replaced
  let normalized ← normalizeFor field unescaped
  let folded ← if p.oneToken then Value.toOneToken normalized p.splittingCharacter
    else pure normalized
  let cased := if p.lowercase then Text.lower folded else folded
  let resized ← p.normalizers.foldlM (fun value n => n.normalize value) cased
  p.nonSort.foldlM (fun value n => n.apply value) resized

end MetadataIndex.ValuePipeline

namespace MetadataIndex

def FieldRule.refine (r : FieldRule) (value : String) : Checked String :=
  r.pipeline.apply r.field value

end MetadataIndex
