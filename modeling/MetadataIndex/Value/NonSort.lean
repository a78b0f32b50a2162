import MetadataIndex.Json.Setting
import MetadataIndex.Pattern.Template

/-!
# Parts that are left out for sorting

An article or a similar part at the start of a title is marked by what stands before and after it.
The longest span from the first mark to the last is removed.
-/

set_option autoImplicit false

namespace MetadataIndex

/-- The patterns of the marks before and after a part that is left out. -/
structure NonSort where
  opening : Option Json := none
  closing : Option Json := none

namespace NonSort

/-- The pattern of one mark; an absent mark is empty. -/
def mark (setting : Option Json) : String :=
  (setting.getD .null).displayIfGiven

def pattern (n : NonSort) : String :=
  mark n.opening ++ "[\\w|\\W]*" ++ mark n.closing

def isVoid (n : NonSort) : Bool :=
  !(n.opening.getD .null).isGiven && !(n.closing.getD .null).isGiven

/-- Removes the marked parts and trims the rest. Without marks, or with a pattern that cannot be
read, the value stays as it is. -/
def apply (n : NonSort) (value : String) : Checked String :=
  if n.isVoid then .ok value
  else Pattern.orUnchanged value ((Pattern.replacePattern n.pattern "" value).map Text.trim)

def ofJson (config : Json) : Checked NonSort := do
  let members ← config.settings
  return {
    opening := (Json.setting members "prefix").given?
    closing := (Json.setting members "suffix").given? }

end NonSort

end MetadataIndex
