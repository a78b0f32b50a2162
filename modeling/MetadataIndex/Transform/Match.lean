import MetadataIndex.Field.Basic
import MetadataIndex.Rule.Basic
import MetadataIndex.Text.Blank
import MetadataIndex.XPath.Query

/-!
# Matches of rules

What an expression of a rule selects becomes a raw value: its trimmed text with the texts around it.
An element that may not be shared gives no value of its own.
-/

set_option autoImplicit false

namespace MetadataIndex

open MetadataIndex.Xml (Cursor)

/-- Whether a match is an element that may not be shared. -/
def XPath.Item.isRestricted (i : XPath.Item) : Bool :=
  i.place?.any fun c => c.attribute? "shareable" == some "no"

namespace FieldRule

/-- Cuts a separator off the end of a value; a value that is only a separator is none. -/
def cutSeparator (splitting : Option Json) (value : String) : Checked (Option String) :=
  match splitting with
  | none => .ok (some value)
  | some v => v.asText.map fun separator =>
    if value == separator then none
    else if Text.endsWith value separator then
      some (String.ofList (value.toList.take (value.length - separator.length)))
    else some value

def valueOf (r : FieldRule) (s : XPathSource) (i : XPath.Item) : Checked (Option String) := do
  match i.toText with
  | none => return none
  | some text =>
    if (Text.trim text).isEmpty then return none
    let value := Text.trim (Text.trim text ++ r.valuePostfix)
    match ← cutSeparator r.pipeline.splittingCharacter value with
    | none => return none
    | some value =>
      return if i.isRestricted then none else some (s.leading ++ value ++ s.trailing)

/-- Adds a raw value to those before it; a rule for one field joins them. -/
def addValue (r : FieldRule) (values : List String) (value : String) : List String :=
  match values with
  | first :: more =>
    if r.oneField then
      (if first.isEmpty then value else first ++ r.oneFieldSeparator ++ value) :: more
    else values ++ [value]
  | [] => [value]

/-- The raw value that the main value of a group is; the mark of restricted access stands alone. -/
def groupValue (s : XPathSource) (value : String) : String :=
  if value == FieldName.accessRestricted then value else s.leading ++ value ++ s.trailing

end FieldRule

end MetadataIndex
