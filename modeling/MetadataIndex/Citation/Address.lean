import MetadataIndex.Fault
import MetadataIndex.Text.Percent

/-!
# Addresses of citation documents

A template of an address has placeholders for field values: a name of letters, digits and
underscores between braces. Each placeholder takes the first value collected for its field.
-/

set_option autoImplicit false

namespace MetadataIndex.Citation

/-- A part of a template. -/
inductive TemplatePart where
  | char (c : Char)
  | value (name : String)
deriving DecidableEq, Repr

namespace TemplatePart

/-- Whether a character may stand in the name of a placeholder. -/
def isNameChar (c : Char) : Bool := c.isAlphanum || c == '_'

/-- The name of the placeholder at the start of a text. -/
def placeholder? : List Char → Option (List Char)
  | '\x7b' :: rest =>
    let name := rest.takeWhile isNameChar
    if name.isEmpty then none
    else
      match rest.drop name.length with
      | '\x7d' :: _ => some name
      | _ => none
  | _ => none

/-- The parts of a template, after `skip` characters that belong to a placeholder. -/
def ofChars : Nat → List Char → List TemplatePart
  | _, [] => []
  | skip + 1, _ :: cs => ofChars skip cs
  | 0, c :: cs =>
    match placeholder? (c :: cs) with
    | some name => value (String.ofList name) :: ofChars (name.length + 1) cs
    | none => char c :: ofChars 0 cs

def ofText (template : String) : List TemplatePart := ofChars 0 template.toList

def fill (values : String → List String) : TemplatePart → Checked String
  | char c => .ok (String.singleton c)
  | value name =>
    match values name with
    | first :: _ => .ok (Text.percentEncoded first)
    | [] => refuse (.uncollectedPlaceholder ("\x7b" ++ name ++ "\x7d"))

end TemplatePart

def addressOf (values : String → List String) (template : String) : Checked String := do
  return String.join (← (TemplatePart.ofText template).mapM (TemplatePart.fill values))

end MetadataIndex.Citation
