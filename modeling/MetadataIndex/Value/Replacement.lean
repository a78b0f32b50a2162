import MetadataIndex.Json.Setting
import MetadataIndex.Pattern.Template
import MetadataIndex.Text.Search

/-!
# Replace rules

A rule replaces a character, a literal text or the matches of a pattern. Rules are applied in the
order in which they are configured. In a configuration `#SPACE#` stands for a blank.
-/

set_option autoImplicit false

namespace MetadataIndex

/-- A replacement applied to a value. -/
inductive ReplaceRule where
  | char (c : Char) (replacement : String)
  | literal (text replacement : String)
  /-- Each match of a pattern is replaced by a template. -/
  | regex (pattern replacement : String)
deriving DecidableEq, Repr

namespace ReplaceRule

def configured (v : Json) : String :=
  Text.replaceLiteral "#SPACE#" " " v.display

def ofJson (config : Json) : Checked ReplaceRule := do
  let members ← config.settings
  let replacement := configured ((lookup? "replace_with" members).getD (.text ""))
  match lookup? "char" members, lookup? "string" members, lookup? "regex" members with
  | some v, _, _ =>
    match (configured v).toList with
    | [c] => return .char c replacement
    | _ => refuse (.notOneCharacter (configured v))
  | none, some v, _ =>
    if (configured v).isEmpty then refuse .emptyLiteral
    else return .literal (configured v) replacement
  | none, none, some v =>
    match Pattern.Regex.ofText (configured v) with
    | .ok _ => return .regex (configured v) replacement
    | .error problem =>
      match problem.fault? with
      | some fault => .error fault
      | none => refuse (.malformedPattern (configured v))
  | none, none, none => refuse .unknownReplaceRule

/-- Applies a rule. A template that breaks the rules of the notation leaves the value as it is; one
that refers to a group name the pattern does not have is a fault. -/
def apply (rule : ReplaceRule) (value : String) : Checked String :=
  match rule with
  | .char c replacement => .ok (Text.replaceLiteral (String.ofList [c]) replacement value)
  | .literal text replacement => .ok (Text.replaceLiteral text replacement value)
  | .regex pattern replacement =>
    Pattern.orUnchanged value (Pattern.replacePattern pattern replacement value)

def applyAll (rules : List ReplaceRule) (value : String) : Checked String :=
  rules.foldlM (fun value rule => rule.apply value) value

end ReplaceRule

end MetadataIndex
