import MetadataIndex.Xml.Reference

/-!
# Declarations

What a document declares about itself before its root: entities, and the types and default values
of attributes. Declarations outside of the document are not read; when there are such, a reference
to an undeclared entity is no fault.
-/

set_option autoImplicit false

namespace MetadataIndex.Xml

/-- A declared entity. -/
inductive Entity where
  | internal (text : List Char)
  | external
deriving DecidableEq, Repr

/-- How the value of an attribute is taken. -/
inductive AttributeKind where
  | text
  | tokens
  | identifier
deriving DecidableEq, Repr

/-- A declared attribute. -/
structure AttributeDeclaration where
  element : String
  name : String
  kind : AttributeKind
  /-- The value of an attribute that is not written, with its references. -/
  default : Option (List Char)
deriving DecidableEq, Repr

/-- What a document declares. -/
structure Declarations where
  entities : List (String × Entity) := []
  parameters : List (String × Entity) := []
  attributes : List AttributeDeclaration := []
  hasUnread : Bool := false
deriving DecidableEq, Repr

namespace Declarations

def kindOf (d : Declarations) (element name : String) : AttributeKind :=
  match d.attributes.find? fun a => a.element == element && a.name == name with
  | some a => a.kind
  | none => .text

def addEntity (d : Declarations) (parameter : Bool) (name : String) (e : Entity) : Declarations :=
  if parameter then
    if (lookup? name d.parameters).isSome then d
    else { d with parameters := d.parameters ++ [(name, e)] }
  else if (lookup? name d.entities).isSome then d
  else { d with entities := d.entities ++ [(name, e)] }

def addAttribute (d : Declarations) (a : AttributeDeclaration) : Declarations :=
  if d.attributes.any fun b => b.element == a.element && b.name == a.name then d
  else { d with attributes := d.attributes ++ [a] }

end Declarations

def entityDepth : Nat := 40

/-- The normalized text of an attribute value with entities at most `depth` deep: separators become
blanks, and entities are replaced by their text. -/
def expandValue (d : Declarations) : Nat → List Char → Option (List Char)
  | 0, _ => none
  | depth + 1, cs => do
    let pieces ← piecesOf cs
    let parts ← pieces.mapM fun
      | .char c => if c == '<' then none else some [if isSpace c then ' ' else c]
      | .code c => some [c]
      | .entity name =>
        match lookup? name namedChars, lookup? name d.entities with
        | some c, _ => some [c]
        | none, some (.internal text) => expandValue d depth text
        | none, some .external => none
        | none, none => if d.hasUnread then some [] else none
    return parts.flatten

/-- The tokens of a text with single blanks between them. -/
def collapseBlanks (cs : List Char) : List Char :=
  [' '].intercalate ((Text.pieces [' '] 0 cs).filter (!·.isEmpty))

def attributeValue (d : Declarations) (element name : String) (cs : List Char) : Option String := do
  let value ← expandValue d entityDepth cs
  match d.kindOf element name with
  | .text => return String.ofList value
  | _ => return String.ofList (collapseBlanks value)

def takeComment : List Char → Option (List Char × List Char)
  | [] => none
  | '-' :: '-' :: '>' :: cs => some ([], cs)
  | '-' :: '-' :: _ => none
  | c :: cs => (takeComment cs).map fun (text, rest) => (c :: text, rest)

/-- Whether a name is the one kept for the declaration of the document. -/
def isReservedTarget (name : String) : Bool :=
  (String.ofList (name.toList.map Char.toLower)) == "xml"

/-- A processing instruction after its opening, and what follows it. -/
def takeInstruction (cs : List Char) : Option (String × String × List Char) := do
  let (target, rest) ← takeName cs
  if isReservedTarget target then none
  match expect "?>" rest with
  | some rest => return (target, "", rest)
  | none =>
    let rest ← requireSpaces rest
    let (data, rest) ← Text.cut? "?>".toList rest
    return (target, String.ofList data, rest)

/-- Skips the name of something outside of the document; the word before it is passed. -/
def takeExternalName (cs : List Char) : Option (List Char) :=
  match expect "SYSTEM" cs with
  | some rest => do
    let (_, rest) ← takeQuoted (← requireSpaces rest)
    return rest
  | none => do
    let (_, rest) ← takeQuoted (← requireSpaces (← expect "PUBLIC" cs))
    let (_, rest) ← takeQuoted (← requireSpaces rest)
    return rest

/-- The text of an internal entity: numbered characters are replaced, other references stay. -/
def entityText (cs : List Char) : Option (List Char) := do
  if cs.contains '%' then none
  let pieces ← piecesOf cs
  return pieces.flatMap fun
    | .char c => [c]
    | .code c => [c]
    | .entity name => '&' :: name.toList ++ [';']

def readEntity (d : Declarations) (cs : List Char) : Option (Declarations × List Char) := do
  let cs ← requireSpaces cs
  let (parameter, cs) ← match cs with
    | '%' :: rest => (requireSpaces rest).map fun rest => (true, rest)
    | _ => some (false, cs)
  let (name, rest) ← takePlainName cs
  let rest ← requireSpaces rest
  match takeQuoted rest with
  | some (text, rest) =>
    let rest ← expect ">" (skipSpaces rest)
    return (d.addEntity parameter name (.internal (← entityText text)), rest)
  | none =>
    let rest ← takeExternalName rest
    let rest ← match requireSpaces rest with
      | some after =>
        match expect "NDATA" after with
        | some after => do
          let (_, after) ← takeName (← requireSpaces after)
          pure after
        | none => some rest
      | none => some rest
    let rest ← expect ">" (skipSpaces rest)
    return (d.addEntity parameter name .external, rest)

/-- The words for the types of attributes, longer ones first. -/
def attributeWords : List (String × AttributeKind) :=
  [("CDATA", .text), ("IDREFS", .tokens), ("IDREF", .tokens), ("ID", .identifier),
    ("ENTITIES", .tokens), ("ENTITY", .tokens), ("NMTOKENS", .tokens), ("NMTOKEN", .tokens)]

def takeAttributeKind (cs : List Char) : Option (AttributeKind × List Char) :=
  let choice (cs : List Char) : Option (AttributeKind × List Char) := do
    let (_, rest) ← Text.cut? [')'] (← expect "(" cs)
    return (.tokens, rest)
  match attributeWords.findSome? fun (word, kind) => (expect word cs).map (kind, ·) with
  | some found => some found
  | none =>
    match expect "NOTATION" cs with
    | some rest => requireSpaces rest >>= choice
    | none => choice cs

def takeDefault (cs : List Char) : Option (Option (List Char) × List Char) :=
  match expect "#REQUIRED" cs, expect "#IMPLIED" cs, expect "#FIXED" cs with
  | some rest, _, _ => some (none, rest)
  | _, some rest, _ => some (none, rest)
  | _, _, some rest => do
    let (value, rest) ← takeQuoted (← requireSpaces rest)
    return (some value, rest)
  | _, _, _ => do
    let (value, rest) ← takeQuoted cs
    return (some value, rest)

def readAttributes (element : String) :
    Nat → Declarations → List Char → Option (Declarations × List Char)
  | 0, _, _ => none
  | limit + 1, d, cs =>
    match expect ">" (skipSpaces cs) with
    | some rest => some (d, rest)
    | none => do
      let (name, rest) ← takeName (← requireSpaces cs)
      let (kind, rest) ← takeAttributeKind (← requireSpaces rest)
      let (default, rest) ← takeDefault (← requireSpaces rest)
      readAttributes element limit (d.addAttribute { element, name, kind, default }) rest

/-- Skips a declaration that says nothing about the content read here. -/
def skipDeclaration : Option Char → List Char → Option (List Char)
  | _, [] => none
  | some quote, c :: cs => skipDeclaration (if c == quote then none else some quote) cs
  | none, c :: cs =>
    if c == '>' then some cs
    else if c == '<' then none
    else if c == '"' || c == '\'' then skipDeclaration (some c) cs
    else skipDeclaration none cs

def readDeclaration (d : Declarations) (cs : List Char) : Option (Declarations × List Char) :=
  match expect "ENTITY" cs, expect "ATTLIST" cs with
  | some rest, _ => readEntity d rest
  | _, some rest => do
    let (element, rest) ← takeName (← requireSpaces rest)
    readAttributes element cs.length d rest
  | none, none => do
    let rest ← (expect "ELEMENT" cs).or (expect "NOTATION" cs)
    let (_, rest) ← takeName (← requireSpaces rest)
    return (d, ← skipDeclaration none (← requireSpaces rest))

def readParameter (d : Declarations) (cs : List Char) : Option (Declarations × List Char) := do
  let (name, rest) ← takeName cs
  let rest ← expect ";" rest
  match lookup? name d.parameters with
  | some (.internal text) => return ({ d with hasUnread := true }, ' ' :: text ++ ' ' :: rest)
  | some .external => return ({ d with hasUnread := true }, rest)
  | none => if d.hasUnread then return (d, rest) else none

/-- Reads at most `limit` declarations up to the closing bracket. -/
def readDeclarations : Nat → Declarations → List Char → Option (Declarations × List Char)
  | 0, _, _ => none
  | limit + 1, d, cs =>
    match skipSpaces cs with
    | ']' :: rest => some (d, rest)
    | '<' :: '!' :: '-' :: '-' :: rest => do
      let (_, rest) ← takeComment rest
      readDeclarations limit d rest
    | '<' :: '?' :: rest => do
      let (_, _, rest) ← takeInstruction rest
      readDeclarations limit d rest
    | '<' :: '!' :: rest => do
      let (d, rest) ← readDeclaration d rest
      readDeclarations limit d rest
    | '%' :: rest => do
      let (d, rest) ← readParameter d rest
      readDeclarations limit d rest
    | _ => none

/-- Reads the declaration of the type of a document after its word. -/
def readDocumentType (cs : List Char) : Option (Declarations × List Char) := do
  let (_, rest) ← takeName (← requireSpaces cs)
  let afterName := skipSpaces rest
  let (d, rest) := match requireSpaces rest >>= takeExternalName with
    | some after => (({ hasUnread := true } : Declarations), skipSpaces after)
    | none => ({}, afterName)
  match rest with
  | '[' :: inner =>
    let (d, rest) ← readDeclarations (2 * cs.length + 1) d inner
    return (d, ← expect ">" (skipSpaces rest))
  | _ => return (d, ← expect ">" rest)

end MetadataIndex.Xml
