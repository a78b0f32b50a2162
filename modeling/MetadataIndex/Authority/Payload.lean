import MetadataIndex.Json.Parser
import MetadataIndex.Json.Setting
import MetadataIndex.Text.Blank
import MetadataIndex.Text.Search
import MetadataIndex.Xml.DocumentMarkup
import MetadataIndex.Xml.ListedName

/-!
# Payloads of authority records

A record comes as a list of keys with values, as a mapping of keys to values, or as elements under a
root. All three give keys with texts in order; a key with several values is repeated.
-/

set_option autoImplicit false

namespace MetadataIndex

/-- Why a payload is no record. -/
inductive PayloadError where
  | malformedJson
  | malformedXml
  | itemWithoutKey
  /-- The document is neither a list nor a mapping; the kind it is. -/
  | unsupported (kind : String)
deriving DecidableEq, Repr

def PayloadError.message : PayloadError → String
  | malformedJson => "Invalid JSON: *"
  | malformedXml => "Invalid XML: *"
  | itemWithoutKey => "List entries need a 'key': *"
  | unsupported kind => "Unsupported JSON payload type: " ++ kind

namespace Payload

/-- The entry of an item of a list; an item without value has none. -/
def entryOfItem (item : Json) : Except PayloadError (Option (String × String)) :=
  match item.member? "key" with
  | none => .error .itemWithoutKey
  | some key =>
    let value := item.member "value"
    .ok (if value.isNull then none else some (key.display, value.display))

/-- The text of a value: an object stands for the text in it. -/
def textOfValue : Json → Option String
  | .null => none
  | .object members =>
    match Json.setting members "#text" with
    | .null => none
    | v => some v.display
  | v => some v.display

/-- Whether a key of a mapping is one of a record. -/
def isEntryKey (key : String) : Bool :=
  !(Text.startsWith key "@" || key == "#text")

def valuesOf : Json → List Json
  | .array items => items
  | v => [v]

def entriesOfMembers (members : List (String × Json)) : List (String × String) :=
  (members.filter fun (key, _) => isEntryKey key).flatMap fun (key, value) =>
    ((valuesOf value).filterMap textOfValue).map (key, ·)

def entriesOfJson : Json → Except PayloadError (List (String × String))
  | .array items => (items.mapM entryOfItem).map fun entries => entries.filterMap id
  | .object members => .ok (entriesOfMembers members)
  | v => .error (.unsupported v.kindName)

def readJson (s : String) : Except PayloadError (List (String × String)) :=
  match Json.read s with
  | .ok v => entriesOfJson v
  | .error _ => .error .malformedJson

/-- The number of characters of a declaration at the start of a text. -/
def declarationLength (cs : List Char) : Nat :=
  match Text.dropLiteral? "<?xml".toList cs with
  | none => 0
  | some rest =>
    let inner := rest.takeWhile (· != '?')
    match rest.drop inner.length with
    | '?' :: '>' :: _ => inner.length + 7
    | _ => 0

/-- A text without its declarations, after `skip` characters that belong to one. -/
def dropDeclarations : Nat → List Char → List Char
  | _, [] => []
  | skip + 1, _ :: cs => dropDeclarations skip cs
  | 0, c :: cs =>
    match declarationLength (c :: cs) with
    | 0 => c :: dropDeclarations 0 cs
    | skip + 1 => dropDeclarations skip cs

def isOrderMark (c : Char) : Bool :=
  c.toNat == 0xfeff || c.toNat == 0xfffe

/-- The part of a text that is a document of elements. -/
def xmlPart (s : String) : List Char :=
  Text.strip isOrderMark (Text.strip Text.isBlank (dropDeclarations 0 s.toList))

/-- The characters directly in an element; those of entities are left out. -/
def directChars (content : List Xml.Markup) : String :=
  String.join (content.map fun
    | .text s => s
    | _ => "")

/-- The elements in a content, with the trimmed characters directly in each. -/
def childTexts (content : List Xml.Markup) : List (String × String) :=
  content.filterMap fun
    | .element name _ inner => some (name, Text.trim (directChars inner))
    | _ => none

/-- Pairs in the order in which their names occur first. -/
def gathered {α : Type} (pairs : List (String × α)) : List (String × α) :=
  (pairs.map (·.1)).eraseDups.flatMap fun name => pairs.filter (·.1 == name)

/-- The entries of the elements in a root; an element without text has none. -/
def entriesOfRoot : Xml.Markup → List (String × String)
  | .element _ _ content => (gathered (childTexts content)).filter (!·.2.isEmpty)
  | _ => []

/-- The entries in the text of a document of elements, which may not declare entities. Its names are of
listed characters. -/
def readXml (s : String) : Except PayloadError (List (String × String)) :=
  let cs := xmlPart s
  if cs.isEmpty then .ok []
  else
    match Xml.DocumentMarkup.ofChars cs with
    | none => .error .malformedXml
    | some d =>
      if d.declarations.entities.isEmpty && d.declarations.parameters.isEmpty
          && Xml.Markup.haveListedNames d.content then
        .ok ((d.root?.map entriesOfRoot).getD [])
      else .error .malformedXml

end Payload

end MetadataIndex
