import MetadataIndex.XPath.Parser
import MetadataIndex.XPath.Evaluation
import MetadataIndex.Text.Composed
import MetadataIndex.Json.Basic

/-!
# Queries

A query is evaluated at a place with a fixed set of namespaces. A query that cannot be read or has
no value selects nothing; a set of namespaces that leaves a mark or an address empty is a fault.
-/

set_option autoImplicit false

namespace MetadataIndex.XPath

open MetadataIndex.Xml (Cursor)

/-- One result of a query. -/
inductive Item where
  | place (c : Cursor)
  | text (s : String)
  | number (x : Float)
  | truth (b : Bool)
  | other

namespace Item

/-- The result that a place gives: attributes and characters are texts, and the document itself is
no result. -/
def ofPlace : Cursor → Option Item
  | .document _ => none
  | .inside _ _ (.text s) => some (text s)
  | .inside above index n => some (place (.inside above index n))
  | .ofAttribute _ _ a => some (text a.value)
  | .ofBinding .. => some other

def ofValue : Value → List Item
  | .places l => l.filterMap ofPlace
  | .number x => [number x]
  | .text s => [text s]
  | .truth b => [truth b]

def place? : Item → Option Cursor
  | place c => some c
  | _ => none

/-- The text of a result: the direct text of an element in composed form, a whole number without
fraction, and a truth value as a word. -/
def toText : Item → Option String
  | place c => some (Text.composed ((c.node?.map (·.directText)).getD ""))
  | text s => some (Text.composed s)
  | number x =>
    some (if Decimal.isWhole x then toString (Decimal.truncate x) else Decimal.floatText x)
  | truth b => some (if b then "true" else "false")
  | other => none

end Item

def defaultNamespaces : List (String × String) :=
  [("mets", "http://www.loc.gov/METS/"), ("mods", "http://www.loc.gov/mods/v3"),
    ("dc", "http://purl.org/dc/elements/1.1/"), ("xlink", "http://www.w3.org/1999/xlink"),
    ("gml", "http://www.opengis.net/gml/3.2"), ("tei", "http://www.tei-c.org/ns/1.0"),
    ("lido", "http://www.lido-schema.org"), ("marc", "http://www.loc.gov/MARC21/slim"),
    ("ead", "urn:isbn:1-931666-22-9")]

/-- Evaluates queries with a set of namespaces. -/
structure Evaluator where
  namespaces : List (String × String) := defaultNamespaces

namespace Evaluator

def ofNamespaces (configured : List (String × String)) : Evaluator :=
  { namespaces := storeAll defaultNamespaces configured }

def checkNamespace (mark space : String) : Checked Unit :=
  if mark.isEmpty || space.isEmpty then .error .wrongType
  else if Xml.isText mark && Xml.isText space then .ok ()
  else refuse .notXmlText

def check (e : Evaluator) : Checked Unit :=
  e.namespaces.forM fun (mark, space) => checkNamespace mark space

/-- Whether a text value of a variable can be used. -/
def checkVariable : Value → Checked Unit
  | .text s => if Xml.isText s then .ok () else refuse .notXmlText
  | _ => .ok ()

def select (e : Evaluator) (expr : Expr) (c : Cursor) (values : List (String × Value) := []) :
    List Item :=
  match expr.eval { namespaces := e.namespaces, values } { place := c } with
  | some value => Item.ofValue value
  | none => []

def evaluate (e : Evaluator) (query : String) (c : Cursor)
    (values : List (String × Value) := []) : Checked (List Item) := do
  if query.isEmpty then return []
  e.check
  if !Xml.isText query then refuse .notXmlText
  values.forM fun (_, value) => checkVariable value
  match Expr.read? query with
  | some expr => return e.select expr c values
  | none => return []

/-- The elements, comments and instructions among the results of a query. -/
def evaluatePlaces (e : Evaluator) (query : String) (c : Cursor) : Checked (List Cursor) := do
  return (← e.evaluate query c).filterMap Item.place?

def evaluateTexts (e : Evaluator) (query : String) (c : Cursor) : Checked (List String) := do
  return (← e.evaluate query c).filterMap Item.toText

end Evaluator

/-- What stands in an expression where the leading part of its query belongs. -/
def rootPlaceholder : String := "\x7b\x7b\x7bROOT\x7d\x7d\x7d"

/-- The last step to the displayed form of a name. -/
def displayFormStep : String := "/mods:displayForm"

/-- The query of an expression behind a leading part. A grouped rule selects the name itself and
not its displayed form; a placeholder takes the leading part where it stands. -/
def buildQuery (xpath leading : String) (grouped : Bool) : String :=
  let xpath :=
    if grouped && Text.endsWith xpath displayFormStep then
      String.ofList (xpath.toList.take (xpath.length - displayFormStep.length))
    else xpath
  if Text.containsLiteral xpath rootPlaceholder then
    Text.replaceLiteral rootPlaceholder leading xpath
  else leading ++ xpath

end MetadataIndex.XPath
