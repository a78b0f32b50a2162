import MetadataIndex.XPath.Query

/-!
# Logical structure

A document may describe a hierarchy of volumes, chapters and articles. Each node of the hierarchy
names the block of metadata that describes it. The hierarchy is read from the first division of the
logical map; every division in a division is a node of its own.
-/

set_option autoImplicit false

namespace MetadataIndex

open MetadataIndex.Xml (Cursor Node Name Attribute)

/-- A node of the hierarchy with the nodes below it. -/
inductive StructureNode where
  /-- A node with its identifier, the identifier of its block, its kind, whether it is the anchor
  of a collection, and the nodes below it in order. -/
  | mk (id blockId kind : Option String) (anchor : Bool) (children : List StructureNode)

namespace StructureNode

def id : StructureNode → Option String
  | mk id .. => id

/-- The identifier of the block that a node names; the empty identifier names none. -/
def blockId : StructureNode → Option String
  | mk _ blockId .. => blockId.filter (!·.isEmpty)

def kind : StructureNode → Option String
  | mk _ _ kind .. => kind

def anchor : StructureNode → Bool
  | mk _ _ _ anchor _ => anchor

def children : StructureNode → List StructureNode
  | mk _ _ _ _ children => children

/-- The first word of a list of identifiers; a list that begins with a blank has none. -/
def firstId (s : String) : Option String :=
  match s.toList.takeWhile (· != ' ') with
  | [] => none
  | word => some (String.ofList word)

/-- Whether a part of a document is an element with a name in a namespace. -/
def isNamed (space plain : String) : Node → Bool
  | .element name _ _ _ => name.space == space && name.plain == plain
  | _ => false

/-- The node that a division describes, with the nodes below it. -/
def ofDivision (space : String) (n : Node) (children : List StructureNode) : StructureNode :=
  mk (n.attribute? "ID") (n.attribute? "DMDID" >>= firstId) (n.attribute? "TYPE")
    (n.content.any (isNamed space "mptr")) children

mutual

/-- The nodes that a part of a document describes: one for a division, none for anything else. -/
def ofNode (space : String) : Node → List StructureNode
  | .element name attributes bindings content =>
    let n := Node.element name attributes bindings content
    if isNamed space "div" n then [ofDivision space n (ofContent space content)] else []
  | _ => []

/-- The nodes that the divisions in a content describe, in order. -/
def ofContent (space : String) : List Node → List StructureNode
  | [] => []
  | n :: more => ofNode space n ++ ofContent space more

end

end StructureNode

/-- A node of a hierarchy with the nodes above it, nearest first. -/
structure StructurePlace where
  node : StructureNode
  above : List StructureNode := []

namespace StructurePlace

mutual

/-- A node and all nodes below it, in document order, under the nodes given. -/
def walk (above : List StructureNode) : StructureNode → List StructurePlace
  | .mk id blockId kind anchor children =>
    let n := StructureNode.mk id blockId kind anchor children
    ⟨n, above⟩ :: walkAll (n :: above) children

/-- Nodes and all nodes below them, in document order, under the nodes given. -/
def walkAll (above : List StructureNode) : List StructureNode → List StructurePlace
  | [] => []
  | n :: more => walk above n ++ walkAll above more

end

end StructurePlace

namespace StructureNode

def places (n : StructureNode) : List StructurePlace :=
  StructurePlace.walk [] n

def find? (n : StructureNode) (id : String) : Option StructurePlace :=
  n.places.find? fun p => p.node.id == some id

end StructureNode

def logicalDivisions : XPath.Expr :=
  .step
    (.step (XPath.throughDescendants .root) .child (.name (some "mets") "structMap")
      [.binary .equal (.step .here .ofAttributes (.name none "TYPE") []) (.literal "LOGICAL")])
    .child (.name (some "mets") "div") []

def readStructure (e : XPath.Evaluator) (root : Cursor) : Checked (Option StructureNode) := do
  e.check
  match (e.select logicalDivisions root).filterMap XPath.Item.place? with
  | [] => return none
  | first :: _ =>
    let space := (lookup? "mets" e.namespaces).getD ""
    return ((first.node?.map (StructureNode.ofNode space)).getD []).head?

/-- The wrappers in blocks with the identifier that the variable `id` holds. -/
def blocksById : XPath.Expr :=
  .step
    (.step (XPath.throughDescendants .root) .child (.name (some "mets") "dmdSec")
      [.binary .equal (.step .here .ofAttributes (.name none "ID") []) (.variable none "id")])
    .child (.name (some "mets") "mdWrap") []

/-- The block of metadata with an identifier; the empty identifier names none. -/
def metadataBlock (e : XPath.Evaluator) (root : Cursor) (id : String) :
    Checked (Option Cursor) := do
  if id.isEmpty then return none
  e.check
  XPath.Evaluator.checkVariable (.text id)
  let found := e.select blocksById root [("id", .text id)]
  return (found.filterMap XPath.Item.place?).head?

end MetadataIndex
