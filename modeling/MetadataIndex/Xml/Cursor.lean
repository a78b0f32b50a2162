import MetadataIndex.Xml.Node

/-!
# Places in a document

A cursor is a part of a document together with where it stands, so that the document can be walked
in every direction. Two cursors of a document are at the same place when their positions agree.
-/

set_option autoImplicit false

namespace MetadataIndex.Xml

/-- A place in a document. -/
inductive Cursor where
  | document (d : Document)
  /-- A part of the content, by its index in what is above it. -/
  | inside (above : Cursor) (index : Nat) (node : Node)
  | ofAttribute (owner : Cursor) (index : Nat) (a : Attribute)
  | ofBinding (owner : Cursor) (index : Nat) (mark space : String)

namespace Cursor

def node? : Cursor → Option Node
  | inside _ _ n => some n
  | _ => none

def above? : Cursor → Option Cursor
  | document _ => none
  | inside above _ _ => some above
  | ofAttribute owner _ _ => some owner
  | ofBinding owner _ _ _ => some owner

def content : Cursor → List Node
  | document d => d.content
  | inside _ _ n => n.content
  | _ => []

def top : Cursor → Cursor
  | document d => document d
  | inside above _ _ => above.top
  | ofAttribute owner _ _ => owner.top
  | ofBinding owner _ _ _ => owner.top

/-- The position from the document down: for each level what kind of part it is and its index. -/
def positionUp : Cursor → List (Nat × Nat)
  | document _ => []
  | inside above index _ => (2, index) :: above.positionUp
  | ofAttribute owner index _ => (1, index) :: owner.positionUp
  | ofBinding owner index _ _ => (0, index) :: owner.positionUp

def position (c : Cursor) : List (Nat × Nat) :=
  c.positionUp.reverse

/-- Whether two cursors of a document are at the same place. -/
def sameAs (a b : Cursor) : Bool :=
  a.positionUp == b.positionUp

/-- Cursors to parts of the content, counted from an index. -/
def insideFrom (above : Cursor) : Nat → List Node → List Cursor
  | _, [] => []
  | index, n :: more => inside above index n :: insideFrom above (index + 1) more

def children (c : Cursor) : List Cursor :=
  insideFrom c 0 c.content

def ancestors : Cursor → List Cursor
  | document _ => []
  | inside above _ _ => above :: above.ancestors
  | ofAttribute owner _ _ => owner :: owner.ancestors
  | ofBinding owner _ _ _ => owner :: owner.ancestors

mutual

/-- A part and all parts in it, in document order. -/
def subtreeOf (above : Cursor) (index : Nat) : Node → List Cursor
  | .element name attributes bindings content =>
    let c := inside above index (.element name attributes bindings content)
    c :: subtreesOf c 0 content
  | .text s => [inside above index (.text s)]
  | .comment s => [inside above index (.comment s)]
  | .instruction target data => [inside above index (.instruction target data)]
  | .reference name s => [inside above index (.reference name s)]

/-- Parts, counted from an index, and all parts in them. -/
def subtreesOf (above : Cursor) (index : Nat) : List Node → List Cursor
  | [] => []
  | n :: more => subtreeOf above index n ++ subtreesOf above (index + 1) more

end

def descendants (c : Cursor) : List Cursor :=
  subtreesOf c 0 c.content

def subtree (c : Cursor) : List Cursor :=
  c :: c.descendants

/-- The parts after a cursor in what it stands in. -/
def siblingsAfter : Cursor → List Cursor
  | inside above index _ => insideFrom above (index + 1) (above.content.drop (index + 1))
  | _ => []

/-- The parts before a cursor in what it stands in, nearest first. -/
def siblingsBefore : Cursor → List Cursor
  | inside above index _ => (insideFrom above 0 (above.content.take index)).reverse
  | _ => []

/-- The parts after a cursor that are not in it, in document order. An attribute or a namespace is
where its element is. -/
def following : Cursor → List Cursor
  | document _ => []
  | inside above index n =>
    (siblingsAfter (inside above index n)).flatMap subtree ++ above.following
  | ofAttribute owner _ _ => owner.following
  | ofBinding owner _ _ _ => owner.following

/-- The parts before a cursor that it is not in, nearest first. -/
def preceding : Cursor → List Cursor
  | document _ => []
  | inside above index n =>
    (siblingsBefore (inside above index n)).flatMap (fun c => c.subtree.reverse) ++ above.preceding
  | ofAttribute owner _ _ => owner.preceding
  | ofBinding owner _ _ _ => owner.preceding

def attributesFrom (owner : Cursor) : Nat → List Attribute → List Cursor
  | _, [] => []
  | index, a :: more => ofAttribute owner index a :: attributesFrom owner (index + 1) more

def attributes (c : Cursor) : List Cursor :=
  match c.node? with
  | some n => attributesFrom c 0 n.attributes
  | none => []

def bindingsFrom (owner : Cursor) : Nat → List (String × String) → List Cursor
  | _, [] => []
  | index, (mark, space) :: more =>
    ofBinding owner index mark space :: bindingsFrom owner (index + 1) more

/-- The namespaces bound in an element; the default namespace is among them if it is not empty. -/
def namespaces (c : Cursor) : List Cursor :=
  match c.node? with
  | some n =>
    if n.isElement then
      bindingsFrom c 0 (("xml", xmlSpace) :: (n.bindings.filter (!·.2.isEmpty)).reverse)
    else []
  | none => []

def fullText : Cursor → String
  | document d => Node.fullTextOfAll d.content
  | inside _ _ (.comment s) => s
  | inside _ _ (.instruction _ data) => data
  | inside _ _ n => n.fullText
  | ofAttribute _ _ a => a.value
  | ofBinding _ _ _ space => space

def isElement (c : Cursor) : Bool :=
  c.node?.any (·.isElement)

def parentElement? (c : Cursor) : Option Cursor :=
  c.above?.filter (·.isElement)

/-- The value of the attribute with a name in no namespace. -/
def attribute? (c : Cursor) (name : String) : Option String :=
  c.node? >>= (·.attribute? name)

/-- The indices of the elements from the root down to a cursor, each among the elements beside
it. -/
def elementPath : Cursor → List Nat
  | inside (inside above i parent) index _ =>
    (inside above i parent).elementPath
      ++ [((parent.content.take index).filter (·.isElement)).length]
  | _ => []

end Cursor

def Document.root? (d : Document) : Option Cursor :=
  (Cursor.document d).children.find? (·.isElement)

end MetadataIndex.Xml
