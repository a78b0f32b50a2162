import MetadataIndex.Structure.Basic
import MetadataIndex.Rule.Basic

/-!
# Scope

The elements in which a rule looks for values: the element at hand, then the blocks of the children
of its node, then those of its ancestors, nearest first, up to the first anchor. No element is
looked at twice.
-/

set_option autoImplicit false

namespace MetadataIndex

open MetadataIndex.Xml (Cursor)

/-- Where the element at hand stands in its hierarchy. -/
structure ElementContext where
  place : StructurePlace
  block : String → Checked (Option Cursor)

namespace ElementContext

/-- The identifiers of the blocks of the children that a rule looks into. -/
def childIds (scope : ChildScope) (place : StructurePlace) : List String :=
  match scope with
  | .none => []
  | .all => place.node.children.filterMap (·.blockId)

def searchedAncestors (scope : ParentScope) (place : StructurePlace) : List StructureNode :=
  let below := place.above.takeWhile (!·.anchor)
  match scope with
  | .none => []
  | .first => below.take 1
  | .all => below

/-- The identifiers of the blocks a rule looks into besides the element at hand, each once. -/
def searchedIds (rule : FieldRule) (place : StructurePlace) : List String :=
  (childIds rule.child place
    ++ (searchedAncestors rule.parents place).filterMap (·.blockId)).eraseDups

/-- Adds a block to the elements unless it is among them. -/
def addBlock (elements : List Cursor) : Option Cursor → List Cursor
  | some block => if elements.any (·.sameAs block) then elements else elements ++ [block]
  | none => elements

end ElementContext

def expandScope (rule : FieldRule) (element : Option Cursor) (context : Option ElementContext) :
    Checked (List Cursor) :=
  match context with
  | none => .ok element.toList
  | some context =>
    (ElementContext.searchedIds rule context.place).foldlM
      (fun elements id => (context.block id).map (ElementContext.addBlock elements))
      element.toList

end MetadataIndex
