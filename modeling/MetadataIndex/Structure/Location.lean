import MetadataIndex.Structure.Scope

/-!
# The element to transform

In a document with a logical structure the element is the block of metadata of one node: the one
asked for, or the first that is no anchor and names a block. Any other document is transformed from
its root.
-/

set_option autoImplicit false

namespace MetadataIndex

open MetadataIndex.Xml (Cursor)

/-- The element to transform. -/
structure Location where
  element : Cursor
  context : Option ElementContext := none
  leading : String := ""

/-- What is put before the expressions of rules in a block of metadata. -/
def blockLeading : String := "mets:xmlData/mods:mods/"

/-- The node of a hierarchy that is asked for, or the first that is described. -/
def selectNode (s : StructureNode) (id : Json) : Checked StructurePlace :=
  if id.isGiven then
    required (.unknownStructureNode id.display) (id.text? >>= s.find?)
  else
    required .noDescribedNode
      (s.places.find? fun p => p.node.blockId.isSome && !p.node.anchor)

/-- Finds the element to transform from the root of a document. -/
def locate (e : XPath.Evaluator) (root : Cursor) (id : Json) : Checked Location := do
  if !root.node?.any (StructureNode.isNamed "http://www.loc.gov/METS/" "mets") then
    return { element := root }
  let s ← required .noStructure (← readStructure e root)
  let place ← selectNode s id
  let block ← match place.node.blockId with
    | some blockId => metadataBlock e root blockId
    | none => pure none
  let element ← required (.noMetadataBlock (displayOptional place.node.id)) block
  return { element, context := some ⟨place, metadataBlock e root⟩, leading := blockLeading }

end MetadataIndex
