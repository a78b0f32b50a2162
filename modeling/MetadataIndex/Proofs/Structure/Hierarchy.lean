import MetadataIndex.Proofs.Structure.Divisions
import MetadataIndex.Structure.Location

/-!
# The hierarchy of divisions

The nodes of a hierarchy are those of the divisions that are reached from the first top division from
division to division. They are walked through in document order, each node has the nodes of the divisions
in its division below it, and looking for a node is looking for its division.
-/

set_option autoImplicit false

namespace MetadataIndex

open MetadataIndex.Xml (Cursor Document Node)

namespace StructurePlace

/-- The places of the nodes directly below a node, each with the node as its parent. -/
def childPlaces (p : StructurePlace) : List StructurePlace :=
  p.node.children.map fun n => ⟨n, p.node :: p.above⟩

theorem walkAll_eq (above children : List StructureNode) :
    walkAll above children = children.flatMap (walk above) := by
  induction children with
  | nil => rfl
  | cons n children ih => rw [walkAll, ih, List.flatMap_cons]

/-- The walk from a place goes on from the places below it. -/
theorem walk_place (p : StructurePlace) :
    walk p.above p.node = p :: p.childPlaces.flatMap fun q => walk q.above q.node := by
  obtain ⟨⟨id, blockId, kind, anchor, children⟩, above⟩ := p
  rw [walk, walkAll_eq, childPlaces, List.flatMap_map]
  rfl

end StructurePlace

namespace StructureNode

variable {space : String} {d : Document} {c c' first : Cursor}

/-- The namespace of the documents with a hierarchy. -/
def metsSpace : String := "http://www.loc.gov/METS/"

/-! ## Nodes of divisions -/

/-- The node that a division describes with the divisions in it. -/
def describedBy (space : String) (n : Node) : StructureNode :=
  ofDivision space n (ofContent space n.content)

theorem ofNode_eq (n : Node) :
    ofNode space n = if isNamed space "div" n then [describedBy space n] else [] := by
  cases n with
  | element name attributes bindings content => rw [ofNode]; rfl
  | _ => rfl

/-- An identifier is never empty. -/
theorem filter_firstId (s : String) : (firstId s).filter (!·.isEmpty) = firstId s := by
  unfold firstId
  split
  · rfl
  · next given =>
    refine Option.filter_eq_some_iff.mpr ⟨rfl, ?_⟩
    rw [Bool.not_eq_true', Bool.eq_false_iff]
    intro empty
    have none := congrArg String.toList (String.isEmpty_iff.mp empty)
    rw [String.toList_ofList] at none
    exact given none

theorem blockId_describedBy (n : Node) :
    (describedBy space n).blockId = n.attribute? "DMDID" >>= firstId := by
  change (n.attribute? "DMDID" >>= firstId).filter (!·.isEmpty) = _
  cases n.attribute? "DMDID" with
  | none => rfl
  | some s => exact filter_firstId s

/-! ## Divisions below a division -/

/-- The divisions that stand directly in a place. -/
def divisionsIn (space : String) (c : Cursor) : List Cursor :=
  c.children.filter (isDivision space)

/-- A division is reached from another from division to division. -/
def ReachesDivision (space : String) (first c : Cursor) : Prop :=
  Relation.ReflTransGen (fun c c' => c' ∈ divisionsIn space c) first c

/-- Whether all parts of a document from a place up to the first one are divisions. -/
def isUnder (space : String) (first : Cursor) : Cursor → Bool
  | .inside above index n =>
    (Cursor.inside above index n).sameAs first || (isNamed space "div" n && isUnder space first above)
  | c => c.sameAs first

/-- The place in the hierarchy that a division has below the first one. -/
def placeUnder (space : String) (first : Cursor) : Cursor → StructurePlace
  | .inside above index n =>
    if (Cursor.inside above index n).sameAs first then ⟨describedBy space n, []⟩
    else
      let parent := placeUnder space first above
      ⟨describedBy space n, parent.node :: parent.above⟩
  | _ => ⟨describedBy space (.text ""), []⟩

/-- The divisions that are reached from the first one, in document order. -/
def divisionsFrom (space : String) (first : Cursor) : List Cursor :=
  first.subtree.filter (isUnder space first)

theorem not_sameAs_of_child (below : c ∈ first.subtree) (child : c' ∈ c.children) :
    c'.sameAs first = false := by
  obtain ⟨k, n, -, rfl⟩ := Cursor.mem_children.mp child
  rw [Bool.eq_false_iff]
  intro same
  have deeper := Cursor.length_positionUp_le below
  rw [← Cursor.sameAs_iff.mp same, Cursor.positionUp, List.length_cons] at deeper
  omega

theorem isUnder_self (first : Cursor) : isUnder space first first = true := by
  unfold isUnder
  split
  · rw [Cursor.sameAs_self, Bool.true_or]
  · exact Cursor.sameAs_self _

theorem isUnder_child (below : c ∈ first.subtree) (child : c' ∈ c.children) :
    isUnder space first c' = (isDivision space c' && isUnder space first c) := by
  have other := not_sameAs_of_child below child
  obtain ⟨k, n, -, rfl⟩ := Cursor.mem_children.mp child
  rw [isUnder, other]
  rfl

theorem mem_divisionsFrom : c ∈ divisionsFrom space first ↔ ReachesDivision space first c := by
  rw [divisionsFrom, List.mem_filter, Cursor.mem_subtree_iff]
  constructor
  · rintro ⟨reached, under⟩
    induction reached with
    | refl => exact .refl
    | tail reached child ih =>
      rw [isUnder_child (Cursor.mem_subtree_iff.mpr reached) child, Bool.and_eq_true] at under
      exact (ih under.2).tail (List.mem_filter.mpr ⟨child, under.1⟩)
  · intro reached
    induction reached with
    | refl => exact ⟨.refl, isUnder_self first⟩
    | tail _ step ih =>
      obtain ⟨child, division⟩ := List.mem_filter.mp step
      refine ⟨ih.1.tail child, ?_⟩
      rw [isUnder_child (Cursor.mem_subtree_iff.mpr ih.1) child, division, ih.2]
      rfl

/-- What is below a part that is no division is not reached. -/
theorem filter_isUnder_eq_nil (below : c ∈ first.subtree) (child : c' ∈ c.children)
    (other : isDivision space c' = false) : c'.subtree.filter (isUnder space first) = [] := by
  rw [List.filter_eq_nil_iff]
  intro x member
  rw [Bool.not_eq_true]
  induction Cursor.mem_subtree_iff.mp member with
  | refl =>
    rw [isUnder_child below child, other]
    rfl
  | tail reached step ih =>
    have inner := Cursor.mem_subtree_iff.mpr reached
    have outer := Cursor.mem_subtree_trans (Cursor.mem_subtree_of_child below child) inner
    rw [isUnder_child outer step, ih inner, Bool.and_false]

/-! ## Nodes and divisions -/

theorem node_placeUnder {n : Node} (part : c.node? = some n) :
    (placeUnder space first c).node = describedBy space n := by
  cases c with
  | inside above index m =>
    cases part
    rw [placeUnder]
    split <;> rfl
  | _ => cases part

theorem placeUnder_self {n : Node} (part : first.node? = some n) :
    placeUnder space first first = ⟨describedBy space n, []⟩ := by
  cases first with
  | inside above index m =>
    cases part
    rw [placeUnder, if_pos (Cursor.sameAs_self _)]
  | _ => cases part

theorem placeUnder_child (below : c ∈ first.subtree) {k : Nat} {n : Node}
    (child : .inside c k n ∈ c.children) : placeUnder space first (.inside c k n)
      = ⟨describedBy space n, (placeUnder space first c).node :: (placeUnder space first c).above⟩ := by
  rw [placeUnder, not_sameAs_of_child below child, if_neg Bool.false_ne_true]

theorem map_insideFrom {place : Cursor → StructurePlace} {parents : List StructureNode}
    {index : Nat} {content : List Node}
    (places : ∀ k n, .inside c k n ∈ Cursor.insideFrom c index content →
      place (.inside c k n) = ⟨describedBy space n, parents⟩) :
    ((Cursor.insideFrom c index content).filter (isDivision space)).map place
      = (ofContent space content).map fun n => ⟨n, parents⟩ := by
  induction content generalizing index with
  | nil => rfl
  | cons n content ih =>
    have rest := ih fun k m later => places k m (.tail _ later)
    have division : isDivision space (.inside c index n) = isNamed space "div" n := rfl
    rw [Cursor.insideFrom, List.filter_cons, division, ofContent, ofNode_eq, List.map_append, ← rest]
    cases isNamed space "div" n with
    | false => rfl
    | true =>
      rw [if_pos rfl, if_pos rfl, List.map_cons, places index n (.head _)]
      rfl

/-- The nodes below the node of a division are those of the divisions in it. -/
theorem map_divisionsIn (below : c ∈ first.subtree) {n : Node} (part : c.node? = some n) :
    (divisionsIn space c).map (placeUnder space first) = (placeUnder space first c).childPlaces := by
  have content : c.content = n.content := by
    cases c <;> cases part
    rfl
  have children : (describedBy space n).children = ofContent space c.content := by
    rw [content]
    rfl
  rw [StructurePlace.childPlaces, node_placeUnder part, children, ← node_placeUnder part]
  exact map_insideFrom fun k m child => placeUnder_child below child

theorem flatMap_filter_of_nil {α β : Type} {p : α → Bool} {g : α → List β} {l : List α}
    (skipped : ∀ a ∈ l, p a = false → g a = []) : (l.filter p).flatMap g = l.flatMap g := by
  induction l with
  | nil => rfl
  | cons a l ih =>
    obtain ⟨first, rest⟩ := List.forall_mem_cons.mp skipped
    rw [List.filter_cons, List.flatMap_cons, ← ih rest]
    cases kept : p a with
    | true => rfl
    | false => rw [first kept, List.nil_append, if_neg Bool.false_ne_true]

/-- The walk from the node of a division meets the nodes of the divisions reached from it, in order. -/
theorem walk_placeUnder (reached : ReachesDivision space first c) (isPart : c.node?.isSome = true) :
    StructurePlace.walk (placeUnder space first c).above (placeUnder space first c).node
      = (c.subtree.filter (isUnder space first)).map (placeUnder space first) := by
  induction c using Cursor.children_induction with
  | step c ih =>
    obtain ⟨below, under⟩ := List.mem_filter.mp (mem_divisionsFrom.mpr reached)
    obtain ⟨n, part⟩ := Option.isSome_iff_exists.mp isPart
    have inner (c' : Cursor) (member : c' ∈ divisionsIn space c) :
        StructurePlace.walk (placeUnder space first c').above (placeUnder space first c').node
          = (c'.subtree.filter (isUnder space first)).map (placeUnder space first) := by
      obtain ⟨child, division⟩ := List.mem_filter.mp member
      exact ih c' child (reached.tail member) (isSome_of_any division)
    have skipped (c' : Cursor) (child : c' ∈ c.children) (other : isDivision space c' = false) :
        c'.subtree.filter (isUnder space first) = [] := filter_isUnder_eq_nil below child other
    rw [StructurePlace.walk_place, ← map_divisionsIn below part, List.flatMap_map,
      List.flatMap_congr inner, Cursor.subtree_eq, List.filter_cons, if_pos under, List.map_cons,
      ← List.map_flatMap, divisionsIn, flatMap_filter_of_nil skipped, List.filter_flatMap]

/-! ## What a division says of its node -/

/-- The identifier of the block that a division names. -/
def blockIdOf? (c : Cursor) : Option String :=
  c.attribute? "DMDID" >>= firstId

/-- A division that refers to the file of a collection is its anchor. -/
def isAnchor (space : String) (c : Cursor) : Bool :=
  c.content.any (isNamed space "mptr")

/-- Whether a division names a block and is no anchor. -/
def isDescribed (space : String) (c : Cursor) : Bool :=
  (blockIdOf? c).isSome && !isAnchor space c

/-- A node is what a division says. -/
structure Describes (space : String) (c : Cursor) (s : StructureNode) : Prop where
  id : s.id = c.attribute? "ID"
  blockId : s.blockId = blockIdOf? c
  kind : s.kind = c.attribute? "TYPE"
  anchor : s.anchor = isAnchor space c

theorem describes_placeUnder (isPart : c.node?.isSome = true) :
    Describes space c (placeUnder space first c).node := by
  obtain ⟨n, part⟩ := Option.isSome_iff_exists.mp isPart
  cases c with
  | inside above index m =>
    cases part
    rw [node_placeUnder rfl]
    exact ⟨rfl, blockId_describedBy n, rfl, rfl⟩
  | _ => cases part

/-- A hierarchy mirrors divisions, each by its place in the hierarchy: they are the divisions that are
reached from the first one, in document order, and so are their nodes when the hierarchy is walked
through; the nodes below the node of a division are those of the divisions in it, in order and with this
node as their parent. -/
structure Mirrors (space : String) (first : Cursor) (divisions : List Cursor)
    (place : Cursor → StructurePlace) (s : StructureNode) : Prop where
  reached : ∀ c, c ∈ divisions ↔ ReachesDivision space first c
  ordered : divisions.Pairwise XPath.Precedes
  walked : s.places = divisions.map place
  top : place first = ⟨s, []⟩
  below : ∀ c ∈ divisions, (place c).childPlaces = (divisionsIn space c).map place
  described : ∀ c ∈ divisions, Describes space c (place c).node

theorem isSome_of_reached (reached : ReachesDivision space first c)
    (isPart : first.node?.isSome = true) : c.node?.isSome = true := by
  cases reached with
  | refl => exact isPart
  | tail _ member => exact isSome_of_any (List.mem_filter.mp member).2

theorem mirrors_describedBy {n : Node} (part : first.node? = some n) :
    Mirrors space first (divisionsFrom space first) (placeUnder space first)
      (describedBy space n) := by
  have isPart : first.node?.isSome = true := Option.isSome_iff_exists.mpr ⟨n, part⟩
  have top : placeUnder space first first = ⟨describedBy space n, []⟩ := placeUnder_self part
  have inner (c : Cursor) (member : c ∈ divisionsFrom space first) : c.node?.isSome = true :=
    isSome_of_reached (mem_divisionsFrom.mp member) isPart
  refine ⟨fun _ => mem_divisionsFrom, ?_, ?_, top, fun c member => ?_, fun c member => ?_⟩
  · exact (XPath.pairwise_subtree first).sublist List.filter_sublist
  · have walked : StructurePlace.walk (placeUnder space first first).above
        (placeUnder space first first).node
          = (divisionsFrom space first).map (placeUnder space first) :=
      walk_placeUnder .refl isPart
    rw [top] at walked
    exact walked
  · obtain ⟨m, part⟩ := Option.isSome_iff_exists.mp (inner c member)
    exact (map_divisionsIn (List.mem_filter.mp member).1 part).symm
  · exact describes_placeUnder (inner c member)

namespace Mirrors

variable {divisions : List Cursor} {place : Cursor → StructurePlace} {s : StructureNode}

/-- Looking for a node is looking for its division. -/
theorem find_places (mirrors : Mirrors space first divisions place s) {p : StructurePlace → Bool}
    {q : Cursor → Bool} (same : ∀ c, Describes space c (place c).node → p (place c) = q c) :
    s.places.find? p = (divisions.find? q).map place := by
  have agree : divisions.filter (p ∘ place) = divisions.filter q :=
    List.filter_congr fun c member => same c (mirrors.described c member)
  rw [mirrors.walked, List.find?_map, ← List.head?_filter, agree, List.head?_filter]

theorem finds (mirrors : Mirrors space first divisions place s) (id : String) :
    s.find? id = (divisions.find? fun c => c.attribute? "ID" == some id).map place :=
  mirrors.find_places fun c describes => by rw [describes.id]

theorem selects (mirrors : Mirrors space first divisions place s) {id : Json}
    (unnamed : id.isGiven = false) : selectNode s id
      = required .noDescribedNode ((divisions.find? (isDescribed space)).map place) := by
  rw [selectNode, unnamed, if_neg Bool.false_ne_true]
  refine congrArg _ (mirrors.find_places fun c describes => ?_)
  rw [describes.blockId, describes.anchor]
  rfl

end Mirrors

/-! ## Reading and locating -/

variable {e : XPath.Evaluator} {root : Cursor}

theorem top_of_root (isRoot : d.root? = some root) : root.top = .document d := by
  obtain ⟨k, n, -, rfl⟩ := Cursor.mem_children.mp (List.mem_of_find?_eq_some isRoot)
  rfl

theorem readStructure_eq {n : Node} (isRoot : d.root? = some root) (usable : e.check = .ok ())
    (bound : lookup? "mets" e.namespaces = some space)
    (isFirst : (topDivisions space d).head? = some first) (part : first.node? = some n) :
    readStructure e root = .ok (some (describedBy space n)) := by
  obtain ⟨more, found⟩ := List.head?_eq_some_iff.mp isFirst
  have division : isNamed space "div" n = true := by
    have member : first ∈ topDivisions space d := List.mem_of_mem_head? isFirst
    have top := (List.mem_filter.mp member).2
    rw [isTopDivision, isDivision, part, Bool.and_eq_true] at top
    exact top.1
  rw [readStructure, usable, select_logicalDivisions (top_of_root isRoot) bound, found]
  dsimp only [bind, Except.bind]
  rw [bound, part, Option.getD_some, Option.map_some, Option.getD_some, ofNode_eq, if_pos division]
  rfl

/-- A block that cannot be looked up is refused. -/
theorem metadataBlock_refuses (usable : e.check = .ok ()) (root : Cursor) (id : String) :
    (∃ block, metadataBlock e root id = .ok block)
      ∨ ∃ cause, metadataBlock e root id = refuse cause := by
  have valid : XPath.Evaluator.checkVariable (.text id)
      = if Xml.isText id then .ok () else refuse .notXmlText := rfl
  rw [metadataBlock, usable, valid]
  cases id.isEmpty with
  | true => exact .inl ⟨none, rfl⟩
  | false =>
    cases Xml.isText id with
    | true => exact .inl ⟨_, rfl⟩
    | false => exact .inr ⟨.notXmlText, rfl⟩

variable {divisions : List Cursor} {place : Cursor → StructurePlace} {s : StructureNode} {id : Json}

theorem locate_of_refused (isMets : root.node?.any (isNamed metsSpace "mets") = true)
    (read : readStructure e root = .ok (some s)) {cause : Refusal}
    (refused : selectNode s id = refuse cause) : locate e root id = refuse cause := by
  unfold metsSpace at isMets
  rw [locate, isMets, read]
  change ((selectNode s id).bind _ : Checked Location) = _
  rw [refused]
  rfl

theorem locate_of_selected (isMets : root.node?.any (isNamed metsSpace "mets") = true)
    (read : readStructure e root = .ok (some s)) {p : StructurePlace} {blockId : String}
    (selected : selectNode s id = .ok p) (named : p.node.blockId = some blockId) :
    locate e root id = (metadataBlock e root blockId).bind fun block =>
      (required (.noMetadataBlock (displayOptional p.node.id)) block).bind fun element =>
      .ok { element, context := some ⟨p, metadataBlock e root⟩, leading := blockLeading } := by
  unfold metsSpace at isMets
  rw [locate, isMets, read]
  change ((selectNode s id).bind _ : Checked Location) = _
  rw [selected]
  dsimp only [Except.bind]
  rw [named]
  rfl

/-- The division that is located: the first that is described, at its block if that is there. -/
structure Locates (e : XPath.Evaluator) (root : Cursor) (place : Cursor → StructurePlace) (c : Cursor)
    (blockId : String) (located : Checked Location) : Prop where
  names : blockIdOf? c = some blockId
  found : ∀ block, metadataBlock e root blockId = .ok (some block) →
    located = .ok { element := block, context := some ⟨place c, metadataBlock e root⟩,
                    leading := blockLeading }
  missing : (∀ block, metadataBlock e root blockId ≠ .ok (some block)) →
    ∃ cause, located = refuse cause

theorem Mirrors.locates (mirrors : Mirrors metsSpace first divisions place s)
    (isMets : root.node?.any (isNamed metsSpace "mets") = true) (usable : e.check = .ok ())
    (read : readStructure e root = .ok (some s)) (unnamed : id.isGiven = false)
    (found : divisions.find? (isDescribed metsSpace) = some c) :
    ∃ blockId, Locates e root place c blockId (locate e root id) := by
  have described : isDescribed metsSpace c = true := List.find?_some found
  rw [isDescribed, Bool.and_eq_true] at described
  obtain ⟨blockId, names⟩ := Option.isSome_iff_exists.mp described.1
  have selected : selectNode s id = .ok (place c) := by
    rw [mirrors.selects unnamed, found]
    rfl
  have describes := mirrors.described c (List.mem_of_find?_eq_some found)
  have located := locate_of_selected isMets read selected (describes.blockId.trans names)
  refine ⟨blockId, names, fun block known => ?_, fun unknown => ?_⟩
  · rw [located, known]
    rfl
  · rcases metadataBlock_refuses usable root blockId with ⟨block, known⟩ | ⟨cause, refused⟩
    · cases block with
      | some block => exact absurd known (unknown block)
      | none =>
        rw [located, known]
        exact ⟨_, rfl⟩
    · rw [located, refused]
      exact ⟨cause, rfl⟩

/-- The hierarchy that is read from a document with a top division mirrors the divisions that are reached
from the first one. Its nodes are found by their identifiers as their divisions are, and without an
identifier the first division that is described is located. -/
theorem mirrors_of_readStructure (isRoot : d.root? = some root)
    (isMets : root.node?.any (isNamed metsSpace "mets") = true) (usable : e.check = .ok ())
    (bound : lookup? "mets" e.namespaces = some metsSpace)
    (isFirst : (topDivisions metsSpace d).head? = some first) :
    ∃ s divisions place, readStructure e root = .ok (some s)
      ∧ Mirrors metsSpace first divisions place s
      ∧ (∀ id, s.find? id = (divisions.find? fun c => c.attribute? "ID" == some id).map place)
      ∧ ∀ id : Json, id.isGiven = false →
        (divisions.find? (isDescribed metsSpace) = none →
          locate e root id = refuse .noDescribedNode)
        ∧ ∀ c, divisions.find? (isDescribed metsSpace) = some c →
          ∃ blockId, Locates e root place c blockId (locate e root id) := by
  obtain ⟨n, part⟩ : ∃ n, first.node? = some n := by
    have top := (List.mem_filter.mp (List.mem_of_mem_head? isFirst)).2
    exact Option.isSome_iff_exists.mp (isSome_of_any (Bool.and_eq_true_iff.mp top).1)
  have read := readStructure_eq isRoot usable bound isFirst part
  have mirrors : Mirrors metsSpace first (divisionsFrom metsSpace first)
      (placeUnder metsSpace first) (describedBy metsSpace n) := mirrors_describedBy part
  refine ⟨_, _, _, read, mirrors, mirrors.finds, fun id unnamed => ⟨fun none => ?_, fun c found => ?_⟩⟩
  · refine locate_of_refused isMets read ?_
    rw [mirrors.selects unnamed, none]
    rfl
  · exact mirrors.locates isMets usable read unnamed found

/-! ## A collection -/

def metsElement (plain : String) (attributes : List (String × String)) (content : List Node) : Node :=
  .element { space := metsSpace, mark := "mets", plain }
    (attributes.map fun (name, value) => { name := { plain := name }, value }) [] content

/-- The volumes of a collection, the second in a group that is no division. -/
def collection : Node :=
  metsElement "div" [("ID", "L0"), ("DMDID", "D0")]
    [metsElement "mptr" [] [], metsElement "div" [("ID", "L1"), ("DMDID", "D1 A1")] [],
      metsElement "fptr" [] [metsElement "div" [("ID", "L2")] []]]

def logicalMap : Node := metsElement "structMap" [("TYPE", "LOGICAL")] [collection]

/-- A physical map comes before the logical map. -/
def collectionRoot : Node :=
  metsElement "mets" []
    [metsElement "dmdSec" [("ID", "D1")] [metsElement "mdWrap" [] []],
      metsElement "structMap" [("TYPE", "PHYSICAL")] [metsElement "div" [("ID", "P0")] []],
      logicalMap]

def collectionDocument : Document := ⟨[collectionRoot]⟩

def collectionCursor : Cursor := .inside (.document collectionDocument) 0 collectionRoot

def collectionTop : Cursor := .inside (.inside collectionCursor 2 logicalMap) 0 collection

theorem mirrors_of_readStructure_collection :
    collectionDocument.root? = some collectionCursor
      ∧ collectionCursor.node?.any (isNamed metsSpace "mets") = true
      ∧ ({} : XPath.Evaluator).check = .ok ()
      ∧ lookup? "mets" ({} : XPath.Evaluator).namespaces = some metsSpace
      ∧ (topDivisions metsSpace collectionDocument).head? = some collectionTop
      ∧ ∃ s divisions place, readStructure {} collectionCursor = .ok (some s)
        ∧ Mirrors metsSpace collectionTop divisions place s := by
  have isRoot : collectionDocument.root? = some collectionCursor := by rfl
  have isMets : collectionCursor.node?.any (isNamed metsSpace "mets") = true := by rfl
  have usable : ({} : XPath.Evaluator).check = .ok () := by rfl
  have bound : lookup? "mets" ({} : XPath.Evaluator).namespaces = some metsSpace := by rfl
  have isFirst : (topDivisions metsSpace collectionDocument).head? = some collectionTop := by rfl
  obtain ⟨s, divisions, place, read, mirrors, -⟩ :=
    mirrors_of_readStructure isRoot isMets usable bound isFirst
  exact ⟨isRoot, isMets, usable, bound, isFirst, s, divisions, place, read, mirrors⟩

end StructureNode

end MetadataIndex
