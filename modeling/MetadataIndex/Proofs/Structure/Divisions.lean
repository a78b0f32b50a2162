import MetadataIndex.Proofs.XPath.Step
import MetadataIndex.Structure.Basic

/-!
# Logical divisions

The hierarchy of a document is read from its first top division: the first division, in document order,
that stands directly in a logical map.
-/

set_option autoImplicit false

namespace MetadataIndex

open MetadataIndex.Xml (Cursor Document Node)

namespace StructureNode

variable {space : String} {d : Document} {c x : Cursor}

def isDivision (space : String) (c : Cursor) : Bool :=
  c.node?.any (isNamed space "div")

def isLogicalMap (space : String) (c : Cursor) : Bool :=
  c.node?.any (isNamed space "structMap") && c.node?.any (XPath.hasValue "TYPE" "LOGICAL")

def isTopDivision (space : String) (c : Cursor) : Bool :=
  isDivision space c && c.above?.any (isLogicalMap space)

/-- The divisions that stand directly in a logical map, in document order. -/
def topDivisions (space : String) (d : Document) : List Cursor :=
  (Cursor.document d).subtree.filter (isTopDivision space)

theorem isElementNamed_eq (space plain : String) :
    XPath.isElementNamed space plain = fun c => c.node?.any (isNamed space plain) := by
  funext c
  cases c with
  | inside above index n => cases n <;> rfl
  | _ => rfl

theorem isSome_of_any {p : Node → Bool} (holds : c.node?.any p = true) : c.node?.isSome = true := by
  cases node : c.node? with
  | none =>
    rw [node] at holds
    cases holds
  | some n => rfl

/-- The logical maps among the parts of a document. -/
theorem parts_logicalMaps :
    ((∃ x ∈ (Cursor.document d).subtree.filter XPath.isNoReference, c ∈ x.children)
        ∧ XPath.isElementNamed space "structMap" c = true
        ∧ c.node?.any (XPath.hasValue "TYPE" "LOGICAL") = true)
      ↔ c ∈ (Cursor.document d).subtree ∧ isLogicalMap space c = true := by
  rw [isElementNamed_eq, isLogicalMap, Bool.and_eq_true]
  refine and_congr_left fun ⟨named, _⟩ => ⟨?_, fun part => ?_⟩
  · rintro ⟨x, member, child⟩
    exact Cursor.mem_subtree_of_child (List.mem_filter.mp member).1 child
  · obtain ⟨x, part', open', child⟩ := XPath.exists_parent part (isSome_of_any named)
    exact ⟨x, List.mem_filter.mpr ⟨part', open'⟩, child⟩

theorem parts_topDivisions :
    ((∃ x ∈ (Cursor.document d).subtree.filter (isLogicalMap space), c ∈ x.children)
        ∧ XPath.isElementNamed space "div" c = true ∧ true = true)
      ↔ c ∈ (Cursor.document d).subtree ∧ isTopDivision space c = true := by
  rw [isElementNamed_eq, isTopDivision, Bool.and_eq_true, isDivision, and_iff_left rfl]
  constructor
  · rintro ⟨⟨x, member, child⟩, named⟩
    obtain ⟨part, logical⟩ := List.mem_filter.mp member
    rw [XPath.above_of_mem_children child]
    exact ⟨Cursor.mem_subtree_of_child part child, named, logical⟩
  · rintro ⟨part, named, logical⟩
    obtain ⟨x, part', -, child⟩ := XPath.exists_parent part (isSome_of_any named)
    rw [XPath.above_of_mem_children child] at logical
    exact ⟨⟨x, List.mem_filter.mpr ⟨part', logical⟩, child⟩, named⟩

variable {e : XPath.Evaluator} {root : Cursor}

theorem eval_logicalDivisions (top : root.top = .document d)
    (bound : lookup? "mets" e.namespaces = some space) :
    logicalDivisions.eval { namespaces := e.namespaces } { place := root }
      = some (.places (topDivisions space d)) := by
  have start : XPath.Expr.root.eval { namespaces := e.namespaces } { place := root }
      = some (.places [.document d]) := by
    rw [XPath.eval_root, top]
  have maps := XPath.eval_child (XPath.eval_throughDescendants start)
    (XPath.condition_name rfl bound)
    (fun l => XPath.keepAll_truth fun c _ _ _ => XPath.eval_attribute_equal "TYPE" "LOGICAL")
    fun c => parts_logicalMaps
  refine XPath.eval_child maps (XPath.condition_name rfl bound) (fun l => ?_)
    fun c => parts_topDivisions
  rw [XPath.keepAll_nil, List.filter_eq_self.mpr fun _ _ => rfl]

theorem exists_element_of_isNamed {plain : String} (named : c.node?.any (isNamed space plain) = true) :
    ∃ above index name attributes bindings content,
      c = .inside above index (.element name attributes bindings content) := by
  cases c with
  | inside above index n =>
    cases n with
    | element name attributes bindings content =>
      exact ⟨above, index, name, attributes, bindings, content, rfl⟩
    | _ => cases named
  | _ => cases named

theorem ofPlace_of_isTopDivision (division : isTopDivision space c = true) :
    (XPath.Item.ofPlace c).bind XPath.Item.place? = some c := by
  obtain ⟨above, index, name, attributes, bindings, content, rfl⟩ :=
    exists_element_of_isNamed (Bool.and_eq_true_iff.mp division).1
  rfl

/-- The expression for the logical divisions selects the top divisions. -/
theorem select_logicalDivisions (top : root.top = .document d)
    (bound : lookup? "mets" e.namespaces = some space) :
    (e.select logicalDivisions root).filterMap XPath.Item.place? = topDivisions space d := by
  rw [XPath.Evaluator.select, eval_logicalDivisions top bound]
  change ((topDivisions space d).filterMap XPath.Item.ofPlace).filterMap XPath.Item.place? = _
  have same : (topDivisions space d).filterMap (fun c => (XPath.Item.ofPlace c).bind XPath.Item.place?)
      = (topDivisions space d).filterMap some :=
    List.filterMap_congr fun c member => ofPlace_of_isTopDivision (List.mem_filter.mp member).2
  rw [List.filterMap_filterMap, same, List.filterMap_some]

end StructureNode

end MetadataIndex
