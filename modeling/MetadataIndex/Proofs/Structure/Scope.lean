import MetadataIndex.Proofs.XPath.Order
import MetadataIndex.Structure.Scope

/-!
# What a scope holds

A scope is the element at hand, the blocks of the children and the blocks of the ancestors below the
nearest anchor, in this order and each once. Looking further up only adds elements at the end, and
looking into the children never takes one away.
-/

set_option autoImplicit false

namespace MetadataIndex

open MetadataIndex.Xml (Cursor)

/-! ## Members of a list, each once -/

section EachOnce

variable {α β : Type} {r : α → α → Bool}

theorem eraseDupsBy_sublist (r : α → α → Bool) (l : List α) : (l.eraseDupsBy r).Sublist l := by
  match l with
  | [] => exact .refl _
  | a :: l =>
    rw [List.eraseDupsBy_cons]
    exact ((eraseDupsBy_sublist r _).trans List.filter_sublist).cons_cons a
termination_by l.length
decreasing_by exact Nat.lt_succ_of_le (List.length_filter_le _ _)

theorem pairwise_eraseDupsBy (r : α → α → Bool) (l : List α) :
    (l.eraseDupsBy r).Pairwise fun a b => r b a = false := by
  match l with
  | [] => exact .nil
  | a :: l =>
    rw [List.eraseDupsBy_cons]
    refine .cons (fun b member => ?_) (pairwise_eraseDupsBy r _)
    have kept := (eraseDupsBy_sublist r _).subset member
    exact of_decide_eq_true (List.mem_filter.mp kept).2
termination_by l.length
decreasing_by exact Nat.lt_succ_of_le (List.length_filter_le _ _)

/-- What is left out stands for something that stays. -/
theorem exists_of_mem_eraseDupsBy (refl : ∀ a, r a a = true) {l : List α} {a : α} (member : a ∈ l) :
    ∃ b ∈ l.eraseDupsBy r, r a b = true := by
  match l with
  | [] => cases member
  | b :: l =>
    rw [List.eraseDupsBy_cons]
    cases same : r a b with
    | true => exact ⟨b, List.mem_cons_self, same⟩
    | false =>
      have other : a ∈ l := by
        refine (List.mem_cons.mp member).resolve_left ?_
        rintro rfl
        rw [refl] at same
        cases same
      have kept : a ∈ l.filter fun c => decide (r c b = false) :=
        List.mem_filter.mpr ⟨other, decide_eq_true same⟩
      obtain ⟨c, stays, equal⟩ := exists_of_mem_eraseDupsBy refl kept
      exact ⟨c, .tail _ stays, equal⟩
termination_by l.length
decreasing_by exact Nat.lt_succ_of_le (List.length_filter_le _ _)

/-- Values that are looked up are the same, each once, whether or not the keys repeat. -/
theorem eraseDupsBy_filterMap_eraseDups [BEq β] [LawfulBEq β] (refl : ∀ a, r a a = true)
    (lookup : β → Option α) (keys : List β) :
    (keys.eraseDups.filterMap lookup).eraseDupsBy r = (keys.filterMap lookup).eraseDupsBy r := by
  match keys with
  | [] => rfl
  | k :: keys =>
    -- Further occurrences of a key count for nothing once its value is left out.
    have skips (lookup : β → Option α) (none : lookup k = none) :
        (keys.filter (!· == k)).filterMap lookup = keys.filterMap lookup := by
      rw [List.filterMap_filter]
      refine List.filterMap_congr fun j _ => ?_
      by_cases same : j = k
      · rw [same, none, ite_self]
      · rw [if_pos (by simpa using same)]
    rw [List.eraseDups_cons]
    cases found : lookup k with
    | none =>
      rw [List.filterMap_cons_none found, List.filterMap_cons_none found,
        eraseDupsBy_filterMap_eraseDups refl, skips lookup found]
    | some a =>
      have left : ((lookup k).filter fun b => decide (r b a = false)) = none := by
        rw [found]
        simp [refl]
      rw [List.filterMap_cons_some found, List.filterMap_cons_some found, List.eraseDupsBy_cons,
        List.eraseDupsBy_cons, List.filter_filterMap, List.filter_filterMap,
        eraseDupsBy_filterMap_eraseDups refl, skips _ left]
termination_by keys.length
decreasing_by all_goals exact Nat.lt_succ_of_le (List.length_filter_le _ _)

end EachOnce

namespace ElementContext

/-! ## Adding blocks -/

theorem addBlock_of_any {elements : List Cursor} {block : Cursor}
    (known : elements.any (·.sameAs block) = true) : addBlock elements (some block) = elements :=
  if_pos known

theorem addBlock_of_not_any {elements : List Cursor} {block : Cursor}
    (new : elements.any (·.sameAs block) = false) :
    addBlock elements (some block) = elements ++ [block] :=
  if_neg (Bool.eq_false_iff.mp new)

/-- Adding blocks one by one appends those that are new, each once. -/
theorem foldl_addBlock (elements blocks : List Cursor) :
    blocks.foldl (fun elements block => addBlock elements (some block)) elements
      = elements ++ (blocks.filter fun b => !elements.any (·.sameAs b)).eraseDupsBy Cursor.sameAs := by
  induction blocks generalizing elements with
  | nil => exact (List.append_nil _).symm
  | cons block blocks ih =>
    rw [List.foldl_cons, ih, List.filter_cons]
    cases known : elements.any (·.sameAs block) with
    | true => rw [addBlock_of_any known, Bool.not_true, if_neg Bool.false_ne_true]
    | false =>
      have both : (blocks.filter fun b => !(elements ++ [block]).any (·.sameAs b))
          = (blocks.filter fun b => !elements.any (·.sameAs b)).filter
            fun b => decide (b.sameAs block = false) := by
        rw [List.filter_filter]
        refine List.filter_congr fun b _ => ?_
        rw [List.any_append, List.any_cons, List.any_nil, Bool.or_false, Cursor.sameAs_comm block b]
        cases b.sameAs block <;> simp
      rw [addBlock_of_not_any known, both, Bool.not_false, if_pos rfl, List.eraseDupsBy_cons,
        List.append_assoc]
      rfl

theorem foldl_addBlock_nil (blocks : List Cursor) :
    blocks.foldl (fun elements block => addBlock elements (some block)) []
      = blocks.eraseDupsBy Cursor.sameAs := by
  have all : (blocks.filter fun b => !([] : List Cursor).any (·.sameAs b)) = blocks :=
    List.filter_eq_self.mpr fun _ _ => rfl
  rw [foldl_addBlock, List.nil_append, all]

theorem eraseDupsBy_append_start (first more : List Cursor) :
    first.eraseDupsBy Cursor.sameAs <+: (first ++ more).eraseDupsBy Cursor.sameAs := by
  rw [← foldl_addBlock_nil (first ++ more), List.foldl_append, foldl_addBlock_nil, foldl_addBlock]
  exact List.prefix_append _ _

theorem eraseDupsBy_toList_append (element : Option Cursor) (blocks : List Cursor) :
    (element.toList ++ blocks).eraseDupsBy Cursor.sameAs = element.toList
      ++ (blocks.filter fun b => !element.toList.any (·.sameAs b)).eraseDupsBy Cursor.sameAs := by
  have start : element.toList.eraseDupsBy Cursor.sameAs = element.toList := by
    cases element <;> rfl
  rw [← foldl_addBlock_nil, List.foldl_append, foldl_addBlock_nil, start, foldl_addBlock]

/-! ## Blocks of a scope -/

variable (lookup : String → Option Cursor)

/-- The block that a node names, if it names one that is there. -/
def blockOf? (n : StructureNode) : Option Cursor :=
  n.blockId.bind lookup

def childBlocks (place : StructurePlace) : ChildScope → List Cursor
  | .none => []
  | .all => place.node.children.filterMap (blockOf? lookup)

/-- The blocks of ancestors, nearest first, up to an anchor. Only the first ancestor is looked at, or
all of them; one without block does not end the way up. -/
def ancestorBlocks : ParentScope → List StructureNode → List Cursor
  | .none, _ => []
  | _, [] => []
  | .first, n :: _ => if n.anchor then [] else (blockOf? lookup n).toList
  | .all, n :: above =>
    if n.anchor then [] else (blockOf? lookup n).toList ++ ancestorBlocks .all above

/-- The elements of a scope. -/
def elements (element : Option Cursor) (place : StructurePlace) (child : ChildScope)
    (parents : ParentScope) : List Cursor :=
  (element.toList ++ childBlocks lookup place child
    ++ ancestorBlocks lookup parents place.above).eraseDupsBy Cursor.sameAs

variable {lookup}

theorem filterMap_childIds (child : ChildScope) (place : StructurePlace) :
    (childIds child place).filterMap lookup = childBlocks lookup place child := by
  cases child with
  | none => rfl
  | all =>
    rw [childIds, List.filterMap_filterMap]
    rfl

theorem ancestorBlocks_all (above : List StructureNode) :
    ancestorBlocks lookup .all above = (above.takeWhile (!·.anchor)).filterMap (blockOf? lookup) := by
  induction above with
  | nil => rfl
  | cons n above ih =>
    rw [ancestorBlocks, ih, List.takeWhile_cons]
    cases n.anchor with
    | true => rfl
    | false =>
      cases found : blockOf? lookup n with
      | none => exact (List.filterMap_cons_none found).symm
      | some block => exact (List.filterMap_cons_some found).symm

theorem filterMap_searchedAncestors (parents : ParentScope) (place : StructurePlace) :
    ((searchedAncestors parents place).filterMap (·.blockId)).filterMap lookup
      = ancestorBlocks lookup parents place.above := by
  rw [List.filterMap_filterMap]
  cases parents with
  | none => rw [ancestorBlocks]; rfl
  | all => exact (ancestorBlocks_all place.above).symm
  | first =>
    rw [searchedAncestors]
    cases place.above with
    | nil => rfl
    | cons n above =>
      rw [ancestorBlocks, List.takeWhile_cons]
      cases n.anchor with
      | true => rfl
      | false =>
        cases found : blockOf? lookup n with
        | none => exact List.filterMap_cons_none found
        | some block => exact List.filterMap_cons_some found

theorem ancestorBlocks_start (above : List StructureNode) :
    ancestorBlocks lookup .first above <+: ancestorBlocks lookup .all above := by
  cases above with
  | nil => exact List.prefix_refl _
  | cons n above =>
    rw [ancestorBlocks, ancestorBlocks]
    cases n.anchor with
    | true => exact List.prefix_refl _
    | false => exact List.prefix_append _ _

theorem filterMap_searchedIds (rule : FieldRule) (place : StructurePlace) :
    (childIds rule.child place
        ++ (searchedAncestors rule.parents place).filterMap (·.blockId)).filterMap lookup
      = childBlocks lookup place rule.child ++ ancestorBlocks lookup rule.parents place.above := by
  rw [List.filterMap_append, filterMap_childIds, filterMap_searchedAncestors]

/-- Looking up the blocks of a scope gives its elements. -/
theorem expandScope_eq (rule : FieldRule) (element : Option Cursor) (place : StructurePlace) :
    expandScope rule element (some ⟨place, fun id => .ok (lookup id)⟩)
      = .ok (elements lookup element place rule.child rule.parents) := by
  have looksUp (ids : List String) (known : List Cursor) :
      ids.foldl (fun elements id => addBlock elements (lookup id)) known
        = (ids.filterMap lookup).foldl (fun elements block => addBlock elements (some block)) known := by
    rw [List.foldl_filterMap]
    refine congrFun (congrFun (congrArg List.foldl (funext fun es => funext fun id => ?_)) known) ids
    cases lookup id <;> rfl
  calc expandScope rule element (some ⟨place, fun id => .ok (lookup id)⟩)
      = .ok ((searchedIds rule place).foldl (fun elements id => addBlock elements (lookup id))
          element.toList) := List.foldlM_pure
    _ = .ok (elements lookup element place rule.child rule.parents) := by
      rw [looksUp, foldl_addBlock, searchedIds, List.filter_filterMap,
        eraseDupsBy_filterMap_eraseDups Cursor.sameAs_self, ← List.filter_filterMap,
        filterMap_searchedIds, ← eraseDupsBy_toList_append, ← List.append_assoc]
      rfl

/-! ## What the settings change -/

theorem eraseDupsBy_start {blocks blocks' : List Cursor} (start : blocks <+: blocks') :
    blocks.eraseDupsBy Cursor.sameAs <+: blocks'.eraseDupsBy Cursor.sameAs := by
  obtain ⟨more, rfl⟩ := start
  exact eraseDupsBy_append_start blocks more

theorem element_first (element : Option Cursor) (place : StructurePlace) (child : ChildScope)
    (parents : ParentScope) : element.toList <+: elements lookup element place child parents := by
  rw [elements, List.append_assoc, eraseDupsBy_toList_append]
  exact List.prefix_append _ _

theorem elements_start_of_first (element : Option Cursor) (place : StructurePlace) (child : ChildScope) :
    elements lookup element place child .none <+: elements lookup element place child .first := by
  refine eraseDupsBy_start ?_
  rw [ancestorBlocks, List.append_nil]
  exact List.prefix_append _ _

theorem elements_start_of_all (element : Option Cursor) (place : StructurePlace) (child : ChildScope) :
    elements lookup element place child .first <+: elements lookup element place child .all :=
  eraseDupsBy_start ((List.prefix_append_right_inj _).mpr (ancestorBlocks_start place.above))

theorem exists_of_mem_elements {element : Option Cursor} {place : StructurePlace}
    {parents : ParentScope} {c : Cursor} (member : c ∈ elements lookup element place .none parents) :
    ∃ c' ∈ elements lookup element place .all parents, c.sameAs c' = true := by
  refine exists_of_mem_eraseDupsBy Cursor.sameAs_self ?_
  have known := (eraseDupsBy_sublist _ _).subset member
  rw [childBlocks, List.append_nil, List.mem_append] at known
  rw [List.mem_append, List.mem_append]
  exact known.imp_left .inl

/-- In one document looking into the children takes no element away. -/
theorem elements_subset {d : Xml.Document} {element : Option Cursor} {place : StructurePlace}
    {parents : ParentScope}
    (parts : elements lookup element place .none parents ⊆ (Cursor.document d).subtree)
    (parts' : elements lookup element place .all parents ⊆ (Cursor.document d).subtree) :
    elements lookup element place .none parents ⊆ elements lookup element place .all parents := by
  intro c member
  obtain ⟨c', stays, same⟩ := exists_of_mem_elements member
  have equal := XPath.eq_of_position_eq (parts member) (parts' stays)
    (congrArg List.reverse (Cursor.sameAs_iff.mp same))
  exact equal ▸ stays

end ElementContext

end MetadataIndex
