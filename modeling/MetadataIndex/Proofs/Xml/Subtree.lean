import MetadataIndex.Xml.Cursor
import Mathlib.Logic.Relation
import Mathlib.Data.List.Basic

/-!
# What is below a place

All that is below a place is reached from it from child to child, and its position begins with the
position of that place.
-/

set_option autoImplicit false

namespace MetadataIndex.Xml.Cursor

variable {c c' above : Cursor}

/-! ## Children -/

theorem mem_insideFrom {index : Nat} {l : List Node} :
    c ∈ insideFrom above index l ↔ ∃ k n, l[k]? = some n ∧ c = inside above (index + k) n := by
  induction l generalizing index with
  | nil => simp [insideFrom]
  | cons n l ih =>
    rw [insideFrom, List.mem_cons, ih]
    constructor
    · rintro (rfl | ⟨k, m, found, rfl⟩)
      · exact ⟨0, n, rfl, rfl⟩
      · exact ⟨k + 1, m, found, by rw [Nat.add_assoc, Nat.add_comm 1 k]⟩
    · rintro ⟨k, m, found, rfl⟩
      cases k with
      | zero =>
        cases found
        exact .inl rfl
      | succ k => exact .inr ⟨k, m, found, by rw [Nat.add_assoc, Nat.add_comm 1 k]⟩

theorem mem_children : c' ∈ c.children ↔ ∃ k n, c.content[k]? = some n ∧ c' = inside c k n := by
  rw [children, mem_insideFrom]
  simp only [Nat.zero_add]

theorem sizeOf_content_lt {n : Node} {l : List Node} (member : n ∈ l) :
    sizeOf n.content < sizeOf l := by
  have inner := List.sizeOf_lt_of_mem member
  cases n <;> simp only [Node.content, List.nil.sizeOf_spec] <;> simp at inner <;> omega

/-- What holds of a place if it holds of its children holds of every place. -/
theorem children_induction {P : Cursor → Prop} (step : ∀ c, (∀ c' ∈ c.children, P c') → P c)
    (c : Cursor) : P c := by
  refine step c fun c' member => ?_
  have smaller : sizeOf c'.content < sizeOf c.content := by
    obtain ⟨k, n, found, rfl⟩ := mem_children.mp member
    exact sizeOf_content_lt (List.mem_of_getElem? found)
  exact children_induction step c'
termination_by sizeOf c.content

/-! ## Subtrees -/

theorem subtreeOf_eq (above : Cursor) (index : Nat) (n : Node) :
    subtreeOf above index n = (inside above index n).subtree := by
  cases n <;> rfl

theorem subtreesOf_eq (above : Cursor) (index : Nat) (l : List Node) :
    subtreesOf above index l = (insideFrom above index l).flatMap subtree := by
  induction l generalizing index with
  | nil => rfl
  | cons n l ih => rw [subtreesOf, insideFrom, List.flatMap_cons, subtreeOf_eq, ih]

theorem descendants_eq (c : Cursor) : c.descendants = c.children.flatMap subtree :=
  subtreesOf_eq c 0 c.content

theorem subtree_eq (c : Cursor) : c.subtree = c :: c.children.flatMap subtree := by
  rw [subtree, descendants_eq]

theorem self_mem_subtree (c : Cursor) : c ∈ c.subtree := List.mem_cons_self

theorem mem_subtree_of_mem_children {x : Cursor} (child : x ∈ c.children) (below : c' ∈ x.subtree) :
    c' ∈ c.subtree := by
  rw [subtree_eq]
  exact .tail _ (List.mem_flatMap.mpr ⟨x, child, below⟩)

theorem mem_subtree_iff :
    c' ∈ c.subtree ↔ Relation.ReflTransGen (fun c c' => c' ∈ c.children) c c' := by
  constructor
  · intro member
    induction c using children_induction with
    | step c ih =>
      rw [subtree_eq, List.mem_cons, List.mem_flatMap] at member
      rcases member with rfl | ⟨x, child, below⟩
      · exact .refl
      · exact .head child (ih x child below)
  · intro reached
    induction reached using Relation.ReflTransGen.head_induction_on with
    | refl => exact self_mem_subtree c'
    | head child _ below => exact mem_subtree_of_mem_children child below

theorem mem_subtree_trans {x : Cursor} (first : x ∈ c.subtree) (then' : c' ∈ x.subtree) :
    c' ∈ c.subtree :=
  mem_subtree_iff.mpr ((mem_subtree_iff.mp first).trans (mem_subtree_iff.mp then'))

theorem mem_subtree_of_child (above : c ∈ c'.subtree) {x : Cursor} (child : x ∈ c.children) :
    x ∈ c'.subtree :=
  mem_subtree_iff.mpr ((mem_subtree_iff.mp above).tail child)

/-! ## Positions -/

theorem sameAs_iff : c.sameAs c' = true ↔ c.positionUp = c'.positionUp := beq_iff_eq

theorem sameAs_self (c : Cursor) : c.sameAs c = true := sameAs_iff.mpr rfl

theorem sameAs_comm (c c' : Cursor) : c.sameAs c' = c'.sameAs c :=
  Bool.eq_iff_iff.mpr (sameAs_iff.trans (eq_comm.trans sameAs_iff.symm))

theorem positionUp_of_mem_subtree (below : c' ∈ c.subtree) :
    ∃ q, c'.positionUp = q ++ c.positionUp := by
  induction mem_subtree_iff.mp below with
  | refl => exact ⟨[], rfl⟩
  | @tail x y reached child ih =>
    obtain ⟨k, n, -, rfl⟩ := mem_children.mp child
    obtain ⟨q, same⟩ := ih (mem_subtree_iff.mpr reached)
    exact ⟨(2, k) :: q, congrArg _ same⟩

theorem position_of_mem_subtree (below : c' ∈ c.subtree) :
    ∃ q, c'.position = c.position ++ q := by
  obtain ⟨q, same⟩ := positionUp_of_mem_subtree below
  exact ⟨q.reverse, by rw [position, same, List.reverse_append, position]⟩

theorem length_positionUp_le (below : c' ∈ c.subtree) :
    c.positionUp.length ≤ c'.positionUp.length := by
  obtain ⟨q, same⟩ := positionUp_of_mem_subtree below
  rw [same, List.length_append]
  exact Nat.le_add_left _ _

end MetadataIndex.Xml.Cursor
