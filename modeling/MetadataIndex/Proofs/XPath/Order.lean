import MetadataIndex.Proofs.Xml.Subtree
import MetadataIndex.XPath.Value
import Mathlib.Data.List.Lex
import Mathlib.Data.List.Pairwise
import Mathlib.Data.List.Sort
import Mathlib.Data.Prod.Lex

/-!
# Document order

What is below a place is listed in the order of positions. Putting places of one document in order
therefore lists those parts of the document that are among them, each once.
-/

set_option autoImplicit false

namespace MetadataIndex.XPath

open MetadataIndex.Xml (Cursor Document Node)

/-! ## The order of positions -/

/-- Positions are compared level by level. -/
def levels (p : List (Nat × Nat)) : List (Nat ×ₗ Nat) :=
  p.map toLex

theorem levels_inj {p q : List (Nat × Nat)} : levels p = levels q ↔ p = q :=
  (List.map_injective_iff.mpr toLex.injective).eq_iff

theorem comesBefore_iff {p q : List (Nat × Nat)} : comesBefore p q = true ↔ levels p < levels q := by
  induction p generalizing q with
  | nil => cases q <;> simp [comesBefore, levels]
  | cons a p ih =>
    cases q with
    | nil => simp [comesBefore, levels]
    | cons b q =>
      obtain ⟨kind, index⟩ := a
      obtain ⟨kind', index'⟩ := b
      rw [levels, levels, List.map_cons, List.map_cons, List.cons_lt_cons_iff, Prod.Lex.toLex_lt_toLex,
        toLex_inj, ← levels, ← levels, ← ih, comesBefore]
      by_cases sameKind : kind = kind'
      · by_cases sameIndex : index = index' <;> simp [sameKind, sameIndex]
      · simp [sameKind]

theorem comesBefore_append (p q q' : List (Nat × Nat)) :
    comesBefore (p ++ q) (p ++ q') = comesBefore q q' := by
  induction p with
  | nil => rfl
  | cons a p ih => simp [comesBefore, ih]

/-- One place comes before another in a document. -/
def Precedes (c c' : Cursor) : Prop := comesBefore c.position c'.position = true

variable {c c' : Cursor}

theorem precedes_iff : Precedes c c' ↔ levels c.position < levels c'.position := comesBefore_iff

theorem Precedes.trans {a b c : Cursor} (first : Precedes a b) (second : Precedes b c) :
    Precedes a c :=
  precedes_iff.mpr ((precedes_iff.mp first).trans (precedes_iff.mp second))

theorem Precedes.ne {a b : Cursor} (before : Precedes a b) : a.position ≠ b.position :=
  fun same => (precedes_iff.mp before).ne (congrArg levels same)

instance : Trans Precedes Precedes Precedes := ⟨Precedes.trans⟩

instance : Std.Irrefl Precedes := ⟨fun _ before => before.ne rfl⟩

theorem position_inside (above : Cursor) (index : Nat) (n : Node) :
    (Cursor.inside above index n).position = above.position ++ [(2, index)] :=
  List.reverse_cons

/-- Places in order with the same members are the same. -/
theorem eq_of_mem_iff {l l' : List Cursor} (ordered : l.Pairwise Precedes)
    (ordered' : l'.Pairwise Precedes) (same : ∀ c, c ∈ l ↔ c ∈ l') : l = l' := by
  have perm : l.Perm l' := (List.perm_ext_iff_of_nodup ordered.nodup ordered'.nodup).mpr same
  refine perm.eq_of_pairwise (fun c c' _ _ before after => ?_) ordered ordered'
  exact absurd rfl (before.trans after).ne

/-! ## Subtrees in order -/

theorem pairwise_insideFrom (above : Cursor) (index : Nat) (l : List Node) :
    (Cursor.insideFrom above index l).Pairwise
      fun x y => ∀ c ∈ x.subtree, ∀ c' ∈ y.subtree, Precedes c c' := by
  induction l generalizing index with
  | nil => exact .nil
  | cons n l ih =>
    refine .cons (fun y member c below c' below' => ?_) (ih (index + 1))
    obtain ⟨k, m, -, rfl⟩ := Cursor.mem_insideFrom.mp member
    obtain ⟨q, place⟩ := Cursor.position_of_mem_subtree below
    obtain ⟨q', place'⟩ := Cursor.position_of_mem_subtree below'
    rw [Precedes, place, place', position_inside, position_inside, List.append_assoc,
      List.append_assoc, comesBefore_append]
    have earlier : index ≠ index + 1 + k := by omega
    simp [comesBefore, earlier]
    omega

theorem precedes_of_mem_children {x : Cursor} (child : x ∈ c.children) (below : c' ∈ x.subtree) :
    Precedes c c' := by
  obtain ⟨k, n, -, rfl⟩ := Cursor.mem_children.mp child
  obtain ⟨q, place⟩ := Cursor.position_of_mem_subtree below
  have start := comesBefore_append c.position [] ((2, k) :: q)
  rw [List.append_nil] at start
  rw [Precedes, place, position_inside, List.append_assoc]
  exact start

/-- What is below a place comes in order. -/
theorem pairwise_subtree (c : Cursor) : c.subtree.Pairwise Precedes := by
  induction c using Cursor.children_induction with
  | step c ih =>
    rw [Cursor.subtree_eq]
    refine .cons (fun c' member => ?_) (List.pairwise_flatMap.mpr ⟨ih, ?_⟩)
    · obtain ⟨x, child, below⟩ := List.mem_flatMap.mp member
      exact precedes_of_mem_children child below
    · exact pairwise_insideFrom c 0 c.content

/-- Parts of one document with the same position are the same. -/
theorem eq_of_position_eq {d : Document} (part : c ∈ (Cursor.document d).subtree)
    (part' : c' ∈ (Cursor.document d).subtree) (same : c.position = c'.position) : c = c' := by
  by_contra other
  have related : Precedes c c' ∨ Precedes c' c := by
    have either := (pairwise_subtree (.document d)).imp
      (S := fun a b => Precedes a b ∨ Precedes b a) .inl
    have : Std.Symm fun a b => Precedes a b ∨ Precedes b a := ⟨fun _ _ => Or.symm⟩
    exact either.forall part part' other
  rcases related with before | after
  · exact before.ne same
  · exact after.ne same.symm

/-! ## Putting places in order -/

def keyed (c : Cursor) : List (Nat × Nat) × Cursor := (c.position, c)

theorem areInOrder_iff {l : List Cursor} :
    areInOrder (l.map keyed) = true ↔ l.Pairwise Precedes := by
  rw [← List.isChain_iff_pairwise]
  induction l with
  | nil => exact iff_of_true rfl .nil
  | cons c l ih =>
    cases l with
    | nil => exact iff_of_true rfl (.singleton c)
    | cons c' l =>
      rw [List.isChain_cons_cons, ← ih, List.map_cons, List.map_cons, keyed, keyed, areInOrder,
        Bool.and_eq_true]
      rfl

theorem inOrder_of_pairwise {l : List Cursor} (ordered : l.Pairwise Precedes) : inOrder l = l :=
  if_pos (areInOrder_iff.mpr ordered)

theorem dropRepeated_subset (l : List Cursor) : dropRepeated (l.map keyed) ⊆ l := by
  induction l with
  | nil => exact List.Subset.refl _
  | cons c l ih =>
    cases l with
    | nil => exact List.Subset.refl _
    | cons c' l =>
      rw [List.map_cons, List.map_cons, keyed, keyed, dropRepeated]
      split
      · exact List.subset_cons_of_subset c ih
      · exact List.cons_subset_cons c ih

theorem exists_of_mem_dropRepeated {l : List Cursor} (member : c ∈ l) :
    ∃ c' ∈ dropRepeated (l.map keyed), c'.position = c.position := by
  induction l generalizing c with
  | nil => cases member
  | cons a l ih =>
    cases l with
    | nil => exact ⟨a, .head _, congrArg _ (List.mem_singleton.mp member).symm⟩
    | cons b l =>
      rw [List.map_cons, List.map_cons, keyed, keyed, dropRepeated]
      by_cases same : a.position = b.position
      · rw [if_pos (beq_iff_eq.mpr same)]
        rcases List.mem_cons.mp member with rfl | rest
        · obtain ⟨c', kept, equal⟩ := ih (List.mem_cons_self (a := b))
          exact ⟨c', kept, equal.trans same.symm⟩
        · exact ih rest
      · rw [if_neg (mt beq_iff_eq.mp same)]
        rcases List.mem_cons.mp member with rfl | rest
        · exact ⟨_, .head _, rfl⟩
        · obtain ⟨c', kept, equal⟩ := ih rest
          exact ⟨c', .tail _ kept, equal⟩

theorem pairwise_dropRepeated {l : List Cursor}
    (sorted : l.Pairwise fun c c' => levels c.position ≤ levels c'.position) :
    (dropRepeated (l.map keyed)).Pairwise Precedes := by
  induction l with
  | nil => exact .nil
  | cons a l ih =>
    obtain ⟨first, rest⟩ := List.pairwise_cons.mp sorted
    cases l with
    | nil => exact List.pairwise_singleton _ _
    | cons b l =>
      rw [List.map_cons, List.map_cons, keyed, keyed, dropRepeated]
      by_cases same : a.position = b.position
      · rw [if_pos (beq_iff_eq.mpr same)]
        exact ih rest
      · rw [if_neg (mt beq_iff_eq.mp same)]
        refine .cons (fun c member => ?_) (ih rest)
        have least : levels b.position ≤ levels c.position := by
          rcases List.mem_cons.mp (dropRepeated_subset _ member) with rfl | later
          · exact le_refl _
          · exact (List.pairwise_cons.mp rest).1 c later
        have before : levels a.position < levels b.position :=
          lt_of_le_of_ne (first b List.mem_cons_self) (mt levels_inj.mp same)
        exact precedes_iff.mpr (before.trans_le least)

theorem exists_sorted (l : List Cursor) : ∃ l' : List Cursor, l'.Perm l
    ∧ (l.map keyed).mergeSort (fun a b => !comesBefore b.1 a.1) = l'.map keyed
    ∧ l'.Pairwise fun c c' => levels c.position ≤ levels c'.position := by
  have atMost (p q : List (Nat × Nat)) : (!comesBefore q p) = true ↔ levels p ≤ levels q := by
    rw [Bool.not_eq_true', Bool.eq_false_iff, ne_eq, comesBefore_iff, not_lt]
  have sorted : ((l.map keyed).mergeSort fun a b => !comesBefore b.1 a.1).Pairwise
      fun a b => (!comesBefore b.1 a.1) = true := by
    refine List.pairwise_mergeSort (fun a b c => ?_) (fun a b => ?_) _
    · simp only [atMost]
      exact le_trans
    · simp only [Bool.or_eq_true, atMost]
      exact le_total _ _
  have perm := List.mergeSort_perm (l.map keyed) fun a b => !comesBefore b.1 a.1
  have same : ((l.map keyed).mergeSort fun a b => !comesBefore b.1 a.1)
      = (((l.map keyed).mergeSort fun a b => !comesBefore b.1 a.1).map (·.2)).map keyed := by
    rw [List.map_map]
    conv_lhs => rw [← List.map_id ((l.map keyed).mergeSort _)]
    refine List.map_congr_left fun entry member => ?_
    obtain ⟨c, -, rfl⟩ := List.mem_map.mp (perm.subset member)
    rfl
  refine ⟨_, ?_, same, ?_⟩
  · have unkeyed := perm.map (·.2)
    rwa [List.map_map, show ((·.2) ∘ keyed) = id from rfl, List.map_id] at unkeyed
  · rw [same, List.pairwise_map] at sorted
    exact sorted.imp fun holds => (atMost _ _).mp holds

/-- Parts of a document that are put in order come in order, and they stay the same. -/
theorem inOrder_parts {d : Document} {l : List Cursor} (parts : l ⊆ (Cursor.document d).subtree) :
    (inOrder l).Pairwise Precedes ∧ ∀ c, c ∈ inOrder l ↔ c ∈ l := by
  change (if areInOrder (l.map keyed) then l
      else dropRepeated ((l.map keyed).mergeSort fun a b => !comesBefore b.1 a.1)).Pairwise Precedes
    ∧ ∀ c, c ∈ (if areInOrder (l.map keyed) then l
      else dropRepeated ((l.map keyed).mergeSort fun a b => !comesBefore b.1 a.1)) ↔ c ∈ l
  by_cases ordered : areInOrder (l.map keyed) = true
  · rw [if_pos ordered]
    exact ⟨areInOrder_iff.mp ordered, fun _ => .rfl⟩
  · obtain ⟨l', perm, same, sorted⟩ := exists_sorted l
    rw [if_neg ordered, same]
    refine ⟨pairwise_dropRepeated sorted, fun c => ⟨fun member => ?_, fun member => ?_⟩⟩
    · exact perm.subset (dropRepeated_subset l' member)
    · obtain ⟨c', kept, equal⟩ := exists_of_mem_dropRepeated (perm.symm.subset member)
      have part' := parts (perm.subset (dropRepeated_subset l' kept))
      cases eq_of_position_eq part' (parts member) equal
      exact kept

/-- Putting parts of a document in order lists the parts that are among them. -/
theorem inOrder_eq_filter {d : Document} {l : List Cursor} {p : Cursor → Bool}
    (parts : ∀ c, c ∈ l ↔ c ∈ (Cursor.document d).subtree ∧ p c = true) :
    inOrder l = (Cursor.document d).subtree.filter p := by
  obtain ⟨ordered, same⟩ := inOrder_parts fun c member => ((parts c).mp member).1
  refine eq_of_mem_iff ordered ((pairwise_subtree _).sublist List.filter_sublist) fun c => ?_
  rw [same, parts, List.mem_filter]

end MetadataIndex.XPath
