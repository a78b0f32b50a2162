import Mathlib.Data.List.Forall2
import MetadataIndex.Group.Arena

/-!
# Documents of arenas

In an arena that is well placed each record stands at its own position, and one level under an earlier
record or on top. The documents of such an arena nest each record once, under the record that it names
as its parent, in the order of the arena. Storing more groups adds their documents at the end.
-/

set_option autoImplicit false

namespace MetadataIndex

namespace GroupedRecord

/-- The record without the positions of itself and of its parent. -/
def unplaced (r : GroupedRecord) : GroupedRecord := { r with index := 0, parent := none }

/-- What makes two records the same group: label, main value and fields. -/
def content (r : GroupedRecord) : GroupedRecord :=
  { index := 0, label := r.label, mainValue := r.mainValue, fields := r.fields }

theorem sameContent_iff_content {a b : GroupedRecord} :
    a.sameContent b = true ↔ a.content = b.content := by
  rw [sameContent_iff]
  simp [content, and_comm]

/-- A record that comes after earlier ones: on top, or one level under one of them. -/
structure Follows (maxDepth : Nat) (earlier : List GroupedRecord) (r : GroupedRecord) : Prop where
  index : r.index = earlier.length
  place : (r.parent = none ∧ r.depth = 0) ∨ ∃ above ∈ earlier,
    r.parent = some above.index ∧ r.depth = above.depth + 1 ∧ r.depth ≤ maxDepth

end GroupedRecord

/-- Each record follows those before it. -/
inductive WellPlaced (maxDepth : Nat) : List GroupedRecord → Prop where
  | nil : WellPlaced maxDepth []
  | snoc {earlier : List GroupedRecord} {r : GroupedRecord} (before : WellPlaced maxDepth earlier)
      (follows : r.Follows maxDepth earlier) : WellPlaced maxDepth (earlier ++ [r])

structure GroupedRecord.Ascends (records : List GroupedRecord) : Prop where
  positions : records.Pairwise fun a b => a.index < b.index
  parents : ∀ r ∈ records, ∀ p, r.parent = some p → p < r.index

theorem GroupedRecord.Ascends.tail {r : GroupedRecord} {more : List GroupedRecord}
    (ascends : Ascends (r :: more)) : Ascends more :=
  ⟨ascends.positions.tail, fun r' later => ascends.parents r' (.tail _ later)⟩

namespace WellPlaced

variable {maxDepth : Nat} {records : List GroupedRecord}

theorem index_bounds (placed : WellPlaced maxDepth records) :
    ∀ r ∈ records, 0 ≤ r.index ∧ r.index < records.length := by
  induction placed with
  | nil => exact List.forall_mem_nil _
  | snoc before follows ih =>
    intro r member
    have index := follows.index
    rw [List.length_append, List.length_singleton]
    obtain earlier | last := List.mem_append.mp member
    · have bounds := ih r earlier
      omega
    · obtain rfl := List.mem_singleton.mp last
      omega

theorem index_eq (placed : WellPlaced maxDepth records) {i : Nat} {r : GroupedRecord}
    (found : records[i]? = some r) : r.index = i := by
  induction placed with
  | nil => simp at found
  | @snoc earlier last before follows ih =>
    by_cases inside : i < earlier.length
    · rw [List.getElem?_append_left inside] at found
      exact ih found
    · rw [List.getElem?_append_right (by omega), List.getElem?_singleton] at found
      split at found
      case isTrue first =>
        cases found
        rw [follows.index]
        omega
      case isFalse => cases found

theorem place (placed : WellPlaced maxDepth records) :
    ∀ r ∈ records, (r.parent = none ∧ r.depth = 0) ∨ ∃ above ∈ records,
      r.parent = some above.index ∧ above.index < r.index ∧ r.depth = above.depth + 1
        ∧ r.depth ≤ maxDepth := by
  induction placed with
  | nil => exact List.forall_mem_nil _
  | @snoc earlier last before follows ih =>
    intro r member
    obtain inside | last := List.mem_append.mp member
    · obtain top | ⟨above, first, rest⟩ := ih r inside
      · exact .inl top
      · exact .inr ⟨above, List.mem_append_left _ first, rest⟩
    · obtain rfl := List.mem_singleton.mp last
      obtain top | ⟨above, first, parent, depth, bound⟩ := follows.place
      · exact .inl top
      · have bounds := before.index_bounds above first
        have index := follows.index
        exact .inr ⟨above, List.mem_append_left _ first, parent, by omega, depth, bound⟩

theorem ascends (placed : WellPlaced maxDepth records) :
    GroupedRecord.Ascends records := by
  refine ⟨?_, fun r member p parent => ?_⟩
  · induction placed with
    | nil => exact .nil
    | snoc before follows ih =>
      refine List.pairwise_append.mpr ⟨ih, List.pairwise_singleton _ _, fun r earlier last member => ?_⟩
      obtain rfl := List.mem_singleton.mp member
      rw [follows.index]
      exact (before.index_bounds r earlier).2
  · obtain ⟨none, -⟩ | ⟨above, -, under, before, -⟩ := placed.place r member
    · rw [none] at parent
      cases parent
    · rw [under] at parent
      cases parent
      exact before

theorem append_shift (placed : WellPlaced maxDepth records) {group : List GroupedRecord}
    (placedGroup : WellPlaced maxDepth group) :
    WellPlaced maxDepth (records ++ group.map (GroupArena.shift records.length)) := by
  induction placedGroup with
  | nil => simpa using placed
  | @snoc earlier r _ follows ih =>
    rw [List.map_append, List.map_singleton, ← List.append_assoc]
    refine .snoc ih ⟨?_, ?_⟩
    · simp only [GroupArena.shift, follows.index, List.length_append, List.length_map]
      omega
    · obtain ⟨parent, depth⟩ | ⟨above, first, parent, depth, bound⟩ := follows.place
      · exact .inl ⟨by simp [GroupArena.shift, parent], depth⟩
      · refine .inr ⟨GroupArena.shift records.length above, ?_, ?_, depth, bound⟩
        · exact List.mem_append_right _ (List.mem_map_of_mem first)
        · simp [GroupArena.shift, parent]

end WellPlaced

namespace GroupDocument

mutual

def map (f : GroupedRecord → GroupedRecord) : GroupDocument → GroupDocument
  | mk record children => mk (f record) (mapAll f children)

def mapAll (f : GroupedRecord → GroupedRecord) : List GroupDocument → List GroupDocument
  | [] => []
  | d :: more => map f d :: mapAll f more

end

mutual

/-- The records of a document, each before those nested in it. -/
def records : GroupDocument → List GroupedRecord
  | mk record children => record :: recordsOfAll children

def recordsOfAll : List GroupDocument → List GroupedRecord
  | [] => []
  | d :: more => records d ++ recordsOfAll more

end

/-- Below each record of a document stand the records that name it as parent, in their order. -/
inductive Nests (all : List GroupedRecord) : GroupDocument → Prop where
  | mk {r : GroupedRecord} {children : List GroupDocument} (member : r ∈ all)
      (below : children.map (·.record) = all.filter (·.parent == some r.index))
      (deeper : ∀ d ∈ children, Nests all d) : Nests all (.mk r children)

theorem mapAll_eq (f : GroupedRecord → GroupedRecord) (ds : List GroupDocument) :
    mapAll f ds = ds.map (map f) := by
  induction ds with
  | nil => rfl
  | cons d ds ih => rw [mapAll, ih, List.map_cons]

theorem recordsOfAll_eq (ds : List GroupDocument) : recordsOfAll ds = ds.flatMap records := by
  induction ds with
  | nil => rfl
  | cons d ds ih => rw [recordsOfAll, ih, List.flatMap_cons]

@[simp] theorem map_mk (f : GroupedRecord → GroupedRecord) (r : GroupedRecord)
    (children : List GroupDocument) : (mk r children).map f = mk (f r) (children.map (map f)) := by
  rw [map, mapAll_eq]

@[simp] theorem records_mk (r : GroupedRecord) (children : List GroupDocument) :
    (mk r children).records = r :: children.flatMap records := by
  rw [records, recordsOfAll_eq]

@[simp] theorem record_map (f : GroupedRecord → GroupedRecord) (d : GroupDocument) :
    (d.map f).record = f d.record := by
  cases d
  rw [map, record, record]

@[simp] theorem children_map (f : GroupedRecord → GroupedRecord) (d : GroupDocument) :
    (d.map f).children = d.children.map (map f) := by
  cases d
  rw [map_mk, children, children]

mutual

theorem map_map (f g : GroupedRecord → GroupedRecord) :
    (d : GroupDocument) → (d.map f).map g = d.map (g ∘ f)
  | mk record children => by rw [map, map, map, mapAll_mapAll, Function.comp]

theorem mapAll_mapAll (f g : GroupedRecord → GroupedRecord) :
    (ds : List GroupDocument) → mapAll g (mapAll f ds) = mapAll (g ∘ f) ds
  | [] => rfl
  | d :: more => by rw [mapAll, mapAll, mapAll, map_map, mapAll_mapAll]

end

theorem nest_cons (r : GroupedRecord) (more : List GroupedRecord) :
    nest (r :: more) = (r.parent, mk r (((nest more).filter (·.1 == some r.index)).map (·.2)))
      :: (nest more).filter (!·.1 == some r.index) := by
  simp only [nest, List.partition_eq_filter_filter]
  rfl

theorem records_nest (all : List GroupedRecord) : ((nest all).flatMap (·.2.records)).Perm all := by
  induction all with
  | nil => exact .nil
  | cons r more ih =>
    rw [nest_cons, List.flatMap_cons, records_mk, List.cons_append, List.flatMap_map,
      ← List.flatMap_append]
    exact ((List.filter_append_perm _ _).flatMap_right _).trans ih |>.cons r

theorem fst_of_mem_nest {all : List GroupedRecord} :
    ∀ x ∈ nest all, x.1 = x.2.record.parent ∧ x.2.record ∈ all := by
  induction all with
  | nil => exact List.forall_mem_nil _
  | cons r more ih =>
    rw [nest_cons]
    refine List.forall_mem_cons.mpr ⟨⟨rfl, .head _⟩, fun x member => ?_⟩
    obtain ⟨parent, inside⟩ := ih x (List.mem_of_mem_filter member)
    exact ⟨parent, .tail _ inside⟩

/-- No record stands under another one of them. -/
def isTop (all : List GroupedRecord) (r : GroupedRecord) : Bool :=
  all.all fun above => r.parent != some above.index

theorem Nests.cons {r : GroupedRecord} {more : List GroupedRecord}
    (other : ∀ above ∈ more, r.parent ≠ some above.index) {d : GroupDocument}
    (nested : Nests more d) : Nests (r :: more) d := by
  induction nested with
  | @mk above children member below deeper ih =>
    refine .mk (.tail _ member) ?_ ih
    rw [below, List.filter_cons_of_neg]
    simpa using other above member

/-- What is nested are the records that stand under no other, each with all that stand under it. -/
theorem nest_spec {all : List GroupedRecord} (ascends : GroupedRecord.Ascends all) :
    (nest all).map (·.2.record) = all.filter (isTop all) ∧ ∀ x ∈ nest all, Nests all x.2 := by
  induction all with
  | nil => exact ⟨rfl, List.forall_mem_nil _⟩
  | cons r more ih =>
    obtain ⟨tops, nested⟩ := ih ascends.tail
    have later : ∀ above ∈ more, r.index < above.index :=
      fun above member => List.rel_of_pairwise_cons ascends.positions member
    have ahead : ∀ above ∈ r :: more, r.parent ≠ some above.index := by
      intro above member parent
      have before := ascends.parents r (.head _) _ parent
      obtain rfl | behind := List.mem_cons.mp member
      · omega
      · have := later above behind
        omega
    have lift : ∀ x ∈ nest more, Nests (r :: more) x.2 := fun x member =>
      (nested x member).cons fun above behind => ahead above (.tail _ behind)
    -- the records of documents are chosen by parent as the documents are
    have chosen : ∀ p : Option Int → Bool, ((nest more).filter (p ·.1)).map (·.2.record)
        = (more.filter (isTop more)).filter (p ·.parent) := by
      intro p
      rw [← tops, List.filter_map]
      refine congrArg _ (List.filter_congr fun x member => ?_)
      rw [(fst_of_mem_nest x member).1]
      rfl
    rw [nest_cons]
    refine ⟨?_, List.forall_mem_cons.mpr ⟨.mk (.head _) ?_ fun d member => ?_, fun x member => ?_⟩⟩
    · rw [List.map_cons, chosen fun parent => !parent == some r.index, List.filter_filter,
        List.filter_cons_of_pos]
      · exact congrArg _ (List.filter_congr fun x _ => rfl)
      · simpa [isTop] using ahead
    · rw [List.map_map, List.filter_cons_of_neg (by simpa using ahead r (.head _))]
      refine (chosen fun parent => parent == some r.index).trans ?_
      rw [List.filter_filter]
      refine List.filter_congr fun x _ => ?_
      cases under : x.parent == some r.index with
      | false => simp
      | true =>
        have parent := beq_iff_eq.mp under
        simp only [isTop, Bool.true_and, List.all_eq_true, bne_iff_ne, ne_eq]
        intro above member same
        rw [parent] at same
        have := later above member
        simp only [Option.some.injEq] at same
        omega
    · obtain ⟨x, inside, rfl⟩ := List.mem_map.mp member
      exact lift x (List.mem_of_mem_filter inside)
    · exact lift x (List.mem_of_mem_filter member)

theorem nest_append {all group : List GroupedRecord}
    (apart : ∀ r ∈ group, ∀ above ∈ all, r.parent ≠ some above.index) :
    nest (all ++ group) = nest all ++ nest group := by
  induction all with
  | nil => rfl
  | cons r all ih =>
    have none : ∀ x ∈ nest group, (x.1 == some r.index) = false := by
      intro x member
      obtain ⟨parent, inside⟩ := fst_of_mem_nest x member
      rw [beq_eq_false_iff_ne, parent]
      exact apart _ inside r (.head _)
    have below : (nest group).filter (·.1 == some r.index) = [] :=
      List.filter_eq_nil_iff.mpr fun x member => by simp [none x member]
    have beside : (nest group).filter (!·.1 == some r.index) = nest group :=
      List.filter_eq_self.mpr fun x member => by simp [none x member]
    rw [List.cons_append, nest_cons, nest_cons,
      ih fun r' member above inside => apart r' member above (.tail _ inside), List.filter_append,
      List.filter_append, below, beside, List.append_nil, List.cons_append]

theorem nest_shift (offset : Nat) (all : List GroupedRecord) :
    nest (all.map (GroupArena.shift offset)) = (nest all).map fun x =>
      (x.1.map (· + (offset : Int)), x.2.map (GroupArena.shift offset)) := by
  induction all with
  | nil => rfl
  | cons r all ih =>
    have same : ∀ parent : Option Int, (parent.map (· + (offset : Int))
        == some (GroupArena.shift offset r).index) = (parent == some r.index) := by
      intro parent
      cases parent with
      | none => rfl
      | some p =>
        rw [Bool.eq_iff_iff]
        simp [GroupArena.shift]
    rw [List.map_cons, nest_cons, nest_cons, ih, List.map_cons, map_mk, List.filter_map,
      List.filter_map, List.map_map, List.map_map]
    simp only [Function.comp_def, same]
    rfl

end GroupDocument

namespace GroupArena

variable {maxDepth : Nat} {a group : GroupArena}

theorem top_of_mem_nest (placed : WellPlaced maxDepth a.toList) :
    ∀ x ∈ GroupDocument.nest a.toList, x.1.isNone = true := by
  intro x member
  have inside := List.mem_map_of_mem (f := fun x => x.2.record) member
  rw [(GroupDocument.nest_spec placed.ascends).1] at inside
  obtain ⟨stored, top⟩ := List.mem_filter.mp inside
  rw [(GroupDocument.fst_of_mem_nest x member).1]
  obtain ⟨none, -⟩ | ⟨above, first, parent, -⟩ := placed.place _ stored
  · rw [none]
    rfl
  · have other := List.all_eq_true.mp top above first
    simp [parent] at other

/-- The documents of an arena whose records are well placed. -/
def documents (a : GroupArena) : List GroupDocument := (GroupDocument.nest a.toList).map (·.2)

theorem toDocuments_of_placed (placed : WellPlaced maxDepth a.toList) :
    a.toDocuments = .ok a.documents := by
  have before : a.toList.all hasParentBefore = true := by
    refine List.all_eq_true.mpr fun r member => ?_
    obtain ⟨none, -⟩ | ⟨above, first, parent, below, -⟩ := placed.place r member
    · simp [hasParentBefore, none]
    · have bounds := placed.index_bounds above first
      simp only [hasParentBefore, parent, Option.all_some, Bool.and_eq_true, decide_eq_true_eq]
      omega
  rw [toDocuments, if_pos before, List.filter_eq_self.mpr (top_of_mem_nest placed), documents]

theorem map_record_documents (placed : WellPlaced maxDepth a.toList) :
    a.documents.map (·.record) = a.roots := by
  rw [documents, List.map_map]
  refine (GroupDocument.nest_spec placed.ascends).1.trans ?_
  refine List.filter_congr fun r member => ?_
  obtain ⟨none, -⟩ | ⟨above, first, parent, -⟩ := placed.place r member
  · simp [GroupDocument.isTop, none]
  · rw [parent, Option.isNone_some, GroupDocument.isTop, List.all_eq_false]
    exact ⟨above, first, by simp [parent]⟩

theorem documents_merge (placed : WellPlaced maxDepth a.toList)
    (placedGroup : WellPlaced maxDepth group.toList) : (a.merge group).documents
      = a.documents ++ group.documents.map (GroupDocument.map (shift a.size)) := by
  unfold documents
  rw [toList_merge, GroupDocument.nest_append, GroupDocument.nest_shift, List.map_append,
    List.map_map, List.map_map]
  · rfl
  · intro r member above first parent
    obtain ⟨r, inside, rfl⟩ := List.mem_map.mp member
    have bound := (placed.index_bounds above first).2
    rw [length_toList] at bound
    obtain ⟨none, -⟩ | ⟨under, second, parent', -⟩ := placedGroup.place r inside
    · simp [shift, none] at parent
    · have bounds := placedGroup.index_bounds under second
      simp only [shift, parent', Option.map_some, Option.some.injEq] at parent
      omega

end GroupArena

end MetadataIndex
