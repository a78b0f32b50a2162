import MetadataIndex.Proofs.XPath.Order
import MetadataIndex.XPath.Query

/-!
# Steps of a path

A step gives, in order, what its direction, test and predicates leave of each place. Down a document it
gives the parts that stand below one of the places and satisfy the test.
-/

set_option autoImplicit false

namespace MetadataIndex.XPath

open MetadataIndex.Xml (Attribute Cursor Document Name Node)

variable {b : Bindings} {f : Focus} {origin : Expr}

/-! ## The forms that a query is made of

Each equation holds by computation; the lemmas after them rewrite with it and leave `Expr.eval` closed. -/

theorem eval_root : Expr.root.eval b f = some (.places [f.place.top]) := rfl

theorem eval_here : Expr.here.eval b f = some (.places [f.place]) := rfl

theorem eval_literal (s : String) : (Expr.literal s).eval b f = some (.text s) := rfl

theorem eval_equal (left right : Expr) : (Expr.binary .equal left right).eval b f
    = (left.eval b f).bind fun x => (right.eval b f).bind fun y => some (.truth (x.equals false y)) :=
  rfl

theorem eval_step_eq (axis : Axis) (test : NodeTest) (predicates : List Expr) :
    (Expr.step origin axis test predicates).eval b f
      = (origin.eval b f).bind fun v => v.places?.bind fun places =>
        (test.condition b axis).bind fun holds =>
        (places.mapM fun c => keepAll b predicates ((axis.placesFrom c).filter holds)).bind fun found =>
        some (.places (inOrder found.flatten)) :=
  rfl

theorem keepAll_nil (places : List Cursor) : keepAll b [] places = some places := rfl

theorem keepAll_singleton (predicate : Expr) (places : List Cursor) : keepAll b [predicate] places
    = (keepWhere (fun c i => (predicate.eval b ⟨c, i, places.length⟩).map (·.keeps i)) 1 places).bind
      some :=
  rfl

/-! ## Predicates -/

theorem keepWhere_eq_filter {holds : Cursor → Nat → Option Bool} {test : Cursor → Bool}
    {places : List Cursor} (decides : ∀ c ∈ places, ∀ i, holds c i = some (test c)) (i : Nat) :
    keepWhere holds i places = some (places.filter test) := by
  induction places generalizing i with
  | nil => rfl
  | cons c places ih =>
    obtain ⟨first, rest⟩ := List.forall_mem_cons.mp decides
    rw [keepWhere, first, ih rest, List.filter_cons]
    rfl

theorem keepAll_truth {predicate : Expr} {test : Cursor → Bool} {places : List Cursor}
    (decides : ∀ c ∈ places, ∀ i size, predicate.eval b ⟨c, i, size⟩ = some (.truth (test c))) :
    keepAll b [predicate] places = some (places.filter test) := by
  have holds (c : Cursor) (member : c ∈ places) (i : Nat) :
      (predicate.eval b ⟨c, i, places.length⟩).map (·.keeps i) = some (test c) := by
    rw [decides c member i places.length]
    rfl
  rw [keepAll_singleton, keepWhere_eq_filter holds, Option.bind_some]

/-! ## Steps -/

theorem mapM_some {α β : Type} {g : α → Option β} {h : α → β} {l : List α}
    (each : ∀ a ∈ l, g a = some (h a)) : l.mapM g = some (l.map h) := by
  induction l with
  | nil => rfl
  | cons a l ih =>
    obtain ⟨first, rest⟩ := List.forall_mem_cons.mp each
    rw [List.mapM_cons, first, ih rest]
    rfl

theorem eval_step {axis : Axis} {test : NodeTest} {predicates : List Expr} {places : List Cursor}
    {holds : Cursor → Bool} {kept : Cursor → List Cursor}
    (start : origin.eval b f = some (.places places)) (condition : test.condition b axis = some holds)
    (keeps : ∀ c ∈ places, keepAll b predicates ((axis.placesFrom c).filter holds) = some (kept c)) :
    (Expr.step origin axis test predicates).eval b f
      = some (.places (inOrder (places.flatMap kept))) := by
  have given : (Value.places places).places? = some places := rfl
  rw [eval_step_eq, start, Option.bind_some, given, Option.bind_some, condition, Option.bind_some,
    mapM_some keeps, Option.bind_some, List.flatMap_def]

/-- Whether a place is an element with a name in a namespace. -/
def isElementNamed (space plain : String) (c : Cursor) : Bool :=
  c.node?.any fun
    | .element name _ _ _ => name.space == space && name.plain == plain
    | _ => false

theorem condition_name {mark plain space : String} (unreserved : (mark == "xml") = false)
    (bound : lookup? mark b.namespaces = some space) :
    (NodeTest.name (some mark) plain).condition b .child = some (isElementNamed space plain) := by
  have known : b.namespace? mark = some space := by
    rw [Bindings.namespace?, unreserved, if_neg Bool.false_ne_true, bound]
  change (b.namespace? mark).map (fun space => Axis.child.hasName
    fun n => n.space == space && n.plain == plain) = _
  rw [known, Option.map_some]
  refine congrArg some (funext fun c => ?_)
  cases c with
  | inside above index n => cases n <;> rfl
  | _ => rfl

/-! ## Steps down a document -/

variable {d : Document}

/-- The parts of a document that a path may go on from. -/
def isNoReference : Cursor → Bool
  | .inside _ _ (.reference _ _) => false
  | _ => true

theorem eval_throughDescendants (start : origin.eval b f = some (.places [.document d])) :
    (throughDescendants origin).eval b f
      = some (.places ((Cursor.document d).subtree.filter isNoReference)) := by
  have condition : NodeTest.node.condition b .descendantOrSelf = some isNoReference := rfl
  rw [throughDescendants, eval_step start condition fun c _ => keepAll_nil _, List.flatMap_singleton]
  exact congrArg (some ∘ Value.places)
    (inOrder_of_pairwise ((pairwise_subtree _).sublist List.filter_sublist))

/-- A step to the children gives the parts of the document that stand in one of the places and are kept. -/
theorem eval_child {test : NodeTest} {predicates : List Expr} {places : List Cursor}
    {holds more p : Cursor → Bool} (start : origin.eval b f = some (.places places))
    (condition : test.condition b .child = some holds)
    (keeps : ∀ l, keepAll b predicates l = some (l.filter more))
    (parts : ∀ c, ((∃ x ∈ places, c ∈ x.children) ∧ holds c = true ∧ more c = true)
      ↔ c ∈ (Cursor.document d).subtree ∧ p c = true) :
    (Expr.step origin .child test predicates).eval b f
      = some (.places ((Cursor.document d).subtree.filter p)) := by
  rw [eval_step start condition fun c _ => keeps _, inOrder_eq_filter fun c => ?_]
  rw [← parts]
  simp only [List.mem_flatMap, List.mem_filter, Axis.placesFrom]
  constructor
  · rintro ⟨x, member, ⟨child, held⟩, kept⟩
    exact ⟨⟨x, member, child⟩, held, kept⟩
  · rintro ⟨⟨x, member, child⟩, held, kept⟩
    exact ⟨x, member, ⟨child, held⟩, kept⟩

/-- Every part of a document but the document itself is a child of a part that is no reference. -/
theorem exists_parent {c : Cursor} (part : c ∈ (Cursor.document d).subtree)
    (inner : c.node?.isSome = true) :
    ∃ x ∈ (Cursor.document d).subtree, isNoReference x = true ∧ c ∈ x.children := by
  rcases (Cursor.mem_subtree_iff.mp part).cases_tail with same | ⟨x, reached, child⟩
  · rw [same] at inner
    cases inner
  · refine ⟨x, Cursor.mem_subtree_iff.mpr reached, ?_, child⟩
    unfold isNoReference
    split
    · cases child
    · rfl

theorem above_of_mem_children {c x : Cursor} (child : c ∈ x.children) : c.above? = some x := by
  obtain ⟨k, n, -, rfl⟩ := Cursor.mem_children.mp child
  rfl

/-! ## The value of an attribute -/

/-- Whether an element has an attribute with a name in no namespace and a value. -/
def hasValue (name value : String) (n : Node) : Bool :=
  n.attributes.any fun a => a.name.space.isEmpty && a.name.plain == name && a.value == value

theorem any_attributesFrom {owner : Cursor} {p : Cursor → Bool} {q : Attribute → Bool}
    (same : ∀ index a, p (.ofAttribute owner index a) = q a) (index : Nat) (l : List Attribute) :
    (Cursor.attributesFrom owner index l).any p = l.any q := by
  induction l generalizing index with
  | nil => rfl
  | cons a l ih => rw [Cursor.attributesFrom, List.any_cons, List.any_cons, ih, same]

theorem exists_of_mem_attributesFrom {owner c : Cursor} {index : Nat} {l : List Attribute}
    (member : c ∈ Cursor.attributesFrom owner index l) :
    ∃ k a, index ≤ k ∧ c = .ofAttribute owner k a := by
  induction l generalizing index with
  | nil => cases member
  | cons a l ih =>
    rcases List.mem_cons.mp member with rfl | later
    · exact ⟨index, a, le_rfl, rfl⟩
    · obtain ⟨k, a', bound, rfl⟩ := ih later
      exact ⟨k, a', by omega, rfl⟩

theorem pairwise_attributesFrom (owner : Cursor) (index : Nat) (l : List Attribute) :
    (Cursor.attributesFrom owner index l).Pairwise Precedes := by
  induction l generalizing index with
  | nil => exact .nil
  | cons a l ih =>
    refine .cons (fun c member => ?_) (ih (index + 1))
    obtain ⟨k, a', later, rfl⟩ := exists_of_mem_attributesFrom member
    have place (i : Nat) (a : Attribute) :
        (Cursor.ofAttribute owner i a).position = owner.position ++ [(1, i)] := List.reverse_cons
    have earlier : index ≠ k := by omega
    rw [Precedes, place, place, comesBefore_append]
    simp [comesBefore, earlier]
    omega

theorem eval_attribute (name : String) :
    (Expr.step .here .ofAttributes (.name none name) []).eval b f
      = some (.places (f.place.attributes.filter
        (Axis.ofAttributes.hasName fun n => n.space.isEmpty && n.plain == name))) := by
  have condition : (NodeTest.name none name).condition b .ofAttributes
      = some (Axis.ofAttributes.hasName fun n => n.space.isEmpty && n.plain == name) := rfl
  have ordered : f.place.attributes.Pairwise Precedes := by
    unfold Cursor.attributes
    split
    · exact pairwise_attributesFrom _ _ _
    · exact .nil
  rw [eval_step eval_here condition fun c _ => keepAll_nil _, List.flatMap_singleton]
  exact congrArg (some ∘ Value.places) (inOrder_of_pairwise (ordered.sublist List.filter_sublist))

/-- The comparison of an attribute with a text asks whether the element has it with this value. -/
theorem eval_attribute_equal (name value : String) :
    (Expr.binary .equal (.step .here .ofAttributes (.name none name) []) (.literal value)).eval b f
      = some (.truth (f.place.node?.any (hasValue name value))) := by
  have compared (l : List Cursor) : Value.equals false (.places l) (.text value)
      = l.any fun c => c.fullText == value := by
    refine congrArg l.any (funext fun c => ?_)
    exact Bool.bne_false _
  rw [eval_equal, eval_attribute, eval_literal, Option.bind_some, Option.bind_some, compared,
    List.any_filter, Cursor.attributes]
  cases f.place.node? with
  | none => rfl
  | some n =>
    exact congrArg (some ∘ Value.truth) (any_attributesFrom (fun _ _ => rfl) 0 n.attributes)

end MetadataIndex.XPath
