import MetadataIndex.Proofs.Group.Gifts

/-!
# Groups apart from the owning record

Building a group writes to the owning record on several ways: text and coordinates of its fields, names
of authorities, and authority fields that are copied. A rule keeps its groups apart when all of these
are off; then building leaves the owning record as it is.
-/

set_option autoImplicit false

namespace MetadataIndex

variable {ω τ : Type} {rule : FieldRule} {e : GroupEntity} {c₀ : Collector}

/-- Neither the records of an entity nor those nested in them are copied from. -/
inductive GroupEntity.PromotesNothing : GroupEntity → Prop where
  | mk {e : GroupEntity} (authority : e.promoteAuthority = false)
      (coordinates : e.promoteCoordinates = false)
      (children : ∀ child ∈ e.children, PromotesNothing child) : PromotesNothing e

/-- Nothing of the groups of a rule goes to the owning record. Where identifiers are not resolved,
there is nothing of authorities that could. -/
structure FieldRule.KeepsApart (rule : FieldRule) (e : GroupEntity) (resolves : Bool) : Prop where
  text : rule.addToDefault = false
  coordinates : rule.geoSource = none ∨ rule.addGeoSearchField = false
  authorities : resolves = true →
    rule.authorityDefaults = [] ∧ rule.addUntokenized = false ∧ e.PromotesNothing

/-- Building a group that is kept apart leaves the owning record as it is. -/
theorem FieldRule.KeepsApart.giftsKeep {b : GroupBuilder ω τ}
    (apart : rule.KeepsApart e b.authority.isSome) : b.GiftsKeep rule (· = c₀) where
  text asked := by
    rw [apart.text] at asked
    cases asked
  coordinates source asked := by
    obtain none | off := apart.coordinates
    · rw [none] at source
      cases source
    · rw [off] at asked
      cases asked
  names resolves asked := by
    rw [(apart.authorities resolves).2.1] at asked
    cases asked
  defaults resolves asked := absurd (apart.authorities resolves).1 asked

namespace GroupedRecord

variable {r : GroupedRecord}

theorem promote_of_no_fields (none : r.authorityFields = []) (c : Collector) : r.promote c = c := by
  rw [promote, none]
  rfl

theorem promote_of_off (authority : r.promotesAuthority = false)
    (coordinates : r.promotesCoordinates = false) (c : Collector) : r.promote c = c := by
  have promoted : r.authorityFields.filter r.promotes = [] := by
    refine List.filter_eq_nil_iff.mpr fun f _ => ?_
    simp [promotes, authority, coordinates]
  rw [promote, promoted]
  rfl

theorem isMarked_of_sameContent {r r' : GroupedRecord} (same : r.sameContent r' = true) :
    r.isMarked = r'.isMarked := by
  obtain ⟨-, -, fields⟩ := sameContent_iff.mp same
  rw [isMarked, isMarked, fields]

end GroupedRecord

namespace GroupArena

/-- A group whose only topmost record is marked has the content of no other record. -/
theorem containsEqual_of_marked {group : GroupArena} {root : GroupedRecord}
    {deeper : List GroupedRecord} (stored : group.toList = root :: deeper)
    (marked : root.isMarked = true) (below : ∀ r ∈ deeper, r.parent.isSome = true)
    {r : GroupedRecord} (other : r.isMarked = false) : group.containsEqual r = false := by
  refine List.any_eq_false.mpr fun r' member same => ?_
  obtain ⟨inside, top⟩ := List.mem_filter.mp member
  rw [stored] at inside
  obtain rfl | later := List.mem_cons.mp inside
  · rw [GroupedRecord.isMarked_of_sameContent same, other] at marked
    cases marked
  · have none := Option.isNone_iff_eq_none.mp top
    have some := below r' later
    rw [none] at some
    cases some

/-- The records of a group that may not be shared: the topmost is marked and has a main value, and
nothing is copied from any. -/
structure Withheld (group : GroupArena) (root : GroupedRecord) : Prop where
  first : group.get 0 = .ok root
  valued : root.mainValue.isSome = true
  unlike : ∀ r : GroupedRecord, r.isMarked = false → group.containsEqual r = false
  promotes : ∀ r ∈ group.toList, ∀ c, r.promote c = c

end GroupArena

namespace GroupBuilder

variable {b : GroupBuilder ω τ}

/-- The group of an element gets a main value that is not empty. -/
def Names (b : GroupBuilder ω τ) (rule : FieldRule) (e : GroupEntity) (c : Xml.Cursor) : Prop :=
  ∀ d, Draft.ofElement b.reader rule e c rule.field = .ok d → d.givenMainValue.isSome = true

theorem promote_of_builds {restricted : Bool} {t : GroupTask}
    (off : b.authority.isSome = true → t.entity.PromotesNothing) {r : GroupedRecord}
    (builds : b.Builds rule restricted t r) (c : Collector) : r.promote c = c := by
  cases present : b.authority with
  | none => exact GroupedRecord.promote_of_no_fields (builds.authorityFields present) c
  | some service =>
    obtain ⟨authority, coordinates, -⟩ := off (by rw [present]; rfl)
    exact GroupedRecord.promote_of_off (builds.promotesAuthority.trans authority)
      (builds.promotesCoordinates.trans coordinates) c

theorem build_withheld (apart : rule.KeepsApart e b.authority.isSome)
    (lacks : e.hasSubfield FieldName.accessCondition = false) {element : Xml.Cursor}
    (named : b.Names rule e element) (c₀ : Collector) :
    Action.Ensures (fun s => s.collector = c₀) (fun group => ∃ root, group.Withheld root)
      (b.build rule e element rule.field true) := by
  have passes : ∀ e : GroupEntity, (b.authority.isSome = true → e.PromotesNothing) →
      ∀ child ∈ e.children, b.authority.isSome = true → child.PromotesNothing := by
    intro e off child nested present
    obtain ⟨-, -, children⟩ := off present
    exact children child nested
  refine (build_ensures apart.giftsKeep.keeps passes (fun present =>
    (apart.authorities present).2.2) element rule.field true).imp ?_
  rintro group ⟨root, deeper, stored, builds, below⟩
  obtain ⟨d, made, same⟩ := builds.mainValue
  have given := named d made
  rw [Draft.givenMainValue, Option.isSome_filter, ← same] at given
  have marked : root.isMarked = true := by
    rw [builds.marked lacks, given]
    rfl
  refine ⟨root, GroupArena.get_zero stored, Option.isSome_of_any given, ?_, ?_⟩
  · intro r other
    refine GroupArena.containsEqual_of_marked stored marked (fun r' member => ?_) other
    obtain ⟨t, ⟨-, parent⟩, builds'⟩ := below r' member
    rw [builds'.parent]
    exact parent
  · rw [stored]
    refine List.forall_mem_cons.mpr ⟨promote_of_builds (fun present =>
      (apart.authorities present).2.2) builds, fun r member => ?_⟩
    obtain ⟨t, ⟨off, -⟩, builds'⟩ := below r member
    exact promote_of_builds off builds'

/-- The group of an element that may be shared has no mark. -/
theorem build_unmarked (rule : FieldRule) (lacks : e.hasSubfield FieldName.accessCondition = false)
    (element : Xml.Cursor) :
    Action.Ensures (fun _ => True)
      (fun group => ∀ root, group.get 0 = .ok root → root.isMarked = false)
      (b.build rule e element rule.field false) := by
  refine (build_ensures (b.keeps_trivial rule) (T := fun _ => True) (fun _ _ _ _ => trivial) trivial
    element rule.field false).imp ?_
  rintro group ⟨root, deeper, stored, builds, -⟩ root' first
  rw [GroupArena.get_zero stored] at first
  cases first
  exact builds.marked lacks

end GroupBuilder

end MetadataIndex
