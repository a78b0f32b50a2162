import MetadataIndex.Group.Builder
import MetadataIndex.Proofs.Effect.Invariant
import MetadataIndex.Proofs.Field.Names

/-!
# What drafts hold

The fields of a draft have the names of the fields of its entity, of their sort fields, and the few
names that every group uses. Its main value is decided by the element alone.
-/

set_option autoImplicit false

namespace MetadataIndex

open MetadataIndex.Xml (Cursor)

variable {ω τ : Type} {N : String → Prop} {P : Collector → Prop} {e : GroupEntity}

/-- A property of the names that a draft for an entity may use. -/
structure GroupEntity.Names (N : String → Prop) (e : GroupEntity) : Prop where
  subfields : ∀ s ∈ e.subfields, N s.name
  sorts : ∀ name, N (sortFieldName name)
  label : N FieldName.label
  kind : N FieldName.groupKind
  mainValue : N FieldName.mainValue
  groupKey : N FieldName.groupKey
  normUri : N FieldName.normUri

namespace GroupReader

variable {g : GroupReader} {rule : FieldRule} {s : Subfield}

theorem name_of_valueOf {text : String} {position : Nat} {v : GroupValue}
    (read : g.valueOf rule s text position = .ok (some v)) : v.field.name = s.name := by
  obtain ⟨value, _, read⟩ := Checked.bind_ok read
  dsimp only at read
  split at read
  · cases read
  · split at read
    · cases read
      rfl
    · cases read
      rfl

/-- Each value of an expression is read from a text for its field. -/
theorem of_mem_valuesOfQuery {c : Cursor} {query : String × String} {values : List GroupValue}
    (read : g.valuesOfQuery rule s c query = .ok values) :
    ∀ v ∈ values, ∃ text position, g.valueOf rule s text position = .ok (some v) := by
  obtain ⟨texts, _, read⟩ := Checked.bind_ok read
  obtain ⟨found, each, read⟩ := Checked.bind_ok read
  cases read
  intro v member
  obtain ⟨_, member, rfl⟩ := List.mem_filterMap.mp member
  obtain ⟨⟨text, position⟩, _, read⟩ := Checked.of_mem_mapM each member
  exact ⟨text, position, read⟩

/-- Each value of an entity is read from a text for one of its fields. -/
theorem of_mem_values {c : Cursor} {reference : Option String} {values : List GroupValue}
    (read : g.values rule e c reference = .ok values) :
    ∀ v ∈ values, ∃ s ∈ e.subfields, ∃ text position,
      g.valueOf rule s text position = .ok (some v) := by
  obtain ⟨found, each, read⟩ := Checked.bind_ok read
  cases read
  intro v member
  obtain ⟨inner, member, within⟩ := List.mem_flatten.mp member
  obtain ⟨outer, member, within'⟩ := List.mem_flatten.mp member
  obtain ⟨s, subfield, read⟩ := Checked.of_mem_mapM each member
  obtain ⟨query, _, read⟩ := Checked.of_mem_mapM read within'
  exact ⟨s, subfield, of_mem_valuesOfQuery read v within⟩

/-- The values of an entity stand under the names of its fields. -/
theorem name_of_values {c : Cursor} {reference : Option String} {values : List GroupValue}
    (read : g.values rule e c reference = .ok values) :
    ∀ v ∈ values, ∃ s ∈ e.subfields, v.field.name = s.name := by
  intro v member
  obtain ⟨s, subfield, text, position, read⟩ := of_mem_values read v member
  exact ⟨s, subfield, name_of_valueOf read⟩

end GroupReader

namespace Draft

variable {d : Draft}

section Kept

variable (stable : Collector.Stable N P)

include stable

theorem addValues_keeps (names : e.Names N) {values : List GroupValue}
    (own : ∀ v ∈ values, ∃ s ∈ e.subfields, v.field.name = s.name) (kept : P d.group) :
    P (d.addValues values).group := by
  unfold addValues
  induction values generalizing d with
  | nil => exact kept
  | cons v values ih =>
    refine ih (fun w later => own w (.tail _ later)) ?_
    obtain ⟨s, subfield, same⟩ := own v (.head _)
    have written : P (d.group.put v.field.name v.field.value true) :=
      stable.put (same ▸ names.subfields s subfield) kept _ _
    unfold addValue
    dsimp only
    split
    · exact stable.put (names.sorts _) written _ _
    · exact written

theorem takeMainValue_keeps (kind : GroupKind) (kept : P d.group) :
    P (takeMainValue kind d).group := by
  unfold takeMainValue
  split
  · exact kept
  · exact stable.replaceValue kept _ _

theorem takePersonName_keeps (names : e.Names N) (kind : GroupKind) (kept : P d.group) :
    P (takePersonName kind d).group := by
  unfold takePersonName
  dsimp only
  split
  · exact stable.put names.mainValue kept _ _
  · exact kept

theorem ofElement_keeps {g : GroupReader} {rule : FieldRule} {c : Cursor} {label : String}
    (names : e.Names N) (start : P (ofLabel label e.kind).group)
    (made : ofElement g rule e c label = .ok d) : P d.group := by
  obtain ⟨own, read, made⟩ := Checked.bind_ok made
  have first : P (takeMainValue e.kind ((ofLabel label e.kind).addValues own)).group :=
    takeMainValue_keeps stable e.kind
      (addValues_keeps stable names (GroupReader.name_of_values read) start)
  dsimp only at made
  split at made
  · obtain ⟨referenced, read', made⟩ := Checked.bind_ok made
    cases made
    exact takePersonName_keeps stable names e.kind
      (addValues_keeps stable names (GroupReader.name_of_values read') first)
  · cases made
    exact takePersonName_keeps stable names e.kind first

theorem addGroupKey_keeps (names : e.Names N) (label : String) (kept : P d.group) :
    P (d.addGroupKey label).group := by
  unfold addGroupKey
  split
  · split
    · exact kept
    · exact stable.put names.groupKey kept _ _
  · exact kept

theorem takeAttributeIdentifier_keeps (names : e.Names N) (c : Cursor) (kept : P d.group) :
    P (d.takeAttributeIdentifier c).group := by
  unfold takeAttributeIdentifier
  split
  · exact stable.put names.normUri kept _ _
  · exact kept

end Kept

theorem ofLabel_names (names : e.Names N) (label : String) (kind : GroupKind) :
    (ofLabel label kind).group.AllNames N :=
  (Collector.allNames_empty.put names.label).put names.kind

/-- Every draft has a field: the kind of its group. -/
theorem ofLabel_ne_nil (label : String) (kind : GroupKind) :
    (ofLabel label kind).group.toList ≠ [] := by
  have indexed : (({} : Collector).put FieldName.label label).Indexed :=
    Collector.indexed_empty.put
  have single : Collector.partsOf FieldName.groupKind kind.name
      = [⟨FieldName.groupKind, kind.name⟩] := by
    cases kind <;> decide +kernel
  have given : kind.name.isEmpty = false := by
    cases kind <;> decide +kernel
  refine List.ne_nil_of_mem (a := ⟨FieldName.groupKind, kind.name⟩) ?_
  unfold ofLabel
  rw [Collector.put_eq_foldl _ FieldName.groupKind, single]
  exact indexed.mem_addPart given

@[simp] theorem mainValue_addValues (d : Draft) (values : List GroupValue) :
    (d.addValues values).mainValue = d.mainValue := by
  unfold addValues
  induction values generalizing d with
  | nil => rfl
  | cons v values ih => exact ih (d.addValue v)

@[simp] theorem mainValue_addGroupKey (label : String) (d : Draft) :
    (d.addGroupKey label).mainValue = d.mainValue := by
  unfold addGroupKey
  split
  · split
    · rfl
    · rfl
  · rfl

@[simp] theorem mainValue_takeAttributeIdentifier (c : Cursor) (d : Draft) :
    (d.takeAttributeIdentifier c).mainValue = d.mainValue := by
  unfold takeAttributeIdentifier
  split
  · rfl
  · rfl

end Draft

/-- What a draft is to its element: its main value is that which the element gives, it has no other
names than its entity allows, and it has a field. -/
structure GroupBuilder.Drafts (b : GroupBuilder ω τ) (rule : FieldRule) (t : GroupTask) (d : Draft) :
    Prop where
  mainValue : ∃ drafted, Draft.ofElement b.reader rule t.entity t.element t.label = .ok drafted
    ∧ d.mainValue = drafted.mainValue
  names : ∀ N, t.entity.Names N → d.group.AllNames N
  given : d.group.toList ≠ []

theorem GroupEntity.names_true (e : GroupEntity) : e.Names fun _ => True :=
  ⟨fun _ _ => trivial, fun _ => trivial, trivial, trivial, trivial, trivial, trivial⟩

theorem GroupBuilder.draft_ensures (b : GroupBuilder ω τ) (rule : FieldRule) (t : GroupTask) :
    Action.Ensures (fun _ => True) (b.Drafts rule t) (b.draft rule t) := by
  -- what is kept by all steps on the group is kept by the draft
  have closed {d drafted : Draft}
      (made : Draft.ofElement b.reader rule t.entity t.element t.label = .ok drafted)
      (same : d.mainValue = drafted.mainValue)
      (keeps : ∀ N P, t.entity.Names N → Collector.Stable N P →
        P (Draft.ofLabel t.label t.entity.kind).group → P d.group) :
      Action.Ensures (fun _ => True) (b.Drafts rule t)
        (pure (if b.authority.isSome then (d.addGroupKey t.label).takeAttributeIdentifier t.element
          else d.addGroupKey t.label) : Action ω Draft) := by
    have all : ∀ N P, t.entity.Names N → Collector.Stable N P →
        P (Draft.ofLabel t.label t.entity.kind).group →
        P (if b.authority.isSome then (d.addGroupKey t.label).takeAttributeIdentifier t.element
          else d.addGroupKey t.label).group := by
      intro N P names stable start
      have keyed := Draft.addGroupKey_keeps stable names t.label (keeps N P names stable start)
      split
      · exact Draft.takeAttributeIdentifier_keeps stable names t.element keyed
      · exact keyed
    refine .pure ⟨⟨drafted, made, ?_⟩, fun N names => ?_, ?_⟩
    · split
      · rw [Draft.mainValue_takeAttributeIdentifier, Draft.mainValue_addGroupKey, same]
      · rw [Draft.mainValue_addGroupKey, same]
    · exact all N _ names (Collector.stable_allNames N) (Draft.ofLabel_names names t.label _)
    · exact all _ _ t.entity.names_true (Collector.stable_ne_nil _) (Draft.ofLabel_ne_nil t.label _)
  unfold draft
  refine (Action.Ensures.lift (Q := fun d =>
    Draft.ofElement b.reader rule t.entity t.element t.label = .ok d) fun _ made => made).bind
    fun drafted made => ?_
  refine (Action.Ensures.trivial _).bind fun root _ => ?_
  cases root with
  | none => exact closed made rfl fun N P names stable start =>
      Draft.ofElement_keeps stable names start made
  | some root =>
    refine (Action.Ensures.lift (Q := fun values => b.reader.values rule t.entity root = .ok values)
      fun _ read => read).bind fun values read => ?_
    refine closed made ?_ fun N P names stable start => ?_
    · exact Draft.mainValue_addValues drafted values
    · exact Draft.addValues_keeps stable names (GroupReader.name_of_values read)
        (Draft.ofElement_keeps stable names start made)

end MetadataIndex
