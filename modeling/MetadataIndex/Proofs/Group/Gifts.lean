import MetadataIndex.Proofs.Group.Built

/-!
# What groups give to the owning record

Building a group writes to the owning record in four ways: the text of its fields, the coordinates in
its main values, the names of its authorities, and the authority values that a rule asks for as text. A
property of the owning record that all of these keep is kept by building.
-/

set_option autoImplicit false

namespace MetadataIndex

variable {ω τ : Type} {rule : FieldRule} {I : Collector → Prop}

/-- Everything that the groups of a rule may give to the owning record keeps a property of it. -/
structure GroupBuilder.GiftsKeep (b : GroupBuilder ω τ) (rule : FieldRule) (I : Collector → Prop) :
    Prop where
  text : rule.addToDefault = true → ∀ c value, I c → I (c.addDefault value)
  coordinates : rule.geoSource.isSome = true → rule.addGeoSearchField = true →
    ∀ c value, I c → I (c.put FieldName.wktCoords value)
  names : b.authority.isSome = true → rule.addUntokenized = true →
    ∀ c label value, I c → I (c.put (FieldName.untokenized label) value)
  defaults : b.authority.isSome = true → rule.authorityDefaults ≠ [] →
    ∀ c value, I c → I (c.addDefault value)

/-- Copying the authority fields of a record keeps what writing each of them keeps. The field that says
whether there are coordinates is never copied. -/
theorem GroupedRecord.promote_induction {record : GroupedRecord} {c : Collector} (start : I c)
    (step : ∀ c, ∀ f ∈ record.authorityFields, f.name ≠ FieldName.hasWktCoords → I c →
      I (c.put f.name f.value)) : I (record.promote c) := by
  have copied : ∀ f ∈ record.authorityFields.filter record.promotes,
      f ∈ record.authorityFields ∧ f.name ≠ FieldName.hasWktCoords := by
    intro f member
    obtain ⟨given, asked⟩ := List.mem_filter.mp member
    rw [promotes, Bool.and_eq_true, bne_iff_ne] at asked
    exact ⟨given, asked.1⟩
  unfold promote
  generalize record.authorityFields.filter record.promotes = fields at copied
  induction fields generalizing c with
  | nil => exact start
  | cons f fields ih =>
    refine ih ?_ fun g later => copied g (.tail _ later)
    unfold promoteField
    split
    · exact start
    · exact step c f (copied f (.head _)).1 (copied f (.head _)).2 start

/-- Entries of an authority record are added to the texts one by one. -/
theorem AuthorityFields.ofEntries_ensures {style : AuthorityStyle} {J : AuthorityTexts → Prop}
    (adds : ∀ texts f, J texts → J (texts.addEntry style.defaults f))
    (entries : List (String × String)) :
    Action.Ensures J (fun _ => True) (ofEntries style entries) := by
  unfold ofEntries
  split
  · exact .pure trivial
  refine Action.Ensures.bind (Q := fun _ => True) (.mapM _ fun entry _ => ?_) fun _ _ => .pure trivial
  refine (Action.Ensures.lift (Q := fun _ => True) fun _ _ => trivial).bind fun value _ => ?_
  exact (Action.Ensures.modify fun texts kept => adds texts _ kept).bind fun _ _ => .pure trivial

theorem AuthorityService.resolve_ensures (service : AuthorityService ω τ) {style : AuthorityStyle}
    {J : AuthorityTexts → Prop} (adds : ∀ texts f, J texts → J (texts.addEntry style.defaults f))
    (uri : String) :
    Action.Ensures (fun s : AuthorityState ω τ × AuthorityTexts => J s.2) (fun _ => True)
      (service.resolve style uri) := by
  refine Action.Ensures.bind ((Action.Ensures.trivial (service.recordOf uri)).onPart
    (fun _ _ => trivial) fun _ _ kept _ => kept) fun r _ => ?_
  cases r with
  | none => exact .pure trivial
  | some r =>
    exact (AuthorityFields.ofEntries_ensures adds r.entries).onPart (fun _ kept => kept)
      fun _ _ _ kept => kept

namespace GroupBuilder

variable {b : GroupBuilder ω τ}

/-- Resolving changes only the free text of the owning record. -/
theorem resolve_ensures (service : AuthorityService ω τ)
    (adds : rule.authorityDefaults ≠ [] → ∀ c value, I c → I (c.addDefault value)) (uri : String) :
    Action.Ensures (fun s => I s.collector) (fun _ => True) (resolve service rule uri) := by
  refine .of_leaves fun s kept => ?_
  let style : AuthorityStyle :=
    { label := some rule.field, replaceRules := rule.pipeline.replaceRules
      defaults := rule.authorityDefaults }
  -- the property as one of the text alone, the rest of the owning record being as it was
  let J (texts : AuthorityTexts) : Prop :=
    I { s.collector with default := texts.default.getD s.collector.default }
  have entry : ∀ texts f, J texts → J (texts.addEntry style.defaults f) := by
    intro texts f kept
    unfold AuthorityTexts.addEntry
    dsimp only
    cases asked : style.defaults.any fun d => d.text? == some f.name with
    | false => exact kept
    | true =>
      have some : rule.authorityDefaults ≠ [] := by
        intro none
        rw [show style.defaults = [] from none] at asked
        cases asked
      obtain ⟨default, terms⟩ := texts
      cases default with
      | none => exact kept
      | some text => exact adds some _ f.value kept
  have left := (service.resolve_ensures entry uri).leaves
    (s := (s.outside, ⟨some s.collector.default, some {}⟩)) kept
  unfold Action.leaves at left ⊢
  unfold resolve
  dsimp only
  generalize service.resolve _ uri (s.outside, _) = result at left
  cases result with
  | ok fields final => exact left
  | error fault final => exact left

theorem noteNames_keeps (text : rule.addToDefault = true → ∀ c value, I c → I (c.addDefault value))
    (names : rule.addUntokenized = true →
      ∀ c label value, I c → I (c.put (FieldName.untokenized label) value))
    (label : String) (answer : AuthorityAnswer) {c : Collector} (kept : I c) :
    I (answer.noteNames rule label c) := by
  unfold AuthorityAnswer.noteNames
  generalize answer.fields.filter _ = fields
  induction fields generalizing c with
  | nil => exact kept
  | cons f fields ih =>
    refine ih ?_
    have noted : I (if rule.addToDefault then c.addDefault f.value else c) := by
      cases asked : rule.addToDefault with
      | false => exact kept
      | true => exact text asked c f.value kept
    dsimp only
    cases asked : rule.addUntokenized with
    | false => exact noted
    | true => exact names asked _ label f.value noted

theorem noteCoordinates_keeps
    (coordinates : rule.geoSource.isSome = true → rule.addGeoSearchField = true →
      ∀ c value, I c → I (c.put FieldName.wktCoords value))
    (f : Field) {c : Collector} (kept : I c) : I (Finish.noteCoordinates rule f c) := by
  unfold Finish.noteCoordinates
  cases found : (Finish.coordinates rule f).wkt with
  | none => exact kept
  | some wkt =>
    dsimp only
    cases asked : rule.addGeoSearchField with
    | false => exact kept
    | true =>
      refine coordinates ?_ asked c wkt kept
      unfold Finish.coordinates at found
      cases source : rule.geoSource with
      | none =>
        rw [source] at found
        cases found
      | some source => rfl

theorem noteText_keeps (text : rule.addToDefault = true → ∀ c value, I c → I (c.addDefault value))
    (mainValue : Option String) (f : Field) {c : Collector} (kept : I c) :
    I (Finish.noteText rule mainValue f c) := by
  unfold Finish.noteText
  cases asked : rule.addToDefault with
  | false => exact kept
  | true =>
    have rest : ∀ {c : Collector}, I c →
        I (if f.value.isEmpty || some f.value == mainValue || FieldName.structural.contains f.name
          then c else c.addDefault f.value) := by
      intro c kept
      split
      · exact kept
      · exact text asked c f.value kept
    cases mainValue with
    | none => exact rest kept
    | some value =>
      refine rest ?_
      dsimp only
      split
      · exact kept
      · exact text asked c value kept

theorem GiftsKeep.keeps (gifts : b.GiftsKeep rule I) : b.Keeps rule I where
  finish := ⟨fun f _ kept => noteCoordinates_keeps gifts.coordinates f kept,
    fun mainValue f _ kept => noteText_keeps gifts.text mainValue f kept⟩
  answers d label := by
    unfold answerOf
    split
    case h_1 service uri present _ =>
      have resolves : b.authority.isSome = true := by
        rw [present]
        rfl
      refine (resolve_ensures service (gifts.defaults resolves) uri).imp fun answer _ c kept => ?_
      exact noteNames_keeps gifts.text (gifts.names resolves) label answer kept
    case h_2 => exact .pure fun c kept => kept

end GroupBuilder

end MetadataIndex
