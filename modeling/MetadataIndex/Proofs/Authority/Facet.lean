import MetadataIndex.Authority.Fields
import MetadataIndex.Proofs.Effect.Invariant
import MetadataIndex.Proofs.Field.Facet

/-!
# Authority fields and facets

The entries of an authority record start with a mark of their own, and what is derived from them ends
with one; so no field of an authority record is a facet of time.
-/

set_option autoImplicit false

namespace MetadataIndex.AuthorityFields

open FieldName (IsFacet)

def NoFacet (fields : List Field) : Prop := ∀ f ∈ fields, ¬IsFacet f.name

variable {s : AuthorityStyle}

theorem noFacet_append {fields more : List Field} :
    NoFacet (fields ++ more) ↔ NoFacet fields ∧ NoFacet more :=
  List.forall_mem_append

theorem noFacet_cons {f : Field} {fields : List Field} :
    NoFacet (f :: fields) ↔ ¬IsFacet f.name ∧ NoFacet fields :=
  List.forall_mem_cons

theorem noFacet_nil : NoFacet [] := List.forall_mem_nil _

theorem noFacet_untokenized (name value : String) : NoFacet [⟨FieldName.untokenized name, value⟩] :=
  List.forall_mem_singleton.mpr (FieldName.not_isFacet_untokenized name)

theorem searchFields_noFacet {ending : String} (last : ending.toList.getLast? = some 'H')
    (value : String) : NoFacet (s.searchFields ending value) := by
  intro f member
  obtain ⟨label, -, rfl⟩ := List.mem_map.mp member
  exact FieldName.not_isFacet_append label last (by decide)

theorem nameFields_noFacet (earlier : List Field) (f : Field) : NoFacet (nameFields s earlier f) := by
  unfold nameFields
  dsimp only
  split
  · exact noFacet_append.mpr ⟨searchFields_noFacet rfl _, noFacet_untokenized _ _⟩
  · split
    · exact noFacet_append.mpr ⟨searchFields_noFacet rfl _, noFacet_untokenized _ _⟩
    · exact noFacet_nil

theorem withNameFields_noFacet {fields : List Field} (entries : NoFacet fields)
    (earlier : List Field) : NoFacet (withNameFields s earlier fields) := by
  induction fields generalizing earlier with
  | nil => exact noFacet_nil
  | cons f fields ih =>
    obtain ⟨head, rest⟩ := noFacet_cons.mp entries
    exact noFacet_append.mpr ⟨noFacet_cons.mpr ⟨head, nameFields_noFacet earlier f⟩, ih rest _⟩

theorem derivedFields_noFacet (f : Field) : NoFacet (derivedFields s f) := by
  unfold derivedFields
  split
  · intro g member
    obtain ⟨date, -, member⟩ := List.mem_flatMap.mp member
    exact noFacet_append.mpr ⟨searchFields_noFacet rfl _, noFacet_untokenized _ _⟩ g member
  · split
    · refine noFacet_append.mpr ⟨fun g member => ?_, fun g member => ?_⟩
      · obtain ⟨wkt, -, rfl⟩ := List.mem_map.mp member
        exact FieldName.not_isFacet_wktCoords
      · obtain ⟨geojson, -, rfl⟩ := List.mem_map.mp member
        exact (by decide : ¬IsFacet FieldName.normCoordsGeoJson)
    · exact noFacet_nil

theorem withUntokenized_noFacet {f : Field} (holds : ¬IsFacet f.name) :
    NoFacet (withUntokenized f) :=
  noFacet_cons.mpr ⟨holds, noFacet_untokenized _ _⟩

theorem inLanguage_noFacet {language : Option String} {entries fields : List Field}
    (holds : NoFacet fields) (replaced : List String) :
    NoFacet (inLanguage language entries replaced fields) := by
  induction fields generalizing replaced with
  | nil => exact noFacet_nil
  | cons f fields ih =>
    obtain ⟨head, rest⟩ := noFacet_cons.mp holds
    unfold inLanguage
    split
    · exact ih rest _
    · split
      · exact noFacet_append.mpr ⟨withUntokenized_noFacet head, ih rest _⟩
      · refine noFacet_append.mpr ⟨fun g member => ?_, ih rest _⟩
        obtain ⟨value, -, member⟩ := List.mem_flatMap.mp member
        exact withUntokenized_noFacet (f := ⟨f.name, value⟩) head g member

theorem ofPrepared_noFacet {prepared : List Field} (holds : NoFacet prepared) :
    NoFacet (ofPrepared s prepared) := by
  have entries : NoFacet (prepared.filter (isUnderstood s.language?)) := fun f member =>
    holds f (List.mem_of_mem_filter member)
  refine noFacet_append.mpr ⟨noFacet_append.mpr ⟨fun g member => ?_, ?_⟩, ?_⟩
  · obtain ⟨f, -, member⟩ := List.mem_flatMap.mp member
    exact derivedFields_noFacet f g member
  · exact inLanguage_noFacet (withNameFields_noFacet entries []) []
  · exact List.forall_mem_singleton.mpr FieldName.not_isFacet_hasWktCoords

theorem ofEntries_noFacet (s : AuthorityStyle) (entries : List (String × String)) :
    Action.Ensures (fun _ => True) NoFacet (ofEntries s entries) := by
  unfold ofEntries
  split
  · exact .pure noFacet_nil
  refine Action.Ensures.bind (Q := NoFacet) ?_ fun prepared holds => .pure (ofPrepared_noFacet holds)
  refine .forall_mapM (Q := fun f : Field => ¬IsFacet f.name) _ fun entry relevant => ?_
  obtain ⟨key, text⟩ := entry
  have marked : Text.startsWith key FieldName.normMark = true := by
    have kept := (List.mem_filter.mp relevant).2
    simp only [isRelevant, Bool.and_eq_true] at kept
    exact kept.1.1
  refine (Action.Ensures.lift (Q := fun _ => True) fun _ _ => trivial).bind fun value _ => ?_
  refine (Action.Ensures.trivial _).bind fun _ _ => .pure ?_
  exact FieldName.not_isFacet_of_normMark marked

end MetadataIndex.AuthorityFields
