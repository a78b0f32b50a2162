import MetadataIndex.Field.SortKey

/-!
# Facets of time

Years and centuries have fields of their own, the facets. A name that is made from other names is never
that of a facet: it starts or ends with another letter.
-/

set_option autoImplicit false

namespace MetadataIndex

namespace FieldName

/-- The name is that of the years or of the centuries. -/
def IsFacet (name : String) : Prop := name = year ∨ name = century

instance (name : String) : Decidable (IsFacet name) :=
  inferInstanceAs (Decidable (_ ∨ _))

theorem not_isFacet_of_head {name : String} {c : Char} (head : name.toList.head? = some c)
    (other : c ∉ ['Y', 'C']) : ¬IsFacet name := by
  rintro (rfl | rfl)
  · exact other (by simp [← Option.some.inj (show some 'Y' = some c from head)])
  · exact other (by simp [← Option.some.inj (show some 'C' = some c from head)])

theorem not_isFacet_of_getLast {name : String} {c : Char} (last : name.toList.getLast? = some c)
    (other : c ∉ ['R', 'Y']) : ¬IsFacet name := by
  rintro (rfl | rfl)
  · exact other (by simp [← Option.some.inj (show some 'R' = some c from last)])
  · exact other (by simp [← Option.some.inj (show some 'Y' = some c from last)])

theorem not_isFacet_append {ending : String} {c : Char} (name : String)
    (last : ending.toList.getLast? = some c) (other : c ∉ ['R', 'Y']) :
    ¬IsFacet (name ++ ending) :=
  not_isFacet_of_getLast (by simp [last]) other

@[simp] theorem not_isFacet_untokenized (name : String) : ¬IsFacet (untokenized name) :=
  not_isFacet_append name (c := 'D') rfl (by decide)

theorem not_isFacet_of_normMark {name : String} (marked : Text.startsWith name normMark = true) :
    ¬IsFacet name := by
  rw [Text.startsWith, Text.beginsWith_iff] at marked
  obtain ⟨rest, split⟩ := marked
  exact not_isFacet_of_head (c := 'N') (by rw [← split]; rfl) (by decide)

@[simp] theorem not_isFacet_wktCoords : ¬IsFacet wktCoords := by decide

@[simp] theorem not_isFacet_hasWktCoords : ¬IsFacet hasWktCoords := by decide

theorem untokenized_ne_hasWktCoords (name : String) : untokenized name ≠ hasWktCoords := by
  intro same
  have last : (untokenized name).toList.getLast? = some 'D' := by simp [untokenized]
  rw [same] at last
  exact absurd last (by decide)

end FieldName

open FieldName (IsFacet)

@[simp] theorem not_isFacet_sortFieldName (name : String) : ¬IsFacet (sortFieldName name) :=
  FieldName.not_isFacet_of_head (c := 'S') (by simp [sortFieldName, FieldName.sortMark]) (by decide)

@[simp] theorem not_isFacet_sortNumberField (name : String) :
    ¬IsFacet (sortFieldName name FieldName.sortNumberMark) :=
  FieldName.not_isFacet_of_head (c := 'S') (by simp [sortFieldName, FieldName.sortNumberMark])
    (by decide)

theorem sortFieldName_ne_hasWktCoords (name : String) :
    sortFieldName name ≠ FieldName.hasWktCoords := by
  intro same
  have head : (sortFieldName name).toList.head? = some 'S' := by
    simp [sortFieldName, FieldName.sortMark]
  rw [same] at head
  exact absurd head (by decide)

theorem sortNumberField_ne_hasWktCoords (name : String) :
    sortFieldName name FieldName.sortNumberMark ≠ FieldName.hasWktCoords := by
  intro same
  have head : (sortFieldName name FieldName.sortNumberMark).toList.head? = some 'S' := by
    simp [sortFieldName, FieldName.sortNumberMark]
  rw [same] at head
  exact absurd head (by decide)

end MetadataIndex
