import MetadataIndex.Text.Search
import MetadataIndex.Text.Blank

/-!
# Free text

A buffer of terms, each between two blanks. A term that the buffer already holds, as a part of it
between blanks, is not added again.
-/

set_option autoImplicit false

namespace MetadataIndex

/-- A buffer of terms. -/
structure FreeText where
  buffer : String := ""
deriving DecidableEq, Repr

namespace FreeText

def term (value : String) : String :=
  " " ++ Text.trim value ++ " "

def contains (t : FreeText) (value : String) : Bool :=
  Text.containsLiteral t.buffer (term value)

def add (t : FreeText) (value : String) : FreeText :=
  if t.contains value then t else ⟨t.buffer ++ term value⟩

def hasText (t : FreeText) : Bool :=
  !(Text.trim t.buffer).isEmpty

theorem contains_iff {t : FreeText} {value : String} :
    t.contains value = true ↔ (term value).toList <:+: t.buffer.toList :=
  Text.containsLiteral_iff

theorem add_of_contains {t : FreeText} {value : String} (h : t.contains value = true) :
    t.add value = t := by
  rw [add, h]
  rfl

theorem buffer_add_of_not_contains {t : FreeText} {value : String} (h : t.contains value = false) :
    (t.add value).buffer = t.buffer ++ term value := by
  rw [add, h]
  rfl

theorem contains_add (t : FreeText) (value : String) : (t.add value).contains value = true := by
  cases h : t.contains value with
  | true => rw [add_of_contains h, h]
  | false =>
    rw [contains_iff, buffer_add_of_not_contains h, String.toList_append]
    exact (List.suffix_append _ _).isInfix

theorem buffer_prefix_add (t : FreeText) (value : String) :
    t.buffer.toList <+: (t.add value).buffer.toList := by
  cases h : t.contains value with
  | true => exact ⟨[], by rw [add_of_contains h, List.append_nil]⟩
  | false =>
    rw [buffer_add_of_not_contains h, String.toList_append]
    exact List.prefix_append _ _

end FreeText

end MetadataIndex
