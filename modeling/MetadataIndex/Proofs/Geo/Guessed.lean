import MetadataIndex.Proofs.Geo.Described
import MetadataIndex.Proofs.Text.Joined

/-!
# Coordinates of a guessed kind

The kind of a coordinate text that begins with a direction is guessed from its blanks. A text in degrees,
minutes and seconds is converted alike under the guess if it has one blank or three, and else has no
coordinates under it.
-/

set_option autoImplicit false

namespace MetadataIndex

namespace Decimal

theorem spanUntil_cons_of_pos {p : Char → Bool} {c : Char} (ends : p c = true) (cs : List Char) :
    spanUntil p (c :: cs) = ([], c :: cs) := by
  simp [spanUntil, ends]

theorem spanUntil_cons_of_neg {p : Char → Bool} {c : Char} (goes : p c = false) (cs : List Char) :
    spanUntil p (c :: cs) = (c :: (spanUntil p cs).1, (spanUntil p cs).2) := by
  simp [spanUntil, goes]

theorem readUnsigned?_of_head {c : Char} (point : c ≠ '.') (digit : Text.decimalValue? c = none)
    (negative : Bool) (cs : List Char) : readUnsigned? negative (c :: cs) = none := by
  have whole (cs : List Char) : spanUntil (· == '.') (c :: cs)
      = (c :: (spanUntil (· == '.') cs).1, (spanUntil (· == '.') cs).2) := by
    apply spanUntil_cons_of_neg
    exact beq_false_of_ne point
  have unread (cs : List Char) : optionalRun? (c :: cs) = none := by
    simp [optionalRun?, digitRun?, digit]
  unfold readUnsigned?
  cases power : c == 'e' || c == 'E' with
  | true =>
    rw [spanUntil_cons_of_pos power]
    rfl
  | false =>
    rw [spanUntil_cons_of_neg power]
    dsimp only
    rw [whole]
    dsimp only
    rw [unread]
    rfl

theorem takeSign_of_head {c : Char} (unsigned : c ≠ '-' ∧ c ≠ '+') (cs : List Char) :
    takeSign (c :: cs) = (false, c :: cs) := by
  unfold takeSign
  split
  · next same =>
    cases same
    exact absurd rfl unsigned.1
  · next same =>
    cases same
    exact absurd rfl unsigned.2
  · rfl

/-- A number begins with a digit, a sign, a point or a letter of a name. -/
theorem readFloat?_of_head {s : String} {c : Char} (head : s.toList.head? = some c)
    (shown : isNumberBlank c = false) (unsigned : c ≠ '-' ∧ c ≠ '+') (point : c ≠ '.')
    (digit : Text.decimalValue? c = none) (unnamed : c.toLower ≠ 'i' ∧ c.toLower ≠ 'n') :
    readFloat? s = none := by
  obtain ⟨cs, begins⟩ : ∃ cs, Text.strip isNumberBlank s.toList = c :: cs := by
    obtain ⟨cs, same⟩ := List.head?_eq_some_iff.mp head
    rw [same]
    exact List.head?_eq_some_iff.mp (Text.head?_strip_cons shown cs)
  have named (name : List Char) (first : name.head? ≠ some c.toLower) :
      (c :: cs).map Char.toLower ≠ name := by
    rintro rfl
    exact first rfl
  have infinite : ¬(decide ((c :: cs).map Char.toLower = "inf".toList)
      || decide ((c :: cs).map Char.toLower = "infinity".toList)) = true := by
    rw [Bool.or_eq_true, decide_eq_true_eq, decide_eq_true_eq]
    rintro (same | same)
    · exact named _ (by simpa using unnamed.1.symm) same
    · exact named _ (by simpa using unnamed.1.symm) same
  have undefined : (c :: cs).map Char.toLower ≠ "nan".toList :=
    named _ (by simpa using unnamed.2.symm)
  unfold readFloat?
  rw [begins, takeSign_of_head unsigned]
  dsimp only
  rw [if_neg infinite, if_neg undefined, readUnsigned?_of_head point digit]
  rfl

end Decimal

namespace Geo

/-- A text begins with the letter of a direction. -/
def IsDirected (coords : String) : Prop :=
  Text.startsWith coords "E" = true ∨ Text.startsWith coords "W" = true

variable {coords name name' separator : String}

theorem IsDirected.begins (directed : IsDirected coords) :
    ∃ c cs, (c = 'E' ∨ c = 'W') ∧ coords.toList = c :: cs := by
  rcases directed with east | west
  · obtain ⟨cs, same⟩ := Text.startsWith_iff.mp east
    exact ⟨'E', cs, .inl rfl, same.symm⟩
  · obtain ⟨cs, same⟩ := Text.startsWith_iff.mp west
    exact ⟨'W', cs, .inr rfl, same.symm⟩

theorem not_isBlank_of_direction {c : Char} (direction : c = 'E' ∨ c = 'W') :
    Text.isBlank c = false := by
  rcases direction with rfl | rfl
  · decide
  · decide

theorem number_of_direction {token : String} {c : Char} (direction : c = 'E' ∨ c = 'W')
    (head : token.toList.head? = some c) : doubles.number token = refuse .notANumber := by
  have unread : Decimal.readFloat? token = none := by
    rcases direction with rfl | rfl
    · exact Decimal.readFloat?_of_head head (by decide) (by decide) (by decide) (by decide)
        (by decide)
    · exact Decimal.readFloat?_of_head head (by decide) (by decide) (by decide) (by decide)
        (by decide)
  change required .notANumber (Decimal.readFloat? token) = _
  rw [unread]
  rfl

/-- The first token of a text with a direction begins with it. -/
theorem IsDirected.token (directed : IsDirected coords) :
    ∃ c token more, (c = 'E' ∨ c = 'W') ∧ tokens coords " " = token :: more
      ∧ token.toList.head? = some c := by
  obtain ⟨c, cs, direction, begins⟩ := directed.begins
  have shown := not_isBlank_of_direction direction
  have apart : c ≠ ' ' := by
    rintro rfl
    cases shown
  have trimmed : (Text.trim coords).toList.head? = some c := by
    rw [Text.trim, String.toList_ofList, begins]
    exact Text.head?_strip_cons shown cs
  obtain ⟨rest, begins'⟩ := List.head?_eq_some_iff.mp trimmed
  obtain ⟨first, more, split, head⟩ := Text.exists_head_splitAtLiteral apart begins'
  have head' : (Text.trim first).toList.head? = some c := by
    obtain ⟨inner, same⟩ := List.head?_eq_some_iff.mp head
    rw [Text.trim, String.toList_ofList, same]
    exact Text.head?_strip_cons shown inner
  have given : (Text.trim first).isEmpty = false := by
    rw [Bool.eq_false_iff]
    intro none
    rw [String.isEmpty_iff.mp none] at head'
    cases head'
  refine ⟨c, Text.trim first, (more.map Text.trim).filter (!·.isEmpty), direction, ?_, head'⟩
  have blank : (if " ".isEmpty then " " else " ") = String.singleton ' ' := rfl
  rw [tokens, blank, split, List.map_cons, List.filter_cons, given]
  rfl

/-- A text with a direction is no point of plain numbers. -/
theorem IsDirected.convert_mods (directed : IsDirected coords) :
    convert coords "mods:coordinates/point" " " = {} := by
  have known : Kind.ofName? "mods:coordinates/point" = some .mods := by decide
  have none : geometry? doubles coords "mods:coordinates/point" " " = none := by
    rw [Option.eq_none_iff_forall_ne_some]
    intro g found
    obtain ⟨values, read, -⟩ := (found_geometry_iff known).mp found
    obtain ⟨c, token, more, direction, split, head⟩ := directed.token
    have unread : Kind.mods.read doubles token = refuse .notANumber :=
      number_of_direction direction head
    rw [split, List.mapM_cons, unread] at read
    cases read
  rw [convert, convertWith, none]

theorem convert_congr_kind (same : Kind.ofName? name = Kind.ofName? name') :
    convert coords name separator = convert coords name' separator := by
  unfold convert convertWith geometry?
  rw [same]

/-- Under the guess a text with a direction is read in degrees, minutes and seconds if it has one blank
or three, and as plain numbers if it has not. -/
theorem IsDirected.convert_guessKind (directed : IsDirected coords)
    (known : Kind.ofName? name = some .sexagesimal) : convert coords (guessKind coords) " "
      = if coords.toList.count ' ' = 1 ∨ coords.toList.count ' ' = 3 then convert coords name " "
        else {} := by
  have count : (Text.splitAtLiteral " " coords).length = coords.toList.count ' ' + 1 :=
    Text.length_splitAtLiteral_singleton ' ' coords
  have start : (Text.startsWith coords "E" || Text.startsWith coords "W") = true := by
    rw [Bool.or_eq_true]
    exact directed
  have named {guess : String} (kind : Kind.ofName? guess = some .sexagesimal) :
      convert coords guess " " = convert coords name " " := convert_congr_kind (kind.trans known.symm)
  unfold guessKind
  dsimp only
  rw [count, if_pos start]
  by_cases one : coords.toList.count ' ' = 1
  · rw [if_pos (by omega), if_pos (.inl one), named (by decide)]
  by_cases three : coords.toList.count ' ' = 3
  · rw [if_neg (by omega), if_pos (by omega), if_pos (.inr three), named (by decide)]
  · rw [if_neg (by omega), if_neg (by omega), if_neg (by simp [one, three]), directed.convert_mods]

/-- Coordinates in degrees, minutes and seconds have the same forms under the guessed kind exactly when
their text has one blank or three, wherever they stand. Otherwise both forms are lost. -/
theorem convert_guessed_iff (directed : IsDirected coords)
    (known : Kind.ofName? name = some .sexagesimal) (converts : convert coords name " " ≠ {}) :
    (convert coords (guessKind coords) " " = convert coords name " "
        ↔ coords.toList.count ' ' = 1 ∨ coords.toList.count ' ' = 3)
      ∧ (convert coords (guessKind coords) " " = {}
        ↔ ¬(coords.toList.count ' ' = 1 ∨ coords.toList.count ' ' = 3)) := by
  rw [directed.convert_guessKind known]
  split
  case isTrue few => exact ⟨iff_of_true rfl few, iff_of_false converts (not_not_intro few)⟩
  case isFalse other => exact ⟨iff_of_false converts.symm other, iff_of_true rfl other⟩

/-- Two tokens with three blanks between them. -/
theorem convert_guessed_threeBlanks : IsDirected "E0080756   N0500000"
    ∧ Kind.ofName? "sexagesimal:point" = some .sexagesimal
    ∧ convert "E0080756   N0500000" "sexagesimal:point" " " ≠ {}
    ∧ convert "E0080756   N0500000" (guessKind "E0080756   N0500000") " "
      = convert "E0080756   N0500000" "sexagesimal:point" " " := by
  have directed : IsDirected "E0080756   N0500000" := .inl (by decide +kernel)
  have known : Kind.ofName? "sexagesimal:point" = some .sexagesimal := by decide +kernel
  have converts : convert "E0080756   N0500000" "sexagesimal:point" " " ≠ {} := by decide +kernel
  obtain ⟨same, -⟩ := convert_guessed_iff directed known converts
  exact ⟨directed, known, converts, same.mpr (.inr (by decide +kernel))⟩

/-- A blank at the end of a text makes its coordinates be lost. -/
theorem lost_of_trailingBlank : IsDirected "E0080756 N0500000 "
    ∧ (convert "E0080756 N0500000 " "sexagesimal:point" " ").wkt = some "8.132222222222223 50.0"
    ∧ guessKind "E0080756 N0500000 " = "mods:coordinates/point"
    ∧ convert "E0080756 N0500000 " (guessKind "E0080756 N0500000 ") " " = {} := by
  refine ⟨.inl ?_, ?_, ?_, ?_⟩
  · decide +kernel
  · decide +kernel
  · decide +kernel
  · decide +kernel

end Geo

end MetadataIndex
