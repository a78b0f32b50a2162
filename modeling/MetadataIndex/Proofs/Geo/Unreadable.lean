import MetadataIndex.Geo.Basic
import MetadataIndex.Proofs.Text.Pieces

/-!
# Texts without coordinates

The tokens of a coordinate text stand in it. A text in which nothing reads as a coordinate has no
geometry, whatever kind it is taken for and wherever it is split. So has a text without digits and
without the letter that the names of infinity and of not-a-number share.
-/

set_option autoImplicit false

namespace MetadataIndex

namespace Decimal

/-- Neither a digit nor the letter in the names of the doubles that have no digits. -/
def IsPlain (c : Char) : Prop := Text.decimalValue? c = none ∧ c.toLower ≠ 'n'

instance (c : Char) : Decidable (IsPlain c) := inferInstanceAs (Decidable (_ ∧ _))

theorem digitRun?_eq_none {cs : List Char} (plain : ∀ c ∈ cs, IsPlain c) :
    digitRun? true cs = none := by
  cases cs with
  | nil => rfl
  | cons c cs => simp [digitRun?, (plain c (.head _)).1]

theorem optionalRun?_eq {cs : List Char} (plain : ∀ c ∈ cs, IsPlain c) :
    optionalRun? cs = none ∨ optionalRun? cs = some [] := by
  unfold optionalRun?
  split
  · exact .inr rfl
  · exact .inl (digitRun?_eq_none plain)

theorem takeSign_subset (cs : List Char) : (takeSign cs).2 ⊆ cs := by
  unfold takeSign
  split
  · exact List.subset_cons_self _ _
  · exact List.subset_cons_self _ _
  · exact List.Subset.refl _

theorem plain_unsigned {s : String} (plain : ∀ c ∈ s.toList, IsPlain c) :
    ∀ c ∈ (takeSign (Text.strip isNumberBlank s.toList)).2, IsPlain c :=
  fun c member => plain c ((Text.strip_infix _ _).subset (takeSign_subset _ member))

theorem readInt?_eq_none {s : String} (plain : ∀ c ∈ s.toList, IsPlain c) : readInt? s = none := by
  unfold readInt?
  dsimp only
  rw [digitRun?_eq_none (plain_unsigned plain)]

theorem readUnsigned?_eq_none {cs : List Char} (plain : ∀ c ∈ cs, IsPlain c) (negative : Bool) :
    readUnsigned? negative cs = none := by
  have mantissa : ∀ c ∈ (spanUntil (fun c => c == 'e' || c == 'E') cs).1, IsPlain c :=
    fun c member => plain c ((List.takeWhile_prefix _).subset member)
  unfold readUnsigned?
  generalize spanUntil (fun c => c == 'e' || c == 'E') cs = split at mantissa
  obtain ⟨mantissa', power⟩ := split
  have parts : ∀ c, c ∈ (spanUntil (· == '.') mantissa').1
      ∨ c ∈ (spanUntil (· == '.') mantissa').2.drop 1 → IsPlain c := by
    rintro c (whole | fraction)
    · exact mantissa c ((List.takeWhile_prefix _).subset whole)
    · exact mantissa c ((List.dropWhile_suffix _).subset (List.mem_of_mem_drop fraction))
  dsimp only
  generalize spanUntil (· == '.') mantissa' = split at parts
  obtain ⟨whole, fraction⟩ := split
  dsimp only at parts ⊢
  obtain none | first := optionalRun?_eq fun c member => parts c (.inl member)
  · rw [none]
    rfl
  rw [first]
  obtain none | second := optionalRun?_eq fun c member => parts c (.inr member)
  · rw [none]
    rfl
  · rw [second]
    rfl

theorem readFloat?_eq_none {s : String} (plain : ∀ c ∈ s.toList, IsPlain c) :
    readFloat? s = none := by
  have unsigned := plain_unsigned plain
  unfold readFloat?
  generalize takeSign (Text.strip isNumberBlank s.toList) = signed at unsigned
  obtain ⟨negative, rest⟩ := signed
  have unnamed : ∀ name : List Char, 'n' ∈ name → rest.map Char.toLower ≠ name := by
    rintro name letter rfl
    obtain ⟨c, member, same⟩ := List.mem_map.mp letter
    exact (unsigned c member).2 same
  dsimp only
  have infinite : ¬(decide (rest.map Char.toLower = "inf".toList)
      || decide (rest.map Char.toLower = "infinity".toList)) = true := by
    rw [Bool.or_eq_true, decide_eq_true_eq, decide_eq_true_eq]
    rintro (same | same)
    · exact unnamed _ (by decide) same
    · exact unnamed _ (by decide) same
  rw [if_neg infinite, if_neg (unnamed _ (by decide)), readUnsigned?_eq_none unsigned]
  rfl

end Decimal

namespace Geo

variable {ν : Type} {n : Numbers ν} {coords separator : String}

theorem infix_of_mem_tokens {token : String} (member : token ∈ tokens coords separator) :
    token.toList <:+: coords.toList := by
  rw [tokens, List.mem_filter] at member
  obtain ⟨piece, split, rfl⟩ := List.mem_map.mp member.1
  rw [Text.splitAtLiteral] at split
  obtain ⟨cs, inside, rfl⟩ := List.mem_map.mp split
  have within := Text.trim_infix (String.ofList cs)
  rw [String.toList_ofList] at within
  exact (within.trans (Text.infix_of_mem_pieces inside)).trans (Text.trim_infix coords)

theorem no_geometry_of_positions {read : Checked (List (Position ν))}
    (none : ∀ positions, read = .ok positions → positions = [])
    {shape : List (Position ν) → Option (Geometry ν)} (empty : shape [] = .none)
    {g : Option (Geometry ν)} (made : read.map shape = .ok g) : g = .none := by
  cases read with
  | error fault => cases made
  | ok positions =>
    cases made
    rw [none positions rfl, empty]

/-- Nothing that stands in a text reads as a coordinate. -/
structure Unreadable (n : Numbers ν) (coords : String) : Prop where
  number : ∀ token : String, token.toList <:+: coords.toList → ∃ fault, n.number token = .error fault
  sexagesimal : ∀ token : String, token.toList <:+: coords.toList →
    ∃ fault, n.sexagesimal token = .error fault

namespace Unreadable

variable (unreadable : Unreadable n coords)

include unreadable

theorem no_positions {dimensions : Int} {reverse : Bool} {positions : List (Position ν)}
    (read : readPositions n coords separator dimensions reverse = .ok positions) :
    positions = [] := by
  unfold readPositions at read
  split at read
  · cases read
    rfl
  cases found : tokens coords separator with
  | nil =>
    rw [found] at read
    cases read
    rfl
  | cons token more =>
    have member : token ∈ tokens coords separator := found ▸ .head _
    obtain ⟨fault, failed⟩ := unreadable.number token (infix_of_mem_tokens member)
    rw [found, groupPositions, failed] at read
    cases read

theorem no_sexagesimal {positions : List (Position ν)}
    (read : readSexagesimal n coords separator = .ok positions) : positions = [] := by
  unfold readSexagesimal at read
  split at read
  · cases read
    rfl
  cases found : tokens coords separator with
  | nil =>
    rw [found] at read
    cases read
    rfl
  | cons token more =>
    have member : token ∈ tokens coords separator := found ▸ .head _
    obtain ⟨fault, failed⟩ := unreadable.sexagesimal token (infix_of_mem_tokens member)
    rw [found, List.mapM_cons, failed] at read
    cases read

theorem readGeometry_eq_none {kind : Kind} {g : Option (Geometry ν)}
    (read : readGeometry n coords separator kind = .ok g) : g = none := by
  unfold readGeometry at read
  cases kind with
  | point latitudeFirst =>
    exact no_geometry_of_positions (fun _ => unreadable.no_positions) rfl read
  | polygon latitudeFirst =>
    exact no_geometry_of_positions (fun _ => unreadable.no_positions) rfl read
  | mods =>
    dsimp only at read
    split at read
    · exact no_geometry_of_positions (fun _ => unreadable.no_positions) rfl read
    · cases read
  | sexagesimal => exact no_geometry_of_positions (fun _ => unreadable.no_sexagesimal) rfl read

theorem convertWith_eq (kind : String) : convertWith n coords kind separator = {} := by
  have without : geometry? n coords kind separator = none := by
    unfold geometry?
    split
    · rfl
    split
    · rfl
    · split
      · next read => exact unreadable.readGeometry_eq_none read
      · rfl
  rw [convertWith, without]

end Unreadable

theorem unreadable_of_plain (plain : ∀ c ∈ coords.toList, Decimal.IsPlain c) :
    Unreadable doubles coords where
  number token inside := by
    have none := Decimal.readFloat?_eq_none fun c member => plain c (inside.subset member)
    change ∃ fault, required .notANumber (Decimal.readFloat? token) = .error fault
    rw [none]
    exact ⟨_, rfl⟩
  sexagesimal token inside := by
    have plain' : ∀ c ∈ token.toList, Decimal.IsPlain c :=
      fun c member => plain c (inside.subset member)
    change ∃ fault, sexagesimalToDecimal token = .error fault
    unfold sexagesimalToDecimal
    dsimp only
    generalize token.toList = cs at plain'
    cases cs with
    | nil => exact ⟨_, rfl⟩
    | cons direction digits =>
      dsimp only
      split
      · have none : integerPart (digits.take 3) = refuse .notANumber := by
          rw [integerPart, Decimal.readInt?_eq_none]
          · rfl
          · intro c member
            rw [String.toList_ofList] at member
            exact plain' c (.tail _ (List.mem_of_mem_take member))
        exact ⟨.refused .notANumber, by rw [none]; rfl⟩
      · exact ⟨_, rfl⟩

end Geo

end MetadataIndex
