import MetadataIndex.Proofs.Json.Written
import MetadataIndex.Text.Percent

/-!
# Percent escapes taken back

An escaped text has only letters, digits, a few marks and percent signs, so that nothing in it delimits a
part of an address. Its escapes taken back are the bytes of the text.
-/

set_option autoImplicit false

namespace MetadataIndex.Text

/-- The bytes of a text with escapes, where each percent sign has two digits behind it. -/
def unescapedBytes? : List Char → Option (List UInt8)
  | [] => some []
  | '%' :: a :: b :: cs => do
    let high ← Json.hexValue? a
    let low ← Json.hexValue? b
    return UInt8.ofNat (16 * high + low) :: (← unescapedBytes? cs)
  | c :: cs =>
    if c = '%' then none else (unescapedBytes? cs).map (String.utf8EncodeChar c ++ ·)

/-- The text that a text with escapes stands for. -/
def percentDecoded? (s : String) : Option String := do
  String.fromUTF8? (← unescapedBytes? s.toList).toByteArray

variable {byte : UInt8} {c : Char}

/-! ## Characters that stand for themselves -/

/-- The characters that stand for themselves in an address. -/
def IsUnreserved (c : Char) : Prop := c.isAlphanum = true ∨ c ∈ ['_', '.', '-', '~']

/-- The characters that an escaped text is made of. -/
def IsEscaped (c : Char) : Prop := IsUnreserved c ∨ c = '%'

instance : DecidablePred IsUnreserved := fun _ => inferInstanceAs (Decidable (_ ∨ _))

instance : DecidablePred IsEscaped := fun _ => inferInstanceAs (Decidable (_ ∨ _))

theorem isUnreserved_iff : isUnreserved byte = true ↔ IsUnreserved (Char.ofNat byte.toNat) := by
  simp [isUnreserved, IsUnreserved, or_assoc]

theorem toNat_lt_of_isAlphanum (given : c.isAlphanum = true) : c.toNat < 128 := by
  have below {last : UInt32} (within : c.val ≤ last) (small : last.toNat < 128) : c.toNat < 128 :=
    Nat.lt_of_le_of_lt within small
  rcases Bool.or_eq_true_iff.mp given with letter | digit
  · rcases Bool.or_eq_true_iff.mp letter with upper | lower
    · have between : 'A'.val ≤ c.val ∧ c.val ≤ 'Z'.val := of_decide_eq_true upper
      exact below between.2 (by decide)
    · have between := Bool.and_eq_true_iff.mp lower
      exact below (of_decide_eq_true between.2) (by decide)
  · have between := Bool.and_eq_true_iff.mp digit
    exact below (of_decide_eq_true between.2) (by decide)

theorem IsUnreserved.toNat_lt (given : IsUnreserved c) : c.toNat < 128 := by
  rcases given with word | mark
  · exact toNat_lt_of_isAlphanum word
  · revert mark
    simp only [List.mem_cons, List.not_mem_nil, or_false]
    rintro (rfl | rfl | rfl | rfl) <;> decide

theorem IsUnreserved.ne_percent (given : IsUnreserved c) : c ≠ '%' := by
  rintro rfl
  exact absurd given (by decide)

theorem utf8EncodeChar_of_lt (small : c.toNat < 128) :
    String.utf8EncodeChar c = [UInt8.ofNat c.toNat] := by
  have bound : c.toNat ≤ 127 := Nat.le_of_lt_succ small
  simp [String.utf8EncodeChar, bound]

theorem toNat_charOfNat : (Char.ofNat byte.toNat).toNat = byte.toNat := by
  have bound := byte.toNat_lt
  have valid : byte.toNat.isValidChar := Or.inl (by omega)
  rw [Char.ofNat, dif_pos valid]
  rfl

/-! ## One byte -/

theorem hexValue?_toUpper_hexDigit {d : Nat} (small : d < 16) :
    Json.hexValue? (hexDigit d).toUpper = some d := by
  revert d
  decide

/-- A byte written behind a percent sign. -/
theorem escapeByte_of_reserved (given : isUnreserved byte = false) : escapeByte byte =
    ['%', (hexDigit (byte.toNat / 16)).toUpper, (hexDigit (byte.toNat % 16)).toUpper] := by
  have bound := byte.toNat_lt
  have high : byte.toNat / 16 % 16 = byte.toNat / 16 := by omega
  simp [escapeByte, given, hexDigits, high]

theorem unescapedBytes?_plain {cs : List Char} (given : c ≠ '%') :
    unescapedBytes? (c :: cs) = (unescapedBytes? cs).map (String.utf8EncodeChar c ++ ·) := by
  rw [unescapedBytes?.eq_def]
  split
  · contradiction
  · rename_i same
    exact absurd (List.cons.inj same).1 given
  · rename_i same
    obtain ⟨rfl, rfl⟩ := List.cons.inj same
    rw [if_neg given]

theorem unescapedBytes?_escapeByte (cs : List Char) :
    unescapedBytes? (escapeByte byte ++ cs) = (unescapedBytes? cs).map (byte :: ·) := by
  cases plain : isUnreserved byte with
  | true =>
    have kept := isUnreserved_iff.mp plain
    rw [escapeByte, if_pos plain, List.singleton_append, unescapedBytes?_plain kept.ne_percent,
      utf8EncodeChar_of_lt kept.toNat_lt, toNat_charOfNat, UInt8.ofNat_toNat]
    rfl
  | false =>
    have bound := byte.toNat_lt
    rw [escapeByte_of_reserved plain]
    simp only [List.cons_append, List.nil_append, unescapedBytes?]
    rw [hexValue?_toUpper_hexDigit (by omega), hexValue?_toUpper_hexDigit (by omega)]
    simp only [bind, Option.bind, pure, Nat.div_add_mod, UInt8.ofNat_toNat]
    cases unescapedBytes? cs <;> rfl

theorem unescapedBytes?_flatMap (bytes : List UInt8) :
    unescapedBytes? (bytes.flatMap escapeByte) = some bytes := by
  induction bytes with
  | nil => rfl
  | cons byte bytes ih => rw [List.flatMap_cons, unescapedBytes?_escapeByte, ih, Option.map_some]

/-! ## The bytes of a text -/

theorem toList_loop (bytes : ByteArray) (i : Nat) (read : List UInt8) :
    ByteArray.toList.loop bytes i read = read.reverse ++ bytes.data.toList.drop i := by
  fun_induction ByteArray.toList.loop bytes i read with
  | case1 i read within ih =>
    have bound : i < bytes.data.toList.length := by simpa using within
    have next : bytes.get! i = bytes.data.toList[i] := by
      rw [ByteArray.get!, Array.getElem_toList]
      exact getElem!_pos bytes.data i (by simpa using within)
    rw [ih, List.drop_eq_getElem_cons bound, next, List.reverse_cons, List.append_assoc,
      List.singleton_append]
  | case2 i read beyond =>
    have done : bytes.data.toList.length ≤ i := by simpa using beyond
    rw [List.drop_eq_nil_of_le done, List.append_nil]

theorem toByteArray_toList (bytes : ByteArray) : bytes.toList.toByteArray = bytes := by
  rw [ByteArray.toList, toList_loop]
  ext1
  simp

theorem fromUTF8?_toUTF8 (s : String) : String.fromUTF8? s.toUTF8 = some s := by
  rw [String.fromUTF8?, String.toUTF8_eq_toByteArray, dif_pos s.isValidUTF8]
  rfl

/-- An escaped text stands for the text. -/
theorem percentDecoded?_percentEncoded (s : String) : percentDecoded? (percentEncoded s) = some s := by
  rw [percentDecoded?, percentEncoded, String.toList_ofList, unescapedBytes?_flatMap]
  change String.fromUTF8? s.toUTF8.toList.toByteArray = some s
  rw [toByteArray_toList, fromUTF8?_toUTF8]

/-! ## The characters of an escaped text -/

theorem isAlphanum_toUpper_hexDigit {d : Nat} (small : d < 16) :
    (hexDigit d).toUpper.isAlphanum = true := by
  revert d
  decide

theorem mem_escapeByte (member : c ∈ escapeByte byte) : IsEscaped c := by
  cases plain : isUnreserved byte with
  | true =>
    rw [escapeByte, if_pos plain, List.mem_singleton] at member
    rw [member]
    exact Or.inl (isUnreserved_iff.mp plain)
  | false =>
    have bound := byte.toNat_lt
    rw [escapeByte_of_reserved plain] at member
    simp only [List.mem_cons, List.not_mem_nil, or_false] at member
    rcases member with rfl | rfl | rfl
    · exact Or.inr rfl
    · exact Or.inl (Or.inl (isAlphanum_toUpper_hexDigit (by omega)))
    · exact Or.inl (Or.inl (isAlphanum_toUpper_hexDigit (by omega)))

theorem mem_percentEncoded {s : String} (member : c ∈ (percentEncoded s).toList) : IsEscaped c := by
  rw [percentEncoded, String.toList_ofList] at member
  obtain ⟨byte, -, inside⟩ := List.mem_flatMap.mp member
  exact mem_escapeByte inside

end MetadataIndex.Text
