import MetadataIndex.Proofs.Effect.Faults
import MetadataIndex.Proofs.Pattern.Problems
import MetadataIndex.Value.Length

/-!
# Values without a normal form

A normalizer finds a normal form for every value but those whose relevant part looks like a roman
numeral and has another letter, or would have to be filled up too far. A pattern that cannot be read
leaves the value as it is, unless reading it overflows or ends with a refusal.
-/

set_option autoImplicit false

namespace MetadataIndex

namespace Roman

theorem total_ok_iff {cs : List Char} :
    (∃ counted, total cs = .ok counted) ↔ ∀ c ∈ cs, (digit? c).isSome = true := by
  induction cs with
  | nil => exact ⟨fun _ => List.forall_mem_nil _, fun _ => ⟨_, rfl⟩⟩
  | cons c cs ih =>
    rw [List.forall_mem_cons, ← ih, total, Checked.exists_bind_ok]
    cases digit? c with
    | none =>
      refine ⟨?_, fun both => absurd both.1 (by decide)⟩
      rintro ⟨_, _, _, ⟨⟩⟩
    | some n =>
      refine ⟨fun ⟨counted, counts, _⟩ => ⟨rfl, counted, counts⟩, fun ⟨_, counted, counts⟩ => ?_⟩
      exact ⟨counted, counts, _, rfl⟩

def IsDigit (c : Char) : Prop := (digit? c.toLower).isSome = true

instance (c : Char) : Decidable (IsDigit c) := inferInstanceAs (Decidable (_ = true))

theorem IsDigit.toNat_lt {c : Char} (known : IsDigit c) : c.toNat < 128 := by
  unfold IsDigit Char.toLower at known
  split at known
  case isTrue capital =>
    exact Nat.lt_of_le_of_lt (UInt32.le_iff_toNat_le.mp capital.2) (by decide)
  case isFalse =>
    unfold digit? at known
    split at known
    all_goals first | decide | cases known

theorem IsDigit.lowerChar {c : Char} (known : IsDigit c) : Text.lowerChar c = [c.toLower] :=
  if_pos known.toNat_lt

-- Both are looked up together, so that the table of small forms is read once.
theorem lowerChar_of_i : ['ı', 'İ'].map Text.lowerChar = [['ı'], ['i', Char.ofNat 775]] := by
  decide +kernel

/-- What may stand in a numeral beside its digits has no small form of digits. -/
theorem lowerChar_of_other {c : Char} (other : c = 'ı' ∨ c = 'İ' ∨ c = '\n') :
    ∃ x ∈ Text.lowerChar c, digit? x = none := by
  have both := lowerChar_of_i
  simp only [List.map_cons, List.map_nil, List.cons.injEq, and_true] at both
  rcases other with rfl | rfl | rfl
  · rw [both.1]
    exact ⟨'ı', .head _, rfl⟩
  · rw [both.2]
    exact ⟨Char.ofNat 775, .tail _ (.head _), rfl⟩
  · exact ⟨'\n', .head _, rfl⟩

theorem lowerChars_ok_iff {before cs : List Char}
    (known : ∀ c ∈ cs, IsDigit c ∨ c = 'ı' ∨ c = 'İ' ∨ c = '\n') :
    (∀ x ∈ Text.lowerChars before cs, (digit? x).isSome = true) ↔ ∀ c ∈ cs, IsDigit c := by
  induction cs generalizing before with
  | nil => exact ⟨fun _ => List.forall_mem_nil _, fun _ => List.forall_mem_nil _⟩
  | cons c cs ih =>
    obtain ⟨head, rest⟩ := List.forall_mem_cons.mp known
    -- Only a capital sigma has a small form that depends on what stands around it.
    have plain : c ≠ 'Σ' := by
      rintro rfl
      revert head
      decide
    rw [Text.lowerChars, List.forall_mem_append, List.forall_mem_cons, ih rest, if_neg plain]
    refine and_congr_left fun _ => ⟨fun digits => ?_, fun digit => ?_⟩
    · refine head.resolve_right fun other => ?_
      obtain ⟨x, member, none⟩ := lowerChar_of_other other
      have some := digits x member
      rw [none] at some
      cases some
    · rw [digit.lowerChar, List.forall_mem_singleton]
      exact digit

theorem isNumeralChar_cases {c : Char} (numeral : isNumeralChar c = true) :
    IsDigit c ∨ c = 'ı' ∨ c = 'İ' := by
  simpa [isNumeralChar, IsDigit, or_assoc] using numeral

theorem isNumeral_chars {s : String} (numeral : isNumeral s = true) :
    ∀ c ∈ s.toList, IsDigit c ∨ c = 'ı' ∨ c = 'İ' ∨ c = '\n' := by
  intro c member
  rw [← List.mem_reverse] at member
  unfold isNumeral at numeral
  split at numeral
  · next rest same =>
    rw [same, List.mem_cons] at member
    obtain rfl | member := member
    · exact .inr (.inr (.inr rfl))
    · have all := List.all_eq_true.mp (Bool.and_eq_true_iff.mp numeral).2 c member
      exact (isNumeralChar_cases all).imp_right (Or.imp_right .inl)
  · have all := List.all_eq_true.mp (Bool.and_eq_true_iff.mp numeral).2 c member
    exact (isNumeralChar_cases all).imp_right (Or.imp_right .inl)

theorem value_ok_iff {s : String} (numeral : isNumeral s = true) :
    (∃ n, value s = .ok n) ↔ ∀ c ∈ s.toList, IsDigit c := by
  rw [value, if_pos numeral, Checked.exists_map_ok, total_ok_iff, Text.lower, String.toList_ofList]
  exact lowerChars_ok_iff (isNumeral_chars numeral)

end Roman

namespace Normalizer

variable {n : Normalizer}

/-- A part that cannot be brought to its length: it is converted and looks like a roman numeral, but has
a character that is no digit, or it would have to be filled up too far. -/
def IsStuckOn (n : Normalizer) (cs : List Char) : Prop :=
  if n.convertRoman && Roman.isNumeral (String.ofList cs) then
    ∃ c ∈ cs, ¬Roman.IsDigit c
  else fillLimit < n.length - cs.length

theorem part_ok_iff {cs : List Char} : (∃ normal, n.part cs = .ok normal) ↔ ¬n.IsStuckOn cs := by
  unfold part IsStuckOn
  split
  case isTrue numeral =>
    rw [Checked.exists_map_ok, Roman.value_ok_iff (Bool.and_eq_true_iff.mp numeral).2]
    simp
  case isFalse =>
    split
    case isTrue fits => exact ⟨fun _ => Nat.not_lt.mpr fits, fun _ => ⟨_, rfl⟩⟩
    case isFalse far => exact ⟨nofun, fun short => absurd (Nat.not_lt.mp short) far⟩

theorem replaceSpans_ok_iff {value result : List Char} {spans : List Pattern.Span} :
    (∃ normal, n.replaceSpans value result spans = .ok normal)
      ↔ ∀ span ∈ spans, ¬n.IsStuckOn (Pattern.part value span) := by
  induction spans generalizing result with
  | nil => exact ⟨fun _ => List.forall_mem_nil _, fun _ => ⟨result, rfl⟩⟩
  | cons span spans ih =>
    rw [replaceSpans, Checked.exists_bind_ok, List.forall_mem_cons, ← part_ok_iff]
    simp only [ih]
    exact ⟨fun ⟨normal, made, rest⟩ => ⟨⟨normal, made⟩, rest⟩,
      fun ⟨⟨normal, made⟩, rest⟩ => ⟨normal, made, rest⟩⟩

/-- A value in which the part that a pattern selects, or the part of one of its groups, is stuck. -/
def IsStuckWithin (n : Normalizer) (pattern value : String) : Prop :=
  ∃ regex m, Pattern.Regex.ofText pattern = .ok regex ∧ regex.search value.toList = some m
    ∧ ∃ span ∈ relevantSpans m, n.IsStuckOn (Pattern.part value.toList span)

/-- A value that has no normal form; a pattern that is no text gives none. -/
def IsStuckAt (n : Normalizer) (value : String) : Prop :=
  match n.relevantPart with
  | none => n.IsStuckOn value.toList
  | some (.text pattern) => Pattern.IsUnreadable pattern ∨ n.IsStuckWithin pattern value
  | some _ => True

theorem isStuckWithin_iff {pattern value : String} {regex : Pattern.Regex}
    (read : Pattern.Regex.ofText pattern = .ok regex) : n.IsStuckWithin pattern value
      ↔ ∃ m, regex.search value.toList = some m
        ∧ ∃ span ∈ relevantSpans m, n.IsStuckOn (Pattern.part value.toList span) := by
  unfold IsStuckWithin
  rw [read]
  exact ⟨fun ⟨_, m, same, rest⟩ => ⟨m, Except.ok.inj same ▸ rest⟩, fun ⟨m, rest⟩ => ⟨_, m, rfl, rest⟩⟩

theorem not_isStuckWithin {pattern value : String} {problem : Pattern.Problem}
    (failed : Pattern.Regex.ofText pattern = .error problem) : ¬n.IsStuckWithin pattern value := by
  rintro ⟨regex, _, read, -⟩
  rw [failed] at read
  cases read

theorem normalize_ok_iff {value : String} :
    (∃ normal, n.normalize value = .ok normal) ↔ ¬n.IsStuckAt value := by
  unfold normalize IsStuckAt
  cases n.relevantPart with
  | none => exact Checked.exists_map_ok.trans part_ok_iff
  | some setting =>
    cases setting with
    | text pattern =>
      rw [not_or]
      dsimp only [Json.asText, bind, Except.bind]
      cases read : Pattern.Regex.ofText pattern with
      | error problem =>
        rw [Pattern.isUnreadable_iff read, not_not, and_iff_left (not_isStuckWithin read)]
        exact Pattern.orUnchanged_error_ok_iff
      | ok regex =>
        rw [and_iff_right (Pattern.not_isUnreadable read), isStuckWithin_iff read]
        dsimp only
        cases regex.search value.toList with
        | none => exact ⟨fun _ => nofun, fun _ => ⟨value, rfl⟩⟩
        | some m =>
          refine (Checked.exists_map_ok.trans replaceSpans_ok_iff).trans ?_
          simp
    | _ => exact ⟨nofun, fun stuck => absurd trivial stuck⟩

end Normalizer

end MetadataIndex
