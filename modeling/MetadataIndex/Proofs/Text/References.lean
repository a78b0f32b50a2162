import MetadataIndex.Proofs.Effect.Comparison
import MetadataIndex.Text.Entity

/-!
# References that are too long

References by number or by name are replaced in every text but one in which a reference has more
decimal digits than a number is read from.
-/

set_option autoImplicit false

namespace MetadataIndex.Text

/-- What follows an ampersand is a reference by too many decimal digits. -/
def IsLongReference (cs : List Char) : Prop :=
  ∃ rest, cs = '#' :: rest ∧ Decimal.digitLimit < (rest.takeWhile Char.isDigit).length

def HasLongReference (cs : List Char) : Prop :=
  ∃ before after, cs = before ++ '&' :: after ∧ IsLongReference after

theorem hasLongReference_cons {c : Char} {cs : List Char} :
    HasLongReference (c :: cs) ↔ c = '&' ∧ IsLongReference cs ∨ HasLongReference cs := by
  constructor
  · rintro ⟨before, after, same, long⟩
    cases before with
    | nil =>
      obtain ⟨rfl, rfl⟩ := List.cons.inj same
      exact .inl ⟨rfl, long⟩
    | cons first before =>
      obtain ⟨rfl, rfl⟩ := List.cons.inj same
      exact .inr ⟨before, after, rfl, long⟩
  · rintro (⟨rfl, long⟩ | ⟨before, after, rfl, long⟩)
    · exact ⟨[], cs, rfl, long⟩
    · exact ⟨c :: before, after, rfl, long⟩

/-- A piece without ampersand at the start, with a semicolon that follows it, has none. -/
theorem not_mem_take_of_prefix {name cs : List Char} (start : name <+: cs) (clean : '&' ∉ name) :
    '&' ∉ cs.take (name.length + (semicolon (cs.drop name.length)).length) := by
  obtain ⟨rest, rfl⟩ := start
  rw [List.drop_left, List.take_length_add_append, List.mem_append]
  rintro (inside | after)
  · exact clean inside
  · unfold semicolon at after
    split at after
    · simp at after
    · simp at after

theorem not_mem_takeWhile {p : Char → Bool} (stops : p '&' = false) (cs : List Char) :
    '&' ∉ cs.takeWhile p := by
  intro member
  have holds := List.all_eq_true.mp List.all_takeWhile '&' member
  rw [stops] at holds
  cases holds

/-- A reference that is not too long is read, and does not reach over the next ampersand. -/
theorem reference?_cases (cs : List Char) :
    IsLongReference cs ∧ (∃ fault, reference? cs = .error fault)
      ∨ ¬IsLongReference cs ∧ (reference? cs = .ok none
        ∨ ∃ text length, reference? cs = .ok (some (text, length)) ∧ '&' ∉ cs.take length) := by
  unfold reference?
  split
  case h_1 x rest =>
    have digit : '&' ∉ (x :: rest).takeWhile Char.isDigit := not_mem_takeWhile (by decide) _
    have numbered := not_mem_take_of_prefix (List.takeWhile_prefix Char.isDigit) digit
    have hex : '&' ∉ rest.takeWhile isHexDigit := not_mem_takeWhile (by decide) _
    have coded := not_mem_take_of_prefix (List.takeWhile_prefix isHexDigit) hex
    have known : IsLongReference ('#' :: x :: rest)
        ↔ Decimal.digitLimit < ((x :: rest).takeWhile Char.isDigit).length := by
      simp [IsLongReference]
    rw [known]
    generalize (x :: rest).takeWhile Char.isDigit = digits at numbered
    dsimp only
    cases digits with
    | cons d digits =>
      refine Or.imp ?_ ?_ (Nat.lt_or_ge Decimal.digitLimit (d :: digits).length)
      · intro long
        exact ⟨long, .refused .notANumber, if_pos long⟩
      · intro short
        refine ⟨Nat.not_lt.mpr short, .inr ⟨_, _, if_neg (Nat.not_lt.mpr short), ?_⟩⟩
        rw [Nat.add_assoc, Nat.add_comm 1, List.take_succ_cons]
        simpa using numbered
    | nil =>
      refine .inr ⟨Nat.not_lt_zero _, ?_⟩
      simp only [List.isEmpty_nil, Bool.not_true, Bool.false_eq_true, if_false]
      split
      case isTrue marked =>
        have plain : '&' ≠ x := by
          rintro rfl
          revert marked
          simp
        refine .inr ⟨_, _, rfl, ?_⟩
        rw [Nat.add_assoc, Nat.add_comm 2, List.take_succ_cons, List.take_succ_cons]
        simpa [plain] using coded
      case isFalse => exact .inl rfl
  case h_2 other =>
    have short : ¬IsLongReference cs := by
      rintro ⟨rest, rfl, long⟩
      cases rest with
      | nil => cases long
      | cons x rest => exact other x rest rfl
    refine .inr ⟨short, ?_⟩
    have start : (cs.takeWhile (!endsName ·)).take 32 <+: cs :=
      (List.take_prefix _ _).trans (List.takeWhile_prefix _)
    have clean : '&' ∉ (cs.takeWhile (!endsName ·)).take 32 := fun member =>
      not_mem_takeWhile (by decide) cs (List.mem_of_mem_take member)
    dsimp only
    split
    · exact .inl rfl
    · refine .inr ⟨_, _, rfl, ?_⟩
      rw [List.length_append]
      exact not_mem_take_of_prefix start clean

/-- Replacing references is independent of what was skipped, which has no ampersand. -/
theorem unescapeFrom_ok_iff {skip : Nat} {cs : List Char} (skipped : '&' ∉ cs.take skip) :
    (∃ text, unescapeFrom skip cs = .ok text) ↔ ¬HasLongReference cs := by
  induction cs generalizing skip with
  | nil => simp [unescapeFrom, HasLongReference]
  | cons c cs ih =>
    rw [hasLongReference_cons]
    cases skip with
    | succ skip =>
      rw [List.take_succ_cons, List.mem_cons, not_or] at skipped
      rw [unescapeFrom]
      exact (ih skipped.2).trans (by simp [Ne.symm skipped.1])
    | zero =>
      have next : (∃ text, unescapeFrom 0 cs = .ok text) ↔ ¬HasLongReference cs := ih (by simp)
      have rest (write : List Char → List Char) : (∃ text, (do
          return write (← unescapeFrom 0 cs) : Checked (List Char)) = .ok text)
            ↔ ¬HasLongReference cs := (Checked.exists_map_ok (f := write)).trans next
      rw [unescapeFrom]
      split
      case isFalse other => exact (rest (c :: ·)).trans (by simp [other])
      case isTrue mark =>
        rcases reference?_cases cs with ⟨long, fault, failed⟩ | ⟨short, none | ⟨text, length, read, clean⟩⟩
        · rw [failed]
          exact ⟨nofun, fun clear => absurd (.inl ⟨mark, long⟩) clear⟩
        · rw [none]
          exact (rest (c :: ·)).trans (by simp [short])
        · rw [read]
          exact (Checked.exists_map_ok (f := (text ++ ·))).trans ((ih clean).trans (by simp [short]))

/-- References are replaced in every text without one that is too long. -/
theorem unescape_ok_iff {s : String} :
    (∃ text, unescape s = .ok text) ↔ ¬HasLongReference s.toList := by
  unfold unescape
  split
  case isTrue => exact Checked.exists_map_ok.trans (unescapeFrom_ok_iff (by simp))
  case isFalse without =>
    refine ⟨fun _ => ?_, fun _ => ⟨s, rfl⟩⟩
    rintro ⟨before, after, same, -⟩
    exact without (by simp [same])

end MetadataIndex.Text
