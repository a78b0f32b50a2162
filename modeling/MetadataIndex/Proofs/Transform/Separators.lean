import MetadataIndex.Proofs.Text.Trimmed
import MetadataIndex.Proofs.Transform.FirstMatch

/-!
# Separators at the end of raw values

The names of a hierarchy that are joined by a separator leave one behind for each level that is empty. Of
these a rule cuts off one, and leaves out a text that is one separator alone. So a raw value ends with the
separator exactly when its text ends with two of them or more, and a text of separators alone gives none
exactly when there is one at most.
-/

set_option autoImplicit false

namespace MetadataIndex

variable {ω τ : Type}

namespace FieldRule

variable {r : FieldRule} {sep text : String} {levels : List Char} {n : Nat}

/-- A number of separators, one behind the other. -/
def separators (sep : String) (n : Nat) : List Char := (List.replicate n sep.toList).flatten

theorem separators_succ (sep : String) (n : Nat) :
    separators sep (n + 1) = separators sep n ++ sep.toList := by
  rw [separators, List.replicate_succ', List.flatten_concat, separators]

/-- A text is levels that do not end with a separator, and the separators behind them. -/
theorem exists_separators (given : sep ≠ "") (cs : List Char) :
    ∃ levels n, cs = levels ++ separators sep n ∧ ¬sep.toList <:+ levels := by
  have some : 0 < sep.toList.length := List.length_pos_iff.mpr (by simpa using given)
  induction size : cs.length using Nat.strongRecOn generalizing cs with
  | ind size' ih =>
    by_cases ends : sep.toList <:+ cs
    · obtain ⟨front, rfl⟩ := ends
      rw [List.length_append] at size
      obtain ⟨levels, n, split, last⟩ := ih front.length (by omega) front rfl
      exact ⟨levels, n + 1, by rw [separators_succ, split, List.append_assoc], last⟩
    · exact ⟨cs, 0, (List.append_nil cs).symm, ends⟩

/-- There is one way only to tell levels from the separators behind them. -/
theorem separators_unique {levels' : List Char} {n' : Nat} (last : ¬sep.toList <:+ levels)
    (last' : ¬sep.toList <:+ levels')
    (same : levels ++ separators sep n = levels' ++ separators sep n') : levels = levels' ∧ n = n' := by
  induction n generalizing n' with
  | zero =>
    cases n' with
    | zero => exact ⟨List.append_cancel_right same, rfl⟩
    | succ n' =>
      rw [separators_succ, ← List.append_assoc] at same
      exact absurd ⟨_, (same.symm.trans (List.append_nil levels))⟩ last
  | succ n ih =>
    cases n' with
    | zero =>
      rw [separators_succ, ← List.append_assoc] at same
      exact absurd ⟨_, same.trans (List.append_nil levels')⟩ last'
    | succ n' =>
      rw [separators_succ, separators_succ, ← List.append_assoc, ← List.append_assoc] at same
      obtain ⟨rfl, rfl⟩ := ih (List.append_cancel_right same)
      exact ⟨rfl, rfl⟩

/-- What is left of levels and the separators behind them: one separator less, and nothing of a separator
alone. -/
def leftOf (sep : String) (levels : List Char) (n : Nat) : Option String :=
  if levels = [] ∧ n ≤ 1 then none else some (String.ofList (levels ++ separators sep (n - 1)))

/-- What is left ends with a separator exactly when there was more than one. -/
theorem ends_leftOf (last : ¬sep.toList <:+ levels) {value : String}
    (left : value ∈ leftOf sep levels n) : Text.endsWith value sep = true ↔ 2 ≤ n := by
  unfold leftOf at left
  split at left
  case isTrue => cases left
  case isFalse =>
    cases left
    rw [Text.endsWith_iff, String.toList_ofList]
    constructor
    · intro ends
      by_contra few
      have none : n - 1 = 0 := by omega
      rw [none] at ends
      exact last (by simpa [separators] using ends)
    · intro many
      obtain ⟨k, rfl⟩ := Nat.exists_eq_add_of_le many
      have more : 2 + k - 1 = k + 1 := by omega
      rw [more, separators_succ, ← List.append_assoc]
      exact List.suffix_append _ _

theorem separators_eq_nil_iff (given : sep ≠ "") : separators sep n = [] ↔ n = 0 := by
  cases n with
  | zero => exact iff_of_true rfl rfl
  | succ n =>
    rw [separators_succ, List.append_eq_nil_iff]
    refine iff_of_false ?_ (Nat.succ_ne_zero n)
    intro both
    exact given (String.toList_inj.mp both.2)

theorem ne_empty_of_leftOf (given : sep ≠ "") {value : String} (left : value ∈ leftOf sep levels n) :
    value ≠ "" := by
  unfold leftOf at left
  split at left
  case isTrue => cases left
  case isFalse kept =>
    cases left
    intro empty
    have none : levels ++ separators sep (n - 1) = [] := by simpa using empty
    obtain ⟨noLevels, noMore⟩ := List.append_eq_nil_iff.mp none
    rw [separators_eq_nil_iff given] at noMore
    exact kept ⟨noLevels, by omega⟩

/-- Cutting leaves what is left of the levels. -/
theorem cutSeparator_levels (given : sep ≠ "") (last : ¬sep.toList <:+ levels) {value : String}
    (filled : value ≠ "") (split : value.toList = levels ++ separators sep n) :
    cutSeparator (some (.text sep)) value = .ok (leftOf sep levels n) := by
  change Except.ok (if value == sep then none else if Text.endsWith value sep = true then
    some (String.ofList (value.toList.take (value.length - sep.length))) else some value) = _
  congr 1
  cases n with
  | zero =>
    have same : value.toList = levels := split.trans (List.append_nil levels)
    have whole : String.ofList levels = value := by rw [← same, String.ofList_toList]
    have other : ¬Text.endsWith value sep = true := by
      rw [Text.endsWith_iff, same]
      exact last
    have kept : ¬(levels = [] ∧ 0 ≤ 1) := fun none => filled (by rw [← whole, none.1])
    rw [if_neg other, leftOf, if_neg kept, if_neg]
    · simp [separators, whole]
    · rw [beq_iff_eq]
      rintro rfl
      exact last (same ▸ List.suffix_refl _)
  | succ n =>
    rw [separators_succ, ← List.append_assoc] at split
    have ends : Text.endsWith value sep = true := by
      rw [Text.endsWith_iff, split]
      exact List.suffix_append _ _
    have rest : value.toList.take (value.length - sep.length) = levels ++ separators sep n := by
      rw [← String.length_toList, ← String.length_toList, split, List.length_append,
        Nat.add_sub_cancel, List.take_left]
    have alone : value == sep ↔ levels = [] ∧ n + 1 ≤ 1 := by
      rw [beq_iff_eq, ← String.toList_inj, split, List.append_left_eq_self, List.append_eq_nil_iff,
        separators_eq_nil_iff given, Nat.add_le_add_iff_right (n := 1), Nat.le_zero]
    rw [if_pos ends, rest, leftOf]
    simp only [alone]
    rfl

/-- What a rule makes of a text: levels that do not end with the separator and a number of separators
behind them, of which it cuts off one. -/
structure CutFrom (sep : String) (i : XPath.Item) (text : String) (raw : Option String)
    (levels : List Char) (n : Nat) : Prop where
  split : (Text.trim text).toList = levels ++ separators sep n
  last : ¬sep.toList <:+ levels
  left : raw = if i.isRestricted then none else leftOf sep levels n
  ends : ∀ value ∈ raw, Text.endsWith value sep = true ↔ 2 ≤ n
  absent : raw = none ↔ i.isRestricted = true ∨ levels = [] ∧ n ≤ 1

/-- What a match gives under a separator: nothing where it has no text, and what is left of one. -/
structure GivesLevels (sep : String) (i : XPath.Item) (raw : Option String) : Prop where
  of_none : i.toText = none → raw = none
  of_some : ∀ text, i.toText = some text → ∃ levels n, CutFrom sep i text raw levels n

theorem CutFrom.of_left {i : XPath.Item} (split : (Text.trim text).toList = levels ++ separators sep n)
    (last : ¬sep.toList <:+ levels) :
    CutFrom sep i text (if i.isRestricted then none else leftOf sep levels n) levels n where
  split := split
  last := last
  left := rfl
  ends value member := by
    split at member
    case isTrue => cases member
    case isFalse => exact ends_leftOf last member
  absent := by
    unfold leftOf
    cases i.isRestricted with
    | true => simp
    | false => simp

/-- Without texts around values, a match gives what is left of its text. -/
theorem valueOf_separated (separated : r.pipeline.splittingCharacter = some (.text sep))
    (given : sep ≠ "") (bare : r.valuePostfix = "") {s : XPathSource} (plain : s.leading = "")
    (plain' : s.trailing = "") (i : XPath.Item) :
    ∃ raw, r.valueOf s i = .ok raw ∧ GivesLevels sep i raw := by
  cases shown : i.toText with
  | none =>
    refine ⟨none, ?_, fun _ => rfl, fun text some => absurd (some.symm.trans shown) nofun⟩
    rw [valueOf, shown]
    rfl
  | some text =>
    obtain ⟨levels, n, split, last⟩ := exists_separators given (Text.trim text).toList
    refine ⟨if i.isRestricted then none else leftOf sep levels n, ?_,
      fun none => absurd (none.symm.trans shown) nofun, ?_⟩
    · rw [valueOf, shown]
      cases blank : (Text.trim text).isEmpty with
      | true =>
        rw [String.isEmpty_iff.mp blank] at split
        obtain ⟨noLevels, none⟩ := List.append_eq_nil_iff.mp split.symm
        rw [separators_eq_nil_iff given] at none
        have nothing : leftOf sep levels n = .none := if_pos ⟨noLevels, by omega⟩
        simp only [blank, if_true, nothing, ite_self]
        rfl
      | false =>
        have filled : Text.trim text ≠ "" := by
          intro empty
          rw [empty] at blank
          cases blank
        have cut := cutSeparator_levels given last filled split
        simp only [blank, Bool.false_eq_true, if_false, bare, String.append_empty, Text.trim_trim,
          separated, cut]
        cases leftOf sep levels n with
        | none => simp only [ite_self]; rfl
        | some value =>
          simp only [plain, plain', String.append_empty, String.empty_append]
          rfl
    · intro text' same
      cases shown.symm.trans same
      exact ⟨levels, n, .of_left split last⟩

theorem GivesLevels.raw_eq {i : XPath.Item} {raw : Option String} (gives : GivesLevels sep i raw)
    (shown : i.toText = some text) (split : (Text.trim text).toList = levels ++ separators sep n)
    (last : ¬sep.toList <:+ levels) : raw = if i.isRestricted then none else leftOf sep levels n := by
  obtain ⟨levels', n', cut⟩ := gives.of_some text shown
  obtain ⟨rfl, rfl⟩ := separators_unique last cut.last (split.symm.trans cut.split)
  exact cut.left

theorem GivesLevels.ne_empty {i : XPath.Item} {raw : Option String} (gives : GivesLevels sep i raw)
    (given : sep ≠ "") : ∀ value ∈ raw, value ≠ "" := by
  intro value member
  cases shown : i.toText with
  | none =>
    rw [gives.of_none shown] at member
    cases member
  | some text =>
    obtain ⟨levels, n, cut⟩ := gives.of_some text shown
    rw [cut.left] at member
    split at member
    case isTrue => cases member
    case isFalse => exact ne_empty_of_leftOf given member

/-- The raw values of a rule, from those of its matches: a rule for one field joins them. -/
def joined (r : FieldRule) (parts : List String) : List String :=
  if r.oneField = true ∧ parts ≠ [] then [r.oneFieldSeparator.intercalate parts] else parts

theorem foldl_addValue_joined (one : r.oneField = true) {first : String} (given : first ≠ "")
    (parts : List String) : parts.foldl r.addValue [first]
      = [r.oneFieldSeparator.intercalate (first :: parts)] := by
  induction parts generalizing first with
  | nil => simp
  | cons part parts ih =>
    have added : r.addValue [first] part = [first ++ r.oneFieldSeparator ++ part] := by
      have filled : first.isEmpty = false := by simpa using given
      simp [addValue, one, filled]
    have filled : first ++ r.oneFieldSeparator ++ part ≠ "" := by simp [given]
    rw [List.foldl_cons, added, ih filled]
    by_cases last : parts = []
    · rw [last]
      simp [String.intercalate_cons_of_ne_nil]
    · rw [String.intercalate_cons_of_ne_nil last,
        String.intercalate_cons_of_ne_nil (List.cons_ne_nil part parts),
        String.intercalate_cons_of_ne_nil last]
      simp [String.append_assoc]

theorem foldl_addValue {parts : List String} (given : ∀ part ∈ parts, part ≠ "") :
    parts.foldl r.addValue [] = r.joined parts := by
  cases one : r.oneField with
  | false =>
    rw [foldl_addValue_of_separate one, joined, one]
    simp
  | true =>
    cases parts with
    | nil => simp [joined]
    | cons first parts =>
      have start : r.addValue [] first = [first] := rfl
      rw [List.foldl_cons, start, foldl_addValue_joined one (given first (.head _)), joined, one,
        if_pos ⟨rfl, List.cons_ne_nil first parts⟩]

end FieldRule

namespace Transformer

variable {t : Transformer ω τ} {r : FieldRule} {input : TransformInput} {sep : String}
  {found : List (XPathSource × XPath.Item)}

/-- A match is one of an expression of the rule. -/
theorem source_of_matchesOf (selected : t.matchesOf r input = .ok found) :
    ∀ m ∈ found, m.1 ∈ r.sources := by
  obtain ⟨elements, -, selected⟩ := Checked.bind_ok selected
  obtain ⟨each, sources, selected⟩ := Checked.bind_ok selected
  cases selected
  intro m member
  obtain ⟨piece, listed, inside⟩ := List.mem_flatten.mp member
  obtain ⟨s, source, selected⟩ := Checked.of_mem_mapM sources listed
  unfold matchesFrom at selected
  split at selected
  · cases selected
    cases inside
  · obtain ⟨leading, -, selected⟩ := Checked.bind_ok selected
    obtain ⟨results, -, selected⟩ := Checked.bind_ok selected
    cases selected
    obtain ⟨i, -, rfl⟩ := List.mem_map.mp inside
    exact source

/-- A rule whose values are hierarchies. -/
def levelsRule : FieldRule where
  field := "N"
  sources := [{ xpath := "n" }]
  pipeline := { splittingCharacter := some (.text "#") }

end Transformer

end MetadataIndex
