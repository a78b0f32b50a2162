import MetadataIndex.Proofs.Effect.Comparison
import MetadataIndex.Rule.Reader

/-!
# What is checked when a rule is read

A rule that is read has the name of its field, a positive number of digits for years, and replace rules
with patterns that can be read.
-/

set_option autoImplicit false

namespace MetadataIndex

theorem ReplaceRule.readable_of_ofJson {config : Json} {pattern template : String}
    (read : ofJson config = .ok (.regex pattern template)) :
    ∃ regex, Pattern.Regex.ofText pattern = .ok regex := by
  unfold ofJson at read
  obtain ⟨members, -, read⟩ := Checked.bind_ok read
  dsimp only at read
  split at read
  · split at read
    · cases read
    · cases read
  · split at read
    · cases read
    · cases read
  · split at read
    · next regex compiled =>
      cases read
      exact ⟨regex, compiled⟩
    · split at read
      · cases read
      · cases read
  · cases read

theorem ValuePipeline.readable_of_ofSettings {members : List (String × Json)} {p : ValuePipeline}
    (read : ofSettings members = .ok p) {pattern template : String}
    (listed : .regex pattern template ∈ p.replaceRules) :
    ∃ regex, Pattern.Regex.ofText pattern = .ok regex := by
  unfold ofSettings at read
  obtain ⟨configs, -, read⟩ := Checked.bind_ok read
  obtain ⟨rules, ran, read⟩ := Checked.bind_ok read
  obtain ⟨_, -, read⟩ := Checked.bind_ok read
  obtain ⟨_, -, read⟩ := Checked.bind_ok read
  obtain ⟨_, -, read⟩ := Checked.bind_ok read
  obtain ⟨_, -, read⟩ := Checked.bind_ok read
  cases read
  obtain ⟨config, -, made⟩ := Checked.of_mem_mapM ran listed
  exact ReplaceRule.readable_of_ofJson made

namespace FieldRule

/-- What holds of every rule that is read. -/
structure IsRead (r : FieldRule) (field : String) : Prop where
  field : r.field = field
  yearDigits : 1 ≤ r.yearDigits
  patterns : ∀ pattern template, .regex pattern template ∈ r.pipeline.replaceRules →
    ∃ regex, Pattern.Regex.ofText pattern = .ok regex

theorem isRead_of_ofJson {field : String} {config : Json} {r : FieldRule}
    (read : ofJson field config = .ok r) : r.IsRead field := by
  unfold ofJson at read
  split at read
  · cases read
  · split at read
    case h_2 => cases read
    case h_1 members =>
      obtain ⟨_, -, read⟩ := Checked.bind_ok read
      obtain ⟨_, -, read⟩ := Checked.bind_ok read
      -- What follows a check is a function of its own, which is entered once the check is passed.
      extract_lets constant config separator closes at read
      replace read : closes () = .ok r := by
        split at read
        · cases read
        · exact read
      obtain ⟨_, -, read⟩ := Checked.bind_ok read
      obtain ⟨digits, -, read⟩ := Checked.bind_ok read
      extract_lets closes at read
      split at read
      · cases read
      · next positive =>
        obtain ⟨_, -, read⟩ := Checked.bind_ok read
        obtain ⟨_, -, read⟩ := Checked.bind_ok read
        obtain ⟨pipeline, steps, read⟩ := Checked.bind_ok read
        extract_lets closes at read
        have closed : ∃ group, closes group = .ok r := by
          split at read
          · obtain ⟨group, -, read⟩ := Checked.bind_ok read
            exact ⟨group, read⟩
          · exact ⟨none, read⟩
        obtain ⟨group, read⟩ := closed
        cases read
        exact ⟨rfl, Int.not_lt.mp positive, fun _ _ => ValuePipeline.readable_of_ofSettings steps⟩

end FieldRule

end MetadataIndex
