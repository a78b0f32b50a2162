import MetadataIndex.Date.Gaps
import MetadataIndex.Proofs.Field.Written

/-!
# Filling gaps

What is missing between the least and the greatest integer of a list lies strictly between two of its
members. Where only integers are written under a name, filling its gaps adds all that lies between two
of them.
-/

set_option autoImplicit false

namespace MetadataIndex

theorem foldl_min_le_iff {n i : Int} {more : List Int} :
    more.foldl min n ≤ i ↔ ∃ a ∈ n :: more, a ≤ i := by
  induction more generalizing n with
  | nil => simp
  | cons m more ih =>
    simp only [List.foldl_cons, ih, List.mem_cons, exists_eq_or_imp]
    rw [← or_assoc]
    refine or_congr_left ?_
    omega

theorem lt_foldl_max_iff {n i : Int} {more : List Int} :
    i < more.foldl max n ↔ ∃ b ∈ n :: more, i < b := by
  induction more generalizing n with
  | nil => simp
  | cons m more ih =>
    simp only [List.foldl_cons, ih, List.mem_cons, exists_eq_or_imp]
    rw [← or_assoc]
    refine or_congr_left ?_
    omega

theorem mem_integersBetween {lo hi i : Int} : i ∈ integersBetween lo hi ↔ lo ≤ i ∧ i < hi := by
  unfold integersBetween
  constructor
  · intro member
    obtain ⟨k, range, rfl⟩ := List.mem_map.mp member
    rw [List.mem_range] at range
    omega
  · rintro ⟨low, high⟩
    exact List.mem_map.mpr ⟨(i - lo).toNat, List.mem_range.mpr (by omega), by omega⟩

theorem mem_missingIntegers {present skip : List Int} {i : Int} :
    i ∈ missingIntegers present skip
      ↔ (∃ a ∈ present, a ≤ i) ∧ (∃ b ∈ present, i < b) ∧ i ∉ present ∧ i ∉ skip := by
  cases present with
  | nil => simp [missingIntegers]
  | cons n more =>
    simp only [missingIntegers, List.mem_filter, mem_integersBetween, foldl_min_le_iff,
      lt_foldl_max_iff, Bool.and_eq_true, Bool.not_eq_true', List.contains_eq_mem,
      decide_eq_false_iff_not, and_assoc]

theorem completeIntegers_ok {fields filled : List Field} {name : String} {skip : List Int}
    (complete : completeIntegers fields name skip = .ok filled) :
    filled = (missingIntegers (integerValues name fields) skip).map fun i => ⟨name, toString i⟩ := by
  unfold completeIntegers at complete
  split at complete
  · cases complete
  · cases complete
    rfl

theorem name_of_completeIntegers {fields filled : List Field} {name : String} {skip : List Int}
    (complete : completeIntegers fields name skip = .ok filled) : ∀ f ∈ filled, f.name = name := by
  rw [completeIntegers_ok complete]
  simp

theorem mem_integerValues {name : String} {fields : List Field} {i : Int} :
    i ∈ integerValues name fields ↔ ∃ v, ⟨name, v⟩ ∈ fields ∧ Decimal.readInt? v = some i := by
  simp only [integerValues, Field.valuesOf, List.mem_filterMap, List.mem_map, List.mem_filter,
    beq_iff_eq]
  constructor
  · rintro ⟨_, ⟨f, ⟨member, rfl⟩, rfl⟩, read⟩
    exact ⟨f.value, member, read⟩
  · rintro ⟨v, member, read⟩
    exact ⟨v, ⟨⟨name, v⟩, ⟨member, rfl⟩, rfl⟩, read⟩

namespace Collector

open Decimal (InLimit)

variable {c c' : Collector} {name : String}

/-- An integer within the limit is written under a name. -/
def HasInteger (c : Collector) (name : String) (n : Int) : Prop :=
  InLimit n ∧ ⟨name, toString n⟩ ∈ c.toList

/-- What is written under a name are integers of a kind. -/
def OnlyIntegers (c : Collector) (name : String) (P : Int → Prop) : Prop :=
  ∀ v, ⟨name, v⟩ ∈ c.toList → ∃ n, v = toString n ∧ InLimit n ∧ P n

theorem HasInteger.mono {n : Int} (has : c.HasInteger name n) (grown : c.toList ⊆ c'.toList) :
    c'.HasInteger name n :=
  ⟨has.1, grown has.2⟩

theorem OnlyIntegers.holds {P : Int → Prop} (only : c.OnlyIntegers name P) {n : Int}
    (has : c.HasInteger name n) : P n := by
  obtain ⟨m, same, limited, holds⟩ := only _ has.2
  rwa [Decimal.InLimit.toString_inj has.1 limited same]

theorem mem_integerValues_iff {P : Int → Prop} (only : c.OnlyIntegers name P) {n : Int} :
    n ∈ integerValues name c.toList ↔ c.HasInteger name n := by
  rw [mem_integerValues]
  constructor
  · rintro ⟨v, member, read⟩
    obtain ⟨m, rfl, limited, -⟩ := only v member
    obtain rfl := Option.some.inj ((Decimal.readInt?_toString limited).symm.trans read)
    exact ⟨limited, member⟩
  · rintro ⟨limited, member⟩
    exact ⟨_, member, Decimal.readInt?_toString limited⟩

/-- An integer lies between two that are written under a name. -/
def Spans (c : Collector) (name : String) (n : Int) : Prop :=
  (∃ a, c.HasInteger name a ∧ a ≤ n) ∧ ∃ b, c.HasInteger name b ∧ n ≤ b

theorem Spans.mono {n : Int} (spans : c.Spans name n) (grown : c.toList ⊆ c'.toList) :
    c'.Spans name n := by
  obtain ⟨⟨a, low, below⟩, b, high, above⟩ := spans
  exact ⟨⟨a, low.mono grown, below⟩, b, high.mono grown, above⟩

theorem Spans.inLimit {n : Int} (spans : c.Spans name n) : InLimit n := by
  obtain ⟨⟨a, low, below⟩, b, high, above⟩ := spans
  exact .of_between low.1 high.1 below above

theorem HasInteger.spans {n : Int} (has : c.HasInteger name n) : c.Spans name n :=
  ⟨⟨n, has, Int.le_refl n⟩, n, has, Int.le_refl n⟩

/-- Where only integers are written, filling the gaps adds what is missing between two of them, except
what is skipped. -/
theorem mem_filled {P : Int → Prop} (indexed : c.Indexed) (only : c.OnlyIntegers name P)
    {skip : List Int} {filled : List Field}
    (complete : completeIntegers c.toList name skip = .ok filled) {g : Field} :
    g ∈ (c.extend filled).toList ↔ g ∈ c.toList
      ∨ ∃ n, n ∉ skip ∧ c.Spans name n ∧ ¬c.HasInteger name n ∧ g = ⟨name, toString n⟩ := by
  rw [completeIntegers_ok complete, mem_extend_integers indexed]
  refine or_congr_right (exists_congr fun n => ?_)
  simp only [mem_missingIntegers, mem_integerValues_iff only]
  constructor
  · rintro ⟨⟨⟨a, low, below⟩, ⟨b, high, above⟩, absent, kept⟩, same⟩
    exact ⟨kept, ⟨⟨a, low, below⟩, b, high, Int.le_of_lt above⟩, absent, same⟩
  · rintro ⟨kept, ⟨⟨a, low, below⟩, b, high, above⟩, absent, same⟩
    refine ⟨⟨⟨a, low, below⟩, ⟨b, high, ?_⟩, absent, kept⟩, same⟩
    have other : n ≠ b := fun same => absent (same ▸ high)
    omega

theorem hasInteger_filled {P : Int → Prop} (indexed : c.Indexed) (only : c.OnlyIntegers name P)
    {skip : List Int} {filled : List Field}
    (complete : completeIntegers c.toList name skip = .ok filled) {n : Int} :
    (c.extend filled).HasInteger name n ↔ c.HasInteger name n ∨ n ∉ skip ∧ c.Spans name n := by
  constructor
  · rintro ⟨limited, member⟩
    rcases (mem_filled indexed only complete).mp member with old | ⟨i, kept, spans, -, same⟩
    · exact .inl ⟨limited, old⟩
    · obtain rfl := Decimal.InLimit.toString_inj limited spans.inLimit (Field.mk.inj same).2
      exact .inr ⟨kept, spans⟩
  · rintro (old | ⟨kept, spans⟩)
    · exact ⟨old.1, (mem_filled indexed only complete).mpr (.inl old.2)⟩
    · refine ⟨spans.inLimit, (mem_filled indexed only complete).mpr ?_⟩
      by_cases known : c.HasInteger name n
      · exact .inl known.2
      · exact .inr ⟨n, kept, spans, known, rfl⟩

theorem OnlyIntegers.filled {P : Int → Prop} (indexed : c.Indexed) (only : c.OnlyIntegers name P)
    {skip : List Int} {filled : List Field}
    (complete : completeIntegers c.toList name skip = .ok filled)
    (holds : ∀ n, n ∉ skip → c.Spans name n → P n) : (c.extend filled).OnlyIntegers name P := by
  intro v member
  rcases (mem_filled indexed only complete).mp member with old | ⟨n, kept, spans, -, same⟩
  · exact only v old
  · exact ⟨n, (Field.mk.inj same).2, spans.inLimit, holds n kept spans⟩

/-- The values under a name with only integers are the texts of a list of integers. -/
theorem OnlyIntegers.values {P : Int → Prop} (only : c.OnlyIntegers name P) :
    ∃ ns : List Int, c.values name = ns.map toString ∧ ∀ n, n ∈ ns ↔ c.HasInteger name n := by
  have listed : ∀ values : List String, (∀ v ∈ values, ∃ n : Int, v = toString n ∧ InLimit n) →
      ∃ ns : List Int, values = ns.map toString ∧ ∀ n ∈ ns, InLimit n := by
    intro values each
    induction values with
    | nil => exact ⟨[], rfl, by simp⟩
    | cons v values ih =>
      obtain ⟨⟨n, same, limited⟩, rest⟩ := List.forall_mem_cons.mp each
      obtain ⟨ns, texts, others⟩ := ih rest
      exact ⟨n :: ns, by rw [same, texts, List.map_cons], List.forall_mem_cons.mpr ⟨limited, others⟩⟩
  obtain ⟨ns, texts, limited⟩ := listed (c.values name) fun v member => by
    obtain ⟨n, same, holds⟩ := only v (mem_values.mp member)
    exact ⟨n, same, holds.1⟩
  refine ⟨ns, texts, fun n => ⟨fun member => ⟨limited n member, ?_⟩, fun has => ?_⟩⟩
  · rw [← mem_values, texts]
    exact List.mem_map_of_mem member
  · have member := mem_values.mpr has.2
    rw [texts] at member
    obtain ⟨m, given, same⟩ := List.mem_map.mp member
    exact Decimal.InLimit.toString_inj (limited m given) has.1 same ▸ given

end Collector

end MetadataIndex
