import Mathlib.Data.List.Nodup
import MetadataIndex.Proofs.Date.Century
import MetadataIndex.Proofs.Date.Gaps
import MetadataIndex.Proofs.Transform.Duplicates

/-!
# Years and their centuries

While rules are applied, the century of every year lies between centuries that are written: it was
written with the date itself, or the year was filled in between two others. Filling the gaps between
centuries at the end then reaches the century of every year, and leaves no hole but the century 0.
-/

set_option autoImplicit false

namespace MetadataIndex

open Decimal (InLimit)
open FieldName (IsFacet)

variable {ω τ : Type}

namespace Collector

variable {c c' : Collector} {name value : String} {repeats : Bool}

/-- Only centuries are written as centuries; there is no century 0. -/
structure OnlyCenturies (c : Collector) : Prop where
  indexed : c.Indexed
  century : c.OnlyIntegers FieldName.century (· ≠ 0)

/-- The centuries that are noted are written, and the century of each year lies between written ones. -/
structure Chronicle (c : Collector) : Prop extends OnlyCenturies c where
  noted : ∀ n ∈ c.centuries, c.HasInteger FieldName.century n
  year : c.OnlyIntegers FieldName.year fun y => c.Spans FieldName.century (centuryOf y)

theorem OnlyCenturies.put (only : c.OnlyCenturies) (other : name ≠ FieldName.century) (value : String)
    (repeats : Bool) : (c.put name value repeats).OnlyCenturies where
  indexed := only.indexed.put
  century v member := only.century v ((mem_put_of_ne only.indexed other).mp member)

theorem Chronicle.put (chronicle : c.Chronicle) (other : ¬IsFacet name) (value : String)
    (repeats : Bool) : (c.put name value repeats).Chronicle where
  toOnlyCenturies := chronicle.toOnlyCenturies.put (fun same => other (.inr same)) value repeats
  noted n member := by
    rw [centuries_put] at member
    exact (chronicle.noted n member).mono (subset_put chronicle.indexed)
  year v member := by
    have apart : name ≠ FieldName.year := fun same => other (.inl same)
    obtain ⟨y, same, limited, spans⟩ :=
      chronicle.year v ((mem_put_of_ne chronicle.indexed apart).mp member)
    exact ⟨y, same, limited, spans.mono (subset_put chronicle.indexed)⟩

theorem OnlyCenturies.extend (only : c.OnlyCenturies) {fields : List Field}
    (others : ∀ f ∈ fields, f.name ≠ FieldName.century) : (c.extend fields).OnlyCenturies :=
  extend_induction only fun _ f member only => only.put (others f member) f.value false

theorem Chronicle.extend (chronicle : c.Chronicle) {fields : List Field}
    (others : ∀ f ∈ fields, ¬IsFacet f.name) : (c.extend fields).Chronicle :=
  extend_induction chronicle fun _ f member chronicle => chronicle.put (others f member) f.value false

/-- A year that is filled in lies between two years, and so does its century. -/
theorem Chronicle.fillYears (chronicle : c.Chronicle) {years : List Field}
    (complete : completeYears c.toList = .ok years) : (c.extend years).Chronicle := by
  have named : ∀ f ∈ years, f.name ≠ FieldName.century := fun f member => by
    rw [name_of_completeIntegers complete f member]
    decide
  have grown : c.toList ⊆ (c.extend years).toList := subset_extend chronicle.indexed
  refine ⟨chronicle.toOnlyCenturies.extend named, fun n member => ?_, fun v member => ?_⟩
  · rw [centuries_extend] at member
    exact (chronicle.noted n member).mono grown
  · have between : ∀ n, n ∉ ([] : List Int) → c.Spans FieldName.year n →
        c.Spans FieldName.century (centuryOf n) := by
      rintro n - ⟨⟨a, low, below⟩, b, high, above⟩
      obtain ⟨⟨first, start, before⟩, -⟩ := chronicle.year.holds low
      obtain ⟨-, last, stop, after⟩ := chronicle.year.holds high
      exact ⟨⟨first, start, Int.le_trans before (centuryOf_mono below)⟩, last, stop,
        Int.le_trans (centuryOf_mono above) after⟩
    obtain ⟨y, same, limited, spans⟩ :=
      chronicle.year.filled chronicle.indexed complete between v member
    exact ⟨y, same, limited, spans.mono grown⟩

end Collector

namespace FieldRule

open Collector

variable {r : FieldRule} {c c' : Collector}

/-- What writing date fields leaves: the fields that were there, and of the years and centuries no
others than were to be written. -/
structure WritesDates (c : Collector) (fields : List Field) (c' : Collector) : Prop where
  indexed : c'.Indexed
  centuries : c'.centuries = c.centuries
  grown : c.toList ⊆ c'.toList
  written : ∀ f ∈ fields, (∃ n : Int, f.value = toString n) → f ∈ c'.toList
  only : ∀ g ∈ c'.toList, IsFacet g.name → g ∈ c.toList ∨ ∃ f ∈ fields, g ∈ partsOf f.name f.value

namespace WritesDates

theorem nil (indexed : c.Indexed) : WritesDates c [] c :=
  ⟨indexed, rfl, List.Subset.refl _, by simp, fun g member _ => .inl member⟩

theorem append {middle : Collector} {fields more : List Field} (first : WritesDates c fields middle)
    (next : WritesDates middle more c') : WritesDates c (fields ++ more) c' where
  indexed := next.indexed
  centuries := next.centuries.trans first.centuries
  grown := List.Subset.trans first.grown next.grown
  written f member integer := by
    rcases List.mem_append.mp member with early | late
    · exact next.grown (first.written f early integer)
    · exact next.written f late integer
  only g member facet := by
    rcases next.only g member facet with before | ⟨f, late, part⟩
    · rcases first.only g before facet with old | ⟨f, early, part⟩
      · exact .inl old
      · exact .inr ⟨f, List.mem_append_left _ early, part⟩
    · exact .inr ⟨f, List.mem_append_right _ late, part⟩

theorem put (indexed : c.Indexed) (f : Field) : WritesDates c [f] (c.put f.name f.value) := by
  refine ⟨indexed.put, centuries_put .., subset_put indexed, ?_, fun g member _ => ?_⟩
  · intro g member integer
    obtain rfl := List.mem_singleton.mp member
    obtain ⟨n, text⟩ := integer
    refine (mem_put indexed).mpr (.inr ⟨?_, text ▸ Decimal.toString_ne_empty n⟩)
    rw [text, partsOf_toString, ← text]
    exact .head _
  · rcases (mem_put indexed).mp member with old | ⟨part, -⟩
    · exact .inl old
    · exact .inr ⟨f, .head _, part⟩

theorem other (indexed : c.Indexed) {name : String} (other : ¬IsFacet name) (value : String) :
    WritesDates c [] (c.put name value) := by
  refine ⟨indexed.put, centuries_put .., subset_put indexed, by simp, fun g member facet => .inl ?_⟩
  have apart : name ≠ g.name := fun same => other (same ▸ facet)
  exact (mem_put_of_ne indexed apart).mp member

end WritesDates

theorem writeDateField_writes (indexed : c.Indexed) {f : Field}
    (ran : r.writeDateField c f = .ok c') : WritesDates c [f] c' := by
  have own : WritesDates c [f] (c.put f.name f.value) := .put indexed f
  rcases writeSort_ok ran with rfl | ⟨key, rfl⟩
  · exact own
  · exact own.append (.other own.indexed (not_isFacet_sortNumberField f.name) key)

theorem foldlM_writeDateField_writes (indexed : c.Indexed) {fields : List Field}
    (ran : fields.foldlM r.writeDateField c = .ok c') : WritesDates c fields c' := by
  induction fields generalizing c with
  | nil =>
    cases ran
    exact .nil indexed
  | cons f fields ih =>
    obtain ⟨middle, first, ran⟩ := Checked.bind_ok ran
    have head := writeDateField_writes indexed first
    exact head.append (ih head.indexed ran)

/-- Of the fields with the name of a facet that are left, those that are new have the integers that
were to be written. -/
theorem WritesDates.integer_of_new {fields : List Field} {name v : String} {P : Int → Prop}
    (writes : WritesDates c fields c') (facet : IsFacet name)
    (integers : ∀ v, ⟨name, v⟩ ∈ fields → ∃ n, v = toString n ∧ P n) (member : ⟨name, v⟩ ∈ c'.toList) :
    ⟨name, v⟩ ∈ c.toList ∨ ∃ n, v = toString n ∧ P n := by
  rcases writes.only _ member facet with old | ⟨⟨name', v'⟩, given, part⟩
  · exact .inl old
  · obtain rfl : name = name' := name_of_mem_partsOf part
    obtain ⟨n, rfl, holds⟩ := integers v' given
    rw [partsOf_toString, List.mem_singleton] at part
    exact .inr ⟨n, (Field.mk.inj part).2, holds⟩

theorem onlyCenturies_writeDates {value : String} (only : c.OnlyCenturies)
    (further : r.yearField ≠ some (.text FieldName.century))
    (written : r.writeDates value c = .ok c') : c'.OnlyCenturies := by
  obtain ⟨fields, final, made, written⟩ := writeDates_ok written
  obtain ⟨name, dates, named, limited, dated⟩ := dateFields_ok made
  have writes := foldlM_writeDateField_writes (c := { c with centuries := final }) only.indexed written
  refine ⟨writes.indexed, fun v member => ?_⟩
  have centuries : ∀ v, ⟨FieldName.century, v⟩ ∈ fields →
      ∃ n, v = toString n ∧ InLimit n ∧ n ≠ 0 := by
    intro v given
    obtain ⟨d, known, same⟩ := dated.century (fun same => further (named _ same)) v given
    exact ⟨_, same, centuryOf_inLimit (limited d known), centuryOf_ne_zero _⟩
  rcases writes.integer_of_new (.inr rfl) centuries member with old | new
  · exact only.century v old
  · exact new

theorem chronicle_writeDates {value : String} (chronicle : c.Chronicle)
    (further : r.yearField ≠ some (.text FieldName.century))
    (written : r.writeDates value c = .ok c') : c'.Chronicle := by
  have centuries := onlyCenturies_writeDates chronicle.toOnlyCenturies further written
  obtain ⟨fields, final, made, written⟩ := writeDates_ok written
  obtain ⟨name, dates, named, limited, dated⟩ := dateFields_ok made
  have writes :=
    foldlM_writeDateField_writes (c := { c with centuries := final }) chronicle.indexed written
  have noted : ∀ n ∈ final, c'.HasInteger FieldName.century n := by
    intro n member
    rcases dated.noted n member with before | ⟨new, d, given, rfl⟩
    · exact (chronicle.noted n before).mono writes.grown
    · exact ⟨centuryOf_inLimit (limited d given), writes.written _ new ⟨_, rfl⟩⟩
  refine ⟨centuries, fun n member => ?_, fun v member => ?_⟩
  · rw [writes.centuries] at member
    exact noted n member
  have years : ∀ v, ⟨FieldName.year, v⟩ ∈ fields →
      ∃ y, v = toString y ∧ InLimit y ∧ c'.Spans FieldName.century (centuryOf y) := by
    intro v given
    obtain ⟨d, known, same⟩ := dated.year v given
    exact ⟨d.year, same, limited d known, (noted _ (dated.covers d known)).spans⟩
  rcases writes.integer_of_new (.inl rfl) years member with old | new
  · obtain ⟨y, same, limited, spans⟩ := chronicle.year v old
    exact ⟨y, same, limited, spans.mono writes.grown⟩
  · exact new

theorem writesKeep_onlyCenturies (own : r.field ≠ FieldName.century)
    (further : r.yearField ≠ some (.text FieldName.century)) : r.WritesKeep OnlyCenturies where
  text _ _ only := ⟨only.indexed, only.century⟩
  own _ value only := only.put own value _
  copy _ value only := only.put (fun same => FieldName.not_isFacet_untokenized _ (.inr same)) value _
  other _ _ value other _ only := only.put (fun same => other (.inr same)) value _
  dates _ _ _ only written := onlyCenturies_writeDates only further written
  years c c' only filled := by
    rcases interpolate_ok filled with rfl | ⟨years, complete, rfl | ⟨name, more, named, again, rfl⟩⟩
    · exact only
    · refine only.extend fun f member => ?_
      rw [name_of_completeIntegers complete f member]
      decide
    · refine (only.extend fun f member => ?_).extend fun f member same => ?_
      · rw [name_of_completeIntegers complete f member]
        decide
      · rw [name_of_completeIntegers again f member] at same
        exact further (same ▸ named)

theorem writesKeep_chronicle (own : ¬IsFacet r.field)
    (further : ∀ name, r.yearField = some (.text name) → ¬IsFacet name) :
    r.WritesKeep Chronicle where
  text _ _ chronicle :=
    ⟨⟨chronicle.indexed, chronicle.century⟩, chronicle.noted, chronicle.year⟩
  own _ value chronicle := chronicle.put own value _
  copy _ value chronicle := chronicle.put (FieldName.not_isFacet_untokenized _) value _
  other _ _ value other _ chronicle := chronicle.put other value _
  dates _ _ _ chronicle written :=
    chronicle_writeDates chronicle (fun same => further _ same (.inr rfl)) written
  years c c' chronicle filled := by
    rcases interpolate_ok filled with rfl | ⟨years, complete, rfl | ⟨name, more, named, again, rfl⟩⟩
    · exact chronicle
    · exact chronicle.fillYears complete
    · refine (chronicle.fillYears complete).extend fun f member => ?_
      rw [name_of_completeIntegers again f member]
      exact further name named

end FieldRule

namespace Transformer

open Collector

variable {t : Transformer ω τ} {input : TransformInput} {c c' : Collector}

theorem chronicle_ofDefault (text : String) : (ofDefault text).Chronicle :=
  ⟨⟨indexed_empty, nofun⟩, nofun, nofun⟩

/-- At the end a century is written exactly when it is none of the year 0 and lies between two that
were written before. -/
theorem wrapUp_century (only : c.OnlyCenturies) (wrapped : wrapUp c = .ok c') :
    c'.OnlyIntegers FieldName.century (· ≠ 0) ∧ ∀ n, c'.HasInteger FieldName.century n
      ↔ n ≠ 0 ∧ c.Spans FieldName.century n := by
  obtain ⟨centuries, complete, same⟩ := wrapUp_ok wrapped
  have filled : ∀ n, (c.extend centuries).HasInteger FieldName.century n
      ↔ n ≠ 0 ∧ c.Spans FieldName.century n := by
    intro n
    rw [hasInteger_filled only.indexed only.century complete, List.mem_singleton]
    refine ⟨fun either => ?_, .inr⟩
    rcases either with old | new
    · exact ⟨only.century.holds old, old.spans⟩
    · exact new
  have integers := only.century.filled only.indexed complete fun n kept _ =>
    fun zero => kept (List.mem_singleton.mpr zero)
  rcases same with rfl | ⟨text, rfl⟩
  · exact ⟨integers, filled⟩
  · have apart : FieldName.hasWktCoords ≠ FieldName.century := by decide
    have kept : ∀ v, ⟨FieldName.century, v⟩
          ∈ ((c.extend centuries).put FieldName.hasWktCoords text).toList
        ↔ ⟨FieldName.century, v⟩ ∈ (c.extend centuries).toList :=
      fun v => mem_put_of_ne only.indexed.extend apart
    refine ⟨fun v member => integers v ((kept v).mp member), fun n => ?_⟩
    rw [← filled n]
    exact and_congr_right fun _ => kept _

theorem mem_wrapUp_of_ne (indexed : c.Indexed) (wrapped : wrapUp c = .ok c') {f : Field}
    (other : f.name ≠ FieldName.century) (named : f.name ≠ FieldName.hasWktCoords) :
    f ∈ c'.toList ↔ f ∈ c.toList := by
  obtain ⟨centuries, complete, same⟩ := wrapUp_ok wrapped
  have filled : f ∈ (c.extend centuries).toList ↔ f ∈ c.toList :=
    mem_extend_of_ne indexed fun g member =>
      name_of_completeIntegers complete g member ▸ other.symm
  rcases same with rfl | ⟨text, rfl⟩
  · exact filled
  · rw [mem_put_of_ne indexed.extend named.symm, filled]

/-- Where no rule writes years or centuries of its own, each year has its century among the fields. The
centuries are distinct, and all between the first and the last but the century 0. -/
theorem centuries_of_transform
    (names : ∀ r ∈ t.rules.allRules, ¬IsFacet r.field
      ∧ ∀ name, r.yearField = some (.text name) → ¬IsFacet name)
    {o o' : AuthorityState ω τ} {result : TransformResult}
    (ran : t.transform input o = .ok result o') :
    (∀ v ∈ result.values FieldName.year, ∃ y, v = toString y ∧ Decimal.readInt? v = some y
        ∧ ⟨FieldName.century, toString (centuryOf y)⟩ ∈ result.fields)
      ∧ ∃ centuries : List Int, result.values FieldName.century = centuries.map toString
        ∧ centuries.Nodup ∧ 0 ∉ centuries
        ∧ ∀ a ∈ centuries, ∀ b ∈ centuries, ∀ n, a ≤ n → n ≤ b → n ≠ 0 → n ∈ centuries := by
  obtain ⟨c, c', chronicle, wrapped, same⟩ := transform_keeps
    (fun r member => FieldRule.writesKeep_chronicle (names r member).1 (names r member).2)
    (chronicle_ofDefault input.default) ran
  obtain ⟨integers, century⟩ := wrapUp_century chronicle.toOnlyCenturies wrapped
  have values : ∀ name, result.values name = c'.values name := fun name => by
    rw [TransformResult.values, same, Collector.values]
  constructor
  · intro v member
    have apart : FieldName.year ≠ FieldName.century ∧ FieldName.year ≠ FieldName.hasWktCoords := by
      decide
    rw [values, mem_values, mem_wrapUp_of_ne chronicle.indexed wrapped apart.1 apart.2] at member
    obtain ⟨y, rfl, limited, spans⟩ := chronicle.year v member
    refine ⟨y, rfl, Decimal.readInt?_toString limited, ?_⟩
    rw [same]
    exact ((century _).mpr ⟨centuryOf_ne_zero y, spans⟩).2
  · obtain ⟨centuries, texts, mem⟩ := integers.values
    rw [← values] at texts
    refine ⟨centuries, texts, ?_, fun zero => ((century 0).mp ((mem 0).mp zero)).1 rfl, ?_⟩
    · obtain ⟨d, tidy, again⟩ := transform_tidy ran
      have unnamed : ¬t.rules.Repeats FieldName.century := by
        rintro ⟨r, member, -, own | copy⟩
        · exact (names r member).1 (.inr own.symm)
        · exact FieldName.not_isFacet_untokenized r.field (.inr copy.symm)
      have distinct := tidy.nodup_values unnamed
      rw [Collector.values, ← again] at distinct
      rw [TransformResult.values] at texts
      rw [texts] at distinct
      exact List.Nodup.of_map _ distinct
    · intro a first b last n low high nonzero
      obtain ⟨-, start, -⟩ := (century a).mp ((mem a).mp first)
      obtain ⟨-, -, stop⟩ := (century b).mp ((mem b).mp last)
      obtain ⟨m, before, le⟩ := start
      obtain ⟨k, after, ge⟩ := stop
      refine (mem n).mpr ((century n).mpr ⟨nonzero, ⟨m, before, ?_⟩, k, after, ?_⟩)
      · omega
      · omega

def yearRule (xpath : String) : FieldRule where
  field := "D"
  sources := [{ xpath }]
  normalizeYear := true

def yearReader (rules : List FieldRule) : Transformer Unit Unit where
  rules := { fields := [("D", rules)] }

/-- A reader that fills the gaps between the years of a first text, but not those of a second. -/
def gapReader : Transformer Unit Unit :=
  yearReader
    [{ yearRule "n[1]" with yearDigits := 1, interpolateYears := true }, yearRule "n[2]"]

theorem centuries_of_years :
    ∃ result left, gapReader.transform { element := some (textsRoot ["-2 1", "250"]) } ⟨(), none⟩
        = .ok result left
      ∧ result.values FieldName.year = ["-2", "1", "-1", "0", "250"]
      ∧ result.values FieldName.century = ["-1", "1", "3", "2"]
      ∧ ∀ v ∈ result.values FieldName.year, ∃ y, v = toString y ∧ Decimal.readInt? v = some y
        ∧ ⟨FieldName.century, toString (centuryOf y)⟩ ∈ result.fields := by
  have given : ((gapReader.transform { element := some (textsRoot ["-2 1", "250"]) }).outcome
      ⟨(), none⟩).map (fun result => (result.values FieldName.year, result.values FieldName.century))
      = .ok (["-2", "1", "-1", "0", "250"], ["-1", "1", "3", "2"]) := by
    decide +kernel
  cases ran : gapReader.transform { element := some (textsRoot ["-2 1", "250"]) } ⟨(), none⟩ with
  | error fault left =>
    rw [Action.outcome_of_error ran] at given
    cases given
  | ok result left =>
    rw [Action.outcome_of_ok ran] at given
    obtain ⟨years, centuries⟩ := Prod.mk.inj (Except.ok.inj given)
    refine ⟨result, left, rfl, years, centuries, (centuries_of_transform ?_ ran).1⟩
    intro r member
    have plain : ∀ r ∈ gapReader.rules.allRules, r.field = "D" ∧ r.yearField = none := by
      simp [RuleSet.allRules, gapReader, yearReader, yearRule]
    obtain ⟨field, further⟩ := plain r member
    rw [field, further]
    exact ⟨by decide, nofun⟩

end Transformer

end MetadataIndex
