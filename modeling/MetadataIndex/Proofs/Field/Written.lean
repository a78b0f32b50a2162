import MetadataIndex.Proofs.Decimal.Written
import MetadataIndex.Proofs.Field.Names
import MetadataIndex.Proofs.Text.Pieces

/-!
# What writing adds

Writing a value adds those of its parts that are not empty, and takes nothing away. A value without
the mark of splitting is its only part. A collector to which fields were only added holds no empty
value and no value that is still to be split, and holds a field twice only under names for which
repetition was asked.
-/

set_option autoImplicit false

namespace MetadataIndex

namespace Field

variable {fields : List Field} {name v : String}

theorem mem_valuesOf : v ∈ valuesOf name fields ↔ ⟨name, v⟩ ∈ fields := by
  simp only [valuesOf, List.mem_map, List.mem_filter, beq_iff_eq]
  constructor
  · rintro ⟨f, ⟨member, rfl⟩, rfl⟩
    exact member
  · exact fun member => ⟨⟨name, v⟩, ⟨member, rfl⟩, rfl⟩

theorem valuesOf_eq_nil_iff : valuesOf name fields = [] ↔ ∀ f ∈ fields, f.name ≠ name := by
  simp [valuesOf, List.filter_eq_nil_iff]

theorem valuesOf_append (name : String) (fields more : List Field) :
    valuesOf name (fields ++ more) = valuesOf name fields ++ valuesOf name more := by
  simp [valuesOf]

theorem valuesOf_map (name written : String) (values : List String) :
    valuesOf name (values.map (⟨written, ·⟩)) = if written = name then values else [] := by
  by_cases under : written = name
  · simp [valuesOf, under, List.filter_map, Function.comp_def]
  · simp [valuesOf, under, List.filter_map, Function.comp_def]

theorem valuesOf_flatMap {α : Type} (name : String) (items : List α) (fields : α → List Field) :
    valuesOf name (items.flatMap fields) = items.flatMap fun i => valuesOf name (fields i) := by
  simp [valuesOf, List.filter_flatMap, List.map_flatMap]

/-- The first field whose name is of a kind has the first value of its name. -/
theorem valuesOf_of_find? {p : String → Bool} {f : Field}
    (found : fields.find? (fun g => p g.name) = some f) :
    ∃ more, valuesOf f.name fields = f.value :: more := by
  obtain ⟨holds, before, after, rfl, others⟩ := List.find?_eq_some_iff_append.mp found
  have none : valuesOf f.name before = [] := by
    refine valuesOf_eq_nil_iff.mpr fun g member same => ?_
    have other := others g member
    rw [same, holds] at other
    cases other
  rw [valuesOf_append, none]
  exact ⟨valuesOf f.name after, by simp [valuesOf]⟩

end Field

namespace Collector

variable {c c' : Collector} {name value : String} {repeats : Bool} {N : String → Prop}

theorem splitMark_ne_empty : splitMark ≠ "" := by decide

theorem partsOf_of_not_contains (whole : Text.containsLiteral value splitMark = false) :
    partsOf name value = [⟨name, value⟩] := by
  simp [partsOf, Text.splitAtLiteral_of_not_contains whole]

theorem contains_splitMark_of_mem_partsOf {f : Field} (part : f ∈ partsOf name value) :
    Text.containsLiteral f.value splitMark = false := by
  obtain ⟨text, piece, rfl⟩ := List.mem_map.mp part
  exact Text.containsLiteral_of_mem_splitAtLiteral splitMark_ne_empty piece

theorem partsOf_toString (name : String) (n : Int) :
    partsOf name (toString n) = [⟨name, toString n⟩] := by
  refine partsOf_of_not_contains (Bool.eq_false_iff.mpr fun holds => ?_)
  have opening : '\x7b' ∈ (toString n).toList := (Text.containsLiteral_iff.mp holds).subset (by decide)
  have digits : ∀ k : Nat, '\x7b' ∉ Nat.toDigits 10 k := fun k member => by
    have digit := Nat.isDigit_of_mem_toDigits (by decide) (by decide) member
    revert digit
    decide
  rw [Int.toString_eq_repr, Int.repr_eq_if] at opening
  split at opening
  · exact digits _ (by simpa using opening)
  · exact digits _ (by simpa using opening)

theorem KeysStored.mem_addPart (stored : c.KeysStored) {f g : Field} :
    g ∈ (c.addPart repeats f).1.toList ↔ g ∈ c.toList ∨ g = f ∧ g.value ≠ "" := by
  unfold addPart
  split
  case isTrue known =>
    refine ⟨.inl, fun either => either.elim id ?_⟩
    rintro ⟨rfl, given⟩
    have kept : g.value.isEmpty = false := by simpa using given
    rw [kept, Bool.false_or, Bool.and_eq_true] at known
    exact stored g known.1
  case isFalse unknown =>
    change g ∈ (c.fields.push f).toList ↔ _
    rw [mem_toList_push]
    refine or_congr_right ⟨fun same => ⟨same, fun none => unknown ?_⟩, And.left⟩
    simp [← same, none]

/-- The fields after a value was written are those before it and the parts of the value. -/
theorem KeysStored.mem_put (stored : c.KeysStored) {g : Field} :
    g ∈ (c.put name value repeats).toList
      ↔ g ∈ c.toList ∨ g ∈ partsOf name value ∧ g.value ≠ "" := by
  rw [put_eq_foldl]
  generalize partsOf name value = parts
  induction parts generalizing c with
  | nil => simp
  | cons f parts ih =>
    rw [List.foldl_cons, ih (keysStored_addPart stored f), stored.mem_addPart, List.mem_cons,
      or_and_right, or_assoc]

/-- A part is known once it was written, unless it is empty. -/
theorem known_addPart {f g : Field} : (c.addPart repeats f).1.keys.contains g = true
    ↔ c.keys.contains g = true ∨ g = f ∧ g.value ≠ "" := by
  unfold addPart
  split
  case isTrue dropped =>
    refine ⟨.inl, fun either => either.elim id ?_⟩
    intro written
    obtain ⟨same, given⟩ := written
    subst same
    simp only [Bool.or_eq_true, String.isEmpty_iff, given, false_or, Bool.and_eq_true] at dropped
    exact dropped.1
  case isFalse written =>
    simp only [Bool.or_eq_true, String.isEmpty_iff, not_or] at written
    rw [Std.TreeSet.contains_insert, Bool.or_eq_true, beq_iff_eq, Std.LawfulEqOrd.compare_eq_iff_eq,
      or_comm]
    exact or_congr_right ⟨fun same => ⟨same.symm, same ▸ written.1⟩, fun both => both.1.symm⟩

theorem known_put {g : Field} : (c.put name value repeats).keys.contains g = true
    ↔ c.keys.contains g = true ∨ g ∈ partsOf name value ∧ g.value ≠ "" := by
  rw [put_eq_foldl]
  generalize partsOf name value = parts
  induction parts generalizing c with
  | nil => simp
  | cons part parts ih =>
    rw [List.foldl_cons, ih, known_addPart, List.mem_cons, or_and_right, or_assoc]

theorem mem_addPart (indexed : c.Indexed) {f g : Field} :
    g ∈ (c.addPart repeats f).1.toList ↔ g ∈ c.toList ∨ g = f ∧ g.value ≠ "" :=
  indexed.keysStored.mem_addPart

theorem mem_put (indexed : c.Indexed) {g : Field} :
    g ∈ (c.put name value repeats).toList
      ↔ g ∈ c.toList ∨ g ∈ partsOf name value ∧ g.value ≠ "" :=
  indexed.keysStored.mem_put

theorem mem_put_of_ne (indexed : c.Indexed) {g : Field} (other : name ≠ g.name) :
    g ∈ (c.put name value repeats).toList ↔ g ∈ c.toList := by
  rw [mem_put indexed]
  refine or_iff_left ?_
  rintro ⟨part, -⟩
  exact other (name_of_mem_partsOf part).symm

@[simp] theorem centuries_put (c : Collector) (name value : String) (repeats : Bool) :
    (c.put name value repeats).centuries = c.centuries :=
  put_induction (P := fun c' => c'.centuries = c.centuries) rfl fun c' f _ same => by
    rw [← same]
    unfold addPart
    split
    · rfl
    · rfl

@[simp] theorem centuries_extend (c : Collector) (fields : List Field) (repeats : Bool) :
    (c.extend fields repeats).centuries = c.centuries :=
  extend_induction (P := fun c' => c'.centuries = c.centuries) rfl fun c' f _ same => by
    rw [centuries_put, same]

theorem mem_extend (indexed : c.Indexed) {fields : List Field} {g : Field} :
    g ∈ (c.extend fields repeats).toList
      ↔ g ∈ c.toList ∨ ∃ f ∈ fields, g ∈ partsOf f.name f.value ∧ g.value ≠ "" := by
  induction fields generalizing c with
  | nil => simp [extend]
  | cons f fields ih =>
    rw [extend, List.foldl_cons]
    rw [show fields.foldl _ _ = (c.put f.name f.value repeats).extend fields repeats from rfl]
    rw [ih indexed.put, mem_put indexed, List.exists_mem_cons_iff, or_assoc]

theorem mem_extend_integers (indexed : c.Indexed) {ns : List Int} {g : Field} :
    g ∈ (c.extend (ns.map fun n => ⟨name, toString n⟩) repeats).toList
      ↔ g ∈ c.toList ∨ ∃ n ∈ ns, g = ⟨name, toString n⟩ := by
  rw [mem_extend indexed]
  simp only [List.mem_map, exists_exists_and_eq_and, partsOf_toString, List.mem_singleton]
  refine or_congr_right (exists_congr fun n => and_congr_right fun _ => ?_)
  refine and_iff_left_of_imp ?_
  rintro rfl
  exact Decimal.toString_ne_empty n

theorem subset_put (indexed : c.Indexed) : c.toList ⊆ (c.put name value repeats).toList :=
  fun _ member => (mem_put indexed).mpr (.inl member)

theorem subset_extend (indexed : c.Indexed) {fields : List Field} :
    c.toList ⊆ (c.extend fields repeats).toList :=
  fun _ member => (mem_extend indexed).mpr (.inl member)

theorem mem_extend_of_ne (indexed : c.Indexed) {fields : List Field} {g : Field}
    (other : ∀ f ∈ fields, f.name ≠ g.name) :
    g ∈ (c.extend fields repeats).toList ↔ g ∈ c.toList := by
  rw [mem_extend indexed]
  refine or_iff_left ?_
  rintro ⟨f, member, part, -⟩
  exact other f member (name_of_mem_partsOf part).symm

theorem mem_values {v : String} : v ∈ c.values name ↔ ⟨name, v⟩ ∈ c.toList := Field.mem_valuesOf

/-- One record has the fields, the free text and the noted centuries of another, and what was added to
them. -/
structure Extends (c c' : Collector) : Prop where
  fields : c.toList <+: c'.toList
  text : c.default.buffer.toList <+: c'.default.buffer.toList
  keys : ∀ f, c.keys.contains f = true → c'.keys.contains f = true
  centuries : c.centuries ⊆ c'.centuries

theorem extends_addPart (c : Collector) (f : Field) : c.Extends (c.addPart repeats f).1 := by
  unfold addPart
  split
  · exact ⟨List.prefix_rfl, List.prefix_rfl, fun _ known => known, List.Subset.refl _⟩
  · constructor
    · simp [toList]
    · exact List.prefix_rfl
    · intro g known
      simp [Std.TreeSet.contains_insert, known]
    · exact List.Subset.refl _

namespace Extends

theorem refl (c : Collector) : c.Extends c :=
  ⟨List.prefix_rfl, List.prefix_rfl, fun _ known => known, List.Subset.refl _⟩

theorem trans {c'' : Collector} (first : c.Extends c') (next : c'.Extends c'') : c.Extends c'' where
  fields := first.fields.trans next.fields
  text := first.text.trans next.text
  keys f known := next.keys f (first.keys f known)
  centuries := List.Subset.trans first.centuries next.centuries

theorem put (before : c.Extends c') (name value : String) (repeats : Bool) :
    c.Extends (c'.put name value repeats) :=
  put_induction (P := c.Extends) before fun c' f _ before => before.trans (c'.extends_addPart f)

theorem addDefault (before : c.Extends c') (value : String) : c.Extends (c'.addDefault value) where
  fields := before.fields
  text := before.text.trans (FreeText.buffer_prefix_add _ _)
  keys := before.keys
  centuries := before.centuries

theorem note (before : c.Extends c') {centuries : List Int} (more : c'.centuries ⊆ centuries) :
    c.Extends { c' with centuries } where
  fields := before.fields
  text := before.text
  keys := before.keys
  centuries := List.Subset.trans before.centuries more

end Extends

/-- Every field has a value that is not empty and not to be split, and only fields with names of a kind
occur more than once. -/
structure Tidy (N : String → Prop) (c : Collector) : Prop where
  indexed : c.Indexed
  given : ∀ f ∈ c.toList, f.value ≠ ""
  whole : ∀ f ∈ c.toList, Text.containsLiteral f.value splitMark = false
  once : ∀ f, ¬N f.name → c.toList.count f ≤ 1

namespace Tidy

theorem ofDefault (text : String) : Tidy N (ofDefault text) where
  indexed := indexed_empty
  given := nofun
  whole := nofun
  once _ _ := by simp [Collector.ofDefault, toList]

theorem addPart (tidy : Tidy N c) {f : Field} (allowed : repeats = true → N f.name)
    (whole : Text.containsLiteral f.value splitMark = false) : Tidy N (c.addPart repeats f).1 where
  indexed := tidy.indexed.addPart
  given g member := by
    rcases (mem_addPart tidy.indexed).mp member with old | ⟨-, given⟩
    · exact tidy.given g old
    · exact given
  whole g member := by
    rcases (mem_addPart tidy.indexed).mp member with old | ⟨rfl, -⟩
    · exact tidy.whole g old
    · exact whole
  once g unnamed := by
    have before := tidy.once g unnamed
    unfold Collector.addPart
    split
    case isTrue => exact before
    case isFalse unknown =>
      change (c.fields.push f).toList.count g ≤ 1
      rw [Array.toList_push, List.count_append]
      by_cases same : f = g
      · -- without leave to repeat, the field is written because it is new
        have fresh : f ∉ c.toList := fun member => unknown <| by
          have forbidden : repeats = false :=
            Bool.eq_false_iff.mpr fun asked => unnamed (same ▸ allowed asked)
          simp [(tidy.indexed f).mpr member, forbidden]
        rw [← same, show c.fields.toList.count f = 0 from List.count_eq_zero.mpr fresh]
        simp
      · simpa [same, toList] using before

theorem put (tidy : Tidy N c) (value : String) (allowed : repeats = true → N name) :
    Tidy N (c.put name value repeats) :=
  put_induction_of_mem tidy fun _ _ part tidy =>
    tidy.addPart (fun asked => name_of_mem_partsOf part ▸ allowed asked)
      (contains_splitMark_of_mem_partsOf part)

theorem addDefault (tidy : Tidy N c) (value : String) : Tidy N (c.addDefault value) :=
  ⟨tidy.indexed, tidy.given, tidy.whole, tidy.once⟩

theorem nodup_values (tidy : Tidy N c) (unnamed : ¬N name) : (c.values name).Nodup := by
  refine List.nodup_iff_count.mpr fun v => ?_
  have once := tidy.once ⟨name, v⟩ unnamed
  refine Nat.le_trans (Nat.le_of_eq ?_) once
  rw [values, Field.valuesOf, List.count_eq_countP, List.countP_map, List.countP_filter,
    List.count_eq_countP]
  refine List.countP_congr fun f _ => ?_
  obtain ⟨name', v'⟩ := f
  simp [and_comm]

end Tidy

end Collector

end MetadataIndex
