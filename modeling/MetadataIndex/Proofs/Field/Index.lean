import Mathlib.Data.List.Infix
import MetadataIndex.Proofs.Field.Sorted

/-!
# The keys of a record

A record keeps the keys of its fields, so that a repetition is found without a search. Adding fields keeps
the keys and the fields in step. Giving a field another value takes its key away even where an equal field
stands elsewhere: that field is lost to the keys until it is written again, and until then it may be
written although it is there. As long as no stored field is lost, a record with keys and one that searches
its fields have the same fields and give the same answers. The other value may also be empty, as no value
that is added is.
-/

set_option autoImplicit false

namespace MetadataIndex

namespace Collector

variable {c : Collector} {f g : Field} {fields : List Field} {repeats : Bool}

/-- The keys are those of the stored fields, and no stored field is empty. -/
structure Exact (c : Collector) : Prop where
  indexed : c.Indexed
  given : ∀ f ∈ c.toList, f.value ≠ ""

/-! ## Keys after one operation -/

/-- The fields that a field is written as: one for each part of its value that is not empty. -/
def writtenAs (f : Field) : List Field := (givenParts f.value).map (⟨f.name, ·⟩)

theorem mem_writtenAs : g ∈ writtenAs f ↔ g ∈ partsOf f.name f.value ∧ g.value ≠ "" := by
  simp only [writtenAs, givenParts, partsOf, List.mem_map, List.mem_filter]
  constructor
  · intro written
    obtain ⟨part, ⟨piece, given⟩, same⟩ := written
    subst same
    exact ⟨⟨part, piece, rfl⟩, by simpa using given⟩
  · intro both
    obtain ⟨⟨part, piece, same⟩, given⟩ := both
    subst same
    exact ⟨part, ⟨piece, by simpa using given⟩, rfl⟩

/-- Without leave to repeat, a part is written when it is not empty and no key knows it. -/
theorem written_addPart :
    (c.addPart false f).2 = true ↔ f.value ≠ "" ∧ ¬c.keys.contains f = true := by
  unfold addPart
  split
  case isTrue dropped =>
    simp only [Bool.not_false, Bool.and_true, Bool.or_eq_true, String.isEmpty_iff] at dropped
    simp only [Bool.false_eq_true, false_iff]
    tauto
  case isFalse written =>
    simp only [Bool.not_false, Bool.and_true, Bool.or_eq_true, String.isEmpty_iff, not_or] at written
    simp only [true_iff]
    exact written

theorem known_extend : (c.extend fields repeats).keys.contains g = true
    ↔ c.keys.contains g = true ∨ g ∈ fields.flatMap writtenAs := by
  unfold extend
  induction fields generalizing c with
  | nil => simp
  | cons f fields ih =>
    rw [List.foldl_cons, ih, known_put, ← mem_writtenAs, List.flatMap_cons, List.mem_append, or_assoc]

theorem keys_replaceValue : (c.replaceValue f.name f.value).1.keys
    = match c.toList.find? (·.name == f.name) with
      | some old => (c.keys.erase old).insert f
      | none => c.keys := by
  rw [toList, Array.find?_toList, Array.find?_eq_bind_findIdx?_getElem?, replaceValue]
  cases found : c.fields.findIdx? (·.name == f.name) with
  | none => rfl
  | some i =>
    obtain ⟨bound, -, -⟩ := Array.findIdx?_eq_some_iff_getElem.mp found
    simp [bound]

theorem hasField_eq_any (c : Collector) (name : String) :
    c.hasField name = c.toList.any (·.name == name) := by
  simp [hasField, toList, ← Array.any_toList]

/-- The key of the old value is taken away before that of the other value is kept. -/
theorem known_replaceValue : (c.replaceValue f.name f.value).1.keys.contains g = true
    ↔ (g = f ∧ c.hasField f.name = true)
      ∨ c.keys.contains g = true ∧ c.toList.find? (·.name == f.name) ≠ some g := by
  rw [keys_replaceValue, hasField_eq_any, ← List.isSome_find?]
  cases c.toList.find? (·.name == f.name) with
  | none => simp
  | some old =>
    simp only [Std.TreeSet.contains_insert, Std.TreeSet.contains_erase, Bool.or_eq_true, beq_iff_eq,
      Bool.and_eq_true, bne_iff_ne, ne_eq, Std.LawfulEqOrd.compare_eq_iff_eq, Option.isSome_some,
      and_true, Option.some.injEq]
    rw [eq_comm, and_comm]

/-! ## Empty values -/

/-- A part that is written is not empty. -/
theorem toList_addPart_given (repeats : Bool) (c : Collector) (f : Field) :
    (c.addPart repeats f).1.toList = c.toList
      ∨ f.value ≠ "" ∧ (c.addPart repeats f).1.toList = c.toList ++ [f] := by
  unfold addPart
  split
  case isTrue => exact .inl rfl
  case isFalse written =>
    simp only [Bool.or_eq_true, String.isEmpty_iff, not_or] at written
    exact .inr ⟨written.1, by simp [toList]⟩

/-- Only the first field of a name may be empty: what is added is not, and only the first field is given
another value. -/
def EmptyFirst (c : Collector) : Prop := ∀ name, "" ∉ (c.values name).tail

theorem emptyFirst_empty : ({} : Collector).EmptyFirst := by
  intro name empty
  cases empty

theorem EmptyFirst.addPart (only : c.EmptyFirst) (repeats : Bool) (f : Field) :
    (c.addPart repeats f).1.EmptyFirst := by
  intro name
  unfold values
  obtain same | ⟨given, grown⟩ := toList_addPart_given repeats c f
  · rw [same]
    exact only name
  · rw [grown, Field.valuesOf_append]
    intro empty
    have last : "" ∉ Field.valuesOf name [f] := by
      rw [Field.mem_valuesOf, List.mem_singleton]
      rintro rfl
      exact given rfl
    cases before : Field.valuesOf name c.toList with
    | nil =>
      rw [before, List.nil_append] at empty
      exact last (List.mem_of_mem_tail empty)
    | cons first more =>
      rw [before, List.cons_append, List.tail_cons, List.mem_append] at empty
      have old := only name
      rw [values, before] at old
      exact empty.elim old last

theorem EmptyFirst.put (only : c.EmptyFirst) (f : Field) (repeats : Bool) :
    (c.put f.name f.value repeats).EmptyFirst :=
  put_induction only fun _ g _ only => only.addPart repeats g

theorem EmptyFirst.replaceValue (only : c.EmptyFirst) (f : Field) :
    (c.replaceValue f.name f.value).1.EmptyFirst := by
  intro name
  by_cases under : f.name = name
  · subst under
    rw [values_replaceValue_self, List.tail_modifyHead]
    exact only f.name
  · rw [values_replaceValue under]
    exact only name

theorem empty_addPart {name : String} :
    "" ∈ (c.addPart repeats f).1.values name ↔ "" ∈ c.values name := by
  rw [mem_values, mem_values]
  obtain same | ⟨given, grown⟩ := toList_addPart_given repeats c f
  · rw [same]
  · rw [grown, List.mem_append, List.mem_singleton]
    refine or_iff_left ?_
    rintro rfl
    exact given rfl

theorem empty_put {name : String} :
    "" ∈ (c.put f.name f.value repeats).values name ↔ "" ∈ c.values name :=
  put_induction (P := fun c' => "" ∈ c'.values name ↔ "" ∈ c.values name) Iff.rfl
    fun _ _ _ same => empty_addPart.trans same

theorem empty_replaceValue (only : c.EmptyFirst) :
    "" ∈ (c.replaceValue f.name f.value).1.values f.name
      ↔ c.hasField f.name = true ∧ f.value = "" := by
  have later := only f.name
  have there : c.hasField f.name = true ↔ c.values f.name ≠ [] := by
    rw [ne_eq, values_eq_nil_iff, Bool.not_eq_false]
  rw [values_replaceValue_self, there]
  cases stored : c.values f.name with
  | nil => simp
  | cons first more =>
    rw [stored, List.tail_cons] at later
    simp only [List.modifyHead_cons, List.mem_cons, later, or_false, ne_eq, reduceCtorEq,
      not_false_eq_true, true_and]
    exact eq_comm

theorem given_iff : (∀ f ∈ c.toList, f.value ≠ "") ↔ ∀ name, "" ∉ c.values name := by
  simp only [mem_values]
  constructor
  · intro given name stored
    exact given _ stored rfl
  · intro none f stored empty
    exact none f.name (empty ▸ stored)

/-! ## Search instead of keys -/

/-- The fields with another one in the place of the first of its name. -/
def replaceFirst (f : Field) : List Field → List Field
  | [] => []
  | g :: more => if g.name = f.name then f :: more else g :: replaceFirst f more

theorem replaceFirst_of_absent (absent : ∀ g ∈ fields, g.name ≠ f.name) :
    replaceFirst f fields = fields := by
  induction fields with
  | nil => rfl
  | cons g fields ih =>
    obtain ⟨other, others⟩ := List.forall_mem_cons.mp absent
    rw [replaceFirst, if_neg other, ih others]

theorem replaceFirst_append {before after : List Field} {old : Field}
    (earlier : ∀ g ∈ before, g.name ≠ f.name) (named : old.name = f.name) :
    replaceFirst f (before ++ old :: after) = before ++ f :: after := by
  induction before with
  | nil => simp [replaceFirst, named]
  | cons g before ih =>
    obtain ⟨other, others⟩ := List.forall_mem_cons.mp earlier
    rw [List.cons_append, replaceFirst, if_neg other, ih others, List.cons_append]

theorem toList_replaceValue :
    (c.replaceValue f.name f.value).1.toList = replaceFirst f c.toList := by
  obtain ⟨absent, same⟩ | ⟨before, old, after, stored, earlier, left, -⟩ :=
    c.replaceValue_cases f.name f.value
  · rw [same, replaceFirst_of_absent (Field.valuesOf_eq_nil_iff.mp absent)]
  · rw [left, stored]
    have placed : replaceFirst f (before ++ ⟨f.name, old⟩ :: after) = before ++ f :: after :=
      replaceFirst_append earlier rfl
    exact placed.symm

theorem addPart_eq_scanning (indexed : c.Indexed) (repeats : Bool) (f : Field) :
    ((c.addPart repeats f).1.toList, (c.addPart repeats f).2)
      = addPartScanning repeats c.toList f := by
  have known : c.keys.contains f = decide (f ∈ c.toList) := by
    rw [Bool.eq_iff_iff, decide_eq_true_eq]
    exact indexed f
  unfold addPart addPartScanning
  rw [known]
  split
  · rfl
  · simp [toList]

/-- A record whose keys are those of its fields adds as one that searches its fields. -/
theorem add_eq_scanning (indexed : c.Indexed) (name value : String) (repeats : Bool) :
    ((c.put name value repeats).toList, (c.add name value repeats).2)
      = addScanning c.toList name value repeats := by
  unfold put add addParts addScanning
  generalize partsOf name value = parts
  -- Over the parts, from any answer so far.
  suffices ∀ (parts : List Field) (c : Collector) (written : Bool), c.Indexed →
      (fun state : Collector × Bool => (state.1.toList, state.2))
          (parts.foldl (fun state f => ((state.1.addPart repeats f).1,
            state.2 || (state.1.addPart repeats f).2)) (c, written))
        = parts.foldl (fun state f => ((addPartScanning repeats state.1 f).1,
            state.2 || (addPartScanning repeats state.1 f).2)) (c.toList, written)
    from this parts c false indexed
  intro parts
  induction parts with
  | nil => exact fun _ _ _ => rfl
  | cons f parts ih =>
    intro c written indexed
    rw [List.foldl_cons, List.foldl_cons, ih _ _ indexed.addPart, ← addPart_eq_scanning indexed]

theorem extend_eq_scanning (indexed : c.Indexed) (fields : List Field) (repeats : Bool) :
    (c.extend fields repeats).toList
      = fields.foldl (fun stored f => (addScanning stored f.name f.value repeats).1) c.toList := by
  unfold extend
  induction fields generalizing c with
  | nil => rfl
  | cons f fields ih =>
    rw [List.foldl_cons, List.foldl_cons, ih indexed.put, ← add_eq_scanning indexed]

end Collector

/-- A change of the fields of a record. -/
inductive FieldChange where
  | add (f : Field) (repeats : Bool)
  | extend (fields : List Field) (repeats : Bool)
  | replace (f : Field)

namespace FieldChange

open Collector

variable {c : Collector} {f : Field} {w : FieldChange} {changes done : List FieldChange} {name : String}

/-- The record after a change, and the answer. -/
def run (c : Collector) : FieldChange → Collector × Option Bool
  | add f repeats => (c.put f.name f.value repeats, some (c.add f.name f.value repeats).2)
  | extend fields repeats => (c.extend fields repeats, none)
  | replace f =>
    ((c.replaceValue f.name f.value).1, some (c.replaceValue f.name f.value).2)

/-- The fields after a change that searches them, and the answer. -/
def scan (fields : List Field) : FieldChange → List Field × Option Bool
  | add f repeats =>
    ((addScanning fields f.name f.value repeats).1,
      some (addScanning fields f.name f.value repeats).2)
  | extend more repeats =>
    (more.foldl (fun stored f => (addScanning stored f.name f.value repeats).1) fields, none)
  | replace f => (replaceFirst f fields, some (fields.any (·.name == f.name)))

/-- What is left after changes, one after the other, and their answers. -/
def carryOut {σ : Type} (step : σ → FieldChange → σ × Option Bool) (start : σ)
    (changes : List FieldChange) : σ × List (Option Bool) :=
  changes.foldl (fun state w => ((step state.1 w).1, state.2 ++ [(step state.1 w).2])) (start, [])

/-- The record after changes. -/
def after (c : Collector) (changes : List FieldChange) : Collector := (carryOut run c changes).1

theorem carryOut_concat {σ : Type} (step : σ → FieldChange → σ × Option Bool) (start : σ)
    (done : List FieldChange) (w : FieldChange) :
    carryOut step start (done ++ [w])
      = ((step (carryOut step start done).1 w).1,
          (carryOut step start done).2 ++ [(step (carryOut step start done).1 w).2]) := by
  simp [carryOut]

@[simp] theorem after_concat : after c (done ++ [w]) = (w.run (after c done)).1 := by
  simp [after, carryOut_concat]

/-- The fields that a change has the record hold. -/
def gives (fields : List Field) : FieldChange → List Field
  | add f _ => writtenAs f
  | extend more _ => more.flatMap writtenAs
  | replace f => if fields.any (·.name == f.name) then [f] else []

/-- The field that a change puts another one in the place of. -/
def overwritten? (fields : List Field) : FieldChange → Option Field
  | replace f => fields.find? (·.name == f.name)
  | _ => none

/-- A field is lost when another one took its place and it was not written since. -/
inductive Lost (c : Collector) (f : Field) : List FieldChange → Prop where
  | overwritten {done : List FieldChange} {w : FieldChange} :
      w.overwritten? (after c done).toList = some f → f ∉ w.gives (after c done).toList →
      Lost c f (done ++ [w])
  | kept {done : List FieldChange} {w : FieldChange} :
      Lost c f done → f ∉ w.gives (after c done).toList → Lost c f (done ++ [w])

/-- A name is emptied when the last value that its first field was given is empty. -/
inductive Emptied (c : Collector) (name : String) : List FieldChange → Prop where
  | replaced {done : List FieldChange} :
      (after c done).hasField name = true → Emptied c name (done ++ [replace ⟨name, ""⟩])
  | kept {done : List FieldChange} {w : FieldChange} :
      Emptied c name done → (∀ value, w ≠ replace ⟨name, value⟩) → Emptied c name (done ++ [w])

theorem lost_concat_iff : Lost c f (done ++ [w])
    ↔ (Lost c f done ∨ w.overwritten? (after c done).toList = some f)
      ∧ f ∉ w.gives (after c done).toList := by
  constructor
  · intro lost
    generalize same : done ++ [w] = changes at lost
    cases lost with
    | overwritten taken missing =>
      obtain ⟨rfl, last⟩ := List.append_inj' same rfl
      cases last
      exact ⟨.inr taken, missing⟩
    | kept before missing =>
      obtain ⟨rfl, last⟩ := List.append_inj' same rfl
      cases last
      exact ⟨.inl before, missing⟩
  · intro both
    obtain ⟨either, missing⟩ := both
    cases either with
    | inl before => exact .kept before missing
    | inr taken => exact .overwritten taken missing

theorem emptied_concat_iff : Emptied c name (done ++ [w])
    ↔ (after c done).hasField name = true ∧ w = replace ⟨name, ""⟩
      ∨ Emptied c name done ∧ ∀ value, w ≠ replace ⟨name, value⟩ := by
  constructor
  · intro emptied
    generalize same : done ++ [w] = changes at emptied
    cases emptied with
    | replaced there =>
      obtain ⟨rfl, last⟩ := List.append_inj' same rfl
      cases last
      exact .inl ⟨there, rfl⟩
    | kept before other =>
      obtain ⟨rfl, last⟩ := List.append_inj' same rfl
      cases last
      exact .inr ⟨before, other⟩
  · intro either
    cases either with
    | inl replaced =>
      obtain ⟨there, rfl⟩ := replaced
      exact .replaced there
    | inr kept => exact .kept kept.1 kept.2

/-! ## One change -/

/-- The keys after a change are those of the fields it gives, and the others without the one that is
overwritten. -/
theorem known_run : (w.run c).1.keys.contains f = true
    ↔ f ∈ w.gives c.toList
      ∨ c.keys.contains f = true ∧ w.overwritten? c.toList ≠ some f := by
  cases w with
  | add g repeats =>
    simp only [run, gives, overwritten?, known_put, mem_writtenAs, ne_eq, reduceCtorEq,
      not_false_eq_true, and_true]
    exact or_comm
  | extend more repeats =>
    simp only [run, gives, overwritten?, known_extend, ne_eq, reduceCtorEq, not_false_eq_true,
      and_true]
    exact or_comm
  | replace g =>
    simp only [run, gives, overwritten?, known_replaceValue, hasField_eq_any]
    cases c.toList.any (·.name == g.name) with
    | true => simp
    | false => simp

theorem given_or_stored (stored : c.KeysStored) (member : f ∈ (w.run c).1.toList) :
    f ∈ w.gives c.toList ∨ f ∈ c.toList := by
  cases w with
  | add g repeats =>
    rw [run, stored.mem_put, ← mem_writtenAs] at member
    exact member.symm
  | extend more repeats =>
    have each : (c.extend more repeats).KeysStored
        ∧ ∀ g ∈ (c.extend more repeats).toList, g ∈ more.flatMap writtenAs ∨ g ∈ c.toList := by
      apply extend_induction (P := fun c' : Collector => c'.KeysStored
        ∧ ∀ g ∈ c'.toList, g ∈ more.flatMap writtenAs ∨ g ∈ c.toList)
      · exact ⟨stored, fun _ old => .inr old⟩
      · intro c' g listed before
        obtain ⟨stored', only⟩ := before
        refine ⟨stored'.put g.name g.value repeats, ?_⟩
        intro h member
        rw [stored'.mem_put, ← mem_writtenAs] at member
        exact member.elim (only h) fun part => .inl (List.mem_flatMap.mpr ⟨g, listed, part⟩)
    exact each.2 f member
  | replace g =>
    obtain ⟨-, same⟩ | ⟨before, old, after, split, -, left, -⟩ := c.replaceValue_cases g.name g.value
    · rw [run, same] at member
      exact .inr member
    · simp only [run, left, List.mem_append, List.mem_cons] at member
      simp only [gives, split, List.any_append, List.any_cons, beq_self_eq_true, Bool.true_or,
        Bool.or_true, if_true, List.mem_append, List.mem_cons]
      tauto

theorem reached_after (reached : c.Reached) (changes : List FieldChange) :
    (after c changes).Reached := by
  induction changes using List.reverseRecOn with
  | nil => exact reached
  | append_singleton done w ih =>
    rw [after_concat]
    cases w with
    | add g repeats => exact ih.put g.name g.value repeats
    | extend more repeats => exact ih.extend more repeats
    | replace g => exact ih.replaceValue g.name g.value

/-! ## Lost fields -/

theorem unknown_of_lost (lost : Lost c f changes) : (after c changes).keys.contains f = false := by
  induction lost with
  | overwritten taken missing =>
    rw [after_concat, Bool.eq_false_iff, ne_eq, known_run]
    simp [taken, missing]
  | kept _ missing ih =>
    rw [after_concat, Bool.eq_false_iff, ne_eq, known_run]
    simp only [missing, ih, Bool.false_eq_true, false_and, or_false, not_false_eq_true]

theorem known_or_lost (reached : c.Reached) (indexed : c.Indexed)
    (stored : f ∈ (after c changes).toList) :
    (after c changes).keys.contains f = true ∨ Lost c f changes := by
  induction changes using List.reverseRecOn with
  | nil => exact .inl ((indexed f).mpr stored)
  | append_singleton done w ih =>
    rw [after_concat] at stored
    rw [after_concat, known_run, lost_concat_iff]
    by_cases given : f ∈ w.gives (after c done).toList
    · exact .inl (.inl given)
    · have old := (given_or_stored (reached_after reached done).keysStored stored).resolve_left given
      by_cases taken : w.overwritten? (after c done).toList = some f
      · exact .inr ⟨.inr taken, given⟩
      · exact (ih old).imp (fun known => .inr ⟨known, taken⟩) fun lost => ⟨.inl lost, given⟩

/-- The keys are those of the stored fields that are not lost. -/
theorem known_after_iff (reached : c.Reached) (indexed : c.Indexed) :
    (after c changes).keys.contains f = true ↔ f ∈ (after c changes).toList ∧ ¬Lost c f changes := by
  constructor
  · intro known
    refine ⟨(reached_after reached changes).keysStored f known, ?_⟩
    intro lost
    rw [unknown_of_lost lost] at known
    cases known
  · intro both
    exact (known_or_lost reached indexed both.1).resolve_right both.2

theorem indexed_after_iff (reached : c.Reached) (indexed : c.Indexed) :
    (after c changes).Indexed ↔ ∀ f ∈ (after c changes).toList, ¬Lost c f changes := by
  simp only [Indexed, known_after_iff reached indexed, and_iff_left_iff_imp]

/-! ## Emptied names -/

theorem emptyFirst_after (only : c.EmptyFirst) (changes : List FieldChange) :
    (after c changes).EmptyFirst := by
  induction changes using List.reverseRecOn with
  | nil => exact only
  | append_singleton done w ih =>
    rw [after_concat]
    cases w with
    | add g repeats => exact ih.put g repeats
    | extend more repeats => exact extend_induction ih fun _ g _ only => only.put g repeats
    | replace g => exact ih.replaceValue g

/-- An empty field is stored exactly under the names that were emptied. -/
theorem empty_after_iff (only : c.EmptyFirst) (given : "" ∉ c.values name) :
    "" ∈ (after c changes).values name ↔ Emptied c name changes := by
  induction changes using List.reverseRecOn with
  | nil =>
    refine iff_of_false given ?_
    intro emptied
    generalize none : ([] : List FieldChange) = changes at emptied
    cases emptied with
    | replaced | kept => simp at none
  | append_singleton done w ih =>
    rw [after_concat, emptied_concat_iff, ← ih]
    cases w with
    | add g repeats => simp [run, empty_put]
    | extend more repeats =>
      have same : "" ∈ ((after c done).extend more repeats).values name
          ↔ "" ∈ (after c done).values name :=
        extend_induction (P := fun c' => "" ∈ c'.values name ↔ "" ∈ (after c done).values name)
          Iff.rfl fun _ _ _ same => empty_put.trans same
      simp [run, same]
    | replace g =>
      obtain ⟨name', value⟩ := g
      by_cases under : name' = name
      · subst under
        rw [run, empty_replaceValue (emptyFirst_after only done)]
        simp
      · rw [run, values_replaceValue under]
        simp [under]

/-! ## Search -/

theorem run_eq_scan (indexed : c.Indexed) (w : FieldChange) :
    ((w.run c).1.toList, (w.run c).2) = w.scan c.toList := by
  cases w with
  | add f repeats =>
    have same := add_eq_scanning indexed f.name f.value repeats
    simp only [run, scan, ← same]
  | extend more repeats => simp only [run, scan, extend_eq_scanning indexed]
  | replace f =>
    have answer : (c.replaceValue f.name f.value).2 = c.toList.any (·.name == f.name) := by
      rw [Bool.eq_iff_iff, replaceValue_eq_true_iff, ne_eq, values_eq_nil_iff, Bool.not_eq_false,
        hasField_eq_any]
    simp only [run, scan, toList_replaceValue, answer]

theorem carryOut_eq_scan (indexed : ∀ done, done <+: changes → (after c done).Indexed) :
    ((after c changes).toList, (carryOut run c changes).2) = carryOut scan c.toList changes := by
  induction changes using List.reverseRecOn with
  | nil => rfl
  | append_singleton done w ih =>
    have before := ih fun part within => indexed part (within.trans (List.prefix_append _ _))
    have step := run_eq_scan (indexed done (List.prefix_append _ _)) w
    simp only [carryOut_concat, after_concat, ← before, ← step]
    rfl

/-- After any changes of a new record, the keys are those of the stored fields that are not lost, and a
part that is not empty is written without leave to repeat exactly when it is not stored or is lost. The
keys are all those of the fields, none of which is empty, exactly when no stored field is lost and no name
was emptied. If no stored field was lost on the way, a record that searches its fields has the same fields
and gave the same answers. -/
theorem keys_of_changes (text : String) (changes : List FieldChange) :
    let start := Collector.ofDefault text
    let c := after start changes
    (∀ f, c.keys.contains f = true ↔ f ∈ c.toList ∧ ¬Lost start f changes)
      ∧ (∀ f, (c.addPart false f).2 = true
          ↔ f.value ≠ "" ∧ (f ∉ c.toList ∨ Lost start f changes))
      ∧ (c.Exact ↔ (∀ f ∈ c.toList, ¬Lost start f changes) ∧ ∀ name, ¬Emptied start name changes)
      ∧ ((∀ done, done <+: changes → ∀ f ∈ (after start done).toList, ¬Lost start f done) →
          (c.toList, (carryOut run start changes).2) = carryOut scan [] changes) := by
  intro start c
  have reached : start.Reached := .ofDefault text
  have indexed : start.Indexed := indexed_empty
  have known (f : Field) : c.keys.contains f = true ↔ f ∈ c.toList ∧ ¬Lost start f changes :=
    known_after_iff reached indexed
  refine ⟨known, ?_, ?_, ?_⟩
  · intro f
    rw [written_addPart, known f, not_and_or, not_not]
  · have empty (name : String) : "" ∈ c.values name ↔ Emptied start name changes :=
      empty_after_iff emptyFirst_empty (List.not_mem_nil)
    have given : (∀ f ∈ c.toList, f.value ≠ "") ↔ ∀ name, ¬Emptied start name changes := by
      simp only [given_iff, empty]
    rw [← indexed_after_iff reached indexed, ← given]
    exact ⟨fun exact => ⟨exact.indexed, exact.given⟩, fun both => ⟨both.1, both.2⟩⟩
  · intro kept
    apply carryOut_eq_scan
    intro done within
    exact (indexed_after_iff reached indexed).mpr (kept done within)

def subjects : List FieldChange :=
  [add ⟨"S", "a" ++ splitMark ++ "b"⟩ false, add ⟨"S", "b"⟩ true, replace ⟨"S", "c"⟩,
    add ⟨"S", "b"⟩ false]

/-- The subject that is given another value stands once, so that the other is still known. -/
theorem keys_of_subjects :
    (∀ done, done <+: subjects → ∀ f ∈ (after (.ofDefault "") done).toList,
        ¬Lost (.ofDefault "") f done)
      ∧ carryOut scan [] subjects
        = ([⟨"S", "c"⟩, ⟨"S", "b"⟩, ⟨"S", "b"⟩], [some true, some true, some true, some false])
      ∧ (after (.ofDefault "") subjects).toList = [⟨"S", "c"⟩, ⟨"S", "b"⟩, ⟨"S", "b"⟩] := by
  have known : ∀ done ∈ subjects.inits, ∀ f ∈ (after (.ofDefault "") done).toList,
      (after (.ofDefault "") done).keys.contains f = true := by decide +kernel
  have kept : ∀ done, done <+: subjects → ∀ f ∈ (after (.ofDefault "") done).toList,
      ¬Lost (.ofDefault "") f done := by
    intro done within f stored
    have stays := ((keys_of_changes "" done).1 f).mp
    exact (stays (known done ((List.mem_inits done subjects).mpr within) f stored)).2
  have searched : carryOut scan [] subjects
      = ([⟨"S", "c"⟩, ⟨"S", "b"⟩, ⟨"S", "b"⟩], [some true, some true, some true, some false]) := by
    decide +kernel
  have same := (keys_of_changes "" subjects).2.2.2 kept
  rw [searched] at same
  exact ⟨kept, searched, congrArg Prod.fst same⟩

/-- Of two equal subjects one is given another value, and the other may be written again. A value may be
replaced by an empty one. -/
theorem lost_of_equalSubjects :
    let c := after (.ofDefault "") [add ⟨"S", "a"⟩ false, add ⟨"S", "a"⟩ true, replace ⟨"S", "b"⟩]
    c.toList = [⟨"S", "b"⟩, ⟨"S", "a"⟩] ∧ c.keys.contains ⟨"S", "a"⟩ = false
      ∧ (c.add "S" "a").2 = true ∧ (c.add "S" "a").1.toList = [⟨"S", "b"⟩, ⟨"S", "a"⟩, ⟨"S", "a"⟩]
      ∧ addScanning c.toList "S" "a" = ([⟨"S", "b"⟩, ⟨"S", "a"⟩], false)
      ∧ (after (.ofDefault "") [add ⟨"S", "a"⟩ false, replace ⟨"S", ""⟩]).toList = [⟨"S", ""⟩] := by
  refine ⟨?_, ?_, ?_, ?_, ?_, ?_⟩
  all_goals decide +kernel

end FieldChange

end MetadataIndex
