import MetadataIndex.Proofs.Field.Written

/-!
# Sort fields of a record

A value that is split gives one field for each of its parts that is not empty, and without repetition
one for each different part. A sort field is written when there is none of its name, so its name has the
parts of one key: the first that has any. It has one field exactly when that key has one part, and the
field that is given back is the one that was written exactly when the key is not split.
-/

set_option autoImplicit false

namespace MetadataIndex

namespace Collector

variable {c : Collector} {name value : String} {repeats : Bool} {w : List String}

/-- The parts of a value that are written. -/
def givenParts (value : String) : List String :=
  (Text.splitAtLiteral splitMark value).filter (!·.isEmpty)

/-- The parts of a value that are written to a record that has none of them. -/
def newParts (value : String) : List String := (givenParts value).eraseDups

theorem givenParts_of_whole (whole : Text.containsLiteral value splitMark = false)
    (given : value ≠ "") : givenParts value = [value] := by
  simp [givenParts, Text.splitAtLiteral_of_not_contains whole, given]

theorem newParts_of_whole (whole : Text.containsLiteral value splitMark = false)
    (given : value ≠ "") : newParts value = [value] := by
  rw [newParts, givenParts_of_whole whole given]
  rfl

theorem whole_of_mem_givenParts {part : String} (member : part ∈ givenParts value) :
    Text.containsLiteral part splitMark = false :=
  Text.containsLiteral_of_mem_splitAtLiteral splitMark_ne_empty (List.mem_of_mem_filter member)

theorem givenParts_of_mem {part : String} (member : part ∈ givenParts value) :
    givenParts part = [part] := by
  refine givenParts_of_whole (whole_of_mem_givenParts member) ?_
  simpa using (List.mem_filter.mp member).2

theorem mem_newParts {part : String} : part ∈ newParts value ↔ part ∈ givenParts value :=
  List.mem_eraseDups

theorem whole_of_mem_newParts {part : String} (member : part ∈ newParts value) :
    Text.containsLiteral part splitMark = false :=
  whole_of_mem_givenParts (mem_newParts.mp member)

/-- Parts are written as they are. -/
theorem flatMap_givenParts {parts : List String}
    (each : ∀ part ∈ parts, ∃ value, part ∈ givenParts value) :
    parts.flatMap givenParts = parts := by
  induction parts with
  | nil => rfl
  | cons part parts ih =>
    obtain ⟨⟨value, first⟩, rest⟩ := List.forall_mem_cons.mp each
    rw [List.flatMap_cons, givenParts_of_mem first, ih rest, List.singleton_append]

theorem length_flatMap_givenParts_le {values : List String}
    (whole : ∀ v ∈ values, Text.containsLiteral v splitMark = false) :
    (values.flatMap givenParts).length ≤ values.length := by
  induction values with
  | nil => exact Nat.le_refl 0
  | cons v values ih =>
    obtain ⟨first, rest⟩ := List.forall_mem_cons.mp whole
    have single : (givenParts v).length ≤ 1 := by
      rw [givenParts, Text.splitAtLiteral_of_not_contains first]
      exact List.length_filter_le _ _
    have later := ih rest
    rw [List.flatMap_cons, List.length_append, List.length_cons]
    omega

/-- A value is its only part exactly when it is not split. -/
theorem newParts_eq_singleton_iff (given : newParts value ≠ []) :
    newParts value = [value] ↔ Text.containsLiteral value splitMark = false := by
  constructor
  · intro alone
    exact whole_of_mem_newParts (alone ▸ List.mem_singleton_self value)
  · intro whole
    apply newParts_of_whole whole
    rintro rfl
    exact given (by decide +kernel)

theorem length_newParts_le_of_whole (whole : Text.containsLiteral value splitMark = false) :
    (newParts value).length ≤ 1 := by
  by_cases given : value = ""
  · subst given
    decide
  · rw [newParts_of_whole whole given]
    exact Nat.le_refl 1

theorem values_eq_nil_iff : c.values name = [] ↔ c.hasField name = false := by
  simp [values, Field.valuesOf, hasField, toList, ← Array.any_toList, List.filter_eq_nil_iff]

/-- With leave to repeat, every part of a value that is not empty is written. -/
theorem toList_put_repeated :
    (c.put name value true).toList = c.toList ++ (givenParts value).map (⟨name, ·⟩) := by
  rw [put_eq_foldl, partsOf, givenParts]
  generalize Text.splitAtLiteral splitMark value = parts
  induction parts generalizing c with
  | nil => simp
  | cons part parts ih =>
    rw [List.map_cons, List.foldl_cons, ih]
    by_cases empty : part = ""
    · simp [addPart, empty]
    · simp [addPart, empty, toList]

theorem values_put_repeated :
    (c.put name value true).values name = c.values name ++ givenParts value := by
  unfold values
  rw [toList_put_repeated, Field.valuesOf_append, Field.valuesOf_map, if_pos rfl]

/-- Another value goes to the first field of a name, if there is one. -/
theorem replaceValue_cases (c : Collector) (name value : String) :
    (c.values name = [] ∧ c.replaceValue name value = (c, false))
      ∨ ∃ before old after, c.toList = before ++ ⟨name, old⟩ :: after
        ∧ (∀ f ∈ before, f.name ≠ name)
        ∧ (c.replaceValue name value).1.toList = before ++ ⟨name, value⟩ :: after
        ∧ (c.replaceValue name value).2 = true := by
  unfold replaceValue
  cases found : c.fields.findIdx? (·.name == name) with
  | none =>
    refine .inl ⟨values_eq_nil_iff.mpr ?_, rfl⟩
    rw [hasField, Array.any_eq_false]
    intro i bound same
    have other := Array.findIdx?_eq_none_iff.mp found _ (Array.getElem_mem bound)
    rw [same] at other
    cases other
  | some i =>
    obtain ⟨bound, same, earlier⟩ := Array.findIdx?_eq_some_iff_getElem.mp found
    have inside : i < c.fields.toList.length := bound
    refine .inr ⟨c.fields.toList.take i, c.fields[i].value, c.fields.toList.drop (i + 1), ?_, ?_, ?_,
      rfl⟩
    · have whole := List.take_append_drop i c.fields.toList
      rw [List.drop_eq_getElem_cons inside, Array.getElem_toList] at whole
      rw [← beq_iff_eq.mp same]
      exact whole.symm
    · intro f member under
      obtain ⟨j, short, rfl⟩ := List.getElem_of_mem member
      rw [List.getElem_take, Array.getElem_toList] at under
      rw [List.length_take, Nat.lt_min] at short
      exact earlier j short.1 (beq_iff_eq.mpr under)
    · change (c.fields.set! i ⟨name, value⟩).toList = _
      rw [Array.set!_eq_setIfInBounds, Array.toList_setIfInBounds,
        List.set_eq_take_append_cons_drop, if_pos inside]

/-- Another value under one name leaves the values under the others as they are. -/
theorem values_replaceValue {replaced : String} (other : replaced ≠ name) :
    (c.replaceValue replaced value).1.values name = c.values name := by
  obtain ⟨-, same⟩ | ⟨before, old, after, stored, -, left, -⟩ := c.replaceValue_cases replaced value
  · rw [same]
  · simp [values, left, stored, Field.valuesOf, other]

theorem values_replaceValue_self :
    (c.replaceValue name value).1.values name = (c.values name).modifyHead fun _ => value := by
  obtain ⟨absent, same⟩ | ⟨before, old, after, stored, earlier, left, -⟩ :=
    c.replaceValue_cases name value
  · rw [same, absent]
    rfl
  · have none := Field.valuesOf_eq_nil_iff.mpr earlier
    rw [values, values, left, stored, Field.valuesOf_append, Field.valuesOf_append, none]
    simp [Field.valuesOf]

theorem replaceValue_eq_true_iff : (c.replaceValue name value).2 = true ↔ c.values name ≠ [] := by
  obtain ⟨absent, same⟩ | ⟨before, old, after, stored, -, -, replaced⟩ := c.replaceValue_cases name value
  · simp [same, absent]
  · simp [replaced, values, stored, Field.valuesOf]

theorem values_extend_repeated (c : Collector) (fields : List Field) :
    (c.extend fields true).values name
      = c.values name ++ (Field.valuesOf name fields).flatMap givenParts := by
  induction fields generalizing c with
  | nil => simp [extend, Field.valuesOf]
  | cons f fields ih =>
    change ((c.put f.name f.value true).extend fields true).values name = _
    rw [ih]
    by_cases under : f.name = name
    · subst under
      simp [values_put_repeated, Field.valuesOf]
    · simp [values_put c under, Field.valuesOf, under]

theorem values_extend_of_ne (c : Collector) {fields : List Field}
    (other : ∀ f ∈ fields, f.name ≠ name) : (c.extend fields repeats).values name = c.values name :=
  extend_induction (P := fun c' => c'.values name = c.values name) rfl
    fun c' f member same => (values_put c' (other f member)).trans same

/-- The keys know exactly these values under a name, and the fields have them. -/
structure Holds (name : String) (w : List String) (c : Collector) : Prop where
  values : c.values name = w
  keys : ∀ v, c.keys.contains ⟨name, v⟩ = true ↔ v ∈ w

theorem Holds.addPart_of_mem (holds : c.Holds name w) {part : String}
    (known : part = "" ∨ part ∈ w) : (c.addPart false ⟨name, part⟩).1.Holds name w := by
  have same : (c.addPart false ⟨name, part⟩).1 = c := by
    rcases known with empty | known
    · simp [addPart, empty]
    · simp [addPart, (holds.keys part).mpr known]
  rw [same]
  exact holds

theorem Holds.addPart_of_not_mem (holds : c.Holds name w) {part : String} (given : part ≠ "")
    (fresh : part ∉ w) : (c.addPart false ⟨name, part⟩).1.Holds name (w ++ [part]) := by
  have unknown : c.keys.contains ⟨name, part⟩ = false :=
    Bool.eq_false_iff.mpr fun known => fresh ((holds.keys part).mp known)
  have written : (c.addPart false ⟨name, part⟩).1
      = { c with fields := c.fields.push ⟨name, part⟩, keys := c.keys.insert ⟨name, part⟩ } := by
    simp [addPart, unknown, given]
  rw [written]
  constructor
  · have before := holds.values
    simp only [Collector.values, Field.valuesOf, toList] at before ⊢
    simp [before]
  · intro v
    rw [Std.TreeSet.contains_insert, Bool.or_eq_true, holds.keys v, beq_iff_eq,
      Std.LawfulEqOrd.compare_eq_iff_eq, List.mem_append, List.mem_singleton]
    constructor
    · rintro (same | known)
      · exact .inr (Field.mk.inj same).2.symm
      · exact .inl known
    · rintro (known | rfl)
      · exact .inr known
      · exact .inl rfl

theorem Holds.put (holds : c.Holds name w) (value : String) :
    (c.put name value).Holds name (w ++ ((givenParts value).removeAll w).eraseDups) := by
  rw [put_eq_foldl, partsOf, givenParts]
  generalize Text.splitAtLiteral splitMark value = parts
  induction parts generalizing c w with
  | nil => simpa [List.removeAll] using holds
  | cons part parts ih =>
    rw [List.map_cons, List.foldl_cons]
    by_cases empty : part = ""
    · simpa [empty] using ih (holds.addPart_of_mem (.inl empty))
    · by_cases known : part ∈ w
      · simpa [empty, List.removeAll, known] using ih (holds.addPart_of_mem (.inr known))
      · have later := ih (holds.addPart_of_not_mem empty known)
        simpa [empty, List.removeAll, known, List.eraseDups_cons, List.filter_filter,
          beq_eq_decide, Bool.and_assoc, Bool.and_comm, Bool.and_left_comm] using later

theorem KeysStored.holds_nil (stored : c.KeysStored) (absent : c.values name = []) :
    c.Holds name [] := by
  constructor
  · exact absent
  · intro v
    constructor
    · intro known
      have member : v ∈ c.values name := mem_values.mpr (stored _ known)
      rwa [absent] at member
    · exact nofun

/-- What is written under a new name are the different parts of the value. -/
theorem KeysStored.values_put (stored : c.KeysStored) (absent : c.values name = [])
    (value : String) : (c.put name value).values name = newParts value := by
  have holds := (stored.holds_nil absent).put value
  simpa [List.removeAll, newParts] using holds.values

theorem KeysStored.mem_values_put (stored : c.KeysStored) {v : String} :
    v ∈ (c.put name value).values name ↔ v ∈ c.values name ∨ v ∈ givenParts value := by
  rw [mem_values, stored.mem_put, ← mem_values]
  simp [partsOf, givenParts]

theorem KeysStored.put (stored : c.KeysStored) (name value : String) (repeats : Bool) :
    (c.put name value repeats).KeysStored :=
  put_induction stored fun _ f _ stored => keysStored_addPart stored f

/-- The key of the value that is given up goes with it, so that the other keys are still stored. -/
theorem KeysStored.replaceValue (stored : c.KeysStored) (name value : String) :
    (c.replaceValue name value).1.KeysStored := by
  unfold Collector.replaceValue
  cases found : c.fields.findIdx? (·.name == name) with
  | none => exact stored
  | some i =>
    obtain ⟨bound, -, -⟩ := Array.findIdx?_eq_some_iff_getElem.mp found
    intro g known
    simp only [Array.getElem?_eq_getElem bound] at known
    rw [Std.TreeSet.contains_insert, Bool.or_eq_true, beq_iff_eq,
      Std.LawfulEqOrd.compare_eq_iff_eq, Std.TreeSet.contains_erase, Bool.and_eq_true] at known
    change g ∈ (c.fields.set! i ⟨name, value⟩).toList
    rw [Array.set!_eq_setIfInBounds, Array.toList_setIfInBounds]
    rcases known with rfl | ⟨other, known⟩
    · exact List.mem_set bound _
    · have member : g ∈ c.fields.toList := stored g known
      obtain ⟨j, inside, same⟩ := List.getElem_of_mem member
      have elsewhere : i ≠ j := by
        rintro rfl
        simp [← same] at other
      apply List.mem_iff_getElem?.mpr
      exact ⟨j, by rw [List.getElem?_set_ne elsewhere, List.getElem?_eq_getElem inside, same]⟩

/-- The records that the operations build. -/
inductive Reached : Collector → Prop where
  | ofDefault (text : String) : Reached (.ofDefault text)
  | put {c : Collector} (name value : String) (repeats : Bool) :
      Reached c → Reached (c.put name value repeats)
  | replaceValue {c : Collector} (name value : String) :
      Reached c → Reached (c.replaceValue name value).1
  | addDefault {c : Collector} (value : String) : Reached c → Reached (c.addDefault value)
  | note {c : Collector} (centuries : List Int) : Reached c → Reached { c with centuries }

theorem Reached.keysStored (reached : c.Reached) : c.KeysStored := by
  induction reached with
  | ofDefault text => exact fun f known => absurd known (by simp [Collector.ofDefault])
  | put name value repeats _ ih => exact ih.put name value repeats
  | replaceValue name value _ ih => exact ih.replaceValue name value
  | addDefault _ _ ih => exact ih
  | note _ _ ih => exact ih

theorem values_ne_nil_of_written (absent : c.values name = []) :
    (c.add name value repeats).2 = true ↔ (c.put name value repeats).values name ≠ [] := by
  unfold put add addParts partsOf
  -- Over the parts: one has been written exactly when something stands under the name.
  suffices ∀ (parts : List String) (state : Collector × Bool),
      (state.2 = true ↔ state.1.values name ≠ []) →
        let last := (parts.map fun part => (⟨name, part⟩ : Field)).foldl (fun state f =>
          ((state.1.addPart repeats f).1, state.2 || (state.1.addPart repeats f).2)) state
        (last.2 = true ↔ last.1.values name ≠ []) from this _ (c, false) (by simp [absent])
  intro parts
  induction parts with
  | nil => exact fun _ start => start
  | cons part parts ih =>
    rintro ⟨c, written⟩ start
    apply ih
    by_cases dropped : (part.isEmpty || (c.keys.contains ⟨name, part⟩ && !repeats)) = true
    · simpa [addPart, dropped] using start
    · simp [addPart, dropped, values, Field.valuesOf, toList]

theorem Reached.extend (reached : c.Reached) (fields : List Field) (repeats : Bool) :
    (c.extend fields repeats).Reached :=
  extend_induction reached fun _ f _ reached => reached.put f.name f.value repeats

theorem Reached.putFirst (reached : c.Reached) (f : Field) : (c.putFirst f).1.Reached := by
  unfold Collector.putFirst
  split
  · exact reached
  · exact reached.put f.name f.value false

theorem KeysStored.values_putFirst (stored : c.KeysStored) (f : Field) :
    (c.putFirst f).1.values name
      = if c.values name = [] ∧ f.name = name then newParts f.value else c.values name := by
  unfold Collector.putFirst
  by_cases under : f.name = name
  · subst under
    by_cases absent : c.values f.name = []
    · simp [values_eq_nil_iff.mp absent, absent, stored.values_put absent]
    · have there : c.hasField f.name = true := by simpa [values_eq_nil_iff] using absent
      simp [there, absent]
  · have apart : ¬(c.values name = [] ∧ f.name = name) := fun both => under both.2
    rw [if_neg apart]
    cases c.hasField f.name with
    | true => rfl
    | false => exact Collector.values_put c under

theorem KeysStored.putFirst_eq_some_iff (stored : c.KeysStored) {f g : Field} :
    (c.putFirst f).2 = some g ↔ g = f ∧ c.values f.name = [] ∧ newParts f.value ≠ [] := by
  unfold Collector.putFirst
  by_cases absent : c.values f.name = []
  · have written : (c.add f.name f.value).2 = true ↔ newParts f.value ≠ [] := by
      rw [values_ne_nil_of_written absent, stored.values_put absent]
    simp only [values_eq_nil_iff.mp absent, Bool.false_eq_true, if_false, absent, true_and]
    by_cases given : newParts f.value = []
    · simp [written, given]
    · simp [written, given, eq_comm]
  · have there : c.hasField f.name = true := by simpa [values_eq_nil_iff] using absent
    simp [there, absent]

end Collector

/-- A field or the sort field of a value, to be written to a record. -/
inductive FieldWrite where
  | field (name value : String) (repeats : Bool)
  | sort (name value mark : String) (nonSort : List NonSort) (normalizers : List Normalizer)

namespace FieldWrite

open Collector

variable {c : Collector} {w : FieldWrite} {writes : List FieldWrite} {f : Field} {name : String}

/-- The record after a write, and the sort field that is given back. A write that ends with a fault
leaves the record as it is. -/
def run (c : Collector) : FieldWrite → Collector × Option Field
  | field name value repeats => (c.put name value repeats, none)
  | sort name value mark nonSort normalizers =>
    match c.addSortField name value mark nonSort normalizers with
    | .ok written => written
    | .error _ => (c, none)

def runAll (c : Collector) (writes : List FieldWrite) : Collector :=
  writes.foldl (fun c w => (w.run c).1) c

/-- The write is not that of a field under a name. -/
def Spares (name : String) : FieldWrite → Prop
  | field other _ _ => other ≠ name
  | sort .. => True

/-- The sort field that a write has for a record without one. -/
def sortField? : FieldWrite → Option Field
  | field .. => none
  | sort name value mark nonSort normalizers =>
    match sortValue nonSort normalizers value with
    | .ok key => some ⟨sortFieldName name mark, key⟩
    | .error _ => none

/-- The parts of the key that a write has for a name. -/
def partsFor (name : String) (w : FieldWrite) : List String :=
  match w.sortField? with
  | some f => if f.name = name then newParts f.value else []
  | none => []

/-- The parts of the first key that has any. -/
def firstParts (name : String) (writes : List FieldWrite) : List String :=
  ((writes.map (partsFor name)).find? (· ≠ [])).getD []

/-- A fault of the key changes nothing, like a sort field that is there. -/
theorem run_of_sort (c : Collector) (name value mark : String) (nonSort : List NonSort)
    (normalizers : List Normalizer) :
    (sort name value mark nonSort normalizers).run c
      = match (sort name value mark nonSort normalizers).sortField? with
        | some f => c.putFirst f
        | none => (c, none) := by
  simp only [run, sortField?, addSortField_eq]
  cases there : c.hasField (sortFieldName name mark) with
  | true => cases sortValue nonSort normalizers value <;> simp [putFirst, there]
  | false => cases sortValue nonSort normalizers value <;> rfl

theorem reached_run (reached : c.Reached) (w : FieldWrite) : (w.run c).1.Reached := by
  cases w with
  | field name value repeats => exact reached.put name value repeats
  | sort name value mark nonSort normalizers =>
    rw [run_of_sort]
    cases (sort name value mark nonSort normalizers).sortField? with
    | none => exact reached
    | some f => exact reached.putFirst f

/-- The first sort field of a name stays: a write leaves what is under it, or puts its parts there. -/
theorem values_run (stored : c.KeysStored) (spares : w.Spares name) :
    (w.run c).1.values name = if c.values name = [] then w.partsFor name else c.values name := by
  cases w with
  | field other value repeats =>
    have kept : ((field other value repeats).run c).1.values name = c.values name :=
      Collector.values_put c spares
    rw [kept]
    by_cases absent : c.values name = []
    · simp [absent, partsFor, sortField?]
    · simp [absent]
  | sort base value mark nonSort normalizers =>
    rw [run_of_sort, partsFor]
    cases (sort base value mark nonSort normalizers).sortField? with
    | none => simp
    | some f =>
      dsimp only
      rw [stored.values_putFirst f]
      by_cases absent : c.values name = []
      · simp [absent]
      · simp [absent]

theorem reached_runAll (reached : c.Reached) (writes : List FieldWrite) :
    (runAll c writes).Reached := by
  induction writes generalizing c with
  | nil => exact reached
  | cons w writes ih => exact ih (reached_run reached w)

theorem firstParts_cons (name : String) (w : FieldWrite) (writes : List FieldWrite) :
    firstParts name (w :: writes)
      = if w.partsFor name = [] then firstParts name writes else w.partsFor name := by
  by_cases none : w.partsFor name = []
  · simp [firstParts, none]
  · simp [firstParts, none]

theorem firstParts_append (name : String) (writes more : List FieldWrite) :
    firstParts name (writes ++ more)
      = if firstParts name writes = [] then firstParts name more else firstParts name writes := by
  induction writes with
  | nil => rfl
  | cons w writes ih =>
    rw [List.cons_append, firstParts_cons, firstParts_cons]
    split
    case isTrue => exact ih
    case isFalse => rfl

theorem values_runAll (reached : c.Reached) (spared : ∀ w ∈ writes, w.Spares name) :
    (runAll c writes).values name
      = if c.values name = [] then firstParts name writes else c.values name := by
  induction writes generalizing c with
  | nil => simp [runAll, firstParts]
  | cons w writes ih =>
    obtain ⟨first, rest⟩ := List.forall_mem_cons.mp spared
    have step := values_run reached.keysStored first
    have later := ih (reached_run reached w) rest
    change (runAll (w.run c).1 writes).values name = _
    rw [later, step]
    by_cases absent : c.values name = []
    · simp [absent, firstParts_cons]
    · simp [absent]

/-- A sort field is given back when it is the first of its name and has a part. -/
theorem run_eq_some_iff (stored : c.KeysStored) :
    (w.run c).2 = some f
      ↔ w.sortField? = some f ∧ c.values f.name = [] ∧ newParts f.value ≠ [] := by
  cases w with
  | field name value repeats => simp [run, sortField?]
  | sort name value mark nonSort normalizers =>
    rw [run_of_sort]
    cases (sort name value mark nonSort normalizers).sortField? with
    | none => simp
    | some g =>
      dsimp only
      rw [stored.putFirst_eq_some_iff, Option.some.injEq]
      constructor
      · rintro ⟨rfl, absent, given⟩
        exact ⟨rfl, absent, given⟩
      · rintro ⟨rfl, absent, given⟩
        exact ⟨rfl, absent, given⟩

theorem firstParts_eq_nil (none : ∀ w ∈ writes, w.partsFor name = []) : firstParts name writes = [] := by
  induction writes with
  | nil => rfl
  | cons w writes ih =>
    obtain ⟨first, rest⟩ := List.forall_mem_cons.mp none
    rw [firstParts_cons, if_pos first, ih rest]

theorem exists_of_mem_partsFor {part : String} (member : part ∈ w.partsFor name) :
    ∃ value, part ∈ givenParts value := by
  unfold partsFor at member
  split at member
  case h_1 f _ =>
    split at member
    case isTrue => exact ⟨f.value, mem_newParts.mp member⟩
    case isFalse => cases member
  case h_2 => cases member

theorem exists_of_mem_firstParts {part : String} (member : part ∈ firstParts name writes) :
    ∃ value, part ∈ givenParts value := by
  induction writes with
  | nil => cases member
  | cons w writes ih =>
    rw [firstParts_cons] at member
    split at member
    · exact ih member
    · exact exists_of_mem_partsFor member

theorem partsFor_of_ne {base value mark : String} {nonSort : List NonSort}
    {normalizers : List Normalizer} (other : sortFieldName base mark ≠ name) :
    (sort base value mark nonSort normalizers).partsFor name = [] := by
  simp only [partsFor, sortField?]
  cases sortValue nonSort normalizers value with
  | error fault => rfl
  | ok key => exact if_neg other

theorem length_firstParts_le
    (whole : ∀ w ∈ writes, ∀ f, w.sortField? = some f → f.name = name →
      Text.containsLiteral f.value splitMark = false) : (firstParts name writes).length ≤ 1 := by
  induction writes with
  | nil => exact Nat.zero_le 1
  | cons w writes ih =>
    obtain ⟨first, rest⟩ := List.forall_mem_cons.mp whole
    rw [firstParts_cons]
    split
    · exact ih rest
    · unfold partsFor
      split
      case h_1 f made =>
        split
        case isTrue under => exact length_newParts_le_of_whole (first f made under)
        case isFalse => exact Nat.zero_le 1
      case h_2 => exact Nat.zero_le 1

/-- Under a name to which only sort fields are written stand the fields that were there, or the parts of
the first key that has any: one at most, unless a key is split. The sort field that is given back is the
first of its name; its parts stay under the name, and it is itself there exactly when it is not split. -/
theorem sortFields_of_runAll (reached : c.Reached) (writes : List FieldWrite) :
    (∀ name, (∀ w ∈ writes, w.Spares name) →
        (runAll c writes).values name
            = (if c.values name = [] then firstParts name writes else c.values name)
          ∧ ((c.values name).length ≤ 1 →
              (∀ w ∈ writes, ∀ f, w.sortField? = some f → f.name = name →
                Text.containsLiteral f.value splitMark = false) →
              ((runAll c writes).values name).length ≤ 1))
      ∧ ∀ before w after, writes = before ++ w :: after → ∀ f,
          ((w.run (runAll c before)).2 = some f
              ↔ w.sortField? = some f ∧ (runAll c before).values f.name = []
                ∧ newParts f.value ≠ [])
            ∧ ((w.run (runAll c before)).2 = some f → (∀ later ∈ after, later.Spares f.name) →
                (runAll c writes).values f.name = newParts f.value
                  ∧ ((runAll c writes).values f.name = [f.value]
                      ↔ Text.containsLiteral f.value splitMark = false)) := by
  constructor
  · intro name spared
    have left := values_runAll reached spared
    refine ⟨left, fun single whole => ?_⟩
    rw [left]
    split
    · exact length_firstParts_le whole
    · exact single
  · rintro before w after rfl f
    have reachedBefore := reached_runAll reached before
    have given := run_eq_some_iff (w := w) (f := f) reachedBefore.keysStored
    refine ⟨given, fun back later => ?_⟩
    obtain ⟨made, absent, parts⟩ := given.mp back
    have spares : w.Spares f.name := by
      cases w with
      | field => cases made
      | sort => trivial
    have written : (w.run (runAll c before)).1.values f.name = newParts f.value := by
      rw [values_run reachedBefore.keysStored spares, if_pos absent]
      simp [partsFor, made]
    have kept := values_runAll (reached_run reachedBefore w) later
    rw [written, if_neg parts] at kept
    have all : runAll c (before ++ w :: after) = runAll (w.run (runAll c before)).1 after := by
      simp [runAll]
    rw [all, kept]
    exact ⟨rfl, newParts_eq_singleton_iff parts⟩

def titles : List FieldWrite :=
  [field "MD_T" "x" false, sort "MD_T" ("a" ++ splitMark ++ "b" ++ splitMark ++ "a") "SORT_" [] [],
    sort "T" "c" "SORT_" [] []]

/-- Two fields of the first title are sort fields, and the second title has none. -/
theorem sortFields_of_titles :
    (∀ w ∈ titles, w.Spares "SORT_T")
      ∧ (runAll (.ofDefault "") titles).values "SORT_T" = ["a", "b"] := by
  have spared : ∀ w ∈ titles, w.Spares "SORT_T" := by
    intro w member
    simp only [titles, List.mem_cons, List.not_mem_nil, or_false] at member
    rcases member with rfl | rfl | rfl
    · show "MD_T" ≠ "SORT_T"
      decide
    · trivial
    · trivial
  obtain ⟨left, -⟩ := (sortFields_of_runAll (.ofDefault "") titles).1 "SORT_T" spared
  have absent : (Collector.ofDefault "").values "SORT_T" = [] := rfl
  have first : firstParts "SORT_T" titles = ["a", "b"] := by decide +kernel
  rw [if_pos absent, first] at left
  exact ⟨spared, left⟩

/-- A key that is split gives a name two sort fields, and neither is the one that is given back. -/
theorem two_sortFields_of_splitKey :
    let title := sort "MD_T" ("a" ++ splitMark ++ "b") "SORT_" [] []
    let written := title.run (.ofDefault "")
    written.1.values "SORT_T" = ["a", "b"]
      ∧ ∃ f, written.2 = some f ∧ f.name = "SORT_T" ∧ f ∉ written.1.toList := by
  refine ⟨by decide +kernel, ⟨"SORT_T", "a" ++ splitMark ++ "b"⟩, ?_, rfl, ?_⟩
  · decide +kernel
  · decide +kernel

end FieldWrite

end MetadataIndex
