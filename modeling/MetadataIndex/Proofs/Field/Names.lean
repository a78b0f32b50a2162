import MetadataIndex.Field.SortKey
import MetadataIndex.Proofs.Effect.Comparison

/-!
# Names of collected fields

Writing adds fields at the end and only under the name that is written; giving a field another value
keeps its name. A collector to which fields were only added knows its fields by their keys.
-/

set_option autoImplicit false

namespace MetadataIndex.Collector

variable {c : Collector} {N : String → Prop} {name value : String} {repeats : Bool}

@[simp] theorem toList_empty : ({} : Collector).toList = [] := rfl

theorem mem_toList_push {fields : Array Field} {f g : Field} :
    g ∈ (fields.push f).toList ↔ g ∈ fields.toList ∨ g = f := by
  simp

/-- Writing a part leaves the fields as they are, or puts the part at their end. -/
theorem toList_addPart (repeats : Bool) (c : Collector) (f : Field) :
    (c.addPart repeats f).1.toList = c.toList ∨ (c.addPart repeats f).1.toList = c.toList ++ [f] := by
  unfold addPart
  split
  · exact .inl rfl
  · right
    simp [toList]

theorem fst_addParts (repeats : Bool) (c : Collector) (parts : List Field) :
    (c.addParts repeats parts).1 = parts.foldl (fun c f => (c.addPart repeats f).1) c := by
  suffices ∀ written, (parts.foldl (fun (state : Collector × Bool) f =>
      ((state.1.addPart repeats f).1, state.2 || (state.1.addPart repeats f).2)) (c, written)).1
        = parts.foldl (fun c f => (c.addPart repeats f).1) c from this false
  induction parts generalizing c with
  | nil => exact fun _ => rfl
  | cons f parts ih => exact fun written => ih _ _

theorem put_eq_foldl (c : Collector) (name value : String) (repeats : Bool) :
    c.put name value repeats
      = (partsOf name value).foldl (fun c f => (c.addPart repeats f).1) c :=
  fst_addParts repeats c (partsOf name value)

theorem name_of_mem_partsOf {f : Field} (part : f ∈ partsOf name value) : f.name = name := by
  obtain ⟨text, _, rfl⟩ := List.mem_map.mp part
  rfl

/-- What every part keeps is kept when a value is written. -/
theorem put_induction_of_mem {P : Collector → Prop} (start : P c)
    (step : ∀ c, ∀ f ∈ partsOf name value, P c → P (c.addPart repeats f).1) :
    P (c.put name value repeats) := by
  rw [put_eq_foldl]
  generalize partsOf name value = fields at step
  induction fields generalizing c with
  | nil => exact start
  | cons f fields ih =>
    exact ih (step c f (.head _) start) fun c g later => step c g (.tail _ later)

theorem put_induction {P : Collector → Prop} (start : P c)
    (step : ∀ c f, f.name = name → P c → P (c.addPart repeats f).1) :
    P (c.put name value repeats) :=
  put_induction_of_mem start fun c f part => step c f (name_of_mem_partsOf part)

theorem extend_induction {P : Collector → Prop} {fields : List Field} (start : P c)
    (step : ∀ c, ∀ f ∈ fields, P c → P (c.put f.name f.value repeats)) :
    P (c.extend fields repeats) := by
  unfold extend
  induction fields generalizing c with
  | nil => exact start
  | cons f fields ih =>
    exact ih (step c f (.head _) start) fun c g later => step c g (.tail _ later)

theorem extend_append (c : Collector) (fields more : List Field) :
    c.extend (fields ++ more) repeats = (c.extend fields repeats).extend more repeats :=
  List.foldl_append

def AllNames (N : String → Prop) (c : Collector) : Prop :=
  ∀ f ∈ c.toList, N f.name

theorem allNames_empty : ({} : Collector).AllNames N := by
  intro f member
  cases member

theorem AllNames.addPart (named : c.AllNames N) {f : Field} (holds : N f.name) :
    (c.addPart repeats f).1.AllNames N := by
  intro g member
  cases toList_addPart repeats c f with
  | inl same =>
    rw [same] at member
    exact named g member
  | inr grown =>
    rw [grown, List.mem_append, List.mem_singleton] at member
    obtain old | rfl := member
    · exact named g old
    · exact holds

theorem AllNames.put (named : c.AllNames N) (holds : N name) :
    (c.put name value repeats).AllNames N :=
  put_induction named fun _ _ same named => named.addPart (same ▸ holds)

theorem AllNames.extend {fields : List Field} (named : c.AllNames N)
    (holds : ∀ f ∈ fields, N f.name) : (c.extend fields repeats).AllNames N :=
  extend_induction named fun _ f member named => named.put (holds f member)

/-- Another value under a name leaves the names as they are. -/
theorem AllNames.replaceValue (named : c.AllNames N) (name value : String) :
    (c.replaceValue name value).1.AllNames N := by
  unfold Collector.replaceValue
  cases found : c.fields.findIdx? (·.name == name) with
  | none => exact named
  | some i =>
    obtain ⟨bound, same, -⟩ := Array.findIdx?_eq_some_iff_getElem.mp found
    intro f member
    have member : f ∈ (c.fields.set! i ⟨name, value⟩).toList := member
    rw [Array.set!_eq_setIfInBounds, Array.toList_setIfInBounds] at member
    obtain old | rfl := List.mem_or_eq_of_mem_set member
    · exact named f old
    · have replaced : c.fields[i] ∈ c.toList := Array.getElem_mem_toList bound
      have kept : N c.fields[i].name := named _ replaced
      rw [beq_iff_eq.mp same] at kept
      exact kept

/-- A property is stable when it is kept under writing any value to a name of a kind, and under giving
a field another value. -/
structure Stable (N : String → Prop) (P : Collector → Prop) : Prop where
  put : ∀ {c name}, N name → P c → ∀ value repeats, P (c.put name value repeats)
  replaceValue : ∀ {c}, P c → ∀ name value, P (c.replaceValue name value).1

theorem stable_allNames (N : String → Prop) : Stable N (AllNames N) where
  put holds named _ _ := named.put holds
  replaceValue named _ _ := named.replaceValue _ _

theorem stable_ne_nil (N : String → Prop) : Stable N fun c => c.toList ≠ [] where
  put _ given _ repeats := put_induction (P := fun c => c.toList ≠ []) given fun c' f _ given => by
    cases toList_addPart repeats c' f with
    | inl same => rwa [same]
    | inr grown =>
      rw [grown]
      exact List.append_ne_nil_of_right_ne_nil _ (List.cons_ne_nil _ _)
  replaceValue {c} given name value := by
    unfold Collector.replaceValue
    cases c.fields.findIdx? (·.name == name) with
    | none => exact given
    | some i =>
      change (c.fields.set! i ⟨name, value⟩).toList ≠ []
      rw [Array.set!_eq_setIfInBounds, Array.toList_setIfInBounds]
      exact fun none => given ((List.set_eq_nil_iff _ _).mp none)

@[simp] theorem default_addPart (c : Collector) (f : Field) :
    (c.addPart repeats f).1.default = c.default := by
  unfold addPart
  split
  · rfl
  · rfl

@[simp] theorem default_put (c : Collector) (name value : String) :
    (c.put name value repeats).default = c.default :=
  put_induction (P := fun c' => c'.default = c.default) rfl
    fun c' f _ same => (default_addPart c' f).trans same

theorem values_addPart (c : Collector) (f : Field) (other : f.name ≠ name) :
    (c.addPart repeats f).1.values name = c.values name := by
  unfold values Field.valuesOf
  cases toList_addPart repeats c f with
  | inl same => rw [same]
  | inr grown => simp [grown, other]

/-- Writing under one name leaves the values under another as they are. -/
theorem values_put (c : Collector) {written : String} (other : written ≠ name) :
    (c.put written value repeats).values name = c.values name :=
  put_induction (P := fun c' => c'.values name = c.values name) rfl fun c' f under same =>
    (values_addPart c' f (under ▸ other)).trans same

/-- Writes a field unless there is one of its name. -/
def putFirst (c : Collector) (f : Field) : Collector × Option Field :=
  if c.hasField f.name then (c, none)
  else (c.put f.name f.value, if (c.add f.name f.value).2 then some f else none)

/-- A sort field is written as the field of its key, unless there is one of its name. -/
theorem addSortField_eq (c : Collector) (name value mark : String) (nonSort : List NonSort)
    (normalizers : List Normalizer) :
    c.addSortField name value mark nonSort normalizers =
      if c.hasField (sortFieldName name mark) then .ok (c, none)
      else (sortValue nonSort normalizers value).map
        fun key => c.putFirst ⟨sortFieldName name mark, key⟩ := by
  unfold addSortField
  dsimp only
  cases there : c.hasField (sortFieldName name mark) with
  | true => rfl
  | false =>
    cases sortValue nonSort normalizers value with
    | error fault => rfl
    | ok key =>
      simp only [putFirst, there, put, bind, Except.bind, Except.map]
      cases c.add (sortFieldName name mark) key with
      | mk c' now => cases now <;> rfl

/-- A sort field is written as any field is, or not at all. -/
theorem addSortField_ok {mark : String} {nonSort : List NonSort} {normalizers : List Normalizer}
    {written : Collector × Option Field}
    (ran : c.addSortField name value mark nonSort normalizers = .ok written) :
    written.1 = c ∨ ∃ key, written.1 = c.put (sortFieldName name mark) key := by
  rw [addSortField_eq] at ran
  split at ran
  case isTrue =>
    cases ran
    exact .inl rfl
  case isFalse absent =>
    cases made : sortValue nonSort normalizers value with
    | error fault =>
      rw [made] at ran
      cases ran
    | ok key =>
      rw [made] at ran
      cases ran
      exact .inr ⟨key, congrArg Prod.fst (if_neg absent)⟩

theorem AllNames.addSortField {mark : String} {nonSort : List NonSort}
    {normalizers : List Normalizer} {written : Collector × Option Field}
    (named : c.AllNames N) (holds : N (sortFieldName name mark))
    (ran : c.addSortField name value mark nonSort normalizers = .ok written) :
    written.1.AllNames N := by
  obtain same | ⟨key, put⟩ := addSortField_ok ran
  · exact same ▸ named
  · exact put ▸ named.put holds

/-- Exactly the fields of a collector are found among its keys. -/
def Indexed (c : Collector) : Prop :=
  ∀ f, c.keys.contains f = true ↔ f ∈ c.toList

theorem indexed_empty : ({} : Collector).Indexed := by
  intro f
  simp

theorem Indexed.addPart (indexed : c.Indexed) {f : Field} : (c.addPart repeats f).1.Indexed := by
  unfold Collector.addPart
  split
  · exact indexed
  · intro g
    rw [Std.TreeSet.contains_insert, Bool.or_eq_true, indexed g, beq_iff_eq,
      Std.LawfulEqOrd.compare_eq_iff_eq]
    change f = g ∨ g ∈ c.fields.toList ↔ g ∈ (c.fields.push f).toList
    rw [mem_toList_push]
    exact ⟨fun known => known.elim (fun same => .inr same.symm) .inl,
      fun known => known.elim .inr fun same => .inl same.symm⟩

theorem Indexed.put (indexed : c.Indexed) : (c.put name value repeats).Indexed :=
  put_induction indexed fun _ _ _ indexed => indexed.addPart

theorem Indexed.extend (indexed : c.Indexed) {fields : List Field} :
    (c.extend fields repeats).Indexed :=
  extend_induction indexed fun _ _ _ indexed => indexed.put

/-- The keys are those of fields that are there. -/
def KeysStored (c : Collector) : Prop :=
  ∀ f, c.keys.contains f = true → f ∈ c.toList

theorem Indexed.keysStored (indexed : c.Indexed) : c.KeysStored :=
  fun f known => (indexed f).mp known

theorem keysStored_addPart (stored : c.KeysStored) (f : Field) :
    (c.addPart repeats f).1.KeysStored := by
  unfold addPart
  split
  · exact stored
  · intro g known
    rw [Std.TreeSet.contains_insert, Bool.or_eq_true, beq_iff_eq,
      Std.LawfulEqOrd.compare_eq_iff_eq] at known
    apply mem_toList_push.mpr
    rcases known with same | known
    · exact .inr same.symm
    · exact .inl (stored g known)

/-- A part that is not empty is among the fields once it was written. -/
theorem Indexed.mem_addPart (indexed : c.Indexed) {f : Field} (given : f.value.isEmpty = false) :
    f ∈ (c.addPart repeats f).1.toList := by
  unfold Collector.addPart
  split
  case isTrue known =>
    rw [given, Bool.false_or, Bool.and_eq_true] at known
    exact (indexed f).mp known.1
  case isFalse => simp [toList]

end MetadataIndex.Collector
