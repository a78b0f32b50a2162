import MetadataIndex.Transform.Writing

/-!
# The steps of a write

A value that is accepted is written in steps, each of which changes the owning record: it puts a field,
adds text, writes the fields of dates or writes a sort field.
-/

set_option autoImplicit false

namespace MetadataIndex

/-- One step of writing a value. -/
inductive WriteStep where
  | put (name value : String) (repeats : Bool)
  | addDefault (value : String)
  | dates (value : String)
  | sort (mark : String) (f : Field)

def WriteStep.run (r : FieldRule) (c : Collector) : WriteStep → Checked Collector
  | put name value repeats => .ok (c.put name value repeats)
  | addDefault value => .ok (c.addDefault value)
  | dates value => r.writeDates value c
  | sort mark f => r.writeSort mark f c

namespace FieldRule

variable (r : FieldRule)

/-- The value that is written for an accepted one: its coordinates if it has any. -/
def writtenValue (accepted : String) : String :=
  (r.coordinates accepted).geojson.getD accepted

def coordinateSteps (accepted : String) : List WriteStep :=
  if r.addGeoSearchField then
    (r.coordinates accepted).wkt.toList.map (.put FieldName.wktCoords · false)
  else []

/-- What a value asks for once its coordinates are known; the mark of restricted access gives no text
and no copy. -/
def valueSteps (value : String) : List WriteStep :=
  let shared := !(value == FieldName.accessRestricted)
  (if r.addToDefault && shared then [.addDefault value] else [])
    ++ (if r.normalizeYear then [.dates value] else [])
    ++ .put r.field value r.allowDuplicates
      :: (if r.addSortField then [.sort FieldName.sortMark ⟨r.field, value⟩] else [])
    ++ (if r.addUntokenized && shared then
      [.put (FieldName.untokenized r.field) value r.allowDuplicates] else [])

def writeSteps (accepted : String) : List WriteStep :=
  r.coordinateSteps accepted ++ r.valueSteps (r.writtenValue accepted)

end FieldRule

/-- The steps that a rule takes for a value that is written. -/
inductive WriteStep.IsOf (r : FieldRule) (value : String) : WriteStep → Prop where
  | place (wkt : String) : IsOf r value (.put FieldName.wktCoords wkt false)
  | text : IsOf r value (.addDefault value)
  | dates : IsOf r value (.dates value)
  | own : IsOf r value (.put r.field value r.allowDuplicates)
  | sort : IsOf r value (.sort FieldName.sortMark ⟨r.field, value⟩)
  | copy : IsOf r value (.put (FieldName.untokenized r.field) value r.allowDuplicates)

namespace FieldRule

variable {r : FieldRule} {c : Collector} {accepted : String}

theorem isOf_of_mem {step : WriteStep} (member : step ∈ r.writeSteps accepted) :
    step.IsOf r (r.writtenValue accepted) := by
  rw [writeSteps, List.mem_append] at member
  rcases member with coordinate | part
  · unfold coordinateSteps at coordinate
    split at coordinate
    · obtain ⟨wkt, -, rfl⟩ := List.mem_map.mp coordinate
      exact .place wkt
    · cases coordinate
  · have asked : ∀ {asked : Bool} {one : WriteStep}, step ∈ (if asked then [one] else []) → step = one := by
      intro asked one member
      split at member
      · exact List.mem_singleton.mp member
      · cases member
    simp only [valueSteps, List.mem_append, List.mem_cons] at part
    rcases part with (((text | dates) | own | sort) | copy)
    · exact asked text ▸ .text
    · exact asked dates ▸ .dates
    · exact own ▸ .own
    · exact asked sort ▸ .sort
    · exact asked copy ▸ .copy

theorem own_mem_writeSteps (r : FieldRule) (accepted : String) :
    .put r.field (r.writtenValue accepted) r.allowDuplicates ∈ r.writeSteps accepted := by
  simp [writeSteps, valueSteps]

theorem coordinateSteps_run :
    (r.coordinateSteps accepted).foldlM (WriteStep.run r) c
      = .ok (r.writeCoordinates (r.coordinates accepted) c) := by
  unfold coordinateSteps writeCoordinates
  cases (r.coordinates accepted).wkt with
  | none => cases r.addGeoSearchField <;> rfl
  | some wkt => cases r.addGeoSearchField <;> rfl

theorem foldlM_ite (asked : Bool) (step : WriteStep) :
    (if asked then [step] else []).foldlM (WriteStep.run r) c
      = if asked then step.run r c else .ok c := by
  cases asked with
  | true => exact bind_pure (step.run r c)
  | false => rfl

/-- Writing an accepted value takes its steps in order. -/
theorem writeAccepted_eq :
    r.writeAccepted accepted c = (r.writeSteps accepted).foldlM (WriteStep.run r) c := by
  rw [writeSteps, List.foldlM_append, coordinateSteps_run, valueSteps]
  simp only [List.foldlM_append, List.foldlM_cons, foldlM_ite, bind_assoc]
  -- Where a step is no test, it is taken or left out by choosing between two states.
  simp only [WriteStep.run, ← apply_ite Except.ok]
  unfold writeAccepted writtenValue
  dsimp only
  generalize (r.coordinates accepted).geojson.getD accepted = value
  generalize r.writeCoordinates (r.coordinates accepted) c = c
  cases r.normalizeYear with
  | true =>
    cases r.addSortField with
    | true => rfl
    | false => rfl
  | false =>
    cases r.addSortField with
    | true => rfl
    | false => rfl

end FieldRule

end MetadataIndex
