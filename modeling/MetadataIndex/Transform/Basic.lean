import MetadataIndex.Group.Builder
import MetadataIndex.Structure.Scope
import MetadataIndex.Transform.Match
import MetadataIndex.Transform.Writing

/-!
# Transforming an element

The rules of a rule set are applied in order to an element; each adds fields, text and grouped
records. At the end the gaps between centuries are filled, and a last field says whether there are
coordinates for spatial search.
-/

set_option autoImplicit false

namespace MetadataIndex

open MetadataIndex.Xml (Cursor)

/-- What rules are applied to. -/
structure TransformInput where
  element : Option Cursor := none
  context : Option ElementContext := none
  /-- What is put before expressions; it is needed once an expression is used. -/
  leading : Checked String := .ok ""
  default : String := ""

/-- What rules give. -/
structure TransformResult where
  fields : List Field
  defaultText : String
  groups : GroupArena

namespace TransformResult

def values (r : TransformResult) (name : String) : List String :=
  Field.valuesOf name r.fields

end TransformResult

/-- What has been written so far, and the outer world. -/
structure TransformState (ω τ : Type) where
  collector : Collector := {}
  groups : GroupArena := {}
  /-- The outer world and the authority records that are kept. -/
  outside : AuthorityState ω τ

/-- Rules, and how grouped records are built. -/
structure Transformer (ω τ : Type) where
  rules : RuleSet
  builder : GroupBuilder ω τ := {}

namespace TransformState

variable {ω τ : Type}

/-- An action on the owning record and the outer world. -/
def onBuild {α : Type} (action : Action (BuildState ω τ) α) : Action (TransformState ω τ) α :=
  action.onPart (fun s => ⟨s.collector, s.outside⟩)
    (fun s b => { s with collector := b.collector, outside := b.outside })

def change (f : Collector → Checked Collector) : Action (TransformState ω τ) Unit := do
  let collector ← f (← get).collector
  modify fun s => { s with collector }

/-- Stores the records of a group, and copies their authority fields to the owning record. -/
def attach (group : GroupArena) (s : TransformState ω τ) : TransformState ω τ :=
  { s with
    groups := s.groups.merge group
    collector := group.toList.foldl (fun c r => r.promote c) s.collector }

end TransformState

namespace Transformer

variable {ω τ : Type}

/-- Builds the group of a match; gives its main value, or the mark of restricted access in its
place. A group whose content is there already is not stored again. -/
def buildGroup (t : Transformer ω τ) (r : FieldRule) (e : GroupEntity) (i : XPath.Item) :
    Action (TransformState ω τ) (Option String) := do
  match i.place? with
  | none => return none
  | some element =>
    let group ← TransformState.onBuild (t.builder.build r e element r.field i.isRestricted)
    let root ← group.get 0
    if r.allowDuplicates || !(← get).groups.containsEqual root then
      modify (TransformState.attach group)
    return root.mainValue.map fun value =>
      if i.isRestricted then FieldName.accessRestricted else value

/-- Adds the raw value of a match to those before it. -/
def addMatch (t : Transformer ω τ) (r : FieldRule) (s : XPathSource) (values : List String)
    (i : XPath.Item) : Action (TransformState ω τ) (List String) := do
  match r.group with
  | some e =>
    let main ← t.buildGroup r e i
    return values ++ main.toList.map (FieldRule.groupValue s)
  | none =>
    match ← r.valueOf s i with
    | some value => return r.addValue values value
    | none => return values

/-- Adds the raw values that an expression gives in elements. -/
def addSource (t : Transformer ω τ) (r : FieldRule) (input : TransformInput)
    (elements : List Cursor) (values : List String) (s : XPathSource) :
    Action (TransformState ω τ) (List String) := do
  if s.xpath.isEmpty then return values
  let query := XPath.buildQuery s.xpath (← input.leading) r.isGrouped
  elements.foldlM
    (fun values element => do
      let found ← t.builder.evaluator.evaluate query element
      found.foldlM (t.addMatch r s) values)
    values

def rawValues (t : Transformer ω τ) (r : FieldRule) (input : TransformInput) :
    Action (TransformState ω τ) (List String) := do
  let elements ← expandScope r input.element input.context
  r.sources.foldlM (t.addSource r input elements) []

def applyRule (t : Transformer ω τ) (input : TransformInput) (r : FieldRule) :
    Action (TransformState ω τ) Unit := do
  match r.constant with
  | some constant => TransformState.change (r.writeConstant constant)
  | none =>
    let values ← t.rawValues r input
    TransformState.change (r.writeAll values)
    TransformState.change r.interpolate

def applyRules (t : Transformer ω τ) (input : TransformInput) :
    Action (TransformState ω τ) Unit :=
  (t.rules.fields.flatMap (·.2)).forM (t.applyRule input)

/-- Fills the gaps between centuries, and says whether there are coordinates for spatial search
unless a rule has said so. -/
def wrapUp (c : Collector) : Checked Collector := do
  let c := c.extend (← completeCenturies c.toList)
  return if c.hasField FieldName.hasWktCoords then c
    else c.put FieldName.hasWktCoords
      (AuthorityFields.truthText (c.hasField FieldName.wktCoords))

/-- The fields, the free text and the grouped records that the rules give for an element. -/
def transform (t : Transformer ω τ) (input : TransformInput) :
    Action (AuthorityState ω τ) TransformResult := fun outside =>
  let action : Action (TransformState ω τ) TransformResult := do
    t.applyRules input
    TransformState.change wrapUp
    let s ← get
    return ⟨s.collector.toList, s.collector.default.buffer, s.groups⟩
  match action { collector := .ofDefault input.default, outside } with
  | .ok result s => .ok result s.outside
  | .error fault s => .error fault s.outside

end Transformer

end MetadataIndex
