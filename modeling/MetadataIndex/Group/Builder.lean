import MetadataIndex.Authority.Resolver
import MetadataIndex.Citation.Address
import MetadataIndex.Group.Arena
import MetadataIndex.Group.Finish

/-!
# Building grouped records

The record of an element and the records nested in it are built level by level: all records of a
depth before those below them. Records below the greatest depth are left out.
-/

set_option autoImplicit false

namespace MetadataIndex

open MetadataIndex.Xml (Cursor)

/-- How grouped records are built. -/
structure GroupBuilder (ω τ : Type) where
  evaluator : XPath.Evaluator := {}
  /-- Where authority records come from; without it there are none. -/
  authority : Option (AuthorityService ω τ) := none
  /-- Fetches the document of a citation; without it there are none. -/
  citations : Option (String → Action ω (Option Cursor)) := none
  maxDepth : Nat := 8

/-- The owning record and the outer world. -/
structure BuildState (ω τ : Type) where
  collector : Collector := {}
  /-- The outer world and the authority records that are kept. -/
  outside : AuthorityState ω τ

/-- An element to build a record for. -/
structure GroupTask where
  element : Cursor
  entity : GroupEntity
  label : String
  parent : Option Int := none

namespace BuildState

variable {ω τ : Type}

def onCollector {α : Type} (action : Action Collector α) : Action (BuildState ω τ) α :=
  action.onPart (·.collector) (fun s collector => { s with collector })

def onWorld {α : Type} (action : Action ω α) : Action (BuildState ω τ) α :=
  (AuthorityState.onWorld action).onPart (·.outside) (fun s outside => { s with outside })

end BuildState

namespace GroupBuilder

variable {ω τ : Type}

def reader (b : GroupBuilder ω τ) : GroupReader :=
  { evaluator := b.evaluator, resolves := b.authority.isSome }

/-- The root of the document of a citation whose address the draft fills. -/
def citationRoot (b : GroupBuilder ω τ) (e : GroupEntity) (d : Draft) :
    Action ω (Option Cursor) := do
  match e.kind, e.url, b.citations with
  | .citation, some url, some fetch =>
    match Citation.addressOf d.valuesOf (← url.asText) with
    | .ok address => fetch address
    | .error _ => return none
  | _, _, _ => return none

def draft (b : GroupBuilder ω τ) (rule : FieldRule) (t : GroupTask) : Action ω Draft := do
  let d ← Draft.ofElement b.reader rule t.entity t.element t.label
  let d ← match ← b.citationRoot t.entity d with
    | some root => do pure (d.addCitation (← b.reader.values rule t.entity root))
    | none => pure d
  let d := d.addGroupKey t.label
  return if b.authority.isSome then d.takeAttributeIdentifier t.element else d

/-- Resolves an authority identifier; the values go into the free text of the owning record. -/
def resolve (service : AuthorityService ω τ) (rule : FieldRule) (uri : String) :
    Action (BuildState ω τ) AuthorityAnswer := fun s =>
  let style : AuthorityStyle :=
    { label := some rule.field, replaceRules := rule.pipeline.replaceRules
      defaults := rule.authorityDefaults }
  let after (outside : AuthorityState ω τ) (texts : AuthorityTexts) : BuildState ω τ :=
    { collector := { s.collector with default := texts.default.getD s.collector.default }, outside }
  match service.resolve style uri (s.outside, ⟨some s.collector.default, some {}⟩) with
  | .ok fields (outside, texts) => .ok ⟨fields, texts.terms.getD {}⟩ (after outside texts)
  | .error fault (outside, texts) => .error fault (after outside texts)

def answerOf (b : GroupBuilder ω τ) (rule : FieldRule) (d : Draft) :
    Action (BuildState ω τ) AuthorityAnswer :=
  match b.authority, d.identifier with
  | some service, some uri => resolve service rule uri
  | _, _ => return {}

def buildRecord (b : GroupBuilder ω τ) (rule : FieldRule) (restricted : Bool) (depth : Nat)
    (t : GroupTask) (index : Int) : Action (BuildState ω τ) GroupedRecord := do
  let d ← BuildState.onWorld (b.draft rule t)
  let answer ← b.answerOf rule d
  BuildState.onCollector (modify (answer.noteNames rule t.label))
  let fields ← BuildState.onCollector
    (Finish.fieldsOf rule t.label d answer (restricted && t.parent.isNone))
  return {
    index, parent := t.parent, depth, label := t.label, kind := t.entity.kind, fields
    mainValue := d.mainValue, authorityUri := d.identifier, authorityFields := answer.fields
    promotesAuthority := t.entity.promoteAuthority
    promotesCoordinates := t.entity.promoteCoordinates }

def selected (b : GroupBuilder ω τ) (e : GroupEntity) (element : Cursor) :
    Checked (List Cursor) := do
  match e.xpath with
  | none => return []
  | some (.text query) => b.evaluator.evaluatePlaces query element
  | some _ =>
    b.evaluator.check
    .error .wrongType

/-- The elements whose records are nested in the record at a position. -/
def tasksBelow (b : GroupBuilder ω τ) (t : GroupTask) (index : Int) : Checked (List GroupTask) := do
  let found ← t.entity.children.mapM fun e => do
    return (← b.selected e t.element).map fun element =>
      { element, entity := e, label := e.name, parent := some index : GroupTask }
  return found.flatten

/-- Builds the records of a level; gives the arena with them and, if there is a level below, its
elements. -/
def buildLevel (b : GroupBuilder ω τ) (rule : FieldRule) (restricted hasBelow : Bool)
    (depth : Nat) : List GroupTask → GroupArena → Action (BuildState ω τ) (GroupArena × List GroupTask)
  | [], arena => return (arena, [])
  | t :: more, arena => do
    let r ← b.buildRecord rule restricted depth t arena.size
    let below ← if hasBelow then b.tasksBelow t r.index else pure []
    let (arena, others) ← buildLevel b rule restricted hasBelow depth more (arena.push r)
    return (arena, below ++ others)

/-- Builds the records of a level and of at most `remaining` levels below it. -/
def buildLevels (b : GroupBuilder ω τ) (rule : FieldRule) (restricted : Bool) :
    Nat → Nat → List GroupTask → GroupArena → Action (BuildState ω τ) GroupArena
  | 0, depth, tasks, arena => do
    let (arena, _) ← b.buildLevel rule restricted false depth tasks arena
    return arena
  | remaining + 1, depth, tasks, arena => do
    let (arena, below) ← b.buildLevel rule restricted true depth tasks arena
    if below.isEmpty then return arena
    buildLevels b rule restricted remaining (depth + 1) below arena

/-- Builds the record of an element and all records nested in it. -/
def build (b : GroupBuilder ω τ) (rule : FieldRule) (e : GroupEntity) (element : Cursor)
    (label : String) (restricted : Bool) : Action (BuildState ω τ) GroupArena :=
  b.buildLevels rule restricted b.maxDepth 0 [{ element, entity := e, label }] {}

end GroupBuilder

end MetadataIndex
