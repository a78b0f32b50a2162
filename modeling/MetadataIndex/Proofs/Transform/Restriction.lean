import MetadataIndex.Proofs.Group.Built
import MetadataIndex.Proofs.Transform.Mark
import MetadataIndex.Transform.Basic

/-!
# Restricted matches

A match that may not be shared gives its rule the mark of restricted access in place of a main value.
Its record has a condition of access only if the main value is not empty, and the mark is refined like
any other value; so it reaches the field of the rule as it should only where the rule accepts the mark
as it is and no main value is empty.
-/

set_option autoImplicit false

namespace MetadataIndex

open MetadataIndex.Xml (Cursor)

variable {ω τ : Type} {t : Transformer ω τ} {r : FieldRule} {e : GroupEntity} {i : XPath.Item}
  {place : Cursor}

/-- A rule accepts the mark of a record: as it is where the record has a condition of access, and not
at all where the record has a main value but no condition of access. -/
def FieldRule.AcceptsMarkOf (r : FieldRule) (root : GroupedRecord) : Prop :=
  if root.mainValue.isSome then
    r.accepted FieldName.accessRestricted
      = .ok (if root.isMarked then some FieldName.accessRestricted else none)
  else root.isMarked = false

theorem FieldRule.groupValue_restricted (s : XPathSource) :
    groupValue s FieldName.accessRestricted = FieldName.accessRestricted :=
  if_pos (beq_self_eq_true _)

namespace Transformer

/-- The values that a match gives to the field of its rule. -/
def contribution (t : Transformer ω τ) (r : FieldRule) (s : XPathSource) (i : XPath.Item) :
    Action (TransformState ω τ) (List String) := do
  let raw ← t.addMatch r s [] i
  let accepted ← liftM (raw.mapM r.accepted)
  return accepted.filterMap id

/-- A group that was built is stored unless its content is there, and gives its main value. -/
theorem buildGroup_of_built (found : i.place? = some place) {σ : TransformState ω τ}
    {group : GroupArena} {b : BuildState ω τ}
    (built : t.builder.build r e place r.field i.isRestricted ⟨σ.collector, σ.outside⟩ = .ok group b)
    {root : GroupedRecord} (first : group.get 0 = .ok root) :
    (t.buildGroup r e i).outcome σ = .ok (root.mainValue.map fun value =>
      if i.isRestricted then FieldName.accessRestricted else value) := by
  have ran : TransformState.onBuild (t.builder.build r e place r.field i.isRestricted) σ
      = .ok group { σ with collector := b.collector, outside := b.outside } :=
    Action.onPart_of_ok built
  unfold buildGroup
  rw [found]
  dsimp only
  rw [Action.outcome_bind_of_ok ran, first]
  refine (Action.outcome_bind_of_ok (a := root) rfl).trans ?_
  refine (Action.outcome_bind_of_ok rfl).trans ?_
  split
  · exact Action.outcome_bind_of_ok rfl
  · rfl

theorem map_toList_eq_iff {accepted : Checked (Option String)} {marked : Bool} {mark : String} :
    accepted.map (·.toList) = .ok (if marked then [mark] else [])
      ↔ accepted = .ok (if marked then some mark else none) := by
  cases accepted with
  | error fault => exact ⟨nofun, nofun⟩
  | ok value =>
    cases value with
    | none => cases marked <;> simp [Except.map]
    | some value => cases marked <;> simp [Except.map]

theorem contribution_of_buildGroup (grouped : r.group = some e) {s : XPathSource}
    {σ : TransformState ω τ} {main : Option String}
    (gives : (t.buildGroup r e i).outcome σ = .ok main) :
    (t.contribution r s i).outcome σ
      = ((main.toList.map (FieldRule.groupValue s)).mapM r.accepted).map (·.filterMap id) := by
  obtain ⟨σ', ran⟩ := Action.ok_of_outcome gives
  have added : t.addMatch r s [] i σ = .ok (main.toList.map (FieldRule.groupValue s)) σ' := by
    unfold addMatch
    rw [grouped]
    dsimp only
    rw [Action.bind_of_ok ran]
    rfl
  unfold contribution
  rw [Action.outcome_bind_of_ok added]
  cases (main.toList.map (FieldRule.groupValue s)).mapM r.accepted with
  | ok accepted => rfl
  | error fault => rfl

theorem contribution_of_mark (grouped : r.group = some e) (s : XPathSource)
    {σ : TransformState ω τ} {root : GroupedRecord}
    (gives : (t.buildGroup r e i).outcome σ
      = .ok (root.mainValue.map fun _ => FieldName.accessRestricted)) :
    (t.contribution r s i).outcome σ = if root.mainValue.isSome
      then (r.accepted FieldName.accessRestricted).map (·.toList) else .ok [] := by
  rw [contribution_of_buildGroup grouped gives]
  cases root.mainValue with
  | none => rfl
  | some value =>
    change (([FieldRule.groupValue s FieldName.accessRestricted].mapM r.accepted).map
      (·.filterMap id)) = (r.accepted FieldName.accessRestricted).map (·.toList)
    rw [FieldRule.groupValue_restricted, List.mapM_cons]
    cases r.accepted FieldName.accessRestricted with
    | error fault => rfl
    | ok value =>
      cases value with
      | none => rfl
      | some value => rfl

/-- A restricted match of which the record was built gives its rule the mark if the record has a
condition of access, and nothing otherwise, exactly when the rule accepts the mark of the record. What
is written for the mark is the mark alone. -/
theorem contribution_of_restricted (grouped : r.group = some e) (s : XPathSource)
    (found : i.place? = some place) (restricted : i.isRestricted = true) {σ : TransformState ω τ}
    {group : GroupArena} {b : BuildState ω τ}
    (built : t.builder.build r e place r.field true ⟨σ.collector, σ.outside⟩ = .ok group b) :
    ∃ root, group.get 0 = .ok root
      ∧ (e.hasSubfield FieldName.accessCondition = false →
          root.isMarked = root.mainValue.any (!·.isEmpty))
      ∧ ((t.contribution r s i).outcome σ
          = .ok (if root.isMarked then [FieldName.accessRestricted] else [])
            ↔ r.AcceptsMarkOf root)
      ∧ ∀ c c', r.writeAccepted FieldName.accessRestricted c = .ok c' → r.WritesMark c c' := by
  have ensured := GroupBuilder.build_ensures (t.builder.keeps_trivial r) (T := fun _ => True)
    (e := e) (fun _ _ _ _ => trivial) trivial place r.field true
  obtain ⟨root, deeper, stored, builds, -⟩ := (ensured.completed trivial built).1
  have first : group.get 0 = .ok root := GroupArena.get_zero stored
  refine ⟨root, first, fun lacks => ?_, ?_, fun c c' => FieldRule.writesMark_of_writeAccepted⟩
  · simpa using builds.marked lacks
  have gives := buildGroup_of_built found (restricted.symm ▸ built) first
  simp only [restricted, if_true] at gives
  rw [contribution_of_mark grouped s gives, FieldRule.AcceptsMarkOf]
  cases root.mainValue.isSome with
  | false => cases root.isMarked <;> simp
  | true => exact map_toList_eq_iff

/-- An element with a text that may not be shared. -/
def withheldNode (text : String) : Xml.Node :=
  .element { plain := "n" } [{ name := { plain := "shareable" }, value := "no" }] [] [.text text]

def withheldRoot (text : String) : Cursor :=
  let root : Xml.Node := .element { plain := "r" } [] [] [withheldNode text]
  .inside (.document { content := [root] }) 0 root

def withheld (text : String) : Cursor := .inside (withheldRoot text) 0 (withheldNode text)

/-- An entity that takes the text of its element as main value. -/
def wholeText : GroupEntity :=
  .mk "N" .other none none [{ name := FieldName.mainValue, xpaths := ["."] }] [] false false

def wholeTextRule (pipeline : ValuePipeline) : FieldRule where
  field := "N"
  sources := [{ xpath := "n" }]
  pipeline := pipeline
  group := some wholeText

def ofRule (r : FieldRule) : Transformer Unit Unit where
  rules := { fields := [(r.field, [r])] }

/-- What a transformation starts with when there is no cache. -/
def freshState : TransformState Unit Unit where
  outside := ⟨(), none⟩

/-- Whether the record of a restricted match has a condition of access, and what the match gives to
its rule. -/
def markedAndGiven (r : FieldRule) (e : GroupEntity) (place : Cursor) :
    Checked (Bool × List String) := do
  let t := ofRule r
  let group ← (t.builder.build r e place r.field true).outcome ⟨{}, ⟨(), none⟩⟩
  let root ← group.get 0
  return (root.isMarked, ← (t.contribution r { xpath := "n" } (.place place)).outcome freshState)

/-- Small letters change the mark of a marked record, and an empty main value gives the mark without
the record being marked. -/
theorem not_markedAndGiven_alike :
    markedAndGiven (wholeTextRule { lowercase := true }) wholeText (withheld "abc")
        = .ok (true, ["metadata_access_restricted"])
      ∧ markedAndGiven (wholeTextRule {}) wholeText (withheld ";")
        = .ok (false, [FieldName.accessRestricted]) := by
  constructor
  · decide +kernel
  · decide +kernel

theorem contribution_of_withheldText :
    ∃ root : GroupedRecord, root.mainValue = some "abc" ∧ root.isMarked = true
      ∧ ((ofRule (wholeTextRule {})).contribution (wholeTextRule {}) { xpath := "n" }
          (.place (withheld "abc"))).outcome freshState = .ok [FieldName.accessRestricted] := by
  have main : (((ofRule (wholeTextRule {})).builder.build (wholeTextRule {}) wholeText
      (withheld "abc") "N" true).outcome ⟨{}, ⟨(), none⟩⟩ >>= fun group => do
        return (← group.get 0).mainValue) = .ok (some "abc") := by
    decide +kernel
  have restricted : (XPath.Item.place (withheld "abc")).isRestricted = true := by decide +kernel
  cases ran : (ofRule (wholeTextRule {})).builder.build (wholeTextRule {}) wholeText
      (withheld "abc") "N" true ⟨{}, ⟨(), none⟩⟩ with
  | error fault left =>
    rw [Action.outcome_of_error ran] at main
    cases main
  | ok group left =>
    obtain ⟨root, first, marked, given, -⟩ := contribution_of_restricted (s := { xpath := "n" })
      (t := ofRule (wholeTextRule {})) (e := wholeText) rfl rfl restricted (σ := freshState) ran
    rw [Action.outcome_of_ok ran] at main
    replace main : (do return (← group.get 0).mainValue) = .ok (some "abc") := main
    rw [first] at main
    have value : root.mainValue = some "abc" := Except.ok.inj main
    have isMarked : root.isMarked = true := by
      rw [marked (by decide +kernel), value]
      decide +kernel
    rw [isMarked] at given
    refine ⟨root, value, isMarked, given.mpr ?_⟩
    rw [FieldRule.AcceptsMarkOf, value, isMarked]
    decide +kernel

end Transformer

end MetadataIndex
