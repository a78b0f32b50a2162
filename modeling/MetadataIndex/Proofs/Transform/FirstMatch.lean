import MetadataIndex.Proofs.Effect.Faults
import MetadataIndex.Proofs.Transform.Terms

/-!
# Rules for the first match

A rule for the first match writes raw values until one is accepted. But it gathers them from all matches
before it writes the first: gathering does not look at how many are wanted. Where a match is only read,
those that follow the first accepted one change nothing. Where each match becomes a group, all groups are
built and stored, as by a rule for all matches, and only the values that follow are not written.
-/

set_option autoImplicit false

namespace MetadataIndex

open MetadataIndex.Xml (Cursor)

variable {ω τ : Type}

namespace FieldRule

variable {r : FieldRule} {values : List String} {raw value : String}

/-- Behind a raw value that is accepted a rule for the first match writes nothing. -/
theorem writeAll_of_first (first : r.stopsAfterFirst = true) (member : raw ∈ values)
    (accepted : r.accepted raw = .ok (some value)) (later : List String) (c : Collector) :
    r.writeAll (values ++ later) c = r.writeAll values c := by
  induction values generalizing c with
  | nil => cases member
  | cons head values ih =>
    rw [List.cons_append, writeAll, writeAll]
    -- The accepted value is the head, and writing stops there, or it comes later.
    rcases List.mem_cons.mp member with rfl | behind
    · rw [write, accepted]
      cases wrote : r.writeAccepted value c with
      | error fault =>
        simp only [bind, Except.bind, wrote]
      | ok c' =>
        simp only [bind, Except.bind, wrote, pure, Except.pure, first, Bool.and_self, if_true]
    · cases wrote : r.write head c with
      | error fault => rfl
      | ok next =>
        obtain ⟨c', now⟩ := next
        simp only [bind, Except.bind]
        rw [ih behind]

theorem cutSeparator_ok {splitting : Option Json} {found : Option String}
    (cut : cutSeparator splitting value = .ok found) (text : String) :
    ∃ found, cutSeparator splitting text = .ok found := by
  cases splitting with
  | none => exact ⟨some text, rfl⟩
  | some v =>
    obtain ⟨separator, known⟩ : ∃ separator, v.asText = .ok separator :=
      Checked.exists_map_ok.mp ⟨found, cut⟩
    unfold cutSeparator
    exact Checked.exists_map_ok.mpr ⟨separator, known⟩

/-- Reading a raw value fails for the separator alone, so where one match has a raw value, all can be
read. -/
theorem valueOf_ok {s : XPathSource} {i : XPath.Item} (given : r.valueOf s i = .ok (some raw))
    (s' : XPathSource) (i' : XPath.Item) : ∃ found, r.valueOf s' i' = .ok found := by
  obtain ⟨text, found, known⟩ :
      ∃ text found, cutSeparator r.pipeline.splittingCharacter text = .ok found := by
    unfold valueOf at given
    split at given
    · cases given
    · split at given
      · cases given
      · obtain ⟨found, cut, -⟩ := Checked.bind_ok given
        exact ⟨_, found, cut⟩
  unfold valueOf
  cases shown : i'.toText with
  | none => exact ⟨none, rfl⟩
  | some text =>
    cases blank : (Text.trim text).isEmpty with
    | true => exact ⟨none, by simp only [blank, if_true]; rfl⟩
    | false =>
      obtain ⟨kept, cut⟩ := cutSeparator_ok known (Text.trim (Text.trim text ++ r.valuePostfix))
      simp only [blank, Bool.false_eq_true, if_false, cut]
      cases kept with
      | none => exact ⟨none, rfl⟩
      | some value => exact ⟨_, rfl⟩

theorem addValue_of_separate (separate : r.oneField = false) (values : List String) (value : String) :
    r.addValue values value = values ++ [value] := by
  cases values with
  | nil => rfl
  | cons first values => simp only [addValue, separate, Bool.false_eq_true, if_false]

theorem foldl_addValue_of_separate (separate : r.oneField = false) (values parts : List String) :
    parts.foldl r.addValue values = values ++ parts := by
  induction parts generalizing values with
  | nil => exact (List.append_nil values).symm
  | cons part parts ih =>
    rw [List.foldl_cons, addValue_of_separate separate, ih, List.append_assoc]
    rfl

/-- The rule with another choice of the matches that it is for. -/
def withNode (r : FieldRule) (node : NodeScope) : FieldRule := { r with node }

/-- Writes raw values, and fills the gaps between the years. -/
def writeAndFill (r : FieldRule) (values : List String) : Action (TransformState ω τ) Unit := do
  TransformState.change (r.writeAll values)
  TransformState.change r.interpolate

theorem writeAndFill_ok {s s' : TransformState ω τ} (ran : r.writeAndFill values s = .ok () s') :
    (r.writeAll values s.collector >>= r.interpolate) = .ok s'.collector ∧ s'.groups = s.groups := by
  obtain ⟨_, middle, changed, ran⟩ := Action.bind_ok ran
  obtain ⟨c, written, rfl⟩ := TransformState.change_ok changed
  obtain ⟨c', filled, rfl⟩ := TransformState.change_ok ran
  rw [written]
  exact ⟨filled, rfl⟩

theorem writeAndFill_of_first (first : r.stopsAfterFirst = true) (member : raw ∈ values)
    (accepted : r.accepted raw = .ok (some value)) (later : List String) :
    r.writeAndFill (ω := ω) (τ := τ) (values ++ later) = r.writeAndFill values := by
  have written : r.writeAll (values ++ later) = r.writeAll values := by
    funext c
    exact writeAll_of_first first member accepted later c
  rw [writeAndFill, writeAndFill, written]

end FieldRule

theorem Finish.finishFields_withNode (r : FieldRule) (node : NodeScope) (main : Option String)
    (group : Collector) (fields : List Field) (finished sorts : Collector) :
    finishFields (r.withNode node) main group fields finished sorts
      = finishFields r main group fields finished sorts := by
  induction fields generalizing finished sorts with
  | nil => rfl
  | cons f fields ih =>
    unfold finishFields
    simp only [ih]
    rfl

namespace GroupBuilder

variable (b : GroupBuilder ω τ) (r : FieldRule) (node : NodeScope)

theorem buildRecord_withNode (restricted : Bool) (depth : Nat) (task : GroupTask) (index : Int) :
    b.buildRecord (r.withNode node) restricted depth task index
      = b.buildRecord r restricted depth task index := by
  unfold buildRecord Finish.fieldsOf
  simp only [Finish.finishFields_withNode]
  rfl

theorem buildLevel_withNode (restricted below : Bool) (depth : Nat) (tasks : List GroupTask)
    (arena : GroupArena) : b.buildLevel (r.withNode node) restricted below depth tasks arena
      = b.buildLevel r restricted below depth tasks arena := by
  induction tasks generalizing arena with
  | nil => rfl
  | cons task tasks ih =>
    unfold buildLevel
    simp only [buildRecord_withNode, ih]

theorem buildLevels_withNode (restricted : Bool) (remaining depth : Nat) (tasks : List GroupTask)
    (arena : GroupArena) : b.buildLevels (r.withNode node) restricted remaining depth tasks arena
      = b.buildLevels r restricted remaining depth tasks arena := by
  induction remaining generalizing depth tasks arena with
  | zero =>
    unfold buildLevels
    rw [buildLevel_withNode]
  | succ remaining ih =>
    unfold buildLevels
    simp only [buildLevel_withNode, ih]

/-- Building a group does not look at how many matches a rule is for. -/
theorem build_withNode (e : GroupEntity) (element : Cursor) (label : String) (restricted : Bool) :
    b.build (r.withNode node) e element label restricted = b.build r e element label restricted :=
  b.buildLevels_withNode r node restricted _ _ _ _

end GroupBuilder

namespace Transformer

/-- Adds the raw values of matches to those before them. -/
def gather (t : Transformer ω τ) (r : FieldRule) (found : List (XPathSource × XPath.Item))
    (values : List String) : Action (TransformState ω τ) (List String) :=
  found.foldlM (fun values m => t.addMatch r m.1 values m.2) values

/-- Gathering does not look at how many matches a rule is for. -/
theorem gather_withNode (t : Transformer ω τ) (r : FieldRule) (node : NodeScope)
    (found : List (XPathSource × XPath.Item)) (values : List String) :
    t.gather (r.withNode node) found values = t.gather r found values := by
  have added : t.addMatch (r.withNode node) = t.addMatch r := by
    funext s values i
    unfold addMatch buildGroup
    simp only [GroupBuilder.build_withNode]
    rfl
  rw [gather, added, gather]

/-- The matches of an expression of a rule in elements. -/
def matchesFrom (t : Transformer ω τ) (r : FieldRule) (input : TransformInput)
    (elements : List Cursor) (s : XPathSource) : Checked (List (XPathSource × XPath.Item)) := do
  if s.xpath.isEmpty then return []
  let query := XPath.buildQuery s.xpath (← input.leading) r.isGrouped
  let found ← elements.mapM fun element => t.builder.evaluator.evaluate query element
  return found.flatten.map (s, ·)

/-- The matches of a rule, in the order in which they are met. -/
def matchesOf (t : Transformer ω τ) (r : FieldRule) (input : TransformInput) :
    Checked (List (XPathSource × XPath.Item)) := do
  let elements ← expandScope r input.element input.context
  let found ← r.sources.mapM (t.matchesFrom r input elements)
  return found.flatten

variable {t t' : Transformer ω τ} {r : FieldRule} {input input' : TransformInput}

theorem gather_append (t : Transformer ω τ) (r : FieldRule)
    (found later : List (XPathSource × XPath.Item)) (values : List String) :
    t.gather r (found ++ later) values = t.gather r found values >>= t.gather r later :=
  List.foldlM_append

/-- A loop in which each step is a loop over pieces is the loop over all pieces. -/
theorem foldlM_eq_flatten {σ α γ δ : Type} {f : α → γ → Action σ α} {g : α → δ → Action σ α}
    {items : List γ} {pieces : List (List δ)}
    (related : List.Forall₂ (fun i piece => ∀ a, f a i = piece.foldlM g a) items pieces) (a : α) :
    items.foldlM f a = pieces.flatten.foldlM g a := by
  induction related generalizing a with
  | nil => rfl
  | cons head _ ih =>
    rw [List.foldlM_cons, List.flatten_cons, List.foldlM_append, head a]
    congr
    funext b
    exact ih b

theorem addSource_eq_gather {elements : List Cursor} {s : XPathSource}
    {found : List (XPathSource × XPath.Item)}
    (selected : t.matchesFrom r input elements s = .ok found) (values : List String) :
    t.addSource r input elements values s = t.gather r found values := by
  unfold matchesFrom at selected
  unfold addSource
  cases blank : s.xpath.isEmpty with
  | true =>
    rw [blank] at selected
    cases selected
    rfl
  | false =>
    rw [blank] at selected
    obtain ⟨leading, known, selected⟩ := Checked.bind_ok selected
    obtain ⟨each, evaluated, selected⟩ := Checked.bind_ok selected
    cases selected
    rw [known, gather, List.foldlM_map]
    apply foldlM_eq_flatten
    refine (Checked.mapM_ok_iff.mp evaluated).imp ?_
    intro element places evaluated values
    rw [evaluated]
    rfl

/-- Selecting the raw values of a rule gathers them from its matches. -/
theorem rawValues_eq_gather {found : List (XPathSource × XPath.Item)}
    (selected : t.matchesOf r input = .ok found) : t.rawValues r input = t.gather r found [] := by
  obtain ⟨elements, expanded, selected⟩ := Checked.bind_ok selected
  obtain ⟨each, sources, selected⟩ := Checked.bind_ok selected
  cases selected
  unfold rawValues
  rw [expanded]
  change r.sources.foldlM (t.addSource r input elements) [] = _
  apply foldlM_eq_flatten
  exact (Checked.mapM_ok_iff.mp sources).imp fun s found selected values =>
    addSource_eq_gather selected values

theorem applyRule_eq_gather {found : List (XPathSource × XPath.Item)} (derived : r.constant = none)
    (selected : t.matchesOf r input = .ok found) :
    t.applyRule input r = t.gather r found [] >>= r.writeAndFill := by
  unfold applyRule
  rw [derived, ← rawValues_eq_gather selected]
  rfl

theorem addMatch_appends (separate : r.group = none → r.oneField = false) {s : XPathSource}
    {i : XPath.Item} {values values' : List String} {σ σ' : TransformState ω τ}
    (added : t.addMatch r s values i σ = .ok values' σ') : ∃ more, values' = values ++ more := by
  unfold addMatch at added
  cases grouped : r.group with
  | some e =>
    rw [grouped] at added
    obtain ⟨main, _, _, added⟩ := Action.bind_ok added
    cases added
    exact ⟨_, rfl⟩
  | none =>
    rw [grouped] at added
    obtain ⟨value, _, _, added⟩ := Action.bind_ok added
    cases value with
    | none =>
      cases added
      exact ⟨[], (List.append_nil _).symm⟩
    | some value =>
      cases added
      exact ⟨[value], FieldRule.addValue_of_separate (separate grouped) values value⟩

/-- Raw values of further matches stand behind those that were gathered, if they are not joined. -/
theorem gather_appends (separate : r.group = none → r.oneField = false)
    {found : List (XPathSource × XPath.Item)} {values values' : List String}
    {σ σ' : TransformState ω τ} (gathered : t.gather r found values σ = .ok values' σ') :
    ∃ more, values' = values ++ more := by
  induction found generalizing values σ with
  | nil =>
    cases gathered
    exact ⟨[], (List.append_nil _).symm⟩
  | cons m found ih =>
    rw [gather, List.foldlM_cons] at gathered
    obtain ⟨between, _, added, rest⟩ := Action.bind_ok gathered
    obtain ⟨now, rfl⟩ := addMatch_appends separate added
    obtain ⟨more, rfl⟩ := ih rest
    exact ⟨now ++ more, List.append_assoc _ _ _⟩

/-- Gathering from matches that are only read changes nothing, and adds each raw value in turn. -/
theorem gather_read (regular : r.group = none) {found : List (XPathSource × XPath.Item)}
    {read : List (Option String)}
    (each : List.Forall₂ (fun m value => r.valueOf m.1 m.2 = .ok value) found read)
    (values : List String) :
    t.gather r found values = pure ((read.filterMap id).foldl r.addValue values) := by
  induction each generalizing values with
  | nil => rfl
  | @cons m value found read head _ ih =>
    have added : t.addMatch r m.1 values m.2 = pure (value.toList.foldl r.addValue values) := by
      unfold addMatch
      rw [regular, head]
      cases value with
      | none => rfl
      | some value => rfl
    rw [gather, List.foldlM_cons, added, pure_bind, ← gather, ih]
    cases value with
    | none => rfl
    | some value => rfl

theorem gather_of_read (regular : r.group = none) (separate : r.oneField = false)
    {found : List (XPathSource × XPath.Item)} {read : List (Option String)}
    (each : List.Forall₂ (fun m value => r.valueOf m.1 m.2 = .ok value) found read)
    (values : List String) : t.gather r found values = pure (values ++ read.filterMap id) := by
  rw [gather_read regular each, FieldRule.foldl_addValue_of_separate separate]

/-- Behind matches whose raw values have one that is accepted, groups are built as by a rule for all
matches; written is only what was gathered before. -/
theorem applyRule_of_gathered (first : r.stopsAfterFirst = true) (derived : r.constant = none)
    (separate : r.group = none → r.oneField = false) {shared later : List (XPathSource × XPath.Item)}
    (selected : t.matchesOf r input = .ok (shared ++ later)) {s middle : TransformState ω τ}
    {values : List String} (gathered : t.gather r shared [] s = .ok values middle)
    {raw value : String} (member : raw ∈ values) (accepted : r.accepted raw = .ok (some value)) :
    t.applyRule input r s = (t.gather (r.withNode .all) later values >>= fun _ =>
      r.writeAndFill values) middle := by
  rw [applyRule_eq_gather derived selected, gather_append, bind_assoc,
    Action.bind_of_ok gathered, gather_withNode]
  cases rest : t.gather r later values middle with
  | error fault left => rw [Action.bind_of_error rest, Action.bind_of_error rest]
  | ok all left =>
    obtain ⟨more, rfl⟩ := gather_appends separate rest
    rw [Action.bind_of_ok rest, Action.bind_of_ok rest,
      FieldRule.writeAndFill_of_first first member accepted]

/-- Where matches are only read, written is only what the first of them give. -/
theorem applyRule_of_read (first : r.stopsAfterFirst = true) (derived : r.constant = none)
    (regular : r.group = none) (separate : r.oneField = false)
    {shared later : List (XPathSource × XPath.Item)}
    (selected : t.matchesOf r input = .ok (shared ++ later)) {read : List (Option String)}
    (known : shared.mapM (fun m => r.valueOf m.1 m.2) = .ok read) {raw value : String}
    (member : some raw ∈ read) (accepted : r.accepted raw = .ok (some value)) :
    t.applyRule input r = r.writeAndFill (read.filterMap id) := by
  obtain ⟨m, -, given⟩ := Checked.of_mem_mapM known member
  obtain ⟨others, behind⟩ : ∃ others, later.mapM (fun m => r.valueOf m.1 m.2) = .ok others :=
    Checked.mapM_ok_iff_each.mpr fun m _ => FieldRule.valueOf_ok given m.1 m.2
  rw [applyRule_eq_gather derived selected, gather_append,
    gather_of_read regular separate (Checked.mapM_ok_iff.mp known), pure_bind,
    gather_of_read regular separate (Checked.mapM_ok_iff.mp behind), pure_bind, List.nil_append]
  refine FieldRule.writeAndFill_of_first first ?_ accepted _
  exact List.mem_filterMap.mpr ⟨some raw, member, rfl⟩

/-- Two runs of a rule for the first match whose matches begin alike. If these are only read and one of
their raw values is accepted, the runs are the same, whatever matches follow. If they become groups, the
runs write the same raw values, but each to the owning record, and beside the groups, that gathering the
following matches leaves, as it does for a rule for all matches. -/
theorem applyRule_of_first (first : r.stopsAfterFirst = true) (derived : r.constant = none)
    {shared shared' later later' : List (XPathSource × XPath.Item)}
    (selected : t.matchesOf r input = .ok (shared ++ later))
    (selected' : t'.matchesOf r input' = .ok (shared' ++ later')) :
    (r.group = none → r.oneField = false →
      shared.map (fun m => r.valueOf m.1 m.2) = shared'.map (fun m => r.valueOf m.1 m.2) →
      (∃ m ∈ shared, ∃ raw value, r.valueOf m.1 m.2 = .ok (some raw)
        ∧ r.accepted raw = .ok (some value)) →
      t.applyRule input r = t'.applyRule input' r)
    ∧ ((r.group = none → r.oneField = false) → ∀ s middle values raw value s₁ s₂,
      t.gather r shared [] s = .ok values middle → t'.gather r shared' [] s = .ok values middle →
      raw ∈ values → r.accepted raw = .ok (some value) →
      t.applyRule input r s = .ok () s₁ → t'.applyRule input' r s = .ok () s₂ →
      ∃ all left all' left', t.gather (r.withNode .all) later values middle = .ok all left
        ∧ t'.gather (r.withNode .all) later' values middle = .ok all' left'
        ∧ (r.writeAll values left.collector >>= r.interpolate) = .ok s₁.collector
        ∧ (r.writeAll values left'.collector >>= r.interpolate) = .ok s₂.collector
        ∧ s₁.groups = left.groups ∧ s₂.groups = left'.groups) := by
  constructor
  · intro regular separate alike written
    obtain ⟨m, member, raw, value, given, accepted⟩ := written
    obtain ⟨read, known⟩ : ∃ read, shared.mapM (fun m => r.valueOf m.1 m.2) = .ok read :=
      Checked.mapM_ok_iff_each.mpr fun m _ => FieldRule.valueOf_ok given m.1 m.2
    have known' : shared'.mapM (fun m => r.valueOf m.1 m.2) = .ok read := by
      rw [Checked.mapM_ok_iff_map] at known ⊢
      rw [← alike, known]
    have among : some raw ∈ read := by
      have reads : r.valueOf m.1 m.2 ∈ shared.map fun m => r.valueOf m.1 m.2 :=
        List.mem_map_of_mem member
      rw [Checked.mapM_ok_iff_map.mp known, given] at reads
      obtain ⟨_, inside, ⟨⟩⟩ := List.mem_map.mp reads
      exact inside
    rw [applyRule_of_read first derived regular separate selected known among accepted,
      applyRule_of_read first derived regular separate selected' known' among accepted]
  · intro separate s middle values raw value s₁ s₂ gathered gathered' member accepted ran ran'
    rw [applyRule_of_gathered first derived separate selected gathered member accepted] at ran
    rw [applyRule_of_gathered first derived separate selected' gathered' member accepted] at ran'
    obtain ⟨all, left, rest, ran⟩ := Action.bind_ok ran
    obtain ⟨all', left', rest', ran'⟩ := Action.bind_ok ran'
    obtain ⟨wrote, groups⟩ := FieldRule.writeAndFill_ok ran
    obtain ⟨wrote', groups'⟩ := FieldRule.writeAndFill_ok ran'
    exact ⟨all, left, all', left', rest, rest', wrote, wrote', groups, groups'⟩

/-- A rule that writes the first text that is found. -/
def firstText : FieldRule where
  field := "N"
  sources := [{ xpath := "n" }]
  node := .first
  addToDefault := true

/-- A text at a position, as a match of the rules for texts. -/
def textMatch (texts : List String) (position : Nat) (text : String) : XPathSource × XPath.Item :=
  ({ xpath := "n" }, .place (.inside (textsRoot texts) position (textNode text)))

theorem applyRule_of_firstText :
    (ofRule firstText).applyRule (textsInput ["a", "b"]) firstText
      = (ofRule firstText).applyRule (textsInput ["a", "c", "d"]) firstText := by
  have read : firstText.valueOf { xpath := "n" } (textMatch ["a", "b"] 0 "a").2 = .ok (some "a") := by
    decide +kernel
  have read' : firstText.valueOf { xpath := "n" } (textMatch ["a", "c", "d"] 0 "a").2
      = .ok (some "a") := by
    decide +kernel
  have accepted : firstText.accepted "a" = .ok (some "a") := by decide +kernel
  have selected : (ofRule firstText).matchesOf firstText (textsInput ["a", "b"])
      = .ok ([textMatch ["a", "b"] 0 "a"] ++ [textMatch ["a", "b"] 1 "b"]) := rfl
  have selected' : (ofRule firstText).matchesOf firstText (textsInput ["a", "c", "d"])
      = .ok ([textMatch ["a", "c", "d"] 0 "a"]
        ++ [textMatch ["a", "c", "d"] 1 "c", textMatch ["a", "c", "d"] 2 "d"]) := rfl
  refine (applyRule_of_first rfl rfl selected selected').1 rfl rfl ?_ ?_
  · exact congrArg (· :: []) (read.trans read'.symm)
  · exact ⟨_, .head _, "a", "a", read, accepted⟩

/-- What a result of texts has of the groups and of the values of a rule. -/
def mainsAndValues (r : FieldRule) (texts : List String) :
    Checked (List (Option String) × List String) :=
  (((ofRule r).transform (textsInput texts)).outcome ⟨(), none⟩).map fun result =>
    (result.groups.roots.map (·.mainValue), result.values r.field)

/-- The group of a match that follows is stored, though its value is not written. -/
theorem two_groups_of_firstMatch :
    mainsAndValues ((wholeTextRule {}).withNode .first) ["a"] = .ok ([some "a"], ["a"])
      ∧ mainsAndValues ((wholeTextRule {}).withNode .first) ["a", "b"]
        = .ok ([some "a", some "b"], ["a"]) := by
  constructor
  · decide +kernel
  · decide +kernel

end Transformer

end MetadataIndex
