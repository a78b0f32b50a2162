import MetadataIndex.Proofs.Transform.Stored

/-!
# Groups that are left out

A group is left out if a record on top has the content of its first record: label, main value and
fields. What is nested in the two is not compared. So what a group that was left out holds is all there if
nothing is nested in groups of its name, and otherwise only if one of the groups that have the content of
its first record also nests the same.
-/

set_option autoImplicit false

namespace MetadataIndex

variable {ω τ : Type}

namespace GroupDocument

/-- The document with only what makes records the same group. -/
def content (d : GroupDocument) : GroupDocument := d.map GroupedRecord.content

theorem content_mk (r : GroupedRecord) (children : List GroupDocument) :
    (mk r children).content = mk r.content (children.map content) :=
  map_mk _ _ _

theorem content_shift (offset : Nat) (d : GroupDocument) :
    (d.map (GroupArena.shift offset)).content = d.content :=
  map_map _ _ d

theorem content_eq_iff {d d' : GroupDocument} : d.content = d'.content
    ↔ d.record.content = d'.record.content
      ∧ d.children.map content = d'.children.map content := by
  cases d
  cases d'
  rw [content_mk, content_mk, mk.injEq]
  rfl

end GroupDocument

namespace GroupBuilder

variable {b : GroupBuilder ω τ}

/-- A group that was built is one document, and nothing is nested in it where no entity is. -/
theorem build_document {rule : FieldRule} {e : GroupEntity} {element : Xml.Cursor} {label : String}
    {restricted : Bool} {s s' : BuildState ω τ} {group : GroupArena}
    (ran : b.build rule e element label restricted s = .ok group s') :
    ∃ d, group.documents = [d] ∧ group.get 0 = .ok d.record ∧ d.record.label = label
      ∧ (b.maxDepth = 0 ∨ e.children = [] → d.children = []) := by
  obtain ⟨root, first, tops, named⟩ := build_top ran
  have records : group.documents.map (·.record) = [root] := by
    rw [← tops, GroupArena.map_record_documents (build_placed ran)]
  obtain ⟨d, single, rfl⟩ := List.map_eq_singleton_iff.mp records
  refine ⟨d, single, first, named, fun flat => ?_⟩
  obtain ⟨_, _, below, deeper, -, nested, stored, -, last⟩ := build_root ran
  have none : below = [] := by
    unfold tasksFrom at nested
    obtain shallow | childless := flat
    · rw [if_neg (by omega)] at nested
      cases nested
      rfl
    · split at nested
      · rw [tasksBelow, childless] at nested
        cases nested
        rfl
      · cases nested
        rfl
  rw [last none] at stored
  rw [GroupArena.documents, stored] at single
  cases single
  rfl

end GroupBuilder

namespace Transformer

variable {t : Transformer ω τ} {input : TransformInput}

theorem Handles.documents_prefix {g g' : GroupArena} {matches' : List (GroupMatch ω τ)}
    (handled : t.Handles g matches' g') (merges : t.builder.Merges g) :
    g.documents <+: g'.documents := by
  induction handled with
  | nil => exact List.prefix_rfl
  | text _ _ ih => exact ih merges
  | leftOut _ _ _ _ _ ih => exact ih merges
  | stored built _ _ _ ih =>
    obtain ⟨_, _, -, built⟩ := built
    refine List.IsPrefix.trans ?_ (ih (.merge merges (.built built)))
    rw [GroupArena.documents_merge merges.placed (GroupBuilder.build_placed built)]
    exact List.prefix_append _ _

theorem Handles.of_mem_documents {g g' : GroupArena} {matches' : List (GroupMatch ω τ)}
    (handled : t.Handles g matches' g') (merges : t.builder.Merges g) {d : GroupDocument}
    (member : d ∈ g'.documents) : d ∈ g.documents
      ∨ ∃ m ∈ matches', ∃ group own, t.Builds m group ∧ group.documents = [own]
        ∧ d = own.map (GroupArena.shift m.state.groups.size) := by
  have later {m : GroupMatch ω τ} {more : List (GroupMatch ω τ)} {g : GroupArena}
      (found : d ∈ g.documents ∨ ∃ m ∈ more, ∃ group own, t.Builds m group
        ∧ group.documents = [own] ∧ d = own.map (GroupArena.shift m.state.groups.size)) :
      d ∈ g.documents ∨ ∃ m' ∈ m :: more, ∃ group own, t.Builds m' group
        ∧ group.documents = [own] ∧ d = own.map (GroupArena.shift m'.state.groups.size) :=
    found.imp_right fun ⟨m', inside, rest⟩ => ⟨m', .tail _ inside, rest⟩
  induction handled with
  | nil => exact .inl member
  | text _ _ ih => exact later (ih merges member)
  | leftOut _ _ _ _ _ ih => exact later (ih merges member)
  | @stored m more _ group root builds _ _ _ ih =>
    have ⟨_, _, _, built⟩ := builds
    obtain old | new := later (m := m) (ih (.merge merges (.built built)) member)
    · obtain ⟨own, single, -⟩ := GroupBuilder.build_document built
      rw [GroupArena.documents_merge merges.placed (GroupBuilder.build_placed built), single,
        List.map_singleton] at old
      obtain before | own := List.mem_append.mp old
      · exact .inl before
      · exact .inr ⟨m, .head _, group, _, builds, single, List.mem_singleton.mp own⟩
    · exact .inr new

theorem containsEqual_iff {g : GroupArena} (merges : t.builder.Merges g) {root : GroupedRecord} :
    g.containsEqual root = true ↔ ∃ d ∈ g.documents, d.record.content = root.content := by
  rw [GroupArena.containsEqual, ← GroupArena.map_record_documents merges.placed, List.any_eq_true]
  simp only [List.mem_map, exists_exists_and_eq_and, GroupedRecord.sameContent_iff_content]

/-- Nothing is nested in the groups of a name. -/
def IsFlat (t : Transformer ω τ) (field : String) : Prop :=
  t.builder.maxDepth = 0 ∨ ∀ r ∈ t.rules.allRules, r.field = field →
    ∀ e, r.group = some e → e.children = []

theorem builds_unique {m : GroupMatch ω τ} {group group' : GroupArena} (builds : t.Builds m group)
    (builds' : t.Builds m group') : group = group' := by
  obtain ⟨place, left, element, built⟩ := builds
  obtain ⟨place', left', element', built'⟩ := builds'
  rw [element] at element'
  cases element'
  rw [built] at built'
  cases built'
  rfl

theorem label_of_builds {m : GroupMatch ω τ} {group : GroupArena} (builds : t.Builds m group)
    {d : GroupDocument} (single : group.documents = [d]) : d.record.label = m.rule.field := by
  obtain ⟨_, _, -, built⟩ := builds
  obtain ⟨d', single', -, named, -⟩ := GroupBuilder.build_document built
  rw [single] at single'
  cases single'
  exact named

theorem childless_of_flat {m : GroupMatch ω τ} {o : AuthorityState ω τ} (met : m ∈ t.met input o)
    (flat : t.IsFlat m.rule.field) {group : GroupArena} (builds : t.Builds m group)
    {d : GroupDocument} (single : group.documents = [d]) : d.children = [] := by
  obtain ⟨_, _, -, built⟩ := builds
  obtain ⟨d', single', -, -, childless⟩ := GroupBuilder.build_document built
  rw [single] at single'
  cases single'
  refine childless (flat.imp_right fun none => ?_)
  obtain ⟨member, grouped⟩ := of_mem_met met
  exact none m.rule member rfl m.entity grouped

/-- The group of a match is stored behind those that are there, unless its rule does not ask for
repetition and one of these has the content of its first record. Of a group that is left out all is there
if groups of its name are flat, and otherwise exactly if one of those nests the same. -/
theorem document_of_match {o o' : AuthorityState ω τ} {result : TransformResult}
    (ran : t.transform input o = .ok result o') {m : GroupMatch ω τ} (met : m ∈ t.met input o)
    {place : Xml.Cursor} (element : m.item.place? = some place) :
    ∃ group d docs later, t.Builds m group ∧ group.toDocuments = .ok [d]
      ∧ m.state.groups.toDocuments = .ok docs ∧ result.groups.toDocuments = .ok (docs ++ later)
      ∧ (((m.rule.allowDuplicates = true ∨ ∀ d' ∈ docs, d'.record.content ≠ d.record.content)
          ∧ ∃ more, later = d.map (GroupArena.shift m.state.groups.size) :: more)
        ∨ (m.rule.allowDuplicates = false ∧ (∃ d' ∈ docs, d'.record.content = d.record.content)
          ∧ ((∃ d' ∈ docs, d'.content = d.content)
            ↔ ∃ d' ∈ docs, d'.record.content = d.record.content
              ∧ d'.children.map GroupDocument.content = d.children.map GroupDocument.content)
          ∧ (t.IsFlat m.rule.field → ∃ d' ∈ docs, d'.content = d.content))) := by
  obtain ⟨before, after, split, earlier, handled⟩ := (transform_handles ran).of_mem met
  have merges := earlier.merges .empty
  have documents := GroupArena.toDocuments_of_placed merges.placed
  have final := GroupArena.toDocuments_of_placed ((handled.merges merges).placed)
  obtain ⟨-, ⟨text, -⟩ | ⟨group, root, builds, first, become⟩⟩ := handled.of_cons
  · rw [element] at text
    cases text
  have ⟨_, _, _, built⟩ := builds
  have placed := GroupBuilder.build_placed built
  obtain ⟨d, single, top, named, -⟩ := GroupBuilder.build_document built
  rw [first] at top
  cases top
  refine ⟨group, d, m.state.groups.documents, ?_⟩
  obtain ⟨asked, rest⟩ | ⟨unasked, present, rest⟩ := become
  · have grown := rest.documents_prefix (.merge merges (.built built))
    rw [GroupArena.documents_merge merges.placed placed, single, List.map_singleton] at grown
    obtain ⟨more, all⟩ := grown
    rw [← all, List.append_assoc] at final
    refine ⟨_, builds, single ▸ GroupArena.toDocuments_of_placed placed, documents, final,
      .inl ⟨asked.imp_right fun absent d' member same => ?_, more, rfl⟩⟩
    rw [(containsEqual_iff merges).mpr ⟨d', member, same⟩] at absent
    cases absent
  · have alike := (containsEqual_iff merges).mp present
    obtain ⟨later, all⟩ := rest.documents_prefix merges
    rw [← all] at final
    refine ⟨later, builds, single ▸ GroupArena.toDocuments_of_placed placed, documents, final,
      .inr ⟨unasked, alike, ?_, fun flat => ?_⟩⟩
    · simp only [GroupDocument.content_eq_iff]
    · obtain ⟨d', member, same⟩ := alike
      -- the document that is there stems from a match of the same field, which is flat as well
      have childless : d'.children = [] := by
        obtain none | ⟨m', inside, group', own, builds', single', rfl⟩ :=
          earlier.of_mem_documents .empty member
        · cases none
        have met' : m' ∈ t.met input o := split ▸ List.mem_append_left _ inside
        have field : m'.rule.field = m.rule.field := by
          have label := congrArg (·.label) same
          rw [GroupDocument.record_map] at label
          exact (label_of_builds builds' single').symm.trans (label.trans named)
        rw [GroupDocument.children_map, childless_of_flat met' (field ▸ flat) builds' single',
          List.map_nil]
      refine ⟨d', member, GroupDocument.content_eq_iff.mpr ⟨same, ?_⟩⟩
      rw [childless, childless_of_flat met flat builds single]

/-- An event with a name and one with an actor in it. -/
def eventNode (actor : String) : Xml.Node :=
  let part (name text : String) : Xml.Node := .element { plain := name } [] [] [.text text]
  .element { plain := "event" } [] [] [part "name" "A", part "actor" actor]

def eventsRoot (actors : List String) : Xml.Cursor :=
  let root : Xml.Node := .element { plain := "r" } [] [] (actors.map eventNode)
  .inside (.document { content := [root] }) 0 root

/-- A rule for events in which actors are nested. -/
def eventRule : FieldRule where
  field := "E"
  sources := [{ xpath := "event" }]
  group := some (.mk "E" .event none none [{ name := FieldName.mainValue, xpaths := ["name"] }]
    [.mk "ACTOR" .other (some (.text "actor")) none [{ name := FieldName.mainValue, xpaths := ["."] }]
      [] false false] false false)

/-- The main values of the records in each document. -/
def mainValues (docs : List GroupDocument) : List (List (Option String)) :=
  docs.map fun d => d.content.records.map (·.mainValue)

def eventsInput (actors : List String) : TransformInput where
  element := some (eventsRoot actors)

/-- What is stored of events, and what the last of them becomes. -/
def storedAndLast (actors : List String) :
    Checked (List (List (Option String)) × Option (List (List (Option String)))) := do
  let result ← ((ofRule eventRule).transform (eventsInput actors)).outcome ⟨(), none⟩
  let docs ← result.groups.toDocuments
  match ((ofRule eventRule).met (eventsInput actors) ⟨(), none⟩).getLast? with
  | none => return (mainValues docs, none)
  | some m =>
    match m.item.place? with
    | none => return (mainValues docs, none)
    | some place =>
      let group ← ((ofRule eventRule).builder.build m.rule m.entity place m.rule.field
        m.item.isRestricted).outcome ⟨m.state.collector, m.state.outside⟩
      return (mainValues docs, some (mainValues (← group.toDocuments)))

theorem storedAndLast_ok {actors : List String} {stored own : List (List (Option String))}
    (evaluated : storedAndLast actors = .ok (stored, some own)) :
    ∃ result left m place group docs own',
      (ofRule eventRule).transform (eventsInput actors) ⟨(), none⟩ = .ok result left
      ∧ m ∈ (ofRule eventRule).met (eventsInput actors) ⟨(), none⟩ ∧ m.item.place? = some place
      ∧ (ofRule eventRule).Builds m group ∧ result.groups.toDocuments = .ok docs
      ∧ mainValues docs = stored ∧ group.toDocuments = .ok own' ∧ mainValues own' = own := by
  obtain ⟨result, ended, evaluated⟩ := Checked.bind_ok evaluated
  obtain ⟨left, ran⟩ := Action.ok_of_outcome ended
  obtain ⟨docs, rendered, evaluated⟩ := Checked.bind_ok evaluated
  cases last : ((ofRule eventRule).met (eventsInput actors) ⟨(), none⟩).getLast? with
  | none =>
    rw [last] at evaluated
    cases evaluated
  | some m =>
    rw [last] at evaluated
    cases element : m.item.place? with
    | none =>
      simp only [element] at evaluated
      cases evaluated
    | some place =>
      simp only [element] at evaluated
      obtain ⟨group, built, evaluated⟩ := Checked.bind_ok evaluated
      obtain ⟨left', built⟩ := Action.ok_of_outcome built
      obtain ⟨own', rendered', evaluated⟩ := Checked.bind_ok evaluated
      cases evaluated
      exact ⟨result, left, m, place, group, docs, own', ran, List.mem_of_getLast? last, element,
        ⟨place, left', element, built⟩, rendered, rfl, rendered', rfl⟩

theorem storedAndLast_twoActors :
    storedAndLast ["X", "Y"] = .ok ([[some "A", some "X"]], some [[some "A", some "Y"]]) := by
  decide +kernel

/-- The second of two events with one name is left out with the actor that is nested only in it. -/
theorem lost_of_twoActors :
    ∃ result left m group d docs,
      (ofRule eventRule).transform (eventsInput ["X", "Y"]) ⟨(), none⟩ = .ok result left
      ∧ m ∈ (ofRule eventRule).met (eventsInput ["X", "Y"]) ⟨(), none⟩
      ∧ (ofRule eventRule).Builds m group ∧ group.toDocuments = .ok [d]
      ∧ result.groups.toDocuments = .ok docs ∧ ∀ d' ∈ docs, d'.content ≠ d.content := by
  obtain ⟨result, left, m, _, group, docs, own, ran, met, -, builds, rendered, stored, rendered',
    last⟩ := storedAndLast_ok storedAndLast_twoActors
  obtain ⟨d, rfl, values⟩ := List.map_eq_singleton_iff.mp last
  refine ⟨result, left, m, group, d, docs, ran, met, builds, rendered', rendered,
    fun d' member same => ?_⟩
  have found := List.mem_map_of_mem (f := fun d => d.content.records.map (·.mainValue)) member
  rw [show docs.map _ = _ from stored, same, values] at found
  simp at found

theorem document_of_secondEvent :
    ∃ m group d docs, (ofRule eventRule).Builds m group ∧ group.toDocuments = .ok [d]
      ∧ m.state.groups.toDocuments = .ok docs ∧ m.rule.allowDuplicates = false
      ∧ (∃ d' ∈ docs, d'.record.content = d.record.content)
      ∧ d.content.records.map (·.mainValue) = [some "A", some "Y"] := by
  obtain ⟨result, left, m, place, group, all, own, ran, met, element, builds, rendered, stored,
    rendered', last⟩ := storedAndLast_ok storedAndLast_twoActors
  obtain ⟨group', d, docs, later, builds', single, before, after, become⟩ :=
    document_of_match ran met element
  obtain rfl := builds_unique builds builds'
  rw [rendered'] at single
  rw [rendered] at after
  cases single
  cases after
  have values : d.content.records.map (·.mainValue) = [some "A", some "Y"] :=
    List.head_eq_of_cons_eq last
  obtain ⟨-, more, rfl⟩ | ⟨unasked, alike, -⟩ := become
  · -- it would be among what is stored
    have inside : d.map (GroupArena.shift m.state.groups.size)
        ∈ docs ++ d.map (GroupArena.shift m.state.groups.size) :: more := by simp
    have found := List.mem_map_of_mem (f := fun d => d.content.records.map (·.mainValue)) inside
    rw [show List.map _ _ = _ from stored, GroupDocument.content_shift, values] at found
    simp at found
  · exact ⟨m, group, d, docs, builds, rendered', before, unasked, alike, values⟩

end Transformer

end MetadataIndex
