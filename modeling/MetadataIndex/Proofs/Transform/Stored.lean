import MetadataIndex.Proofs.Group.Queue
import MetadataIndex.Proofs.Transform.Duplicates
import MetadataIndex.Proofs.Transform.Matches
import MetadataIndex.Proofs.Transform.Restriction

/-!
# Stored groups

However groups are built and merged, an arena stays well formed: its records stand at their positions,
one level under an earlier record or on top, and it renders as documents that hold each record once. A
transformation stores two groups of one content only for a rule that asks for repetition.
-/

set_option autoImplicit false

namespace MetadataIndex

variable {ω τ : Type}

namespace GroupArena

/-- What holds of an arena of records that nest to a greatest depth, and of its documents. -/
structure WellFormed (maxDepth : Nat) (a : GroupArena) : Prop where
  positions : ∀ (i : Nat) r, a.toList[i]? = some r → r.index = i
  tops : ∀ r ∈ a.toList, r.parent = none ↔ r.depth = 0
  parents : ∀ r ∈ a.toList, ∀ p, r.parent = some p → p < r.index
    ∧ ∃ above ∈ a.toList, above.index = p ∧ r.depth = above.depth + 1 ∧ r.depth ≤ maxDepth
  documents : ∃ docs, a.toDocuments = .ok docs ∧ docs.map (·.record) = a.roots
    ∧ (docs.flatMap (·.records)).Perm a.toList ∧ ∀ d ∈ docs, GroupDocument.Nests a.toList d

theorem wellFormed_of_placed {maxDepth : Nat} {a : GroupArena}
    (placed : WellPlaced maxDepth a.toList) : a.WellFormed maxDepth where
  positions i r found := placed.index_eq found
  tops r member := by
    obtain ⟨parent, depth⟩ | ⟨above, -, parent, -, depth, -⟩ := placed.place r member
    · exact ⟨fun _ => depth, fun _ => parent⟩
    · rw [parent, depth]
      exact ⟨nofun, nofun⟩
  parents r member p under := by
    obtain ⟨parent, -⟩ | ⟨above, first, parent, before, depth, bound⟩ := placed.place r member
    · rw [parent] at under
      cases under
    · rw [parent] at under
      cases under
      exact ⟨before, above, first, rfl, depth, bound⟩
  documents := by
    refine ⟨_, toDocuments_of_placed placed, map_record_documents placed, ?_, fun d member => ?_⟩
    · rw [documents, List.flatMap_map]
      exact GroupDocument.records_nest a.toList
    · obtain ⟨x, inside, rfl⟩ := List.mem_map.mp member
      exact (GroupDocument.nest_spec placed.ascends).2 x inside

theorem merge_placed {maxDepth : Nat} {a group : GroupArena} (placed : WellPlaced maxDepth a.toList)
    (placedGroup : WellPlaced maxDepth group.toList) : WellPlaced maxDepth (a.merge group).toList := by
  have size : a.size = a.toList.length := a.length_toList.symm
  rw [toList_merge, size]
  exact placed.append_shift placedGroup

theorem roots_merge (a group : GroupArena) :
    (a.merge group).roots = a.roots ++ group.roots.map (shift a.size) := by
  unfold roots
  rw [toList_merge, List.filter_append, List.filter_map]
  refine congrArg _ (congrArg _ (List.filter_congr fun r _ => ?_))
  simp [shift]

end GroupArena

namespace GroupBuilder

variable {b : GroupBuilder ω τ}

/-- Arenas that come from groups that a builder has built, and from merging. -/
inductive Merges (b : GroupBuilder ω τ) : GroupArena → Prop where
  | empty : Merges b {}
  | built {group : GroupArena} {rule : FieldRule} {e : GroupEntity} {element : Xml.Cursor}
      {label : String} {restricted : Bool} {s s' : BuildState ω τ}
      (ran : b.build rule e element label restricted s = .ok group s') : Merges b group
  | merge {g group : GroupArena} (before : Merges b g) (after : Merges b group) :
      Merges b (g.merge group)

theorem Merges.placed {g : GroupArena} (merges : b.Merges g) : WellPlaced b.maxDepth g.toList := by
  induction merges with
  | empty => exact .nil
  | built ran => exact build_placed ran
  | merge _ _ before after => exact GroupArena.merge_placed before after

theorem build_top {rule : FieldRule} {e : GroupEntity} {element : Xml.Cursor} {label : String}
    {restricted : Bool} {s s' : BuildState ω τ} {group : GroupArena}
    (ran : b.build rule e element label restricted s = .ok group s') :
    ∃ root, group.get 0 = .ok root ∧ group.roots = [root] ∧ root.label = label := by
  obtain ⟨root, _, _, deeper, record, -, stored, nested, -⟩ := build_root ran
  obtain ⟨-, parent, -, label⟩ := buildRecord_ok record
  refine ⟨root, GroupArena.get_zero stored, ?_, label⟩
  rw [GroupArena.roots, stored, List.filter_cons_of_pos (by rw [parent]; rfl),
    List.filter_eq_nil_iff.mpr fun r member => by simp [Option.isSome_iff_ne_none.mp (nested r member)]]

end GroupBuilder

namespace Transformer

variable {t : Transformer ω τ} {input : TransformInput}

theorem Handles.merges {g g' : GroupArena} {matches' : List (GroupMatch ω τ)}
    (handled : t.Handles g matches' g') (merges : t.builder.Merges g) : t.builder.Merges g' := by
  induction handled with
  | nil => exact merges
  | text _ _ ih => exact ih merges
  | stored built _ _ _ ih =>
    obtain ⟨_, _, -, built⟩ := built
    exact ih (.merge merges (.built built))
  | leftOut _ _ _ _ _ ih => exact ih merges

/-- The top record of the group of a match, where it stands in the result. -/
def Produces (t : Transformer ω τ) (m : GroupMatch ω τ) (r : GroupedRecord) : Prop :=
  ∃ group root, t.Builds m group ∧ group.get 0 = .ok root
    ∧ r = GroupArena.shift m.state.groups.size root

theorem Handles.apart {M : GroupMatch ω τ → Prop} {g g' : GroupArena}
    {matches' : List (GroupMatch ω τ)} (handled : t.Handles g matches' g')
    (among : ∀ m ∈ matches', M m)
    (apart : g.roots.Pairwise fun a b => a.sameContent b = true →
      ∃ m, M m ∧ m.rule.allowDuplicates = true ∧ t.Produces m b) :
    g'.roots.Pairwise fun a b => a.sameContent b = true →
      ∃ m, M m ∧ m.rule.allowDuplicates = true ∧ t.Produces m b := by
  induction handled with
  | nil => exact apart
  | text _ _ ih => exact ih (fun m later => among m (.tail _ later)) apart
  | leftOut _ _ _ _ _ ih => exact ih (fun m later => among m (.tail _ later)) apart
  | @stored m more _ group root built first asked _ ih =>
    refine ih (fun m later => among m (.tail _ later)) ?_
    have produced : t.Produces m (GroupArena.shift m.state.groups.size root) :=
      ⟨group, root, built, first, rfl⟩
    obtain ⟨_, _, -, built⟩ := built
    obtain ⟨root', first', tops, -⟩ := GroupBuilder.build_top built
    rw [first] at first'
    cases first'
    rw [GroupArena.roots_merge, tops, List.map_singleton]
    refine List.pairwise_append.mpr
      ⟨apart, List.pairwise_singleton _ _, fun a earlier b last same => ?_⟩
    obtain rfl := List.mem_singleton.mp last
    refine ⟨m, among m (.head _), ?_, produced⟩
    obtain repeats | absent := asked
    · exact repeats
    · rw [GroupArena.containsEqual, List.any_eq_false] at absent
      exact absurd same (absent a earlier)

/-- Arenas are well formed however groups are merged, so the groups of a result are. Of two records on
top that have one content, the later one stems from a match whose rule asks for repetition. -/
theorem groups_of_transform (t : Transformer ω τ) :
    (∀ g, t.builder.Merges g → g.WellFormed t.builder.maxDepth)
      ∧ ∀ input o result o', t.transform input o = .ok result o' →
        result.groups.WellFormed t.builder.maxDepth
          ∧ result.groups.roots.Pairwise fun a b => a.sameContent b = true →
            ∃ m ∈ t.met input o, m.rule ∈ t.rules.allRules ∧ m.rule.allowDuplicates = true
              ∧ t.Produces m b := by
  refine ⟨fun g merges => GroupArena.wellFormed_of_placed merges.placed,
    fun input o result o' ran => ?_⟩
  have handled := transform_handles ran
  refine ⟨GroupArena.wellFormed_of_placed (handled.merges .empty).placed, ?_⟩
  refine (handled.apart (M := (· ∈ t.met input o)) (fun _ member => member) .nil).imp ?_
  intro a b repeated same
  obtain ⟨m, member, asked, produced⟩ := repeated same
  exact ⟨m, member, (of_mem_met member).1, asked, produced⟩

/-- A rule for names with the name nested in itself, that asks for repetition. -/
def nestingRule : FieldRule where
  field := "N"
  sources := [{ xpath := "n" }]
  allowDuplicates := true
  group := some (.mk "N" .other none none [{ name := FieldName.mainValue, xpaths := ["."] }]
    [.mk "INNER" .other (some (.text ".")) none [] [] false false] false false)

/-- Where the records of a result stand, and their main values. -/
def outline (result : TransformResult) : List (Int × Option Int × Nat × Option String) :=
  result.groups.toList.map fun r => (r.index, r.parent, r.depth, r.mainValue)

theorem groups_of_repeatedTexts :
    ∃ result left, (ofRule nestingRule).transform { element := some (textsRoot ["a", "b", "a"]) }
        ⟨(), none⟩ = .ok result left
      ∧ outline result = [(0, none, 0, some "a"), (1, some 0, 1, none), (2, none, 0, some "b"),
        (3, some 2, 1, none), (4, none, 0, some "a"), (5, some 4, 1, none)]
      ∧ result.groups.WellFormed 8
      ∧ ∃ m again, result.groups.roots[2]? = some again ∧ m.rule.allowDuplicates = true
        ∧ (ofRule nestingRule).Produces m again := by
  have records : (((ofRule nestingRule).transform
      { element := some (textsRoot ["a", "b", "a"]) }).outcome ⟨(), none⟩).map outline
      = .ok [(0, none, 0, some "a"), (1, some 0, 1, none), (2, none, 0, some "b"),
        (3, some 2, 1, none), (4, none, 0, some "a"), (5, some 4, 1, none)] := by
    decide +kernel
  have alike : (((ofRule nestingRule).transform
      { element := some (textsRoot ["a", "b", "a"]) }).outcome ⟨(), none⟩).map (fun result =>
        result.groups.roots.map fun r => result.groups.roots.map r.sameContent)
      = .ok [[true, false, true], [false, true, false], [true, false, true]] := by
    decide +kernel
  cases ran : (ofRule nestingRule).transform { element := some (textsRoot ["a", "b", "a"]) }
      ⟨(), none⟩ with
  | error fault left =>
    rw [Action.outcome_of_error ran] at records
    cases records
  | ok result left =>
    rw [Action.outcome_of_ok ran] at records alike
    replace records := Except.ok.inj records
    replace alike := Except.ok.inj alike
    obtain ⟨formed, apart⟩ := (groups_of_transform (ofRule nestingRule)).2 _ _ result left ran
    have count : result.groups.roots.length = 3 := by simpa using congrArg List.length alike
    have same : result.groups.roots[0].sameContent result.groups.roots[2] = true := by
      have first := congrArg (·[0]?.bind (·[2]?)) alike
      simpa [count] using first
    obtain ⟨m, -, -, asked, produced⟩ := List.pairwise_iff_getElem.mp apart 0 2 (by omega) (by omega)
      (by omega) same
    exact ⟨result, left, rfl, records, formed, m, _, List.getElem?_eq_getElem (by omega), asked,
      produced⟩

end Transformer

end MetadataIndex
