import MetadataIndex.Proofs.Group.Gifts

/-!
# Main values in the free text

A rule that adds values to the free text adds the main value of each of its groups, restricted or not,
while the fields of its record are finished. What the free text holds stays in it.
-/

set_option autoImplicit false

namespace MetadataIndex

variable {ω τ : Type} {rule : FieldRule} {value : String}

theorem FreeText.contains_add_of_contains {t : FreeText} (held : t.contains value = true)
    (other : String) : (t.add other).contains value = true := by
  rw [contains_iff] at held ⊢
  exact held.trans (t.buffer_prefix_add other).isInfix

def Collector.Shows (value : String) (c : Collector) : Prop := c.default.contains value = true

theorem Collector.shows_addDefault (c : Collector) (value : String) :
    (c.addDefault value).Shows value :=
  c.default.contains_add value

theorem Collector.Shows.addDefault {c : Collector} (shows' : c.Shows value) (other : String) :
    (c.addDefault other).Shows value :=
  FreeText.contains_add_of_contains shows' other

theorem Collector.Shows.put {c : Collector} (shows' : c.Shows value) (name other : String) :
    (c.put name other).Shows value := by
  rw [Shows, default_put]
  exact shows'

theorem GroupBuilder.shows_giftsKeep (b : GroupBuilder ω τ) (rule : FieldRule) (value : String) :
    b.GiftsKeep rule (Collector.Shows value) where
  text _ _ other held := held.addDefault other
  coordinates _ _ _ _ held := held.put _ _
  names _ _ _ _ _ held := held.put _ _
  defaults _ _ _ other held := held.addDefault other

namespace Finish

theorem shows_noteText (asked : rule.addToDefault = true) (given : (Text.trim value).isEmpty = false)
    (f : Field) (c : Collector) : (noteText rule (some value) f c).Shows value := by
  unfold noteText
  dsimp only
  rw [asked, if_pos rfl, given, if_neg Bool.false_ne_true]
  split
  · exact c.shows_addDefault value
  · exact (c.shows_addDefault value).addDefault _

/-- Finishing the fields of a group puts its main value into the free text. -/
theorem finishFields_reaches (asked : rule.addToDefault = true)
    (given : (Text.trim value).isEmpty = false) (keeps : Keeps rule (Collector.Shows value))
    (group : Collector) {fields : List Field} (some : fields ≠ []) :
    Action.Reaches (Collector.Shows value)
      (finishFields rule (.some value) group fields {} {}) := by
  cases fields with
  | nil => exact absurd rfl some
  | cons f fields =>
    have rest : ∀ finished : Collector, finished.Indexed → ∀ sorts,
        Action.Ensures (Collector.Shows value) (fun _ => True)
          (finishFields rule (.some value) group fields finished sorts) := fun _ indexed _ =>
      (finishFields_ensures (N := fun _ => True) keeps (fun _ => trivial) _ group
        (fun _ _ => trivial) (fun _ _ => trivial) indexed (fun _ _ => trivial)).imp
        fun _ _ => trivial
    unfold finishFields
    refine Action.Reaches.after (.trivial _) fun _ _ => ?_
    refine Action.Reaches.bind (.modify (shows_noteText asked given (converted rule f))) fun _ => ?_
    refine (Action.Ensures.lift (Q := fun _ => True) fun _ _ => trivial).bind fun sorts _ => ?_
    exact rest _ Collector.indexed_empty.put sorts

theorem fieldsOf_reaches (asked : rule.addToDefault = true)
    (given : (Text.trim value).isEmpty = false) (keeps : Keeps rule (Collector.Shows value))
    (label : String) {d : Draft} (main : d.mainValue = some value) (some : d.group.toList ≠ [])
    (answer : AuthorityAnswer) (restricted : Bool) :
    Action.Reaches (Collector.Shows value) (fieldsOf rule label d answer restricted) := by
  have keyed : (keyedGroup label answer d.group).1.toList ≠ [] := by
    unfold keyedGroup
    split
    · exact (Collector.stable_ne_nil fun _ => True).replaceValue some _ _
    · exact some
  unfold fieldsOf
  dsimp only
  rw [main]
  exact (finishFields_reaches asked given keeps _ keyed).bind fun _ => .pure trivial

end Finish

namespace GroupBuilder

variable {b : GroupBuilder ω τ}

/-- The record of an element puts the main value that the element gives into the free text. -/
theorem buildRecord_reaches (asked : rule.addToDefault = true)
    (given : (Text.trim value).isEmpty = false) (restricted : Bool) (depth : Nat) {t : GroupTask}
    {drafted : Draft}
    (made : Draft.ofElement b.reader rule t.entity t.element t.label = .ok drafted)
    (main : drafted.mainValue = some value) (index : Int) :
    Action.Reaches (fun s => s.collector.Shows value)
      (b.buildRecord rule restricted depth t index) := by
  have keeps := (b.shows_giftsKeep rule value).keeps
  unfold buildRecord
  refine Action.Reaches.after (BuildState.onWorld_ensures (I := fun _ => True)
    (b.draft_ensures rule t)) fun d drafts => ?_
  obtain ⟨drafted', made', same⟩ := drafts.mainValue
  rw [made] at made'
  cases made'
  refine Action.Reaches.after (.trivial _) fun answer _ => ?_
  refine Action.Reaches.after (.trivial _) fun _ _ => ?_
  refine Action.Reaches.bind ?_ fun _ => .pure trivial
  exact (Finish.fieldsOf_reaches asked given keeps.finish t.label (same.trans main) drafts.given
    answer _).onPart fun _ _ held => held

/-- So does the level of the element alone, and with it the whole group. -/
theorem buildLevels_reaches (asked : rule.addToDefault = true)
    (given : (Text.trim value).isEmpty = false) (restricted : Bool) {t : GroupTask} {drafted : Draft}
    (made : Draft.ofElement b.reader rule t.entity t.element t.label = .ok drafted)
    (main : drafted.mainValue = some value) (remaining : Nat) :
    Action.Reaches (fun s => s.collector.Shows value)
      (b.buildLevels rule restricted remaining 0 [t] {}) := by
  have keeps := (b.shows_giftsKeep rule value).keeps
  have level : ∀ hasBelow, Action.Reaches (fun s => s.collector.Shows value)
      (b.buildLevel rule restricted hasBelow 0 [t] {}) := by
    intro hasBelow
    unfold buildLevel
    refine (buildRecord_reaches asked given restricted 0 made main _).bind fun r => ?_
    unfold buildLevel
    cases hasBelow with
    | false => exact .pure trivial
    | true =>
      exact (Action.Ensures.lift (Q := fun _ => True) fun _ _ => trivial).bind fun _ _ =>
        .pure trivial
  cases remaining with
  | zero =>
    unfold buildLevels
    exact (level false).bind fun _ => .pure trivial
  | succ remaining =>
    unfold buildLevels
    refine (level true).bind ?_
    rintro ⟨arena, below⟩
    dsimp only
    split
    · exact .pure trivial
    · exact (buildLevels_ensures keeps (T := fun _ => True) (fun _ _ _ _ => trivial) restricted
        remaining 1 (fun _ _ => trivial) arena).imp fun _ _ => trivial

/-- A rule that adds values to the free text adds the main value of each of its groups. -/
theorem build_shows_mainValue (asked : rule.addToDefault = true) {e : GroupEntity}
    {element : Xml.Cursor} {label : String} {restricted : Bool} {s left : BuildState ω τ}
    {group : GroupArena}
    (ran : b.build rule e element label restricted s = .ok group left) :
    ∃ root, group.get 0 = .ok root ∧ ∀ value, root.mainValue = some value →
      (Text.trim value).isEmpty = false → left.collector.Shows value := by
  obtain ⟨root, deeper, stored, builds, -⟩ := ((build_ensures (b.keeps_trivial rule)
    (T := fun _ => True) (fun _ _ _ _ => trivial) trivial element label restricted).completed trivial
    ran).1
  refine ⟨root, GroupArena.get_zero stored, fun value main given => ?_⟩
  obtain ⟨drafted, made, same⟩ := builds.mainValue
  exact (buildLevels_reaches asked given restricted made (same.symm.trans main)
    b.maxDepth).completed ran

end GroupBuilder

end MetadataIndex
