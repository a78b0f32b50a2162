import MetadataIndex.Proofs.Group.Finished

/-!
# Sort fields of grouped records

A grouped record gets sort fields in two ways. A field of its entity may ask for one; then the first text
of each of its expressions is written to the sort field in every reading of the entity, whatever is
there. All other sort fields come when the record is finished, each for the first value that has a key.
So under the name of a sort field stand the values that asked for it, and only if there is none the
parts of one key.
-/

set_option autoImplicit false

namespace MetadataIndex

open MetadataIndex.Xml (Cursor)
open Relation (ReflTransGen)

variable {ω τ : Type} {rule : FieldRule} {e : GroupEntity} {name : String}

open FieldName (IsSort)

namespace GroupValue

open Collector (givenParts)

/-- Values that are not split give one sort field each. -/
theorem length_flatMap_sortParts (name : String) {values : List GroupValue}
    (given : ∀ v ∈ values, v.field.value ≠ "")
    (whole : ∀ v ∈ values, Text.containsLiteral v.field.value Collector.splitMark = false) :
    (values.flatMap (·.sortParts name)).length = values.countP (·.sortsUnder name) := by
  induction values with
  | nil => rfl
  | cons v values ih =>
    obtain ⟨givenFirst, givenRest⟩ := List.forall_mem_cons.mp given
    obtain ⟨wholeFirst, wholeRest⟩ := List.forall_mem_cons.mp whole
    rw [List.flatMap_cons, List.length_append, ih givenRest wholeRest, List.countP_cons, sortParts]
    split
    · rw [Collector.givenParts_of_whole wholeFirst givenFirst, List.length_singleton, Nat.add_comm]
    · simp

theorem exists_of_mem_sortParts {values : List GroupValue} :
    ∀ part ∈ values.flatMap (·.sortParts name), ∃ value, part ∈ givenParts value := by
  intro part member
  obtain ⟨v, -, inside⟩ := List.mem_flatMap.mp member
  unfold sortParts at inside
  split at inside
  · exact ⟨v.field.value, inside⟩
  · cases inside

end GroupValue

/-- Whether the first texts of a field are sorted under a name. -/
def Subfield.sortsUnder (name : String) (s : Subfield) : Bool :=
  s.addSortField && sortFieldName s.name == name

namespace GroupReader

variable {g : GroupReader} {s : Subfield} {c : Cursor} {values : List GroupValue}

/-- Texts behind the first do not sort. -/
theorem countP_sortsUnder_behind (name : String) {texts : List String} {position : Nat}
    {found : List (Option GroupValue)}
    (ran : ((texts.zipIdx (position + 1)).mapM fun (text, position) => g.valueOf rule s text position)
      = .ok found) : (found.filterMap id).countP (·.sortsUnder name) = 0 := by
  rw [List.countP_eq_zero]
  intro v member sorts
  obtain ⟨_, member, rfl⟩ := List.mem_filterMap.mp member
  obtain ⟨⟨text, place⟩, inside, read⟩ := Checked.of_mem_mapM ran member
  obtain ⟨-, first⟩ := (of_valueOf read).2 (Bool.and_eq_true_iff.mp sorts).1
  have behind : position + 1 ≤ place := List.le_snd_of_mem_zipIdx inside
  omega

/-- An expression gives one value at most that sorts. -/
theorem countP_sortsUnder_query {query : String × String}
    (read : g.valuesOfQuery rule s c query = .ok values) :
    values.countP (·.sortsUnder name)
      ≤ if s.sortsUnder name then 1 else 0 := by
  split
  case isTrue asked =>
    obtain ⟨texts, -, read⟩ := Checked.bind_ok read
    obtain ⟨found, each, read⟩ := Checked.bind_ok read
    cases read
    cases texts with
    | nil =>
      cases each
      exact Nat.zero_le 1
    | cons text texts =>
      rw [List.zipIdx_cons, List.mapM_cons] at each
      obtain ⟨first, -, each⟩ := Checked.bind_ok each
      obtain ⟨rest, behind, each⟩ := Checked.bind_ok each
      cases each
      have none := countP_sortsUnder_behind name behind
      cases first with
      | none => simpa using Nat.le_of_eq none |>.trans (Nat.zero_le 1)
      | some v =>
        rw [List.filterMap_cons, id, List.countP_cons, none]
        split <;> omega
  case isFalse unasked =>
    apply Nat.le_of_eq
    rw [List.countP_eq_zero]
    intro v member sorts
    obtain ⟨text, position, read⟩ := of_mem_valuesOfQuery read v member
    obtain ⟨asked, same⟩ := Bool.and_eq_true_iff.mp sorts
    rw [name_of_valueOf read] at same
    exact unasked (Bool.and_eq_true_iff.mpr ⟨((of_valueOf read).2 asked).1, same⟩)

end GroupReader

/-- The expressions whose first texts an entity sorts under a name. -/
def GroupEntity.sortXPaths (name : String) (e : GroupEntity) : List String :=
  (e.subfields.filter (·.sortsUnder name)).flatMap (·.xpaths)

/-- One reading of an entity gives a name at most as many sort fields as expressions sort under it. -/
theorem GroupReader.countP_sortsUnder_values {g : GroupReader} {c : Cursor}
    {reference : Option String} {values : List GroupValue}
    (read : g.values rule e c reference = .ok values) :
    values.countP (·.sortsUnder name) ≤ (e.sortXPaths name).length :=
  (countP_values_le (fun _ _ _ _ => countP_sortsUnder_query) read).trans
    (e.length_queriesOf_le (·.sortsUnder name) reference)

/-- No field of the entity is itself a sort field. -/
def GroupEntity.SortsNothing (e : GroupEntity) : Prop := ∀ s ∈ e.subfields, ¬IsSort s.name

namespace Draft

variable {d : Draft} {values : List GroupValue} {kind : GroupKind}

/-- Under the names of sort fields stand the values that asked for them. -/
def SortsBy (e : GroupEntity) (values : List GroupValue) (d : Draft) : Prop :=
  e.SortsNothing → ∀ name, IsSort name → d.group.values name = values.flatMap (·.sortParts name)

end Draft

namespace GroupBuilder

variable {b : GroupBuilder ω τ} {t : GroupTask} {d : Draft}

namespace Reads

variable {own : List GroupValue} {referenced cited : Option (List GroupValue)}

/-- Each reading gives a name at most as many sort fields as expressions sort under it. -/
theorem countP_le (reads : b.Reads rule t own referenced cited) (name : String) :
    (own ++ referenced.getD [] ++ cited.getD []).countP (·.sortsUnder name)
      ≤ (1 + referenced.toList.length + cited.toList.length)
        * (t.entity.sortXPaths name).length := by
  rw [Nat.add_mul, Nat.add_mul, Nat.one_mul]
  exact reads.countP_le_of_each (fun _ _ => GroupReader.countP_sortsUnder_values)
    fun _ _ _ => GroupReader.countP_sortsUnder_values

end Reads

theorem sortsBy_of_draft {w w' : ω} (drafted : b.draft rule t w = .ok d w') :
    ∃ own referenced cited, b.Reads rule t own referenced cited
      ∧ d.SortsBy t.entity (own ++ referenced.getD [] ++ cited.getD []) := by
  obtain ⟨own, referenced, cited, gathers⟩ := gathers_of_draft drafted
  refine ⟨own, referenced, cited, gathers.reads, fun plain name sorts => ?_⟩
  rw [gathers.values_of_not_isMainName (Draft.not_mem_ownNames_of_isSort sorts)
    fun main => FieldName.not_isSort_of_isMainName main sorts]
  refine GroupValue.valuesOf_flatMap_fields_of_ne fun v member => ?_
  obtain ⟨s, subfield, same⟩ := gathers.reads.name_of_mem v member
  rw [same]
  exact sorts.ne (plain s subfield)

end GroupBuilder

namespace GroupBuilder

open FieldWrite (firstParts)

variable {b : GroupBuilder ω τ} {restricted : Bool}

/-- Each record of a group was read from its element, from the parent of it for a reference and from the
document of a citation. Under the name of a sort field stand the values that asked for it, as often as
they were read; if there is none, the parts of the first key of its fields. So if nothing is split there
is one sort field at most exactly when one value at most asked for it; and that is so when the element
alone was read and one expression sorts under the name. -/
theorem sortFields_of_build {e : GroupEntity} {element : Cursor} {label : String}
    {s s' : BuildState ω τ} {group : GroupArena}
    (ran : b.build rule e element label restricted s = .ok group s') :
    ∀ r ∈ group.toList, ∃ t d answer own referenced cited,
      ReflTransGen (fun above below => below ∈ above.children) e t.entity
        ∧ (∃ w w', b.draft rule t w = .ok d w') ∧ (∃ u u', b.answerOf rule d u = .ok answer u')
        ∧ b.Reads rule t own referenced cited
        ∧ (t.entity.SortsNothing → ∀ name, IsSort name →
          let values := own ++ referenced.getD [] ++ cited.getD []
          let writes := Finish.sortWrites rule (Finish.keyedGroup t.label answer d.group).1.toList
          (r.values name = if values.flatMap (·.sortParts name) = [] then firstParts name writes
              else values.flatMap (·.sortParts name))
            ∧ values.countP (·.sortsUnder name)
              ≤ (1 + referenced.toList.length + cited.toList.length)
                * (t.entity.sortXPaths name).length
            ∧ ((∀ v ∈ values, Text.containsLiteral v.field.value Collector.splitMark = false) →
              (∀ w ∈ writes, ∀ f, w.sortField? = some f →
                Text.containsLiteral f.value Collector.splitMark = false) →
              ((r.values name).length ≤ 1 ↔ values.countP (·.sortsUnder name) ≤ 1))) := by
  intro r member
  obtain ⟨depth, t, index, before, after, nested, record⟩ := (nested_of_build ran).records r member
  obtain ⟨d, answer, c, c', ⟨w, w', drafted⟩, answered, finished⟩ := fields_of_buildRecord record
  obtain ⟨own, referenced, cited, reads, sorted⟩ := sortsBy_of_draft drafted
  refine ⟨t, d, answer, own, referenced, cited, nested, ⟨w, w', drafted⟩, answered, reads, ?_⟩
  intro plain name sorts values writes
  have found : d.group.values name = values.flatMap (·.sortParts name) := sorted plain name sorts
  have left : r.values name = if values.flatMap (·.sortParts name) = [] then firstParts name writes
      else values.flatMap (·.sortParts name) := by
    rw [← found]
    apply Finish.values_fieldsOf finished sorts
    rw [found]
    exact GroupValue.exists_of_mem_sortParts
  refine ⟨left, reads.countP_le name, ?_⟩
  intro whole keys
  have count : (values.flatMap (·.sortParts name)).length = values.countP (·.sortsUnder name) :=
    GroupValue.length_flatMap_sortParts name reads.value_ne_empty whole
  rw [left, ← count]
  split
  case isTrue none =>
    have single : (firstParts name writes).length ≤ 1 :=
      FieldWrite.length_firstParts_le fun w member f made _ => keys w member f made
    rw [none]
    exact ⟨fun _ => Nat.zero_le 1, fun _ => single⟩
  case isFalse => rfl

section Aliases

/-- An element for a name with an alias. -/
def aliasRoot : Cursor :=
  let text (name text : String) : Xml.Node := .element { plain := name } [] [] [.text text]
  let root : Xml.Node := .element { plain := "n" } [] [] [text "a" "x", text "b" "y"]
  .inside (.document { content := [root] }) 0 root

def aliasEntity : GroupEntity :=
  .mk "N" .other none none
    [{ name := FieldName.mainValue, xpaths := ["a", "b"], addSortField := true }] [] false false

def aliasRule : FieldRule where
  field := "N"
  sources := [{ xpath := "n" }]

def buildAliases : Action (BuildState Unit Unit) GroupArena :=
  ({} : GroupBuilder Unit Unit).build aliasRule aliasEntity aliasRoot "N" false

theorem aliasEntity_sortsNothing : aliasEntity.SortsNothing := by
  intro s member
  rw [List.mem_singleton.mp member]
  show ¬IsSort FieldName.mainValue
  decide

theorem sortFields_of_aliases : ∃ group s', buildAliases ⟨{}, ⟨(), none⟩⟩ = .ok group s'
    ∧ ∀ r ∈ group.toList, ∃ t own referenced cited,
      t.entity = aliasEntity ∧ Reads ({} : GroupBuilder Unit Unit) aliasRule t own referenced cited
        ∧ (own ++ referenced.getD [] ++ cited.getD []).countP (·.sortsUnder "SORT_VALUE")
          ≤ (1 + referenced.toList.length + cited.toList.length) * 2 := by
  obtain ⟨group, s', ran, -⟩ := Action.ok_of_outcome_map (g := fun _ => ()) (b := ())
    (x := buildAliases) (s := ⟨{}, ⟨(), none⟩⟩) (by decide +kernel)
  refine ⟨group, s', ran, ?_⟩
  intro r member
  obtain ⟨t, d, answer, own, referenced, cited, nested, -, -, reads, law⟩ :=
    sortFields_of_build ran r member
  have same : aliasEntity = t.entity := by
    rcases nested.cases_head with same | ⟨child, inside, -⟩
    · exact same
    · cases inside
  obtain ⟨-, few, -⟩ := law (same ▸ aliasEntity_sortsNothing) "SORT_VALUE" (by decide)
  rw [← same] at few
  have two : (aliasEntity.sortXPaths "SORT_VALUE").length = 2 := by decide +kernel
  rw [two] at few
  exact ⟨t, own, referenced, cited, same.symm, reads, few⟩

/-- Both expressions of a field write the first of their texts to its sort field. -/
theorem two_sortFields_of_aliases :
    ∃ group s', buildAliases ⟨{}, ⟨(), none⟩⟩ = .ok group s' ∧ aliasEntity.SortsNothing
      ∧ group.toList.map (·.values "SORT_VALUE") = [["x", "y"]] := by
  have shown : (buildAliases.outcome ⟨{}, ⟨(), none⟩⟩).map
      (fun group => group.toList.map (·.values "SORT_VALUE")) = .ok [["x", "y"]] := by
    decide +kernel
  obtain ⟨group, s', ran, shown⟩ := Action.ok_of_outcome_map shown
  exact ⟨group, s', ran, aliasEntity_sortsNothing, shown⟩

end Aliases

end GroupBuilder

end MetadataIndex
