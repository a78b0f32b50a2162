import MetadataIndex.Proofs.Group.Apart
import MetadataIndex.Proofs.Group.Shown
import MetadataIndex.Proofs.Transform.Caching
import MetadataIndex.Proofs.Transform.Restriction

/-!
# What may not be shared and the owning record

Two inputs that differ only in elements that may not be shared give the owning record the same fields
and the same free text, when both transformations complete and the rules that group such elements keep
their groups apart. Their groups differ, but all that differs is marked.
-/

set_option autoImplicit false

namespace MetadataIndex

open AuthorityService (Finds)

variable {ω τ : Type} {answer : String → Checked LookupResult}
  {document : String → Checked (Option Xml.Cursor)}

namespace GroupArena

def SameUnmarked (g g' : GroupArena) : Prop :=
  ∀ r : GroupedRecord, r.isMarked = false → g.containsEqual r = g'.containsEqual r

theorem containsEqual_merge (g group : GroupArena) (r : GroupedRecord) :
    (g.merge group).containsEqual r = (g.containsEqual r || group.containsEqual r) := by
  have tops : (fun r : GroupedRecord => r.parent.isNone) ∘ shift g.size = (·.parent.isNone) := by
    funext r'
    simp [shift]
  have contents : (fun r' : GroupedRecord => r'.sameContent r) ∘ shift g.size
      = (·.sameContent r) := by
    funext r'
    simp [shift, GroupedRecord.sameContent]
  unfold containsEqual roots
  rw [toList_merge, List.filter_append, List.any_append, List.filter_map, List.any_map, tops,
    contents]

theorem sameUnmarked_relates :
    Relates SameUnmarked fun r => r.isMarked = false := by
  refine ⟨fun root same unmarked => same root unmarked, fun group same r unmarked => ?_⟩
  rw [containsEqual_merge, containsEqual_merge, same r unmarked]

end GroupArena

theorem GroupBuilder.build_keepsOnly {b : GroupBuilder ω τ} (answers : b.Answers answer)
    (cites : b.Cites document) (r : FieldRule) (e : GroupEntity) (c : Xml.Cursor) (label : String)
    (restricted : Bool) :
    Action.Ensures (fun s => s.outside.KeepsOnly (Finds answer)) (fun _ => True)
      (b.build r e c label restricted) := by
  have respects : b.Respects False (fun _ _ => True) (BothKept (KeptOnly (Finds answer))) :=
    answers.respects_kept cites
  refine .of_leaves fun s kept => ?_
  have compared := build_compares respects (b.readAlike_refl r b.maxDepth e c) label restricted
  exact (compared.leaves ⟨rfl, trivial, kept, kept⟩).outside.cache.1

/-- Two results of an expression that look alike to the owning record: both may not be shared, or both
are the same values. -/
inductive GroupBuilder.SharesAlike (b : GroupBuilder ω τ) (r : FieldRule) (i i' : XPath.Item) :
    Prop where
  | withheld (single : r.group = none) (left : i.isRestricted = true)
    (right : i'.isRestricted = true)
  | marked {e : GroupEntity} (grouped : r.group = some e) (left : i.isRestricted = true)
    (right : i'.isRestricted = true) (apart : r.KeepsApart e b.authority.isSome)
    (named : ∀ c, i.place? = some c → b.Names r e c)
    (named' : ∀ c, i'.place? = some c → b.Names r e c)
  | shared (left : i.isRestricted = false) (right : i'.isRestricted = false)
    (texts : r.group = none → i.toText = i'.toText)
    (places : ∀ e, r.group = some e →
      Option.Rel (b.ReadAlike r b.maxDepth e) i.place? i'.place?)

/-- Outer worlds whose caches, if any, keep only entries that the lookup finds; what was written is
equal, and so are the unmarked groups. -/
abbrev TransformState.SharedAlike (answer : String → Checked LookupResult) :
    TransformState ω τ → TransformState ω τ → Prop :=
  Related (fun _ _ => True) (BothKept (KeptOnly (Finds answer))) GroupArena.SameUnmarked

namespace TransformState

/-- Two states look alike to the owning record. -/
structure LooksLike (s s' : TransformState ω τ) : Prop where
  collector : s.collector = s'.collector
  groups : s.groups.SameUnmarked s'.groups
  outside : s.outside = s'.outside

theorem attach_withheld {group : GroupArena} {root : GroupedRecord} (held : group.Withheld root)
    (s : TransformState ω τ) : (attach group s).LooksLike s := by
  refine ⟨?_, fun r unmarked => ?_, rfl⟩
  · have promotes := held.promotes
    unfold attach
    dsimp only
    generalize group.toList = records at promotes
    induction records with
    | nil => rfl
    | cons r records ih =>
      rw [List.foldl_cons, promotes r (.head _)]
      exact ih fun r' later => promotes r' (.tail _ later)
  · unfold attach
    rw [GroupArena.containsEqual_merge, held.unlike r unmarked, Bool.or_false]

/-- A group that may not be shared is stored or not; the owning record does not see it. -/
theorem store_withheld {group : GroupArena} {root : GroupedRecord} (held : group.Withheld root)
    (repeats : Bool) (main : Option String) (s : TransformState ω τ) :
    ∃ left : TransformState ω τ, (do
        if repeats || !(← get).groups.containsEqual root then modify (attach group)
        return main : Action (TransformState ω τ) (Option String)) s = .ok main left
      ∧ left.LooksLike s := by
  cases stores : repeats || !s.groups.containsEqual root with
  | false =>
    refine ⟨s, (Action.bind_of_ok (x := get) rfl).trans ?_, rfl, fun _ _ => rfl, rfl⟩
    dsimp only
    rw [stores]
    rfl
  | true =>
    refine ⟨attach group s, (Action.bind_of_ok (x := get) rfl).trans ?_, attach_withheld held s⟩
    dsimp only
    rw [stores]
    rfl

theorem SharedAlike.of_looksLike {s s' left left' : TransformState ω τ}
    (states : SharedAlike answer s s') (like : left.LooksLike s) (like' : left'.LooksLike s') :
    SharedAlike answer left left' where
  collector := (like.collector.trans states.collector).trans like'.collector.symm
  groups r unmarked := ((like.groups r unmarked).trans (states.groups r unmarked)).trans
    (like'.groups r unmarked).symm
  outside := by
    rw [like.outside, like'.outside]
    exact states.outside

end TransformState

namespace Transformer

variable {t : Transformer ω τ} {r : FieldRule} {e : GroupEntity} {i i' : XPath.Item}

theorem place_of_restricted (restricted : i.isRestricted = true) : ∃ c, i.place? = some c := by
  obtain ⟨c, found, -⟩ := (Option.any_eq_true _ _).mp restricted
  exact ⟨c, found⟩

/-- A restricted match of a rule without groups gives no value. -/
theorem valueOf_restricted (restricted : i.isRestricted = true) {s : XPathSource}
    {value : Option String} (read : r.valueOf s i = .ok value) : value = none := by
  unfold FieldRule.valueOf at read
  split at read
  · cases read
    rfl
  · split at read
    · cases read
      rfl
    · obtain ⟨cut, _, read⟩ := Checked.bind_ok read
      cases cut with
      | none =>
        cases read
        rfl
      | some cut =>
        cases read
        rfl

theorem valueOf_congr (texts : i.toText = i'.toText) (same : i.isRestricted = i'.isRestricted)
    (s : XPathSource) : r.valueOf s i = r.valueOf s i' := by
  unfold FieldRule.valueOf
  rw [texts, same]

/-- Groups that are kept apart are built alike, as far as the owning record and the outer world go. -/
theorem build_compares_withheld (answers : t.builder.Answers answer)
    (cites : t.builder.Cites document) (lacks : e.hasSubfield FieldName.accessCondition = false)
    (apart : r.KeepsApart e t.builder.authority.isSome) {c c' : Xml.Cursor}
    (named : t.builder.Names r e c) (named' : t.builder.Names r e c') :
    Action.Compares True
      (BuildState.Related (fun _ _ => True) (BothKept (KeptOnly (Finds answer))))
      (fun group group' => (∃ root, group.Withheld root) ∧ ∃ root, group'.Withheld root)
      (t.builder.build r e c r.field true) (t.builder.build r e c' r.field true) := by
  refine .of_runs fun s s' group group' built built' states ran ran' => ?_
  obtain ⟨held, same⟩ := (GroupBuilder.build_withheld apart lacks named s.collector).completed rfl ran
  obtain ⟨held', same'⟩ :=
    (GroupBuilder.build_withheld apart lacks named' s'.collector).completed rfl ran'
  have kept := (GroupBuilder.build_keepsOnly answers cites r e c r.field true).completed
    states.outside.cache.1 ran
  have kept' := (GroupBuilder.build_keepsOnly answers cites r e c' r.field true).completed
    states.outside.cache.2 ran'
  refine ⟨⟨held, held'⟩, ?_, trivial, kept.2, kept'.2⟩
  rw [same, same', states.collector]

/-- Restricted matches whose groups are kept apart both give the mark, and their groups stay out of
sight of the owning record. -/
theorem buildGroup_compares_withheld (answers : t.builder.Answers answer)
    (cites : t.builder.Cites document) (lacks : e.hasSubfield FieldName.accessCondition = false)
    (apart : r.KeepsApart e t.builder.authority.isSome) (left : i.isRestricted = true)
    (right : i'.isRestricted = true) (named : ∀ c, i.place? = some c → t.builder.Names r e c)
    (named' : ∀ c, i'.place? = some c → t.builder.Names r e c) :
    Action.Compares True (TransformState.SharedAlike answer) Eq (t.buildGroup r e i)
      (t.buildGroup r e i') := by
  obtain ⟨c, found⟩ := place_of_restricted left
  obtain ⟨c', found'⟩ := place_of_restricted right
  unfold buildGroup
  rw [found, found']
  dsimp only
  rw [left, right]
  refine Action.Compares.bind (TransformState.onBuild_compares
    (build_compares_withheld answers cites lacks apart (named c found) (named' c' found'))) ?_
  rintro group group' ⟨⟨root, held⟩, ⟨root', held'⟩⟩
  rw [held.first, held'.first]
  refine Action.Compares.bind (A := fun a a' => a = root ∧ a' = root') (.pure ⟨rfl, rfl⟩) ?_
  rintro _ _ ⟨rfl, rfl⟩
  intro s s' states
  obtain ⟨final, ran, like⟩ := TransformState.store_withheld held r.allowDuplicates
    (some FieldName.accessRestricted) s
  obtain ⟨final', ran', like'⟩ := TransformState.store_withheld held' r.allowDuplicates
    (some FieldName.accessRestricted) s'
  have ends : Action.Ends True (TransformState.SharedAlike answer) Eq
      (.ok (some FieldName.accessRestricted) final) (.ok (some FieldName.accessRestricted) final') :=
    .ok rfl (states.of_looksLike like like')
  rw [← ran, ← ran'] at ends
  obtain ⟨value, given⟩ := Option.isSome_iff_exists.mp held.valued
  obtain ⟨value', given'⟩ := Option.isSome_iff_exists.mp held'.valued
  rw [given, given']
  exact ends

/-- Matches that look alike to the owning record are added alike. -/
theorem addsAlike_withheld (answers : t.builder.Answers answer) (cites : t.builder.Cites document)
    (lacks : ∀ r ∈ t.rules.allRules, ∀ e, r.group = some e →
      e.hasSubfield FieldName.accessCondition = false) :
    t.AddsAlike True (fun _ _ => True) (BothKept (KeptOnly (Finds answer))) GroupArena.SameUnmarked
      t.builder.SharesAlike := by
  intro r member s _ i i' shares values
  unfold addMatch
  cases shares with
  | withheld single left right =>
    rw [single]
    refine Action.Compares.bind (A := fun a a' => a = none ∧ a' = none) (.of_runs ?_) ?_
    · intro state state' a a' final final' states ran ran'
      obtain ⟨read, rfl⟩ := Action.lift_ok ran
      obtain ⟨read', rfl⟩ := Action.lift_ok ran'
      exact ⟨⟨valueOf_restricted left read, valueOf_restricted right read'⟩, states⟩
    · rintro _ _ ⟨rfl, rfl⟩
      exact .pure rfl
  | marked grouped left right apart named named' =>
    rw [grouped]
    refine Action.Compares.bind_eq (buildGroup_compares_withheld answers cites
      (lacks r member _ grouped) apart left right named named') fun main => .pure rfl
  | shared left right texts places =>
    have same : i.isRestricted = i'.isRestricted := left.trans right.symm
    cases grouped : r.group with
    | none =>
      rw [valueOf_congr (texts grouped) same]
      refine Action.Compares.bind_eq (.lift_self _) fun value => ?_
      cases value with
      | none => exact .pure rfl
      | some value => exact .pure rfl
    | some e =>
      have respects : t.builder.Respects True (fun _ _ => True)
          (BothKept (KeptOnly (Finds answer))) := answers.respects_kept cites
      refine Action.Compares.bind_eq (buildGroup_compares respects GroupArena.sameUnmarked_relates
        same (places e grouped) fun c _ => ?_) fun main => .pure rfl
      rw [left]
      exact GroupBuilder.build_unmarked r (lacks r member e grouped) c

/-- What is restricted is no main value: the mark stands in its place. -/
theorem buildGroup_restricted (restricted : i.isRestricted = true) :
    Action.Ensures (fun _ => True)
      (fun main => main = none ∨ main = some FieldName.accessRestricted) (t.buildGroup r e i) := by
  obtain ⟨c, found⟩ := place_of_restricted restricted
  unfold buildGroup
  rw [found]
  dsimp only
  rw [restricted]
  refine (Action.Ensures.trivial _).bind fun group _ => ?_
  refine (Action.Ensures.trivial _).bind fun root _ => ?_
  refine (Action.Ensures.trivial _).bind fun state _ => ?_
  have main : Action.Ensures (fun _ => True)
      (fun main => main = none ∨ main = some FieldName.accessRestricted)
      (pure (root.mainValue.map fun _ => FieldName.accessRestricted) :
        Action (TransformState ω τ) (Option String)) := by
    cases root.mainValue with
    | none => exact .pure (.inl rfl)
    | some value => exact .pure (.inr rfl)
  split
  · exact (Action.Ensures.trivial _).bind fun _ _ => main
  · exact main

/-- A restricted match adds the mark to the raw values of a grouped rule, or nothing. -/
theorem addMatch_restricted (restricted : i.isRestricted = true) (s : XPathSource)
    (values : List String) :
    Action.Ensures (fun _ => True)
      (fun out => out = values
        ∨ r.isGrouped = true ∧ out = values ++ [FieldName.accessRestricted])
      (t.addMatch r s values i) := by
  unfold addMatch
  cases grouped : r.group with
  | none =>
    refine (Action.Ensures.lift (Q := fun value => value = none) fun value read =>
      valueOf_restricted restricted read).bind ?_
    rintro _ rfl
    exact .pure (.inl rfl)
  | some e =>
    have isGrouped : r.isGrouped = true := by
      rw [FieldRule.isGrouped, grouped]
      rfl
    refine (buildGroup_restricted restricted).bind ?_
    rintro _ (rfl | rfl)
    · exact .pure (.inl (List.append_nil values))
    · refine .pure (.inr ⟨isGrouped, ?_⟩)
      change values ++ [FieldRule.groupValue s FieldName.accessRestricted] = _
      rw [FieldRule.groupValue_restricted]

theorem promote_shows {value : String} (record : GroupedRecord) {c : Collector}
    (held : c.Shows value) : (record.promote c).Shows value :=
  GroupedRecord.promote_induction held fun _ f _ _ held => held.put f.name f.value

theorem attach_shows {value : String} (group : GroupArena) {s : TransformState ω τ}
    (held : s.collector.Shows value) : (TransformState.attach group s).collector.Shows value := by
  unfold TransformState.attach
  dsimp only
  generalize s.collector = c at held
  induction group.toList generalizing c with
  | nil => exact held
  | cons record records ih => exact ih (record.promote c) (promote_shows record held)

theorem buildGroup_reaches (asked : r.addToDefault = true) {c : Xml.Cursor}
    (found : i.place? = some c) {d : Draft}
    (made : Draft.ofElement t.builder.reader r e c r.field = .ok d) {value : String}
    (main : d.mainValue = some value) (given : (Text.trim value).isEmpty = false) :
    Action.Reaches (fun s => s.collector.Shows value) (t.buildGroup r e i) := by
  unfold buildGroup
  rw [found]
  refine Action.Reaches.bind ((GroupBuilder.buildLevels_reaches asked given i.isRestricted
    (t := ⟨c, e, r.field, none⟩) made main t.builder.maxDepth).onPart fun _ _ held => held)
    fun group => ?_
  refine (Action.Ensures.lift (Q := fun _ => True) fun _ _ => trivial).bind fun root _ => ?_
  refine Action.Ensures.get.bind fun state _ => ?_
  dsimp only
  generalize root.mainValue.map _ = main
  split
  · have stores := Action.Ensures.modify (I := fun s : TransformState ω τ => s.collector.Shows value)
      (f := TransformState.attach group) fun _ held => attach_shows group held
    exact stores.bind fun _ _ => .pure trivial
  · exact .pure trivial

/-- A match of a grouped rule that adds values to the free text adds the main value of its
element. -/
theorem addMatch_reaches (grouped : r.group = some e) (asked : r.addToDefault = true)
    {c : Xml.Cursor} (found : i.place? = some c) {d : Draft}
    (made : Draft.ofElement t.builder.reader r e c r.field = .ok d) {value : String}
    (main : d.mainValue = some value) (given : (Text.trim value).isEmpty = false) (s : XPathSource)
    (values : List String) :
    Action.Reaches (fun s => s.collector.Shows value) (t.addMatch r s values i) := by
  unfold addMatch
  rw [grouped]
  exact (buildGroup_reaches asked found made main given).bind fun _ => .pure trivial

/-- Restricted matches give raw values nothing but the mark. The fields and the free text of the owning
record do not depend on what may not be shared, where every rule that groups such elements keeps its
groups apart. A rule that adds values to the free text does not: it adds their main values. -/
theorem owningRecord_of_withheld (answers : t.builder.Answers answer)
    (cites : t.builder.Cites document)
    (lacks : ∀ r ∈ t.rules.allRules, ∀ e, r.group = some e →
      e.hasSubfield FieldName.accessCondition = false) :
    (∀ r s values i (state left : TransformState ω τ) out, i.isRestricted = true →
        t.addMatch r s values i state = .ok out left →
        out = values ∨ r.isGrouped = true ∧ out = values ++ [FieldName.accessRestricted])
      ∧ (∀ input input', t.ReadsAlike t.builder.SharesAlike input input' →
        ∀ o o' left left' result result', o.KeepsOnly (Finds answer) →
        o'.KeepsOnly (Finds answer) → t.transform input o = .ok result left →
        t.transform input' o' = .ok result' left' →
        result.fields = result'.fields ∧ result.defaultText = result'.defaultText)
      ∧ ∀ r e i c, r.group = some e → r.addToDefault = true → i.place? = some c →
        ∀ d value, Draft.ofElement t.builder.reader r e c r.field = .ok d →
        d.mainValue = some value → (Text.trim value).isEmpty = false →
        ∀ s values (state left : TransformState ω τ) out,
        t.addMatch r s values i state = .ok out left → left.collector.Shows value := by
  refine ⟨?_, ?_, ?_⟩
  · intro r s values i state left out restricted ran
    exact ((addMatch_restricted restricted s values).completed trivial ran).1
  · intro input input' alike o o' left left' result result' kept kept' ran ran'
    have compared := transform_compares (addsAlike_withheld answers cites lacks) alike fun _ _ => rfl
    have related := compared.of_ok ⟨trivial, kept, kept'⟩ ran ran'
    exact ⟨related.fields, related.defaultText⟩
  · intro r e i c grouped asked found d value made main given s values state left out ran
    exact (addMatch_reaches grouped asked found made main given s values).completed ran

def twoNames (uri : String) : Checked LookupResult :=
  .ok (.found [("NORM_NAME", if uri = "http://n/1" then "Anna" else "Berta")])

/-- A transformer that groups elements by their text and resolves it as an address. -/
def namesOfText : Transformer Unit Rat where
  rules := {
    fields := [("N", [{
      field := "N", sources := [{ xpath := "n" }]
      group := some (.mk "N" .other none none
        [{ name := FieldName.mainValue, xpaths := ["."] },
          { name := FieldName.normUri, xpaths := ["."] }] [] false false) }])] }
  builder := { authority := some {
    lookup := fun uri => liftM (twoNames uri), now := fun w => (0, w), scale := .exact } }

/-- The free text that a rule for elements by their text gives for a text that may not be shared. -/
def shownText (text : String) : Checked String :=
  (((ofRule { wholeTextRule {} with addToDefault := true }).transform
    { element := some (withheldRoot text) }).outcome ⟨(), none⟩).map (·.defaultText)

/-- The names that are copied for an address that may not be shared. -/
def copiedNames (uri : String) : Checked (List String) :=
  ((namesOfText.transform { element := some (withheldRoot uri) }).outcome ⟨(), none⟩).map
    (·.values (FieldName.untokenized "N"))

/-- The owning record depends on texts that may not be shared: on main values that are added to the
free text, and on addresses whose names are copied. -/
theorem owningRecord_depends_on_withheld :
    shownText "abc" = .ok " abc " ∧ shownText "abd" = .ok " abd "
      ∧ copiedNames "http://n/1" = .ok ["Anna"] ∧ copiedNames "http://n/2" = .ok ["Berta"] := by
  refine ⟨?_, ?_, ?_, ?_⟩
  · decide +kernel
  · decide +kernel
  · decide +kernel
  · decide +kernel

/-- A text that may not be shared, as what a transformation reads. -/
def withheldInput (text : String) : TransformInput := { element := some (withheldRoot text) }

theorem evaluate_withheldRoot (text : String) :
    ({} : XPath.Evaluator).evaluate (XPath.buildQuery "n" "" true) (withheldRoot text)
      = .ok [.place (withheld text)] := by
  with_unfolding_all rfl

theorem readsAlike_withheldTexts {text text' : String}
    (named : (ofRule (wholeTextRule {})).builder.Names (wholeTextRule {}) wholeText (withheld text))
    (named' : (ofRule (wholeTextRule {})).builder.Names (wholeTextRule {}) wholeText
      (withheld text')) :
    (ofRule (wholeTextRule {})).ReadsAlike (ofRule (wholeTextRule {})).builder.SharesAlike
      (withheldInput text) (withheldInput text') := by
  refine ⟨rfl, rfl, fun r member _ => ?_⟩
  obtain rfl : r = wholeTextRule {} := List.mem_singleton.mp member
  have apart : (wholeTextRule {}).KeepsApart wholeText false := ⟨rfl, .inl rfl, nofun⟩
  change Checked.Agree _ (.ok [withheldRoot text]) (.ok [withheldRoot text'])
  refine .ok (.cons (fun s source start known => ?_) .nil)
  obtain rfl : s = { xpath := "n" } := List.mem_singleton.mp source
  cases known
  change Checked.Agree _ (({} : XPath.Evaluator).evaluate (XPath.buildQuery "n" "" true) _)
    (({} : XPath.Evaluator).evaluate (XPath.buildQuery "n" "" true) _)
  rw [evaluate_withheldRoot, evaluate_withheldRoot]
  refine .ok (.cons (.marked rfl rfl rfl apart ?_ ?_) .nil)
  · rintro c ⟨⟩
    exact named
  · rintro c ⟨⟩
    exact named'

theorem owningRecord_of_withheldTexts :
    ∃ result result' : TransformResult,
      ((ofRule (wholeTextRule {})).transform (withheldInput "abc")).outcome ⟨(), none⟩ = .ok result
        ∧ ((ofRule (wholeTextRule {})).transform (withheldInput "abd")).outcome ⟨(), none⟩
          = .ok result'
        ∧ result.fields = result'.fields ∧ result.defaultText = result'.defaultText := by
  have named : ∀ text ∈ ["abc", "abd"], (ofRule (wholeTextRule {})).builder.Names
      (wholeTextRule {}) wholeText (withheld text) := by
    intro text member d made
    have given : ∀ text ∈ ["abc", "abd"], ((Draft.ofElement {} (wholeTextRule {}) wholeText
        (withheld text) "N").map (·.givenMainValue.isSome)) = .ok true := by
      decide +kernel
    have same := given text member
    rw [show Draft.ofElement {} (wholeTextRule {}) wholeText (withheld text) "N" = .ok d from made]
      at same
    exact Except.ok.inj same
  have completes : ∀ text ∈ ["abc", "abd"], ∃ result left,
      (ofRule (wholeTextRule {})).transform (withheldInput text) ⟨(), none⟩ = .ok result left := by
    intro text member
    have ends : ∀ text ∈ ["abc", "abd"], (((ofRule (wholeTextRule {})).transform
        (withheldInput text)).outcome ⟨(), none⟩).map (fun _ => ()) = .ok () := by
      decide +kernel
    cases ended : ((ofRule (wholeTextRule {})).transform (withheldInput text)).outcome ⟨(), none⟩ with
    | ok result => exact ⟨result, Action.ok_of_outcome ended⟩
    | error fault =>
      have same := ends text member
      rw [ended] at same
      cases same
  obtain ⟨result, left, ran⟩ := completes "abc" (.head _)
  obtain ⟨result', left', ran'⟩ := completes "abd" (.tail _ (.head _))
  have kept : (⟨(), none⟩ : AuthorityState Unit Unit).KeepsOnly (Finds twoNames) := nofun
  have lacks : ∀ r ∈ (ofRule (wholeTextRule {})).rules.allRules, ∀ e, r.group = some e →
      e.hasSubfield FieldName.accessCondition = false := by
    intro r member e grouped
    obtain rfl : r = wholeTextRule {} := List.mem_singleton.mp member
    cases grouped
    decide +kernel
  have alike := readsAlike_withheldTexts (named "abc" (.head _)) (named "abd" (.tail _ (.head _)))
  have answers : (ofRule (wholeTextRule {})).builder.Answers twoNames := nofun
  have cites : (ofRule (wholeTextRule {})).builder.Cites fun _ => .ok none := nofun
  have same := (owningRecord_of_withheld answers cites lacks).2.1 _ _ alike _ _ _ _ _ _ kept kept
    ran ran'
  exact ⟨result, result', Action.outcome_of_ok ran, Action.outcome_of_ok ran', same⟩

end Transformer

end MetadataIndex
