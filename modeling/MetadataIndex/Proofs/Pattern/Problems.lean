import MetadataIndex.Pattern.Template

/-!
# Problems of patterns and templates

Only a template can refer to a group that its pattern does not have, and only a pattern can ask for too
many repetitions or for two kinds of classes.
-/

set_option autoImplicit false

namespace MetadataIndex.Pattern

/-- A reader ends, if it does not succeed, with a problem of a kind. -/
def Reader.FailsWith (P : Problem → Prop) {α : Type} (x : Reader α) : Prop :=
  ∀ p problem, x.run p = .error problem → P problem

namespace Reader.FailsWith

variable {P : Problem → Prop} {α β : Type}

theorem pure (a : α) : FailsWith P (Pure.pure a : Reader α) := nofun

theorem throw {problem : Problem} (holds : P problem) : FailsWith P (throw problem : Reader α) := by
  rintro p _ ⟨⟩
  exact holds

theorem bind {x : Reader α} {f : α → Reader β} (first : FailsWith P x)
    (next : ∀ a, FailsWith P (f a)) : FailsWith P (x >>= f) := by
  intro p problem ran
  rw [StateT.run_bind] at ran
  cases head : x.run p with
  | error problem' =>
    rw [head] at ran
    cases ran
    exact first p _ head
  | ok result =>
    rw [head] at ran
    exact next result.1 result.2 _ ran

theorem discard {x : Reader α} (inner : FailsWith P x) : FailsWith P (discard x) := by
  change FailsWith P ((fun _ => ()) <$> x)
  rw [← bind_pure_comp]
  exact inner.bind fun a => pure _

theorem get : FailsWith P (get : Reader Progress) := nofun

theorem set (p : Progress) : FailsWith P (set p : Reader PUnit) := nofun

theorem modify (f : Progress → Progress) : FailsWith P (modify f : Reader PUnit) := nofun

end Reader.FailsWith

open Reader (FailsWith)

section Tokens

variable {P : Problem → Prop} {α : Type}

theorem peek_failsWith : FailsWith P peek := nofun

theorem next_failsWith : FailsWith P next := by
  refine FailsWith.get.bind fun p => ?_
  split
  · exact .pure _
  · exact (FailsWith.set _).bind fun _ => .pure _

theorem accept_failsWith (c : Char) : FailsWith P (accept c) := by
  refine peek_failsWith.bind fun _ => ?_
  split
  · exact (next_failsWith.discard).bind fun _ => .pure _
  · exact .pure _

theorem takeUpTo_failsWith (p : Char → Bool) (limit : Nat) : FailsWith P (takeUpTo p limit) := by
  induction limit with
  | zero => exact .pure _
  | succ limit ih =>
    refine peek_failsWith.bind fun c => ?_
    split
    · split
      · exact (next_failsWith.discard).bind fun _ => ih.bind fun _ => .pure _
      · exact .pure _
    · exact .pure _

theorem takeAll_failsWith (p : Char → Bool) : FailsWith P (takeAll p) :=
  FailsWith.get.bind fun _ => takeUpTo_failsWith p _

variable (malformed : P .malformed)
include malformed

theorem malformed_failsWith : FailsWith P (Pattern.malformed : Reader α) := .throw malformed

theorem next!_failsWith : FailsWith P next! := by
  refine next_failsWith.bind fun c => ?_
  cases c with
  | some c => exact .pure _
  | none => exact malformed_failsWith malformed

theorem takeBefore_failsWith (terminator : Char) : FailsWith P (takeBefore terminator) := by
  have fails : FailsWith P (Pattern.malformed : Reader String) := malformed_failsWith malformed
  refine (takeAll_failsWith _).bind fun cs => ?_
  repeat' with_reducible first
    | exact .pure _ | exact fails | exact accept_failsWith _ | refine .bind ?_ fun _ => ?_ | split

theorem checkBehind_failsWith (group : Nat) : FailsWith P (checkBehind group) := by
  refine FailsWith.get.bind fun p => ?_
  split
  · split
    · exact malformed_failsWith malformed
    · exact .pure _
  · exact .pure _

theorem codeEscape_failsWith (digits : Nat) : FailsWith P (codeEscape digits) := by
  refine (takeUpTo_failsWith _ _).bind fun cs => ?_
  dsimp only
  split
  · exact .pure _
  · exact malformed_failsWith malformed

theorem reference_failsWith (s : Switches) (group : Nat) : FailsWith P (reference s group) := by
  refine FailsWith.get.bind fun p => ?_
  split
  · exact malformed_failsWith malformed
  · exact (checkBehind_failsWith malformed group).bind fun _ => .pure _

theorem readEscape_failsWith (s : Switches) : FailsWith P (readEscape s) := by
  have fails : FailsWith P (Pattern.malformed : Reader Node) := malformed_failsWith malformed
  have code := codeEscape_failsWith malformed
  have refers := reference_failsWith malformed s
  refine (next!_failsWith malformed).bind fun c => ?_
  repeat' with_reducible first
    | exact .pure _ | exact fails | exact refers _ | exact peek_failsWith
    | exact next_failsWith.discard | exact code _ | exact takeUpTo_failsWith _ _
    | refine .bind ?_ fun _ => ?_ | split | dsimp only

theorem readClassEscape_failsWith (s : Switches) : FailsWith P (readClassEscape s) := by
  have fails : FailsWith P (Pattern.malformed : Reader ClassItem) := malformed_failsWith malformed
  have code := codeEscape_failsWith malformed
  refine (next!_failsWith malformed).bind fun c => ?_
  repeat' with_reducible first
    | exact .pure _ | exact fails | exact code _ | exact takeUpTo_failsWith _ _
    | refine .bind ?_ fun _ => ?_ | split | dsimp only

theorem readClassItems_failsWith (s : Switches) (fuel : Nat) (acc : List ClassItem) :
    FailsWith P (readClassItems s fuel acc) := by
  have fails : FailsWith P (Pattern.malformed : Reader (List ClassItem)) :=
    malformed_failsWith malformed
  induction fuel generalizing acc with
  | zero => exact fails
  | succ fuel ih =>
    refine (next!_failsWith malformed).bind fun c => ?_
    repeat' with_reducible first
      | exact .pure _ | exact fails | exact ih _ | exact readClassEscape_failsWith malformed s
      | exact accept_failsWith _ | exact next!_failsWith malformed
      | refine .bind ?_ fun _ => ?_ | split | dsimp only

theorem readClass_failsWith (s : Switches) : FailsWith P (readClass s) := by
  refine (accept_failsWith _).bind fun _ => FailsWith.get.bind fun _ => ?_
  exact (readClassItems_failsWith malformed s _ []).bind fun _ => .pure _

theorem readSwitchLetters_failsWith (value : Bool) (turnedOn : List Char) (fuel : Nat) (s : Switches)
    (c : Char) : FailsWith P (readSwitchLetters value turnedOn fuel s c) := by
  have fails : FailsWith P (Pattern.malformed : Reader (Switches × Char × List Char)) :=
    malformed_failsWith malformed
  induction fuel generalizing s c with
  | zero => exact fails
  | succ fuel ih =>
    unfold readSwitchLetters
    repeat' with_reducible first
      | exact .pure _ | exact fails | exact ih _ _ | exact next!_failsWith malformed
      | refine .bind ?_ fun _ => ?_ | split

theorem readSwitchGroup_failsWith (s : Switches) (c : Char) : FailsWith P (readSwitchGroup s c) := by
  have fails : FailsWith P (Pattern.malformed : Reader SwitchGroup) := malformed_failsWith malformed
  have letters := readSwitchLetters_failsWith malformed
  refine FailsWith.get.bind fun p => ?_
  repeat' with_reducible first
    | exact .pure _ | exact fails | exact letters _ _ _ _ _ | exact next!_failsWith malformed
    | refine .bind ?_ fun _ => ?_ | split | dsimp only

theorem readLeadingSwitches_failsWith (fuel : Nat) (s : Switches) :
    FailsWith P (readLeadingSwitches fuel s) := by
  have fails : FailsWith P (Pattern.malformed : Reader Switches) := malformed_failsWith malformed
  induction fuel generalizing s with
  | zero => exact .pure _
  | succ fuel ih =>
    unfold readLeadingSwitches
    repeat' with_reducible first
      | exact .pure _ | exact fails | exact ih _ | exact .get | exact .set _ | exact .modify _
      | exact readSwitchGroup_failsWith malformed _ _
      | refine .bind ?_ fun _ => ?_ | split

theorem openGroup_failsWith (name : Option String) : FailsWith P (openGroup name) := by
  have fails : FailsWith P (Pattern.malformed : Reader PUnit) := malformed_failsWith malformed
  refine FailsWith.get.bind fun p => ?_
  repeat' with_reducible first
    | exact .pure _ | exact fails | exact .set _ | refine .bind ?_ fun _ => ?_ | split

theorem repeatLast_failsWith (least : Nat) (most : Option Nat) (items : List Item) :
    FailsWith P (repeatLast least most items) := by
  have greed : FailsWith P readGreed := by
    refine (accept_failsWith _).bind fun _ => ?_
    split
    · exact .pure _
    · refine (accept_failsWith _).bind fun _ => ?_
      split
      · exact .pure _
      · exact .pure _
  unfold repeatLast
  split
  · exact greed.bind fun _ => .pure _
  · exact malformed_failsWith malformed

end Tokens

section Patterns

variable {P : Problem → Prop} (malformed : P .malformed) (long : P .longNumber)

include long in
theorem groupNumber?_failsWith (s : String) : FailsWith P (groupNumber? s) := by
  unfold groupNumber?
  split
  · split
    · exact .throw long
    · exact .pure _
  · exact .pure _

variable (tooMany : P .tooMany)
include malformed long tooMany

theorem readCounts_failsWith : FailsWith P readCounts := by
  have fails : FailsWith P (Pattern.malformed : Reader (Option (Nat × Option Nat))) :=
    malformed_failsWith malformed
  refine FailsWith.get.bind fun p => (takeAll_failsWith _).bind fun lo => ?_
  repeat' with_reducible first
    | exact .pure _ | exact fails | exact .set _ | exact .throw long | exact .throw tooMany
    | exact accept_failsWith _ | exact takeAll_failsWith _
    | refine .bind ?_ fun _ => ?_ | split | dsimp only

/-- All that reads a pattern with less fuel fails only with these problems. -/
structure Readers (P : Problem → Prop) (fuel : Nat) : Prop where
  alternatives : ∀ s, FailsWith P (readAlternatives fuel s)
  sequence : ∀ s items, FailsWith P (readSequence fuel s items)
  body : ∀ s, FailsWith P (readBody fuel s)
  numbered : ∀ s name, FailsWith P (readNumbered fuel s name)
  assertion : ∀ s behind negated, FailsWith P (readAssertion fuel s behind negated)
  condition : ∀ s, FailsWith P (readCondition fuel s)
  group : ∀ s, FailsWith P (readGroup fuel s)

theorem readers (fuel : Nat) : Readers P fuel := by
  have fails {α : Type} : FailsWith P (Pattern.malformed : Reader α) := malformed_failsWith malformed
  induction fuel with
  | zero =>
    constructor
    all_goals intros; exact fails
  | succ fuel ih =>
    constructor
    case alternatives =>
      intro s
      refine (ih.sequence s []).bind fun first => (accept_failsWith _).bind fun _ => ?_
      split
      · exact (ih.alternatives s).bind fun _ => .pure _
      · exact .pure _
    case sequence =>
      intro s items
      refine peek_failsWith.bind fun c => ?_
      repeat' with_reducible first
        | exact .pure _ | exact fails | exact ih.sequence _ _ | exact ih.group _
        | exact next_failsWith.discard | exact (takeAll_failsWith _).discard
        | exact readEscape_failsWith malformed _ | exact readClass_failsWith malformed _
        | exact repeatLast_failsWith malformed _ _ _
        | exact readCounts_failsWith malformed long tooMany
        | refine .bind ?_ fun _ => ?_ | split
    case body =>
      intro s
      refine (ih.alternatives s).bind fun n => (accept_failsWith _).bind fun _ => ?_
      split
      · exact .pure _
      · exact fails
    case numbered =>
      intro s name
      refine (openGroup_failsWith malformed name).bind fun index => (ih.body s).bind fun body => ?_
      exact (FailsWith.modify _).bind fun _ => .pure _
    case assertion =>
      intro s behind negated
      refine FailsWith.get.bind fun outer => ?_
      repeat' with_reducible first
        | exact .pure _ | exact fails | exact ih.body _ | exact .modify _ | exact .get
        | refine .bind ?_ fun _ => ?_ | split | dsimp only
    case condition =>
      intro s
      refine (takeBefore_failsWith malformed _).bind fun name => ?_
      repeat' with_reducible first
        | exact .pure _ | exact fails | exact .get | exact .modify _ | exact ih.sequence _ _
        | exact checkBehind_failsWith malformed _ | exact accept_failsWith _
        | exact groupNumber?_failsWith long _ | refine .bind ?_ fun _ => ?_ | split
    case group =>
      intro s
      refine (accept_failsWith _).bind fun _ => ?_
      repeat' with_reducible first
        | exact .pure _ | exact fails | exact .get | exact ih.body _ | exact ih.numbered _ _
        | exact ih.assertion _ _ _ | exact ih.condition _ | exact next!_failsWith malformed
        | exact (takeAll_failsWith _).discard | exact accept_failsWith _
        | exact takeBefore_failsWith malformed _ | exact reference_failsWith malformed _ _
        | exact readSwitchGroup_failsWith malformed _ _ | refine .bind ?_ fun _ => ?_ | split

theorem readPattern_failsWith (bothClasses : P .bothClasses) : FailsWith P readPattern := by
  refine FailsWith.get.bind fun p => ?_
  refine (readLeadingSwitches_failsWith malformed _ _).bind fun s => ?_
  refine ((readers malformed long tooMany _).alternatives s).bind fun n => FailsWith.get.bind fun p => ?_
  split
  · exact .throw bothClasses
  · split
    · exact .pure _
    · exact malformed_failsWith malformed

end Patterns

/-- Reading a pattern never asks for a group by a name that is not there. -/
theorem Regex.ofText_ne_unknownGroup (s : String) : Regex.ofText s ≠ .error .unknownGroup := by
  intro failed
  unfold Regex.ofText at failed
  split at failed
  · cases failed
  · next problem ran =>
    cases failed
    have known : FailsWith (· ≠ .unknownGroup) readPattern :=
      readPattern_failsWith (by decide) (by decide) (by decide) (by decide)
    exact known _ _ ran rfl

section Templates

variable {P : Problem → Prop} (malformed : P .malformed) (long : P .longNumber)
  (unknown : P .unknownGroup) (r : Regex)
include malformed long unknown

theorem namedPiece_failsWith : FailsWith P (namedPiece r) := by
  have fails : FailsWith P (Pattern.malformed : Reader Piece) := malformed_failsWith malformed
  refine (accept_failsWith _).bind fun _ => ?_
  unfold groupPiece
  repeat' with_reducible first
    | exact .pure _ | exact fails | exact .throw unknown | exact takeBefore_failsWith malformed _
    | exact groupNumber?_failsWith long _ | refine .bind ?_ fun _ => ?_ | split

theorem readTemplate_failsWith (fuel : Nat) : FailsWith P (readTemplate r fuel) := by
  have fails {α : Type} : FailsWith P (Pattern.malformed : Reader α) := malformed_failsWith malformed
  have digit : ∀ c, FailsWith P (digitPiece r c) := by
    intro c
    refine peek_failsWith.bind fun d => ?_
    unfold groupPiece
    repeat' with_reducible first
      | exact .pure _ | exact fails | exact next_failsWith.discard | exact peek_failsWith
      | refine .bind ?_ fun _ => ?_ | split | dsimp only
  have escape : FailsWith P (readTemplateEscape r) := by
    refine (next!_failsWith malformed).bind fun c => ?_
    repeat' with_reducible first
      | exact .pure _ | exact fails | exact namedPiece_failsWith malformed long unknown r
      | exact digit _ | exact takeUpTo_failsWith _ _ | refine .bind ?_ fun _ => ?_ | split
  induction fuel with
  | zero => exact .pure _
  | succ fuel ih =>
    refine next_failsWith.bind fun c => ?_
    split
    · exact .pure _
    · exact escape.bind fun _ => ih.bind fun _ => .pure _
    · exact ih.bind fun _ => .pure _

end Templates

theorem templateOf_failsWith {r : Regex} {template : String} {problem : Problem}
    (failed : templateOf r template = .error problem) :
    problem ∈ [Problem.malformed, .longNumber, .unknownGroup] := by
  have fails : FailsWith (· ∈ [Problem.malformed, .longNumber, .unknownGroup])
      (readTemplate r (template.length + 1)) :=
    readTemplate_failsWith (by decide) (by decide) (by decide) r _
  change (Prod.fst <$> (readTemplate r _).run { rest := template.toList }) = _ at failed
  cases ran : (readTemplate r (template.length + 1)).run { rest := template.toList } with
  | error problem' =>
    rw [ran] at failed
    cases failed
    exact fails _ _ ran
  | ok result =>
    rw [ran] at failed
    cases failed

/-- Reading a pattern ends with more than that it is malformed: it counts further than patterns can, has
a number of too many digits, or asks for two kinds of classes. -/
def IsUnreadable (pattern : String) : Prop :=
  ∃ problem ∈ [Problem.tooMany, .longNumber, .bothClasses], Regex.ofText pattern = .error problem

theorem not_isUnreadable {pattern : String} {regex : Regex}
    (read : Regex.ofText pattern = .ok regex) : ¬IsUnreadable pattern := by
  rintro ⟨problem, -, failed⟩
  rw [failed] at read
  cases read

/-- A value stays as it is at a problem that is no fault. -/
theorem orUnchanged_error_ok_iff {value : String} {problem : Problem} :
    (∃ result, orUnchanged value (.error problem) = .ok result) ↔ problem = .malformed := by
  cases problem with
  | malformed => exact ⟨fun _ => rfl, fun _ => ⟨value, rfl⟩⟩
  | _ => exact ⟨nofun, nofun⟩

theorem isUnreadable_iff {pattern : String} {problem : Problem}
    (failed : Regex.ofText pattern = .error problem) :
    IsUnreadable pattern ↔ problem ≠ .malformed := by
  have known := Regex.ofText_ne_unknownGroup pattern
  unfold IsUnreadable
  rw [failed] at known ⊢
  cases problem with
  | unknownGroup => exact absurd rfl known
  | _ => simp

/-- A template refers to a group by a name that the pattern does not have, or by a number of too many
digits. -/
def IsUnfit (pattern template : String) : Prop :=
  ∃ regex, Regex.ofText pattern = .ok regex
    ∧ ∃ problem ∈ [Problem.unknownGroup, .longNumber], templateOf regex template = .error problem

theorem isUnfit_iff {pattern template : String} {regex : Regex} {problem : Problem}
    (read : Regex.ofText pattern = .ok regex) (failed : templateOf regex template = .error problem) :
    IsUnfit pattern template ↔ problem ≠ .malformed := by
  have known := templateOf_failsWith failed
  unfold IsUnfit
  rw [read]
  cases problem <;> simp_all

/-- Replacing succeeds or leaves the value as it is, with every readable pattern and fit template. -/
theorem replacePattern_ok_iff {pattern template value : String} :
    (∃ result, orUnchanged value (replacePattern pattern template value) = .ok result)
      ↔ ¬IsUnreadable pattern ∧ ¬IsUnfit pattern template := by
  unfold replacePattern
  cases read : Regex.ofText pattern with
  | error problem =>
    have fit : ¬IsUnfit pattern template := by
      rintro ⟨regex, same, -⟩
      rw [read] at same
      cases same
    rw [isUnreadable_iff read, Classical.not_not, and_iff_left fit]
    exact orUnchanged_error_ok_iff
  | ok regex =>
    rw [and_iff_right (not_isUnreadable read)]
    dsimp only [bind, Except.bind]
    cases made : templateOf regex template with
    | error problem =>
      rw [isUnfit_iff read made, Classical.not_not]
      exact orUnchanged_error_ok_iff
    | ok pieces =>
      refine ⟨fun _ => ?_, fun _ => ⟨_, rfl⟩⟩
      rintro ⟨regex', same, problem, -, failed⟩
      rw [read] at same
      cases same
      rw [made] at failed
      cases failed

theorem not_isUnfit_empty (pattern : String) : ¬IsUnfit pattern "" := by
  rintro ⟨regex, -, problem, -, failed⟩
  cases failed

theorem orUnchanged_map_ok_iff {value : String} {f : String → String} {c : Except Problem String} :
    (∃ result, orUnchanged value (c.map f) = .ok result) ↔ ∃ result, orUnchanged value c = .ok result := by
  cases c with
  | ok a => exact ⟨fun _ => ⟨a, rfl⟩, fun _ => ⟨f a, rfl⟩⟩
  | error problem => exact .rfl

end MetadataIndex.Pattern
