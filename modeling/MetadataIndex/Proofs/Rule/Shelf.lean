import MetadataIndex.Rule.File
import MetadataIndex.Proofs.Effect.Invariant

/-!
# Rule files that are kept

A store is static when it gives each file the same content whenever it is read. Kept rule files are
then those that the store would give, and the rules of a request do not depend on what is kept.
-/

set_option autoImplicit false

namespace MetadataIndex

variable {ω : Type} {file : String → String → Except String String}

/-- Each file of each bucket has one content, or one code that it ends with. -/
def FileStore.Static (store : FileStore ω) (file : String → String → Except String String) :
    Prop :=
  ∀ bucket key world, (store.read bucket key world).1 = file bucket key

namespace RuleShelf

variable {s : RuleShelf} {bucket key : String} {f : RuleFile}

def Holds (file : String → String → Except String String) (s : RuleShelf) : Prop :=
  ∀ f ∈ s.files, RuleFile.rulesOf f.bucket f.key (file f.bucket f.key) = .ok f.rules

theorem holds_empty : ({} : RuleShelf).Holds file := by
  intro f member
  cases member

theorem Holds.use (holds : s.Holds file)
    (read : RuleFile.rulesOf f.bucket f.key (file f.bucket f.key) = .ok f.rules) :
    (s.use f).Holds file := by
  intro g member
  cases List.mem_of_mem_take member with
  | head => exact read
  | tail _ other => exact holds g (List.mem_of_mem_filter other)

theorem Holds.of_find? (holds : s.Holds file) (found : s.find? bucket key = some f) :
    f.bucket = bucket ∧ f.key = key
      ∧ RuleFile.rulesOf bucket key (file bucket key) = .ok f.rules := by
  have member := holds f (List.mem_of_find?_eq_some found)
  have named := List.find?_some found
  rw [Bool.and_eq_true, beq_iff_eq, beq_iff_eq] at named
  obtain ⟨rfl, rfl⟩ := named
  exact ⟨rfl, rfl, member⟩

end RuleShelf

namespace RuleFile

variable {store : FileStore ω}

/-- The rules of a file are those of its content, whether it is kept or read; what is kept then has
the rules of its contents again. -/
theorem load_spec (static : store.Static file) (bucket key : String) {s : RuleState ω}
    (holds : s.shelf.Holds file) :
    (load store bucket key).outcome s = rulesOf bucket key (file bucket key)
      ∧ ((load store bucket key).leaves s).shelf.Holds file := by
  cases found : s.shelf.find? bucket key with
  | some f =>
    obtain ⟨rfl, rfl, rules⟩ := holds.of_find? found
    have ran : load store f.bucket f.key s = .ok f.rules { s with shelf := s.shelf.use f } := by
      unfold load
      rw [Action.bind_of_ok (show (get : Action (RuleState ω) _) s = .ok s s from rfl), found]
      rfl
    rw [Action.outcome_of_ok ran, Action.leaves_of_ok ran]
    exact ⟨rules.symm, holds.use rules⟩
  | none =>
    have asked := static bucket key s.world
    cases read : rulesOf bucket key (file bucket key) with
    | error fault =>
      have ran : load store bucket key s
          = .error fault { s with world := (store.read bucket key s.world).2 } := by
        unfold load
        rw [Action.bind_of_ok (show (get : Action (RuleState ω) _) s = .ok s s from rfl), found]
        dsimp only
        rw [Action.bind_of_ok (show Action.ofChange _ s = .ok _ _ from rfl), asked, read]
        rfl
      rw [Action.outcome_of_error ran, Action.leaves_of_error ran]
      exact ⟨rfl, holds⟩
    | ok rules =>
      have ran : load store bucket key s = .ok rules
          ⟨(store.read bucket key s.world).2, s.shelf.use ⟨bucket, key, rules⟩⟩ := by
        unfold load
        rw [Action.bind_of_ok (show (get : Action (RuleState ω) _) s = .ok s s from rfl), found]
        dsimp only
        rw [Action.bind_of_ok (show Action.ofChange _ s = .ok _ _ from rfl), asked, read]
        rfl
      rw [Action.outcome_of_ok ran, Action.leaves_of_ok ran]
      exact ⟨rfl, holds.use read⟩

/-- Runs on any kept files that have the rules of their contents end alike. -/
theorem load_compares (static : store.Static file) (bucket key : String) {lax : Prop} :
    Action.Compares lax (fun s s' : RuleState ω => s.shelf.Holds file ∧ s'.shelf.Holds file) Eq
      (load store bucket key) (load store bucket key) := by
  rintro s s' ⟨holds, holds'⟩
  obtain ⟨ended, kept⟩ := load_spec static bucket key holds
  obtain ⟨ended', kept'⟩ := load_spec static bucket key holds'
  refine .of_outcome ?_ ⟨kept, kept'⟩
  rw [ended, ended']
  exact .refl (fun _ => rfl) _

/-- The rules of a configuration do not depend on what is kept. -/
theorem resolve_compares (static : store.Static file) (bucket : Option String)
    (inlineRules path : Json) {lax : Prop} :
    Action.Compares lax (fun s s' : RuleState ω => s.shelf.Holds file ∧ s'.shelf.Holds file) Eq
      (resolve store bucket inlineRules path) (resolve store bucket inlineRules path) := by
  unfold resolve
  split
  case isTrue =>
    refine Action.Compares.bind_eq (.lift_self _) fun bucket => ?_
    refine Action.Compares.bind_eq (.lift_self _) fun key => ?_
    refine Action.Compares.bind_eq (load_compares static bucket key) fun shared => ?_
    split
    · refine Action.Compares.bind_eq (.lift_self _) fun members => ?_
      refine Action.Compares.bind_eq (.lift_self _) fun merged => ?_
      exact .pure rfl
    · exact .pure rfl
  case isFalse =>
    split
    · exact .pure rfl
    · exact .fault _

end RuleFile

end MetadataIndex
