import MetadataIndex.Authority.Resolver
import MetadataIndex.Proofs.Effect.Invariant

/-!
# Records that are kept

A cache is described by what holds of the entries under each key. When a lookup always answers an
address alike and only what it answers was kept, the records that are fetched do not depend on what
is kept, on the clock or on the lifetime.
-/

set_option autoImplicit false

namespace MetadataIndex

variable {ω τ : Type}

/-- The entries that a lookup found, if there are any. -/
def LookupResult.given? : LookupResult → Option (List (String × String))
  | found (entry :: more) _ => some (entry :: more)
  | _ => none

namespace AuthorityCache

variable {c : AuthorityCache τ} {P : String → List (String × String) → Prop} {key : String}

/-- The entries of every record that is kept have a property of its key. -/
def KeepsOnly (P : String → List (String × String) → Prop) (c : AuthorityCache τ) : Prop :=
  ∀ key r, c.records[key]? = some r → P key r.entries

theorem keepsOnly_of_empty (empty : c.records = ∅) : c.KeepsOnly P := by
  intro key r found
  rw [empty] at found
  simp at found

theorem keepsOnly_clear (c : AuthorityCache τ) : c.clear.KeepsOnly P :=
  keepsOnly_of_empty rfl

theorem KeepsOnly.imp {Q : String → List (String × String) → Prop} (kept : c.KeepsOnly P)
    (weaker : ∀ key entries, P key entries → Q key entries) : c.KeepsOnly Q :=
  fun key r found => weaker key r.entries (kept key r found)

theorem KeepsOnly.remove (kept : c.KeepsOnly P) (key : String) : (c.remove key).KeepsOnly P := by
  intro other r found
  rw [getElem?_records_remove] at found
  split at found
  · cases found
  · exact kept other r found

theorem KeepsOnly.put (kept : c.KeepsOnly P) {r : AuthorityRecord τ} (holds : P key r.entries) :
    (c.put key r).KeepsOnly P := by
  intro other r' found
  rw [getElem?_records_put] at found
  split at found
  case isTrue same =>
    cases found
    exact same ▸ holds
  case isFalse => exact kept other r' found

theorem KeepsOnly.get (kept : c.KeepsOnly P) (scale : TimeScale τ) (now : τ) (key : String) :
    (c.get scale now key).2.KeepsOnly P := by
  unfold AuthorityCache.get
  cases found : c.records[key]? with
  | none => exact kept
  | some r =>
    dsimp only
    split
    · exact kept.remove key
    · exact kept

/-- What the cache answers has the property of the key that was asked for. -/
theorem KeepsOnly.of_get (kept : c.KeepsOnly P) {scale : TimeScale τ} {now : τ}
    {r : AuthorityRecord τ} (answered : (c.get scale now key).1 = some r) : P key r.entries := by
  unfold AuthorityCache.get at answered
  cases found : c.records[key]? with
  | none =>
    rw [found] at answered
    cases answered
  | some kept? =>
    rw [found] at answered
    dsimp only at answered
    split at answered
    · cases answered
    · cases answered
      exact kept key r found

end AuthorityCache

/-- The entries of every record of a cache, if there is one, have a property of its key. -/
def KeptOnly (P : String → List (String × String) → Prop) (kept : Option (AuthorityCache τ)) :
    Prop :=
  ∀ cache, kept = some cache → cache.KeepsOnly P

def BothKept (J : Option (AuthorityCache τ) → Prop) (kept kept' : Option (AuthorityCache τ)) :
    Prop :=
  J kept ∧ J kept'

/-- What is kept on both sides is the same and has a property. -/
def SameKept (J : Option (AuthorityCache τ) → Prop) (kept kept' : Option (AuthorityCache τ)) :
    Prop :=
  kept = kept' ∧ J kept

namespace AuthorityState

/-- The entries of every record that is kept have a property of its key. -/
def KeepsOnly (P : String → List (String × String) → Prop) (o : AuthorityState ω τ) : Prop :=
  KeptOnly P o.cache

/-- Two states are related: their worlds are, and what they keep is. -/
structure Related (W : ω → ω → Prop)
    (K : Option (AuthorityCache τ) → Option (AuthorityCache τ) → Prop)
    (o o' : AuthorityState ω τ) : Prop where
  world : W o.world o'.world
  cache : K o.cache o'.cache

theorem related_same (J : Option (AuthorityCache τ) → Prop) :
    Related (ω := ω) (τ := τ) Eq (SameKept J) = fun o o' => o = o' ∧ J o.cache := by
  funext o o'
  refine propext ⟨fun ⟨world, same, kept⟩ => ⟨?_, kept⟩, ?_⟩
  · cases o
    cases o'
    cases world
    cases same
    rfl
  · rintro ⟨rfl, kept⟩
    exact ⟨rfl, rfl, kept⟩

theorem onWorld_of_ok {α : Type} {action : Action ω α} {o : AuthorityState ω τ} {a : α} {world : ω}
    (ran : action o.world = .ok a world) : onWorld action o = .ok a { o with world } :=
  Action.onPart_of_ok ran

theorem onWorld_of_error {α : Type} {action : Action ω α} {o : AuthorityState ω τ} {fault : Fault}
    {world : ω} (ran : action o.world = .error fault world) :
    onWorld action o = .error fault { o with world } :=
  Action.onPart_of_error ran

theorem onWorld_compares {α : Type} {lax : Prop} {W : ω → ω → Prop}
    {K : Option (AuthorityCache τ) → Option (AuthorityCache τ) → Prop} {A : α → α → Prop}
    {x y : Action ω α} (compared : Action.Compares lax W A x y) :
    Action.Compares lax (Related W K) A (onWorld x) (onWorld y) :=
  compared.onPart (fun _ _ states => states.world)
    fun _ _ _ _ states worlds => ⟨worlds, states.cache⟩

end AuthorityState

namespace AuthorityService

variable {s : AuthorityService ω τ} {answer : String → Checked LookupResult}

/-- The lookup answers each address in the same way whenever it is asked. -/
def Answers (s : AuthorityService ω τ) (answer : String → Checked LookupResult) : Prop :=
  ∀ uri, (s.lookup uri).Gives (answer uri)

/-- The entries are those that the lookup finds at an address, and there are some. -/
def Finds (answer : String → Checked LookupResult) (uri : String)
    (entries : List (String × String)) : Prop :=
  entries ≠ [] ∧ ∃ status, answer uri = .ok (.found entries status)

theorem given?_of_finds {uri : String} {entries : List (String × String)} {result : LookupResult}
    (finds : Finds answer uri entries) (answered : answer uri = .ok result) :
    result.given? = some entries := by
  obtain ⟨given, status, found⟩ := finds
  rw [found] at answered
  cases answered
  cases entries with
  | nil => exact absurd rfl given
  | cons entry more => rfl

variable {P : String → List (String × String) → Prop} {uri : String} {o : AuthorityState ω τ}

/-- Asking the cache drops records and adds none, and what it answers was kept. -/
theorem fromCache_ensures (s : AuthorityService ω τ) (uri : String) :
    Action.Ensures (AuthorityState.KeepsOnly P) (fun r => ∀ record, r = some record →
      P uri record.entries) (s.fromCache uri) := by
  refine .ofChange fun o kept => ?_
  cases present : o.cache with
  | none =>
    refine ⟨fun record found => ?_, kept⟩
    cases found
  | some cache =>
    refine ⟨fun record answered => (kept cache present).of_get answered, fun cache' same => ?_⟩
    cases same
    exact (kept cache present).get s.scale _ uri

theorem keep_ensures {r : AuthorityRecord τ} (holds : P r.uri r.entries) :
    Action.Ensures (AuthorityState.KeepsOnly P) (fun _ => True)
      (keep r : Action (AuthorityState ω τ) Unit) := by
  refine .modify fun o kept cache same => ?_
  cases present : o.cache with
  | none =>
    rw [present] at same
    cases same
  | some before =>
    rw [present] at same
    cases same
    exact (kept before present).put holds

theorem onWorld_ensures {α : Type} {Q : α → Prop} {action : Action ω α}
    (ensured : action.Ensures (fun _ => True) Q) :
    Action.Ensures (AuthorityState.KeepsOnly P) Q
      (AuthorityState.onWorld action : Action (AuthorityState ω τ) α) :=
  ensured.onPart (fun _ _ => trivial) fun _ _ kept _ => kept

/-- A record that is looked up has what the lookup finds, and so has what is then kept. -/
theorem fetchAnew_ensures (answers : s.Answers answer)
    (found : ∀ entries, Finds answer uri entries → P uri entries) :
    Action.Ensures (AuthorityState.KeepsOnly P) (fun r => ∀ record, r = some record →
      P uri record.entries) (s.fetchAnew uri) := by
  refine (onWorld_ensures (answers uri).ensures).bind fun result answered => ?_
  match result, answered with
  | .failed .., _ => exact .pure fun _ missing => nomatch missing
  | .found [] _, _ => exact .pure fun _ missing => nomatch missing
  | .found (entry :: more) status, answered =>
    have holds : P uri (entry :: more) := found _ ⟨List.cons_ne_nil _ _, status, answered⟩
    refine (onWorld_ensures (Q := fun _ => True) (.ofChange fun _ _ => ⟨trivial, trivial⟩)).bind
      fun now _ => ?_
    refine (keep_ensures holds).bind fun _ _ => .pure ?_
    rintro record ⟨⟩
    exact holds

/-- Fetching keeps a property that all records have that the lookup finds. -/
theorem fetch_ensures (answers : s.Answers answer)
    (found : ∀ entries, Finds answer uri entries → P uri entries) :
    Action.Ensures (AuthorityState.KeepsOnly P) (fun r => ∀ record, r = some record →
      P uri record.entries) (s.fetch uri) := by
  refine (fromCache_ensures s uri).bind fun r kept => ?_
  cases r with
  | some record => exact .pure kept
  | none => exact fetchAnew_ensures answers found

/-- A lookup that found entries gives a record with them; any other gives none. -/
theorem outcome_fetchAnew (answers : s.Answers answer) (uri : String) (o : AuthorityState ω τ) :
    ((s.fetchAnew uri).outcome o).map (·.map (·.entries)) = (answer uri).map (·.given?) := by
  have answered := answers uri o.world
  cases ran : s.lookup uri o.world with
  | error fault world =>
    rw [Action.outcome_of_error ran] at answered
    rw [← answered, fetchAnew, Action.outcome_bind_of_error (AuthorityState.onWorld_of_error ran)]
    rfl
  | ok result world =>
    rw [Action.outcome_of_ok ran] at answered
    rw [← answered, fetchAnew, Action.outcome_bind_of_ok (AuthorityState.onWorld_of_ok ran)]
    match result with
    | .failed .. => rfl
    | .found [] _ => rfl
    | .found (_ :: _) _ => rfl

/-- While only found entries are kept, fetching gives what the lookup finds. -/
theorem outcome_fetch (answers : s.Answers answer) (uri : String)
    (kept : o.KeepsOnly (Finds answer)) :
    ((s.fetch uri).outcome o).map (·.map (·.entries)) = (answer uri).map (·.given?) := by
  cases ran : s.fromCache uri o with
  | error fault o' => cases ran
  | ok r o' =>
    rw [fetch, Action.outcome_bind_of_ok ran]
    cases r with
    | none => exact outcome_fetchAnew answers uri o'
    | some record =>
      have finds := ((fromCache_ensures s uri).completed kept ran).1 record rfl
      obtain ⟨status, found⟩ := finds.2
      have given := given?_of_finds finds found
      rw [found]
      exact congrArg Except.ok given.symm

/-- Fetching gives the same entries whatever is kept, as long as only found entries are. -/
theorem fetch_compares (answers : s.Answers answer) (uri : String) {lax : Prop} :
    Action.Compares lax
      (AuthorityState.Related (fun _ _ => True) (BothKept (KeptOnly (Finds answer))))
      (fun r r' => r.map (·.entries) = r'.map (·.entries)) (s.fetch uri) (s.fetch uri) := by
  rintro o o' ⟨-, kept, kept'⟩
  have ensured : Action.Ensures (AuthorityState.KeepsOnly (Finds answer)) _ (s.fetch uri) :=
    fetch_ensures answers fun _ finds => finds
  refine .of_outcome (.of_map ?_) ⟨trivial, ensured.leaves kept, ensured.leaves kept'⟩
  exact (outcome_fetch answers uri kept).trans (outcome_fetch answers uri kept').symm

end AuthorityService

end MetadataIndex
