import Mathlib.Algebra.Order.Field.Rat
import Mathlib.Tactic.Linarith
import MetadataIndex.Proofs.Transform.Caching

/-!
# When records are looked up

What a service does to the outer world is recorded: that it reads the clock, and what an address is
answered. While the clock never goes back, a record is taken from the cache exactly as long as the last
answer with entries for its address is younger than the lifetime of the cache. Other answers leave no
trace in the cache.
-/

set_option autoImplicit false

namespace MetadataIndex

variable {ω : Type}

/-- What a service does to the outer world. -/
inductive AuthorityEvent where
  | read (time : Rat)
  | asked (uri : String) (answer : Checked LookupResult)

namespace AuthorityEvent

def time? : AuthorityEvent → Option Rat
  | read time => some time
  | asked .. => none

/-- The entries of an answer, if it has any. -/
def givenBy (answer : Checked LookupResult) : Option (List (String × String)) :=
  answer.toOption.bind (·.given?)

/-- The record that a reading of the clock dates if it follows an answer. -/
def dated (uri : String) (time : Rat) : Option AuthorityEvent → Option (AuthorityRecord Rat)
  | some (asked other answer) =>
    if other = uri then (givenBy answer).map (⟨uri, ·, time⟩) else none
  | _ => none

/-- The record of the last answer with entries for an address. Events stand with the latest first. -/
def lastGiven (uri : String) : List AuthorityEvent → Option (AuthorityRecord Rat)
  | [] => none
  | read time :: earlier => (dated uri time earlier.head?).or (lastGiven uri earlier)
  | asked .. :: earlier => lastGiven uri earlier

/-- The clock never goes back. -/
def Ascends (log : List AuthorityEvent) : Prop :=
  (log.filterMap time?).Pairwise (· ≥ ·)

/-- An address is asked for only when the last answer with entries for it has reached the lifetime, by a
reading of the clock just before. -/
def Spaced (lifetime : Rat) : List AuthorityEvent → Prop
  | [] => True
  | read _ :: earlier => Spaced lifetime earlier
  | asked uri _ :: earlier =>
    (∃ now before, earlier = read now :: before
      ∧ ∀ r, lastGiven uri before = some r → 3600 * lifetime ≤ now - r.createdAt)
    ∧ Spaced lifetime earlier

variable {log : List AuthorityEvent} {uri : String} {time : Rat}

theorem given_of_dated {e : Option AuthorityEvent} {r : AuthorityRecord Rat}
    (found : dated uri time e = some r) : r.uri = uri ∧ r.entries ≠ [] := by
  unfold dated at found
  split at found
  case h_1 other answer =>
    split at found
    case isTrue =>
      obtain ⟨entries, given, rfl⟩ := Option.map_eq_some_iff.mp found
      obtain ⟨result, -, given⟩ := Option.bind_eq_some_iff.mp given
      refine ⟨rfl, ?_⟩
      rintro rfl
      unfold LookupResult.given? at given
      split at given <;> cases given
    case isFalse => cases found
  case h_2 => cases found

theorem given_of_lastGiven {r : AuthorityRecord Rat} (found : lastGiven uri log = some r) :
    r.uri = uri ∧ r.entries ≠ [] := by
  induction log with
  | nil => cases found
  | cons e log ih =>
    cases e with
    | read time =>
      rw [lastGiven, Option.or_eq_some_iff] at found
      obtain now | ⟨-, before⟩ := found
      · exact given_of_dated now
      · exact ih before
    | asked other answer => exact ih found

theorem Ascends.tail {e : AuthorityEvent} (ascends : Ascends (e :: log)) : Ascends log := by
  unfold Ascends at ascends
  cases e with
  | read time => exact (List.pairwise_cons.mp ascends).2
  | asked uri answer => exact ascends

theorem Ascends.le {now : Rat} (ascends : Ascends (read now :: log)) (member : read time ∈ log) :
    time ≤ now :=
  (List.pairwise_cons.mp ascends).1 time (List.mem_filterMap.mpr ⟨_, member, rfl⟩)

end AuthorityEvent

open AuthorityEvent

/-- The service, with a record of what it does to the outer world. -/
def AuthorityService.logged (s : AuthorityService ω Rat) :
    AuthorityService (ω × List AuthorityEvent) Rat where
  lookup uri := fun (world, log) =>
    match s.lookup uri world with
    | .ok result world => .ok result (world, .asked uri (.ok result) :: log)
    | .error fault world => .error fault (world, .asked uri (.error fault) :: log)
  now := fun (world, log) => ((s.now world).1, (s.now world).2, .read (s.now world).1 :: log)
  scale := s.scale
  base := s.base

namespace AuthorityService

variable {s : AuthorityService ω Rat} {uri : String} {cache cache' dropped : AuthorityCache Rat}
  {log log' : List AuthorityEvent} {gives : Checked (Option (AuthorityRecord Rat))}

/-- A record drops out of the cache when it is asked for and too old. -/
inductive Drops (uri : String) (now : Rat) (cache : AuthorityCache Rat) :
    AuthorityCache Rat → Prop where
  | none (missing : cache.records[uri]? = none) : Drops uri now cache cache
  | stale {r : AuthorityRecord Rat} (kept : cache.records[uri]? = some r)
      (old : 3600 * cache.lifetime ≤ now - r.createdAt) : Drops uri now cache (cache.remove uri)

/-- All that fetching a record may do to the cache and to the outer world, and what it gives. -/
inductive Fetches (uri : String) (cache : AuthorityCache Rat) (log : List AuthorityEvent) :
    Checked (Option (AuthorityRecord Rat)) → AuthorityCache Rat → List AuthorityEvent → Prop where
  | served {now : Rat} {r : AuthorityRecord Rat} (kept : cache.records[uri]? = some r)
      (fresh : now - r.createdAt < 3600 * cache.lifetime) :
      Fetches uri cache log (.ok (some r)) cache (.read now :: log)
  | refused {now : Rat} {dropped : AuthorityCache Rat} (answer : Checked LookupResult)
      (drops : Drops uri now cache dropped) (nothing : givenBy answer = none) :
      Fetches uri cache log (answer.map fun _ => none) dropped (.asked uri answer :: .read now :: log)
  | given {now time : Rat} {dropped : AuthorityCache Rat} {answer : Checked LookupResult}
      {entries : List (String × String)} (drops : Drops uri now cache dropped)
      (found : givenBy answer = some entries) :
      Fetches uri cache log (.ok (some ⟨uri, entries, time⟩)) (dropped.put uri ⟨uri, entries, time⟩)
        (.read time :: .asked uri answer :: .read now :: log)

theorem isStale_exact {now : Rat} {r : AuthorityRecord Rat} :
    cache.isStale .exact now r = decide (3600 * cache.lifetime ≤ now - r.createdAt) := by
  refine decide_eq_decide.mpr ?_
  change cache.lifetime ≤ (now - r.createdAt) / 3600 ↔ _
  rw [le_div_iff₀ (by norm_num), mul_comm]

theorem fetchAnew_logged {now : Rat} (world : ω) (drops : Drops uri now cache dropped) :
    ∃ world' gives cache' log', Fetches uri cache log gives cache' log'
      ∧ (s.logged.fetchAnew uri).outcome ⟨(world, .read now :: log), some dropped⟩ = gives
      ∧ (s.logged.fetchAnew uri).leaves ⟨(world, .read now :: log), some dropped⟩
        = ⟨(world', log'), some cache'⟩ := by
  cases ran : s.lookup uri world with
  | error fault world' =>
    have asked : s.logged.lookup uri (world, .read now :: log)
        = .error fault (world', .asked uri (.error fault) :: .read now :: log) := by
      simp only [logged, ran]
    have failed : s.logged.fetchAnew uri ⟨(world, .read now :: log), some dropped⟩
        = .error fault ⟨(world', .asked uri (.error fault) :: .read now :: log), some dropped⟩ :=
      Action.bind_of_error (AuthorityState.onWorld_of_error asked)
    have refused : Fetches uri cache log (.error fault) dropped
        (.asked uri (.error fault) :: .read now :: log) :=
      .refused (.error fault) drops rfl
    exact ⟨world', _, _, _, refused, Action.outcome_of_error failed, Action.leaves_of_error failed⟩
  | ok result world' =>
    have asked : s.logged.lookup uri (world, .read now :: log)
        = .ok result (world', .asked uri (.ok result) :: .read now :: log) := by
      simp only [logged, ran]
    have after : s.logged.fetchAnew uri ⟨(world, .read now :: log), some dropped⟩ = _ :=
      Action.bind_of_ok (AuthorityState.onWorld_of_ok asked)
    have refused (nothing : result.given? = none) : Fetches uri cache log (.ok none) dropped
        (.asked uri (.ok result) :: .read now :: log) :=
      .refused (.ok result) drops nothing
    match result with
    | .failed .. =>
      exact ⟨world', _, _, _, refused rfl, Action.outcome_of_ok after, Action.leaves_of_ok after⟩
    | .found [] _ =>
      exact ⟨world', _, _, _, refused rfl, Action.outcome_of_ok after, Action.leaves_of_ok after⟩
    | .found (entry :: more) status =>
      let r : AuthorityRecord Rat := ⟨uri, entry :: more, (s.now world').1⟩
      have given : Fetches uri cache log (.ok (some r)) (dropped.put uri r) (.read r.createdAt
          :: .asked uri (.ok (.found (entry :: more) status)) :: .read now :: log) :=
        .given drops rfl
      exact ⟨(s.now world').2, _, _, _, given, Action.outcome_of_ok after, Action.leaves_of_ok after⟩

theorem fetch_logged (exact : s.scale = .exact) (world : ω) (cache : AuthorityCache Rat)
    (log : List AuthorityEvent) (uri : String) :
    ∃ world' gives cache' log', Fetches uri cache log gives cache' log'
      ∧ (s.logged.fetch uri).outcome ⟨(world, log), some cache⟩ = gives
      ∧ (s.logged.fetch uri).leaves ⟨(world, log), some cache⟩ = ⟨(world', log'), some cache'⟩ := by
  have scale : s.logged.scale = .exact := exact
  rcases clock : s.now world with ⟨now, world'⟩
  have asked : s.logged.fromCache uri ⟨(world, log), some cache⟩
      = .ok (cache.get .exact now uri).1
        ⟨(world', .read now :: log), some (cache.get .exact now uri).2⟩ := by
    simp only [fromCache, Action.ofChange, scale]
    simp only [logged, clock]
  have anew {dropped : AuthorityCache Rat} (drops : Drops uri now cache dropped)
      (missed : s.logged.fromCache uri ⟨(world, log), some cache⟩
        = .ok none ⟨(world', .read now :: log), some dropped⟩) :
      ∃ world' gives cache' log', Fetches uri cache log gives cache' log'
        ∧ (s.logged.fetch uri).outcome ⟨(world, log), some cache⟩ = gives
        ∧ (s.logged.fetch uri).leaves ⟨(world, log), some cache⟩ = ⟨(world', log'), some cache'⟩ := by
    have after : s.logged.fetch uri ⟨(world, log), some cache⟩ = _ := Action.bind_of_ok missed
    rw [Action.outcome, Action.leaves, after]
    exact fetchAnew_logged world' drops
  rw [AuthorityCache.get] at asked
  cases kept : cache.records[uri]? with
  | none =>
    rw [kept] at asked
    exact anew (.none kept) asked
  | some r =>
    rw [kept] at asked
    dsimp only at asked
    rw [isStale_exact] at asked
    by_cases old : 3600 * cache.lifetime ≤ now - r.createdAt
    · rw [if_pos (decide_eq_true old)] at asked
      exact anew (.stale kept old) asked
    · rw [if_neg (by simpa using old)] at asked
      have served : s.logged.fetch uri ⟨(world, log), some cache⟩ = _ := Action.bind_of_ok asked
      exact ⟨world', _, _, _, .served kept (lt_of_not_ge old), Action.outcome_of_ok served,
        Action.leaves_of_ok served⟩

/-- The cache holds what the last answers with entries gave, unless it was found too old. -/
structure Faithful (lifetime : Rat) (cache : AuthorityCache Rat) (log : List AuthorityEvent) :
    Prop where
  bound : cache.lifetime = lifetime
  -- no answer waits for its date, so that one more reading of the clock gives nothing
  settled : ∀ key time, dated key time log.head? = none
  kept : ∀ key r, cache.records[key]? = some r → lastGiven key log = some r
  dropped : ∀ key r, cache.records[key]? = none → lastGiven key log = some r →
    ∃ time, .read time ∈ log ∧ 3600 * lifetime ≤ time - r.createdAt

namespace Faithful

variable {lifetime now : Rat} {answer : Checked LookupResult} (faithful : Faithful lifetime cache log)
include faithful

theorem lastGiven_read (key : String) : lastGiven key (.read now :: log) = lastGiven key log := by
  rw [lastGiven, faithful.settled, Option.none_or]

theorem read : Faithful lifetime cache (.read now :: log) where
  bound := faithful.bound
  settled _ _ := rfl
  kept key r found := (faithful.lastGiven_read key).trans (faithful.kept key r found)
  dropped key r missing given := by
    rw [faithful.lastGiven_read] at given
    obtain ⟨time, member, old⟩ := faithful.dropped key r missing given
    exact ⟨time, .tail _ member, old⟩

theorem remove {r : AuthorityRecord Rat} (kept : cache.records[uri]? = some r)
    (old : 3600 * lifetime ≤ now - r.createdAt) (member : .read now ∈ log) :
    Faithful lifetime (cache.remove uri) log where
  bound := faithful.bound
  settled := faithful.settled
  kept key r' found := by
    rw [AuthorityCache.getElem?_records_remove] at found
    split at found
    · cases found
    · exact faithful.kept key r' found
  dropped key r' missing given := by
    rw [AuthorityCache.getElem?_records_remove] at missing
    split at missing
    case isTrue same =>
      have last := faithful.kept uri r kept
      rw [same, given] at last
      cases last
      exact ⟨now, member, old⟩
    case isFalse => exact faithful.dropped key r' missing given

theorem refused (nothing : givenBy answer = none) :
    Faithful lifetime cache (.asked uri answer :: log) where
  bound := faithful.bound
  settled key time := by
    simp only [List.head?_cons, dated, nothing, Option.map_none, ite_self]
  kept := faithful.kept
  dropped key r missing given := by
    obtain ⟨time, member, old⟩ := faithful.dropped key r missing given
    exact ⟨time, .tail _ member, old⟩

theorem given {time : Rat} {entries : List (String × String)} (found : givenBy answer = some entries) :
    Faithful lifetime (cache.put uri ⟨uri, entries, time⟩)
      (.read time :: .asked uri answer :: log) where
  bound := faithful.bound
  settled _ _ := rfl
  kept key r kept := by
    rw [AuthorityCache.getElem?_records_put] at kept
    simp only [lastGiven, List.head?_cons, dated, found, Option.map_some]
    split at kept
    case isTrue same =>
      rw [if_pos same, ← same]
      exact kept
    case isFalse other =>
      rw [if_neg other]
      exact faithful.kept key r kept
  dropped key r missing last := by
    rw [AuthorityCache.getElem?_records_put] at missing
    simp only [lastGiven, List.head?_cons, dated] at last
    split at missing
    case isTrue => cases missing
    case isFalse other =>
      rw [if_neg other] at last
      obtain ⟨time', member, old⟩ := faithful.dropped key r missing last
      exact ⟨time', .tail _ (.tail _ member), old⟩

theorem kept_or_old (ascends : Ascends (.read now :: log)) {r : AuthorityRecord Rat}
    (last : lastGiven uri log = some r) :
    cache.records[uri]? = some r ∨ 3600 * lifetime ≤ now - r.createdAt := by
  cases kept : cache.records[uri]? with
  | none =>
    obtain ⟨time, member, old⟩ := faithful.dropped uri r kept last
    have later := ascends.le member
    exact .inr (by linarith)
  | some r' =>
    have same := faithful.kept uri r' kept
    rw [last] at same
    exact .inl same.symm

theorem whole {key : String} {r : AuthorityRecord Rat} (found : cache.records[key]? = some r) :
    r.uri = key ∧ r.entries ≠ [] :=
  given_of_lastGiven (faithful.kept key r found)

theorem drops (drops : Drops uri now cache dropped) : Faithful lifetime dropped (.read now :: log) := by
  cases drops with
  | none => exact faithful.read
  | stale kept old => exact faithful.read.remove kept (faithful.bound ▸ old) (.head _)

end Faithful

theorem Fetches.faithful {lifetime : Rat} (fetches : Fetches uri cache log gives cache' log')
    (faithful : Faithful lifetime cache log) : Faithful lifetime cache' log' := by
  cases fetches with
  | served => exact faithful.read
  | refused _ drops nothing => exact (faithful.drops drops).refused nothing
  | given drops found => exact (faithful.drops drops).given found

/-- A record that is asked for was given last too long ago, if ever. -/
theorem Drops.old {now lifetime : Rat} (drops : Drops uri now cache dropped)
    (faithful : Faithful lifetime cache log) (ascends : Ascends (.read now :: log))
    {r : AuthorityRecord Rat} (last : lastGiven uri log = some r) :
    3600 * lifetime ≤ now - r.createdAt := by
  obtain kept | old := faithful.kept_or_old ascends last
  · cases drops with
    | none missing =>
      rw [kept] at missing
      cases missing
    | stale kept' old =>
      rw [kept] at kept'
      cases kept'
      exact faithful.bound ▸ old
  · exact old

theorem Fetches.ascends (fetches : Fetches uri cache log gives cache' log') (ascends : Ascends log') :
    Ascends log := by
  cases fetches with
  | served => exact ascends.tail
  | refused => exact ascends.tail.tail
  | given => exact ascends.tail.tail.tail

theorem Fetches.spaced {lifetime : Rat} (fetches : Fetches uri cache log gives cache' log')
    (faithful : Faithful lifetime cache log) (ascends : Ascends log') (spaced : Spaced lifetime log) :
    Spaced lifetime log' := by
  cases fetches with
  | served => exact spaced
  | refused _ drops => exact ⟨⟨_, log, rfl, fun r => drops.old faithful ascends.tail⟩, spaced⟩
  | given drops => exact ⟨⟨_, log, rfl, fun r => drops.old faithful ascends.tail.tail⟩, spaced⟩

def Unlogged (o : AuthorityState (ω × List AuthorityEvent) Rat) (o' : AuthorityState ω Rat) : Prop :=
  o.world.1 = o'.world ∧ o.cache = o'.cache

theorem onWorld_unlogged {α : Type} {x : Action (ω × List AuthorityEvent) α} {y : Action ω α}
    (compared : Action.Compares False (fun w w' => w.1 = w') Eq x y) :
    Action.Compares False Unlogged Eq (AuthorityState.onWorld (τ := Rat) x)
      (AuthorityState.onWorld y) :=
  compared.onPart (fun _ _ states => states.1) fun _ _ _ _ states worlds => ⟨worlds, states.2⟩

theorem logged_fetch_compares (s : AuthorityService ω Rat) (uri : String) :
    Action.Compares False Unlogged Eq (s.logged.fetch uri) (s.fetch uri) := by
  have cached : Action.Compares False Unlogged Eq (s.logged.fromCache uri) (s.fromCache uri) := by
    refine .ofChange ?_
    rintro ⟨⟨world, log⟩, cache⟩ ⟨_, _⟩ ⟨rfl, rfl⟩
    cases cache with
    | none => exact ⟨rfl, rfl, rfl⟩
    | some cache => exact ⟨rfl, rfl, rfl⟩
  have asked : Action.Compares False (fun w w' => w.1 = w') Eq (s.logged.lookup uri)
      (s.lookup uri) := by
    rintro ⟨world, log⟩ _ rfl
    simp only [logged]
    cases s.lookup uri world with
    | ok result world => exact .ok rfl rfl
    | error fault world => exact .error rfl
  refine Action.Compares.bind_eq cached fun r => ?_
  cases r with
  | some r => exact .pure rfl
  | none =>
    refine Action.Compares.bind_eq (onWorld_unlogged asked) fun result => ?_
    match result with
    | .failed .. => exact .pure rfl
    | .found [] _ => exact .pure rfl
    | .found (entry :: more) _ =>
      refine Action.Compares.bind_eq (onWorld_unlogged (.ofChange ?_)) fun now => ?_
      · rintro ⟨world, log⟩ _ rfl
        exact ⟨rfl, rfl⟩
      · refine Action.Compares.bind (.modify ?_) fun _ _ _ => .pure rfl
        rintro o o' ⟨world, same⟩
        exact ⟨world, by rw [same]⟩

theorem logged_fetch_outcome (s : AuthorityService ω Rat) (uri : String)
    (o : AuthorityState (ω × List AuthorityEvent) Rat) :
    (s.logged.fetch uri).outcome o = (s.fetch uri).outcome ⟨o.world.1, o.cache⟩ :=
  ((logged_fetch_compares s uri).outcome ⟨rfl, rfl⟩).eq

end AuthorityService

/-- A call that may fetch a record, or a change of the outer world between calls. -/
inductive AuthorityCall (ω : Type) where
  | fetch (uri : String)
  | resolve (style : AuthorityStyle) (uri : String) (texts : AuthorityTexts)
  | passes (change : ω → ω)

namespace AuthorityCall

open AuthorityService

variable {s : AuthorityService ω Rat} {o : AuthorityState (ω × List AuthorityEvent) Rat}
  {uri : String} {lifetime : Rat}

def address? (base : String) : AuthorityCall ω → Option String
  | fetch uri => some uri
  | resolve _ uri _ => some (resolveUri base uri)
  | passes _ => none

/-- The state after a call, also after one that ends with a fault. -/
def run (s : AuthorityService ω Rat) : AuthorityCall ω →
    AuthorityState (ω × List AuthorityEvent) Rat → AuthorityState (ω × List AuthorityEvent) Rat
  | fetch uri, o => (s.logged.fetch uri).leaves o
  | resolve style uri texts, o => ((s.logged.resolve style uri).leaves (o, texts)).1
  | passes change, o => { o with world := (change o.world.1, o.world.2) }

def runAll (s : AuthorityService ω Rat) (calls : List (AuthorityCall ω))
    (o : AuthorityState (ω × List AuthorityEvent) Rat) :
    AuthorityState (ω × List AuthorityEvent) Rat :=
  calls.foldl (fun o call => call.run s o) o

theorem run_of_address {call : AuthorityCall ω} (named : call.address? s.base = some uri)
    (o : AuthorityState (ω × List AuthorityEvent) Rat) :
    call.run s o = (s.logged.fetch uri).leaves o := by
  cases call with
  | fetch other =>
    cases named
    rfl
  | resolve style other texts =>
    obtain rfl : resolveUri s.base other = uri := Option.some.inj named
    cases ran : s.logged.fetch (resolveUri s.base other) o with
    | error fault o' =>
      have ended : s.logged.resolve style other (o, texts) = .error fault (o', texts) :=
        Action.bind_of_error (Action.onPart_of_error ran)
      rw [run, Action.leaves_of_error ended, Action.leaves_of_error ran]
    | ok r o' =>
      have after : s.logged.resolve style other (o, texts) = _ :=
        Action.bind_of_ok (Action.onPart_of_ok ran)
      rw [run, Action.leaves, after, Action.leaves_of_ok ran]
      cases r with
      | none => rfl
      | some r =>
        dsimp only [Action.onPart]
        cases AuthorityFields.ofEntries style r.entries texts with
        | ok fields texts => rfl
        | error fault texts => rfl
  | passes change => cases named

/-- What calls lead to from an empty cache. -/
def Reached (lifetime : Rat) (o : AuthorityState (ω × List AuthorityEvent) Rat) : Prop :=
  ∃ cache, o.cache = some cache ∧ Faithful lifetime cache o.world.2
    ∧ (Ascends o.world.2 → Spaced lifetime o.world.2)

theorem Reached.run (exact : s.scale = .exact) (reached : Reached lifetime o) (call : AuthorityCall ω) :
    Reached lifetime (call.run s o) := by
  cases named : call.address? s.base with
  | none =>
    cases call with
    | fetch => cases named
    | resolve => cases named
    | passes change => exact reached
  | some uri =>
    obtain ⟨⟨world, log⟩, kept⟩ := o
    obtain ⟨cache, rfl, faithful, spaced⟩ := reached
    obtain ⟨world', gives, cache', log', fetches, -, left⟩ := fetch_logged exact world cache log uri
    rw [run_of_address named, left]
    exact ⟨cache', rfl, fetches.faithful faithful, fun ascends =>
      fetches.spaced faithful ascends (spaced (fetches.ascends ascends))⟩

theorem Reached.runAll (exact : s.scale = .exact) (reached : Reached lifetime o)
    (calls : List (AuthorityCall ω)) : Reached lifetime (runAll s calls o) := by
  induction calls generalizing o with
  | nil => exact reached
  | cons call calls ih => exact ih (reached.run exact call)

/-- A call for an address that is not known, and one for an address that is. -/
def twoCalls : List (AuthorityCall Rat) :=
  [.fetch "http://n/2", .passes (· + 60), .resolve {} " http://n/1" {}]

def afterTwoCalls : AuthorityState (Rat × List AuthorityEvent) Rat :=
  runAll Transformer.halfHours twoCalls ⟨(0, []), some { lifetime := 1 }⟩

end AuthorityCall

end MetadataIndex
