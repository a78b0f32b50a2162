import MetadataIndex.Authority.Lookup
import MetadataIndex.Citation.Fetcher
import MetadataIndex.Proofs.Authority.Kept

/-!
# Static networks

A static network gives each address the same reply whenever it is asked, whatever stands beside the
address in a request. Lookups and citation documents are then fixed too; what one lookup finds, any
other finds that asks at the same address and makes at least one attempt.
-/

set_option autoImplicit false

namespace MetadataIndex

variable {ω : Type}

namespace Web

def Network.Static (n : Network ω) (reply : String → Reply) : Prop :=
  ∀ request world, (n.get request world).1 = reply request.url

variable {α : Type} {pause : Float → ω → ω} {policy : RetryPolicy}
  {operation : ω → Except Failure α × ω} {result : Except Failure α}

/-- Attempts of an operation with one result end alike in every world. -/
theorem attemptFrom_compares (constant : ∀ world, (operation world).1 = result) {lax : Prop}
    (remaining made : Nat) :
    Action.Compares lax (fun _ _ => True) Eq (attemptFrom pause policy operation remaining made)
      (attemptFrom pause policy operation remaining made) := by
  induction remaining generalizing made with
  | zero => exact .pure rfl
  | succ remaining ih =>
    unfold attemptFrom
    refine Action.Compares.bind (A := Eq) (.ofChange fun w w' _ => ?_) ?_
    · exact ⟨(constant w).trans (constant w').symm, trivial⟩
    rintro result _ rfl
    cases result with
    | ok a => exact .pure rfl
    | error f =>
      dsimp only
      split
      · refine Action.Compares.bind_eq (.lift_self _) fun seconds => ?_
        exact Action.Compares.bind (.modify fun _ _ _ => trivial) fun _ _ _ => ih (made + 1)
      · exact .pure rfl

/-- Attempts that give something at all give what the operation gives. -/
theorem result_of_attemptFrom (constant : ∀ world, (operation world).1 = result) {remaining : Nat}
    {made : Nat} {world world' : ω} {report : RetryReport α} {a : α}
    (ran : attemptFrom pause policy operation remaining made world = .ok report world')
    (given : report.outcome = some (.ok a)) : result = .ok a := by
  induction remaining generalizing made world with
  | zero =>
    cases ran
    cases given
  | succ remaining ih =>
    unfold attemptFrom at ran
    obtain ⟨attempted, middle, ranFirst, ranNext⟩ := Action.bind_ok ran
    have same : attempted = result := by
      cases ranFirst
      exact constant world
    cases attempted with
    | ok b =>
      cases ranNext
      cases given
      exact same.symm
    | error f =>
      dsimp only at ranNext
      split at ranNext
      · obtain ⟨seconds, _, _, ranPause⟩ := Action.bind_ok ranNext
        obtain ⟨_, _, _, ranLater⟩ := Action.bind_ok ranPause
        exact ih ranLater
      · cases ranNext
        cases given

theorem outcome_attempt (constant : ∀ world, (operation world).1 = result) {a : α}
    (succeeds : result = .ok a) (attempts : 0 < policy.attempts) (world : ω) :
    (attempt pause policy operation).outcome world = .ok ⟨some (.ok a), 1⟩ := by
  unfold attempt
  obtain ⟨remaining, more⟩ := Nat.exists_eq_add_of_lt attempts
  rw [Nat.zero_add] at more
  rw [more]
  have first : Action.ofChange operation world = .ok (.ok a) (operation world).2 := by
    rw [← succeeds, ← constant world]
    rfl
  rw [attemptFrom, Action.outcome_bind_of_ok first]
  rfl

end Web

namespace LookupOptions

variable {network : Web.Network ω} {reply : String → Web.Reply} {o o' : LookupOptions}
  {uri : String}

/-- The reply at an address, of which only a response worth repeating is a failure. -/
def replyAt (reply : String → Web.Reply) (address : String) : Web.Reply :=
  match reply address with
  | .error f => .error f
  | .ok r =>
    match r.failure? address with
    | some f => if f.isTransient then .error f else .ok r
    | none => .ok r

theorem fst_request (static : network.Static reply) (o : LookupOptions) (address : String)
    (world : ω) : (o.request network address world).1 = replyAt reply address := by
  have same := static ⟨address, o.headers, o.timeout⟩ world
  unfold request replyAt
  rw [← same]
  cases asked : network.get ⟨address, o.headers, o.timeout⟩ world with
  | mk answered world' =>
    cases answered with
    | error f => rfl
    | ok r =>
      dsimp only
      cases r.failure? address with
      | none => rfl
      | some f => rfl

theorem lookup_compares (static : network.Static reply) (o : LookupOptions) (uri : String)
    {lax : Prop} :
    Action.Compares lax (fun _ _ => True) Eq (o.lookup network uri) (o.lookup network uri) := by
  unfold lookup
  dsimp only
  split
  · exact .pure rfl
  refine Action.Compares.bind_eq (Web.attemptFrom_compares (fst_request static o _) _ _)
    fun report => ?_
  cases report.outcome with
  | none => exact .pure rfl
  | some ended =>
    cases ended with
    | ok r => exact .pure rfl
    | error f => exact .pure rfl

/-- What a lookup finds is the document of the reply at its address. -/
theorem reply_of_lookup (static : network.Static reply) {world : ω}
    {entries : List (String × String)} {status : Option Int}
    (found : (o.lookup network uri).outcome world = .ok (.found entries status)) :
    (Text.trim uri).isEmpty = false ∧ ∃ r, replyAt reply (o.addressOf (Text.trim uri)) = .ok r
      ∧ o.resultOf r = .found entries status := by
  unfold lookup at found
  dsimp only at found
  split at found
  case isTrue => cases found
  case isFalse given =>
    refine ⟨Bool.eq_false_iff.mpr given, ?_⟩
    cases ran : Web.attempt network.pause o.retry
        (o.request network (o.addressOf (Text.trim uri))) world with
    | error fault world' =>
      rw [Action.outcome_bind_of_error ran] at found
      cases found
    | ok report world' =>
      rw [Action.outcome_bind_of_ok ran] at found
      cases ended : report.outcome with
      | none =>
        rw [ended] at found
        cases found
      | some attempted =>
        rw [ended] at found
        cases attempted with
        | error f => cases found
        | ok r =>
          have same := Web.result_of_attemptFrom (fst_request static o _) ran ended
          exact ⟨r, same, Except.ok.inj found⟩

/-- A response at the address of a lookup that makes an attempt decides its result. -/
theorem lookup_of_reply (static : network.Static reply) (given : (Text.trim uri).isEmpty = false)
    {r : Web.Response} (replied : replyAt reply (o.addressOf (Text.trim uri)) = .ok r)
    (attempts : 0 ≤ o.retry.retries) (world : ω) :
    (o.lookup network uri).outcome world = .ok (o.resultOf r) := by
  have some_attempt : 0 < o.retry.attempts := by
    unfold Web.RetryPolicy.attempts
    omega
  obtain ⟨world', ran⟩ := Action.ok_of_outcome
    (Web.outcome_attempt (fst_request static o _) replied some_attempt world)
  unfold lookup
  dsimp only
  rw [given]
  exact (Action.outcome_bind_of_ok ran).trans rfl

open AuthorityService (Finds)

/-- The results of a lookup in one world, which on a static network are its results in all. -/
def answer (o : LookupOptions) (network : Web.Network ω) (world : ω) (uri : String) :
    Checked LookupResult :=
  (o.lookup network uri).outcome world

theorem gives_answer (static : network.Static reply) (o : LookupOptions) (world : ω)
    (uri : String) : (o.lookup network uri).Gives (o.answer network world uri) :=
  (lookup_compares static o uri).gives world

/-- What one lookup finds, any other finds that asks at the same address in the same format and
makes an attempt. -/
theorem Finds.transfer (static : network.Static reply) (world : ω)
    (template : o'.template = o.template) (format : o'.format = o.format)
    (attempts : 0 ≤ o'.retry.retries) {entries : List (String × String)}
    (finds : Finds (o.answer network world) uri entries) :
    Finds (o'.answer network world) uri entries := by
  obtain ⟨given, status, found⟩ := finds
  obtain ⟨nonempty, r, replied, result⟩ := reply_of_lookup static found
  have address : o'.addressOf (Text.trim uri) = o.addressOf (Text.trim uri) := by
    rw [addressOf, template, addressOf]
  have same : o'.resultOf r = o.resultOf r := by
    have formats : o'.formatOf r = o.formatOf r := by
      rw [formatOf, format, formatOf]
    rw [resultOf, entriesOf, formats, resultOf, entriesOf]
  rw [← address] at replied
  refine ⟨given, status, ?_⟩
  rw [answer, lookup_of_reply static nonempty replied attempts, same, result]

end LookupOptions

/-- On a static network the document at an address is fixed. -/
theorem Citation.documentAt_compares {network : Web.Network ω} {reply : String → Web.Reply}
    (static : network.Static reply) (o : Citation.Options) (address : String) {lax : Prop} :
    Action.Compares lax (fun _ _ => True) Eq (Citation.documentAt network o address)
      (Citation.documentAt network o address) := by
  unfold Citation.documentAt
  refine Action.Compares.bind (A := Eq) (.ofChange fun w w' _ => ⟨?_, trivial⟩) ?_
  · exact (static _ w).trans (static _ w').symm
  · rintro answered _ rfl
    exact .lift (.refl (fun _ => rfl) _)

end MetadataIndex
