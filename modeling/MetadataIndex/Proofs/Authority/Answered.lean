import MetadataIndex.Authority.Lookup
import MetadataIndex.Proofs.Web.Schedule
import MetadataIndex.Service.Script

/-!
# How lookups end

A lookup always ends with a result. It reports a failure with a message and without entries, or a
document that was found with its number, and every entry is one of the last reply. The requests that
were made are logged beside the world.
-/

set_option autoImplicit false

namespace MetadataIndex

variable {ω : Type}

/-! ## Requests and the replies to them -/

namespace Web

/-- The network with a log of its requests and the replies to them. -/
def Network.logged (n : Network ω) : Network (ω × List (Request × Reply)) where
  get request world :=
    let (reply, after) := n.get request world.1
    (reply, after, world.2 ++ [(request, reply)])
  pause seconds world := (n.pause seconds world.1, world.2)

end Web

namespace LookupOptions

open Web (outcomeAt worldBefore worldAfter)

variable (o : LookupOptions) (network : Web.Network ω) (address : String) (pauses : Nat → Float)
  (world : ω)

def requestAt : Web.Request := ⟨address, o.headers, o.timeout⟩

/-- What a reply is to a lookup: a response worth repeating counts as a failure. -/
def judged : Web.Reply → Web.Reply
  | .error f => .error f
  | .ok r =>
    match r.failure? address with
    | some f => if f.isTransient then .error f else .ok r
    | none => .ok r

/-- The reply to each request, if all earlier ones are repeated. -/
def replyOf (made : Nat) : Web.Reply :=
  (network.get (o.requestAt address)
    (worldBefore network.pause (o.request network address) pauses world made)).1

/-- The first requests and the replies to them, if all are repeated. -/
def repliesTo (count : Nat) : List (Web.Request × Web.Reply) :=
  (List.range count).map fun i => (o.requestAt address, o.replyOf network address pauses world i)

variable {o network address pauses world}

theorem request_eq : o.request network address world
    = (judged address (network.get (o.requestAt address) world).1,
      (network.get (o.requestAt address) world).2) := by
  unfold request requestAt
  cases asked : network.get ⟨address, o.headers, o.timeout⟩ world with
  | mk reply after =>
    cases reply with
    | error f => rfl
    | ok r =>
      rw [judged]
      dsimp only
      cases r.failure? address with
      | none => rfl
      | some f => rfl

theorem request_logged (log : List (Web.Request × Web.Reply)) :
    o.request network.logged address (world, log) = ((o.request network address world).1,
      (o.request network address world).2,
      log ++ [(o.requestAt address, (network.get (o.requestAt address) world).1)]) := by
  rw [request_eq, request_eq]
  rfl

theorem worldBefore_logged (made : Nat) :
    worldBefore network.logged.pause (o.request network.logged address) pauses (world, []) made
      = (worldBefore network.pause (o.request network address) pauses world made,
        o.repliesTo network address pauses world made) := by
  induction made with
  | zero => rfl
  | succ made ih =>
    have next : o.repliesTo network address pauses world (made + 1)
        = o.repliesTo network address pauses world made
          ++ [(o.requestAt address, o.replyOf network address pauses world made)] := by
      simp [repliesTo, List.range_succ]
    rw [worldBefore, ih, request_logged, next]
    rfl

theorem outcomeAt_logged (made : Nat) :
    outcomeAt network.logged.pause (o.request network.logged address) pauses (world, []) made
      = outcomeAt network.pause (o.request network address) pauses world made := by
  rw [outcomeAt, worldBefore_logged, request_logged, outcomeAt]

theorem worldAfter_logged (made : Nat) :
    worldAfter network.logged.pause (o.request network.logged address) pauses (world, []) made
      = (worldAfter network.pause (o.request network address) pauses world made,
        o.repliesTo network address pauses world (made + 1)) := by
  rw [worldAfter, worldBefore_logged, request_logged, repliesTo, repliesTo, List.range_succ,
    List.map_append]
  rfl

theorem reply_of_judged {reply : Web.Reply} {r : Web.Response}
    (responded : judged address reply = .ok r) : reply = .ok r := by
  unfold judged at responded
  split at responded
  · cases responded
  · split at responded
    · split at responded
      · cases responded
      · exact responded
    · exact responded

theorem replyOf_of_outcomeAt {made : Nat} {r : Web.Response}
    (responded : outcomeAt network.pause (o.request network address) pauses world made = .ok r) :
    o.replyOf network address pauses world made = .ok r := by
  rw [outcomeAt, request_eq] at responded
  exact reply_of_judged responded

/-- Attempts are made alike with a log, which then has the requests and the replies to them. -/
theorem attempt_logged {n : Nat} (within : n ≤ o.retry.retries.toNat) (given : 0 ≤ o.retry.retries)
    (passing : ∀ i < n,
      ¬Web.IsSettled (outcomeAt network.pause (o.request network address) pauses world i))
    (last : Web.IsSettled (outcomeAt network.pause (o.request network address) pauses world n)
      ∨ n = o.retry.retries.toNat)
    (paused : ∀ i : Nat, (i : Int) < o.retry.retries → o.retry.pauseAfter i = .ok (pauses i)) :
    Web.attempt network.logged.pause o.retry (o.request network.logged address) (world, [])
      = .ok ⟨some (outcomeAt network.pause (o.request network address) pauses world n), n + 1⟩
        (worldAfter network.pause (o.request network address) pauses world n,
          o.repliesTo network address pauses world (n + 1)) := by
  rw [← outcomeAt_logged, ← worldAfter_logged]
  apply Web.attempt_eq within given ?_ ?_ paused
  · intro i before
    rw [outcomeAt_logged]
    exact passing i before
  · rw [outcomeAt_logged]
    exact last

theorem getLast?_repliesTo (made : Nat) :
    (o.repliesTo network address pauses world (made + 1)).getLast?
      = some (o.requestAt address, o.replyOf network address pauses world made) := by
  simp [repliesTo, List.range_succ]

end LookupOptions

/-! ## Results -/

namespace LookupResult

def succeeds : LookupResult → Bool
  | found _ _ => true
  | failed _ _ => false

def message? : LookupResult → Option String
  | found _ _ => none
  | failed message _ => some message

def status? : LookupResult → Option Int
  | found _ status => status
  | failed _ status => status

/-- A failure has a message and no entries; what was found has the number of a response that is no
failure, and no message. -/
structure Consistent (r : LookupResult) : Prop where
  failed : r.succeeds = false → r.entries = [] ∧ ∃ message, r.message? = some message
  found : r.succeeds = true → r.message? = none
    ∧ ∃ status, r.status? = some status ∧ (status = 404 ∧ r.entries = [] ∨ status < 400)

theorem consistent_failed (message : String) (status : Option Int) :
    (LookupResult.failed message status).Consistent where
  failed _ := ⟨rfl, message, rfl⟩
  found := nofun

end LookupResult

namespace LookupOptions

variable {o : LookupOptions} {r : Web.Response}

theorem consistent_resultOf : (o.resultOf r).Consistent := by
  unfold resultOf
  split
  · next missing =>
    exact ⟨nofun, fun _ => ⟨rfl, 404, rfl, .inl ⟨rfl, rfl⟩⟩⟩
  split
  · exact LookupResult.consistent_failed _ _
  · next success =>
    have below : r.status < 400 := by
      simpa [Web.Response.isSuccess] using success
    split
    · exact ⟨nofun, fun _ => ⟨rfl, r.status, rfl, .inr below⟩⟩
    · split
      · exact ⟨nofun, fun _ => ⟨rfl, r.status, rfl, .inr below⟩⟩
      · exact LookupResult.consistent_failed _ _

/-- The body of a response, read in one of the two formats. -/
def Holds (r : Web.Response) (entries : List (String × String)) : Prop :=
  Payload.readXml (Text.trim r.text) = .ok entries ∨ Payload.readJson r.text = .ok entries

theorem holds_of_entriesOf {entries : List (String × String)} (read : o.entriesOf r = .ok entries) :
    Holds r entries := by
  unfold entriesOf at read
  split at read
  · exact .inl read
  · exact .inr read

/-- The result of a lookup with the outcome of its last request. -/
def resultFor (o : LookupOptions) : Except Web.Failure Web.Response → LookupResult
  | .ok r => o.resultOf r
  | .error f => .failed f.message f.status?

theorem entries_resultOf : (o.resultOf r).entries = [] ∨ Holds r (o.resultOf r).entries := by
  unfold resultOf
  split
  · exact .inl rfl
  split
  · exact .inl rfl
  split
  · exact .inl rfl
  · split
    · next read => exact .inr (holds_of_entriesOf read)
    · exact .inl rfl

theorem consistent_of_outcome (outcome : Except Web.Failure Web.Response) :
    (o.resultFor outcome).Consistent := by
  cases outcome with
  | ok r => exact consistent_resultOf
  | error f => exact LookupResult.consistent_failed _ _

variable {network : Web.Network ω} {address : String} {pauses : Nat → Float} {world : ω}

theorem lookup_of_attempt {uri : String} (given : (Text.trim uri).isEmpty = false)
    {outcome : Except Web.Failure Web.Response} {attempts : Nat} {world' : ω}
    (ended : Web.attempt network.pause o.retry (o.request network (o.addressOf (Text.trim uri))) world
      = .ok ⟨some outcome, attempts⟩ world') :
    o.lookup network uri world = .ok (o.resultFor outcome) world' := by
  unfold lookup
  rw [given, if_neg Bool.false_ne_true, Action.bind_of_ok ended]
  cases outcome with
  | ok r => rfl
  | error f => rfl

theorem lookup_of_blank {uri : String} (blank : (Text.trim uri).isEmpty) :
    o.lookup network uri world = .ok (.failed "Authority URI is empty") world := by
  unfold lookup
  rw [if_pos blank]
  rfl

theorem length_repliesTo (count : Nat) :
    (o.repliesTo network address pauses world count).length = count := by
  simp [repliesTo]

theorem request_of_mem_repliesTo {count : Nat} {logged : Web.Request × Web.Reply}
    (member : logged ∈ o.repliesTo network address pauses world count) :
    logged.1 = o.requestAt address := by
  obtain ⟨i, -, rfl⟩ := List.mem_map.mp member
  rfl

/-- A service that is busy once, and then has a record. -/
def busyService : Web.Script where
  replies := [("http://h/1", [.ok { status := 503, reason := "Busy" },
    .ok { headers := [("Content-Type", "text/xml")], text := "<r><NORM_NAME>A</NORM_NAME></r>" }])]

def steepLookup : LookupOptions := { retry := Web.steepPolicy }

theorem lookup_busyService : ∃ world', steepLookup.lookup Web.Script.network "http://h/1" busyService
    = .ok (.found [("NORM_NAME", "A")] (some 200)) world' := by
  have address : steepLookup.addressOf (Text.trim "http://h/1") = "http://h/1" := by decide +kernel
  have outcomes : ∀ i < 1, ¬Web.IsSettled (Web.outcomeAt Web.Script.network.pause
      (steepLookup.request Web.Script.network "http://h/1") Web.steepPause busyService i) := by
    decide +kernel
  have settled : Web.IsSettled (Web.outcomeAt Web.Script.network.pause
      (steepLookup.request Web.Script.network "http://h/1") Web.steepPause busyService 1) := by
    decide +kernel
  have ended := Web.attempt_eq (by decide : 1 ≤ Web.steepPolicy.retries.toNat) (by decide) outcomes
    (.inl settled) (fun i _ => Web.pauseAfter_steepPolicy i)
  have result : steepLookup.resultFor (Web.outcomeAt Web.Script.network.pause
      (steepLookup.request Web.Script.network "http://h/1") Web.steepPause busyService 1)
      = .found [("NORM_NAME", "A")] (some 200) := by decide +kernel
  have visible : (Text.trim "http://h/1").isEmpty = false := by decide +kernel
  rw [← address] at ended
  have looked := lookup_of_attempt (o := steepLookup) visible ended
  rw [address, result] at looked
  exact ⟨_, looked⟩

end LookupOptions

end MetadataIndex
