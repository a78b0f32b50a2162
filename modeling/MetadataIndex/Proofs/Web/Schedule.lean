import Mathlib.Data.ENat.Lattice
import MetadataIndex.Proofs.Effect.Comparison
import MetadataIndex.Web.Retry

/-!
# The schedule of attempts

Attempts go on up to the first outcome that is not worth repeating, or until none is left, and a pause
stands before each repetition and nowhere else. What is reported is the last outcome. First for an
operation in any world, with the world before each attempt, and then for outcomes that are given.
-/

set_option autoImplicit false

namespace MetadataIndex.Web

variable {ω α : Type}

/-- An outcome after which an operation is not repeated. -/
def IsSettled : Except Failure α → Prop
  | .ok _ => True
  | .error f => f.isTransient = false

instance : (outcome : Except Failure α) → Decidable (IsSettled outcome)
  | .ok _ => inferInstanceAs (Decidable True)
  | .error f => inferInstanceAs (Decidable (f.isTransient = false))

theorem exists_transient_of_not_isSettled {outcome : Except Failure α}
    (passing : ¬IsSettled outcome) : ∃ f, outcome = .error f ∧ f.isTransient = true := by
  cases outcome with
  | ok a => exact absurd trivial passing
  | error f =>
    rw [IsSettled, Bool.not_eq_false] at passing
    exact ⟨f, rfl, passing⟩

/-! ## Attempts in a world -/

section Worlds

variable (pause : Float → ω → ω) (operation : ω → Except Failure α × ω) (pauses : Nat → Float) (world : ω)

/-- The world before each attempt, if all earlier ones are repeated. -/
def worldBefore : Nat → ω
  | 0 => world
  | made + 1 => pause (pauses made) (operation (worldBefore made)).2

/-- The outcome of each attempt, if all earlier ones are repeated. -/
def outcomeAt (made : Nat) : Except Failure α :=
  (operation (worldBefore pause operation pauses world made)).1

/-- The world after each attempt, if all earlier ones are repeated. -/
def worldAfter (made : Nat) : ω :=
  (operation (worldBefore pause operation pauses world made)).2

end Worlds

variable {pause : Float → ω → ω} {operation : ω → Except Failure α × ω} {pauses : Nat → Float}
  {world : ω} {policy : RetryPolicy}

/-- Attempts that are made after others: up to one that settles the operation, or the last. -/
theorem attemptFrom_eq {more remaining made : Nat}
    (passing : ∀ i < more, ¬IsSettled (outcomeAt pause operation pauses world (made + i)))
    (paused : ∀ i < more, policy.pauseAfter (made + i) = .ok (pauses (made + i)))
    (last : IsSettled (outcomeAt pause operation pauses world (made + more)) ∨ remaining = 0) :
    attemptFrom pause policy operation (remaining + more + 1) made
        (worldBefore pause operation pauses world made)
      = .ok ⟨some (outcomeAt pause operation pauses world (made + more)), made + more + 1⟩
        (worldAfter pause operation pauses world (made + more)) := by
  induction more generalizing made with
  | zero =>
    have ran : Action.ofChange operation (worldBefore pause operation pauses world made)
        = .ok (outcomeAt pause operation pauses world made)
          (worldAfter pause operation pauses world made) := rfl
    rw [Nat.add_zero] at last ⊢
    rw [attemptFrom, Action.bind_of_ok ran]
    cases ended : outcomeAt pause operation pauses world made with
    | ok a => rfl
    | error f =>
      have stop : (f.isTransient && decide (0 < remaining)) = false := by
        rw [ended, IsSettled] at last
        rcases last with settled | none
        · rw [settled, Bool.false_and]
        · rw [none, decide_eq_false (Nat.lt_irrefl 0), Bool.and_false]
      dsimp only [Nat.add_eq, Nat.add_zero]
      rw [stop]
      rfl
  | succ more ih =>
    obtain ⟨f, failed, transient⟩ := exists_transient_of_not_isSettled (passing 0 (Nat.succ_pos more))
    have ran : Action.ofChange operation (worldBefore pause operation pauses world made)
        = .ok (.error f) (worldAfter pause operation pauses world made) := by
      rw [← failed]
      rfl
    have again : (f.isTransient && decide (0 < remaining + (more + 1))) = true := by
      rw [transient, Bool.true_and, decide_eq_true_eq]
      omega
    have waited : policy.pauseAfter made = .ok (pauses made) := paused 0 (Nat.succ_pos more)
    have shift (i : Nat) : made + (i + 1) = made + 1 + i := by omega
    have next := ih (fun i within => shift i ▸ passing (i + 1) (Nat.succ_lt_succ within))
      (fun i within => shift i ▸ paused (i + 1) (Nat.succ_lt_succ within)) (shift more ▸ last)
    rw [attemptFrom, Action.bind_of_ok ran]
    dsimp only
    rw [again, if_pos rfl, waited, shift more, ← next]
    rfl

/-- The number of the last attempt: the first that settles the operation, or the last there may be. -/
theorem exists_last (outcomes : Nat → Except Failure α) (retries : Nat) :
    ∃ n ≤ retries, (∀ i < n, ¬IsSettled (outcomes i)) ∧ (IsSettled (outcomes n) ∨ n = retries) := by
  induction retries with
  | zero => exact ⟨0, Nat.le_refl 0, fun i within => absurd within (Nat.not_lt_zero i), .inr rfl⟩
  | succ retries ih =>
    obtain ⟨n, within, passing, last⟩ := ih
    by_cases settled : IsSettled (outcomes n)
    · exact ⟨n, by omega, passing, .inl settled⟩
    · obtain rfl := last.resolve_left settled
      refine ⟨n + 1, Nat.le_refl _, fun i before => ?_, .inr rfl⟩
      rcases Nat.lt_succ_iff_lt_or_eq.mp before with earlier | rfl
      · exact passing i earlier
      · exact settled

/-- Attempts end with the first that settles the operation, or with the last there may be. -/
theorem attempt_eq {n : Nat} (within : n ≤ policy.retries.toNat) (given : 0 ≤ policy.retries)
    (passing : ∀ i < n, ¬IsSettled (outcomeAt pause operation pauses world i))
    (last : IsSettled (outcomeAt pause operation pauses world n) ∨ n = policy.retries.toNat)
    (paused : ∀ i : Nat, (i : Int) < policy.retries → policy.pauseAfter i = .ok (pauses i)) :
    attempt pause policy operation world = .ok ⟨some (outcomeAt pause operation pauses world n), n + 1⟩
      (worldAfter pause operation pauses world n) := by
  have count : policy.attempts = policy.retries.toNat - n + n + 1 := by
    unfold RetryPolicy.attempts
    omega
  have ended : attemptFrom pause policy operation (policy.retries.toNat - n + n + 1) 0 world = _ :=
    attemptFrom_eq (fun i before => (Nat.zero_add i).symm ▸ passing i before)
      (fun i before => (Nat.zero_add i).symm ▸ paused i (by omega))
      ((Nat.zero_add n).symm ▸ last.imp_right fun all => by omega)
  rw [Nat.zero_add] at ended
  rw [attempt, count]
  exact ended

/-! ## Given outcomes -/

/-- A step of repeated attempts. -/
inductive RetryStep where
  | call
  | wait (seconds : Float)

namespace RetryStep

def isCall : RetryStep → Bool
  | call => true
  | wait _ => false

/-- The operation whose outcomes are given, in a world that is the list of all steps so far. -/
def rehearse (outcomes : Nat → Except Failure α) (steps : List RetryStep) :
    Except Failure α × List RetryStep :=
  (outcomes (steps.countP isCall), steps ++ [call])

def note (seconds : Float) (steps : List RetryStep) : List RetryStep :=
  steps ++ [wait seconds]

/-- So many calls, with a pause after each. -/
def repeated (pauses : Nat → Float) (count : Nat) : List RetryStep :=
  (List.range count).flatMap fun i => [call, wait (pauses i)]

theorem repeated_succ (pauses : Nat → Float) (count : Nat) :
    repeated pauses (count + 1) = repeated pauses count ++ [call] ++ [wait (pauses count)] := by
  simp [repeated, List.range_succ]

theorem countP_repeated (pauses : Nat → Float) (count : Nat) :
    (repeated pauses count).countP isCall = count := by
  induction count with
  | zero => rfl
  | succ count ih =>
    rw [repeated_succ, List.countP_append, List.countP_append, ih]
    rfl

theorem worldBefore_rehearse (outcomes : Nat → Except Failure α) (pauses : Nat → Float) (made : Nat) :
    worldBefore note (rehearse outcomes) pauses [] made = repeated pauses made := by
  induction made with
  | zero => rfl
  | succ made ih =>
    rw [worldBefore, ih, repeated_succ]
    rfl

theorem outcomeAt_rehearse (outcomes : Nat → Except Failure α) (pauses : Nat → Float) (made : Nat) :
    outcomeAt note (rehearse outcomes) pauses [] made = outcomes made := by
  rw [outcomeAt, worldBefore_rehearse, rehearse, countP_repeated]

theorem worldAfter_rehearse (outcomes : Nat → Except Failure α) (pauses : Nat → Float) (made : Nat) :
    worldAfter note (rehearse outcomes) pauses [] made = repeated pauses made ++ [call] := by
  rw [worldAfter, worldBefore_rehearse, rehearse]

end RetryStep

/-- The first outcome after which an operation is not repeated; infinite if there is none. -/
noncomputable def firstSettled (outcomes : Nat → Except Failure α) : ℕ∞ :=
  ⨅ (i : Nat) (_ : IsSettled (outcomes i)), (i : ℕ∞)

theorem le_firstSettled {outcomes : Nat → Except Failure α} {n : Nat}
    (passing : ∀ i < n, ¬IsSettled (outcomes i)) : (n : ℕ∞) ≤ firstSettled outcomes := by
  refine le_iInf₂ fun i settled => ?_
  rw [Nat.cast_le]
  by_contra later
  exact passing i (Nat.lt_of_not_le later) settled

theorem eq_min_firstSettled {outcomes : Nat → Except Failure α} {n retries : Nat} (within : n ≤ retries)
    (passing : ∀ i < n, ¬IsSettled (outcomes i)) (last : IsSettled (outcomes n) ∨ n = retries) :
    (n : ℕ∞) = min (firstSettled outcomes) retries := by
  apply le_antisymm
  · exact le_min (le_firstSettled passing) (Nat.cast_le.mpr within)
  · rcases last with settled | all
    · exact (min_le_left _ _).trans (iInf₂_le n settled)
    · exact (min_le_right _ _).trans (Nat.cast_le.mpr all.ge)

open RetryStep

/-- Pauses that grow without bound at once, up to the longest. -/
def steepPolicy : RetryPolicy := { growth := 1.0 / 0.0 }

def steepPause (made : Nat) : Float :=
  let pause := steepPolicy.firstPause * Float.pow steepPolicy.growth (Float.ofNat made)
  if steepPolicy.longestPause < pause then steepPolicy.longestPause else pause

theorem pauseAfter_steepPolicy (made : Nat) : steepPolicy.pauseAfter made = .ok (steepPause made) := by
  have infinite : steepPolicy.growth.isInf = true := by decide +kernel
  have growth : steepPolicy.growthAfter made
      = .ok (Float.pow steepPolicy.growth (Float.ofNat made)) := by
    rw [RetryPolicy.growthAfter, infinite, Bool.not_true, Bool.and_false]
    rfl
  rw [RetryPolicy.pauseAfter, growth]
  rfl

/-- A service that is busy, does not answer in time and then answers. -/
def busyThenFound : Nat → Except Failure String
  | 0 => .error ⟨.status 503, "busy"⟩
  | 1 => .error ⟨.timeout, "late"⟩
  | _ => .ok "found"

end MetadataIndex.Web
