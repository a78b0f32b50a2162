import MetadataIndex.Web.Basic

/-!
# Repeating requests

An operation that fails for a passing reason is repeated a limited number of times. The pause before
each repetition grows by a factor up to a longest pause.
-/

set_option autoImplicit false

namespace MetadataIndex.Web

/-- How often and after which pauses an operation is repeated. -/
structure RetryPolicy where
  retries : Int := 2
  firstPause : Float := 0.5
  growth : Float := 2.0
  longestPause : Float := 4.0

namespace RetryPolicy

/-- The factor of the pause after an attempt, which may be too great for the arithmetic. -/
def growthAfter (p : RetryPolicy) (attempt : Nat) : Checked Float :=
  let factor := Float.pow p.growth (Float.ofNat attempt)
  if factor.isInf && !p.growth.isInf then .error .overflow else .ok factor

def pauseAfter (p : RetryPolicy) (attempt : Nat) : Checked Float := do
  let pause := p.firstPause * (← p.growthAfter attempt)
  return if p.longestPause < pause then p.longestPause else pause

def attempts (p : RetryPolicy) : Nat := (p.retries + 1).toNat

end RetryPolicy

/-- How repeated attempts ended. -/
structure RetryReport (α : Type) where
  /-- The result or the failure of the last attempt; none if there was no attempt. -/
  outcome : Option (Except Failure α) := none
  attempts : Nat := 0

namespace RetryReport

def message {α : Type} (r : RetryReport α) : String :=
  match r.outcome with
  | some (.error f) => f.message
  | _ => "No attempts made"

end RetryReport

/-- Attempts an operation up to `remaining` times after `made` attempts. -/
def attemptFrom {ω α : Type} (pause : Float → ω → ω) (policy : RetryPolicy)
    (operation : ω → Except Failure α × ω) : Nat → Nat → Action ω (RetryReport α)
  | 0, _ => return {}
  | remaining + 1, made => do
    match ← Action.ofChange operation with
    | .ok a => return ⟨some (.ok a), made + 1⟩
    | .error f =>
      if f.isTransient && 0 < remaining then
        let seconds ← policy.pauseAfter made
        modify (pause seconds)
        attemptFrom pause policy operation remaining (made + 1)
      else return ⟨some (.error f), made + 1⟩

def attempt {ω α : Type} (pause : Float → ω → ω) (policy : RetryPolicy)
    (operation : ω → Except Failure α × ω) : Action ω (RetryReport α) :=
  attemptFrom pause policy operation policy.attempts 0

end MetadataIndex.Web
