import MetadataIndex.Fault

/-!
# Effects

An action reads and changes a state and ends with a result or a fault. What it changed before a
fault stays changed.
-/

set_option autoImplicit false

namespace MetadataIndex

abbrev Action (σ α : Type) := EStateM Fault σ α

instance {σ : Type} : MonadLift (Except Fault) (EStateM Fault σ) where
  monadLift
    | .ok a => pure a
    | .error fault => throw fault

namespace Action

/-- The action that a change of state with a result is. -/
def ofChange {σ α : Type} (change : σ → α × σ) : Action σ α := fun s =>
  let (a, s) := change s
  .ok a s

def onPart {σ ρ α : Type} (get : σ → ρ) (set : σ → ρ → σ) (action : Action ρ α) : Action σ α :=
  fun s =>
    match action (get s) with
    | .ok a r => .ok a (set s r)
    | .error fault r => .error fault (set s r)

end Action

end MetadataIndex
