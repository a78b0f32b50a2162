import MetadataIndex.Proofs.Effect.Comparison

/-!
# Invariants of actions

An action ensures an invariant when each of its runs from a state with the invariant leaves a state
with it, also a run that ends with a fault. What a completed run gives may have a property.
-/

set_option autoImplicit false

namespace MetadataIndex.Action

variable {σ ρ α β : Type}

/-- Runs keep an invariant, and what they give has a property. -/
structure Ensures (I : σ → Prop) (Q : α → Prop) (x : Action σ α) : Prop where
  completed : ∀ {s a s'}, I s → x s = .ok a s' → Q a ∧ I s'
  failed : ∀ {s fault s'}, I s → x s = .error fault s' → I s'

namespace Ensures

variable {I : σ → Prop} {Q : α → Prop} {R : β → Prop}

theorem leaves {x : Action σ α} (ensured : Ensures I Q x) {s : σ} (holds : I s) :
    I (x.leaves s) := by
  cases ran : x s with
  | ok a s' => exact leaves_of_ok ran ▸ (ensured.completed holds ran).2
  | error fault s' => exact leaves_of_error ran ▸ ensured.failed holds ran

theorem of_leaves {x : Action σ α} (kept : ∀ s, I s → I (x.leaves s)) :
    Ensures I (fun _ => True) x where
  completed holds ran := ⟨True.intro, leaves_of_ok ran ▸ kept _ holds⟩
  failed holds ran := leaves_of_error ran ▸ kept _ holds

theorem trivial (x : Action σ α) : Ensures (fun _ => True) (fun _ => True) x where
  completed _ _ := ⟨True.intro, True.intro⟩
  failed _ _ := True.intro

theorem pure {a : α} (holds : Q a) : Ensures I Q (Pure.pure a) where
  completed kept ran := by
    cases ran
    exact ⟨holds, kept⟩
  failed kept ran := by cases ran

theorem fault (fault : Fault) : Ensures I Q (throw fault) where
  completed kept ran := by cases ran
  failed kept ran := by
    cases ran
    exact kept

theorem bind {x : Action σ α} {f : α → Action σ β} (first : Ensures I Q x)
    (next : ∀ a, Q a → Ensures I R (f a)) : Ensures I R (x >>= f) where
  completed kept ran := by
    obtain ⟨a, middle, ranFirst, ranNext⟩ := bind_ok ran
    obtain ⟨holds, keptBetween⟩ := first.completed kept ranFirst
    exact (next a holds).completed keptBetween ranNext
  failed {s fault s'} kept ran := by
    cases ranFirst : x s with
    | ok a middle =>
      rw [bind_of_ok ranFirst] at ran
      obtain ⟨holds, keptBetween⟩ := first.completed kept ranFirst
      exact (next a holds).failed keptBetween ran
    | error fault' middle =>
      rw [bind_of_error ranFirst] at ran
      cases ran
      exact first.failed kept ranFirst

theorem imp {Q' : α → Prop} {x : Action σ α} (ensured : Ensures I Q x)
    (weaker : ∀ a, Q a → Q' a) : Ensures I Q' x where
  completed kept ran := ⟨weaker _ (ensured.completed kept ran).1, (ensured.completed kept ran).2⟩
  failed kept ran := ensured.failed kept ran

theorem both {Q' : α → Prop} {x : Action σ α} (ensured : Ensures I Q x)
    (also : Ensures (fun _ => True) Q' x) : Ensures I (fun a => Q a ∧ Q' a) x where
  completed kept ran := by
    obtain ⟨holds, kept⟩ := ensured.completed kept ran
    exact ⟨⟨holds, (also.completed True.intro ran).1⟩, kept⟩
  failed kept ran := ensured.failed kept ran

theorem lift {c : Checked α} (holds : ∀ a, c = .ok a → Q a) :
    Ensures I Q (liftM c : Action σ α) := by
  cases c with
  | ok a => exact pure (holds a rfl)
  | error raised => exact fault raised

theorem ofChange {change : σ → α × σ} (kept : ∀ s, I s → Q (change s).1 ∧ I (change s).2) :
    Ensures I Q (Action.ofChange change) where
  completed {s a s'} holds ran := by
    cases ran
    exact kept s holds
  failed holds ran := by cases ran

theorem modify {f : σ → σ} (kept : ∀ s, I s → I (f s)) :
    Ensures I (fun _ => True) (modify f) where
  completed holds ran := by
    cases ran
    exact ⟨True.intro, kept _ holds⟩
  failed holds ran := by cases ran

theorem get : Ensures I I get where
  completed holds ran := by
    cases ran
    exact ⟨holds, holds⟩
  failed holds ran := by cases ran

theorem forall_mapM {γ : Type} {f : γ → Action σ α} (items : List γ)
    (each : ∀ i ∈ items, Ensures I Q (f i)) :
    Ensures I (fun results => ∀ a ∈ results, Q a) (items.mapM f) := by
  induction items with
  | nil => exact .pure (List.forall_mem_nil _)
  | cons i items ih =>
    rw [List.mapM_cons]
    refine (each i (.head _)).bind fun _ first => ?_
    refine (ih fun j member => each j (.tail _ member)).bind fun _ rest => ?_
    exact .pure (List.forall_mem_cons.mpr ⟨first, rest⟩)

theorem mapM {γ : Type} {f : γ → Action σ α} (items : List γ)
    (each : ∀ i ∈ items, Ensures I (fun _ => True) (f i)) :
    Ensures I (fun _ => True) (items.mapM f) :=
  (forall_mapM items each).imp fun _ _ => True.intro

theorem foldlM {γ : Type} {f : α → γ → Action σ α} (items : List γ)
    (each : ∀ a, ∀ i ∈ items, Ensures I (fun _ => True) (f a i)) (a : α) :
    Ensures I (fun _ => True) (items.foldlM f a) := by
  induction items generalizing a with
  | nil => exact .pure True.intro
  | cons i items ih =>
    rw [List.foldlM_cons]
    exact (each a i (.head _)).bind fun a _ => ih (fun a j later => each a j (.tail _ later)) a

theorem forM {γ : Type} {f : γ → Action σ Unit} (items : List γ)
    (each : ∀ i ∈ items, Ensures I (fun _ => True) (f i)) :
    Ensures I (fun _ => True) (items.forM f) := by
  induction items with
  | nil => exact .pure True.intro
  | cons i items ih =>
    exact (each i (.head _)).bind fun _ _ => ih fun j later => each j (.tail _ later)

theorem tryCatch {x : Action σ α} {handler : Fault → Action σ α} (ensured : Ensures I Q x)
    (caught : ∀ fault, Ensures I Q (handler fault)) :
    Ensures I Q (MonadExcept.tryCatch x handler) where
  completed {s a s'} holds ran := by
    cases first : x s with
    | ok b middle =>
      rw [tryCatch_of_ok first] at ran
      cases ran
      exact ensured.completed holds first
    | error fault middle =>
      rw [tryCatch_of_error first] at ran
      exact (caught fault).completed (ensured.failed holds first) ran
  failed {s raised s'} holds ran := by
    cases first : x s with
    | ok b middle =>
      rw [tryCatch_of_ok first] at ran
      cases ran
    | error fault middle =>
      rw [tryCatch_of_error first] at ran
      exact (caught fault).failed (ensured.failed holds first) ran

/-- An action on a part ensures what the part alone decides. -/
theorem onPart {J : ρ → Prop} {get : σ → ρ} {set : σ → ρ → σ} {x : Action ρ α}
    (ensured : Ensures J Q x) (read : ∀ s, I s → J (get s))
    (written : ∀ s r, I s → J r → I (set s r)) : Ensures I Q (x.onPart get set) where
  completed {s a s'} kept ran := by
    obtain ⟨r, inner, rfl⟩ := onPart_ok ran
    obtain ⟨holds, part⟩ := ensured.completed (read s kept) inner
    exact ⟨holds, written s r kept part⟩
  failed {s raised s'} kept ran := by
    cases inner : x (get s) with
    | ok a r =>
      rw [onPart_of_ok inner] at ran
      cases ran
    | error fault' r =>
      rw [onPart_of_error inner] at ran
      cases ran
      exact written s r kept (ensured.failed (read s kept) inner)

/-- An action that keeps an invariant compares with itself on one state. -/
theorem compares_self {x : Action σ α} (ensured : Ensures I Q x) {lax : Prop} :
    Compares lax (fun s s' => s = s' ∧ I s) Eq x x := by
  rintro s _ ⟨rfl, holds⟩
  exact .of_outcome (.refl (fun _ => rfl) _) ⟨rfl, ensured.leaves holds⟩

end Ensures

/-- What one of two actions ensures of its results may be used of them. -/
theorem Compares.ensured {σ' α' : Type} {lax : Prop} {S : σ → σ' → Prop} {A : α → α' → Prop}
    {Q : α → Prop} {x : Action σ α} {y : Action σ' α'} (compared : Compares lax S A x y)
    (ensured : Ensures (fun _ => True) Q x) :
    Compares lax S (fun a a' => A a a' ∧ Q a) x y := by
  intro s s' states
  have ends := compared s s' states
  cases ran : x s with
  | ok a left =>
    have holds : Q a := (ensured.completed trivial ran).1
    rw [ran] at ends
    generalize y s' = r' at ends
    cases ends with
    | ok related states => exact .ok ⟨related, holds⟩ states
    | rightFault allowed => exact .rightFault allowed
  | error fault left =>
    rw [ran] at ends
    generalize y s' = r' at ends
    cases ends with
    | error states => exact .error states
    | leftFault allowed => exact .leftFault allowed
    | rightFault allowed => exact .rightFault allowed

/-- What an action gives in every state is ensured of its completed runs. -/
theorem Gives.ensures {x : Action σ α} {result : Checked α} (gives : x.Gives result) :
    Ensures (fun _ => True) (fun a => result = .ok a) x where
  completed {s _ _} _ ran := ⟨(gives s).symm.trans (outcome_of_ok ran), trivial⟩
  failed _ _ := trivial

/-- An action that compares with itself on all states with an invariant keeps it. -/
theorem Compares.ensures {x : Action σ α} {I : σ → Prop} {A : α → α → Prop}
    (compared : Compares False (fun s s' => I s ∧ I s') A x x) :
    Ensures I (fun _ => True) x :=
  .of_leaves fun _ holds => (compared.leaves ⟨holds, holds⟩).1

/-- Completed runs leave a state with a property, whatever state they start in. -/
structure Reaches (I : σ → Prop) (x : Action σ α) : Prop where
  completed : ∀ {s a s'}, x s = .ok a s' → I s'

namespace Reaches

variable {I : σ → Prop} {Q : α → Prop}

theorem bind {x : Action σ α} {f : α → Action σ β} (first : Reaches I x)
    (next : ∀ a, Ensures I (fun _ => True) (f a)) : Reaches I (x >>= f) where
  completed ran := by
    obtain ⟨a, middle, ran, rest⟩ := bind_ok ran
    exact ((next a).completed (first.completed ran) rest).2

theorem after {x : Action σ α} {f : α → Action σ β} (first : Ensures (fun _ => True) Q x)
    (next : ∀ a, Q a → Reaches I (f a)) : Reaches I (x >>= f) where
  completed ran := by
    obtain ⟨a, middle, ran, rest⟩ := bind_ok ran
    exact (next a (first.completed trivial ran).1).completed rest

theorem modify {f : σ → σ} (all : ∀ s, I (f s)) : Reaches I (modify f) where
  completed ran := by
    cases ran
    exact all _

theorem onPart {J : ρ → Prop} {get : σ → ρ} {set : σ → ρ → σ} {x : Action ρ α} (reaches : Reaches J x)
    (written : ∀ s r, J r → I (set s r)) : Reaches I (x.onPart get set) where
  completed ran := by
    obtain ⟨r, inner, rfl⟩ := onPart_ok ran
    exact written _ r (reaches.completed inner)

end Reaches

end MetadataIndex.Action
