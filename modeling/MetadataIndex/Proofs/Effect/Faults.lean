import MetadataIndex.Proofs.Effect.Comparison

/-!
# Where faults come from

A checked value fails only with faults of a kind when each step towards it does. A loop ends with a
fault exactly when a state is reached in which the next item fails.
-/

set_option autoImplicit false

namespace MetadataIndex.Checked

variable {α β : Type} {P : Fault → Prop}

/-- A checked value is one, or it ends with a fault of a kind. -/
def FailsWith (P : Fault → Prop) (c : Checked α) : Prop := ∀ fault, c = .error fault → P fault

namespace FailsWith

theorem ok (a : α) : FailsWith P (.ok a) := nofun

theorem error {fault : Fault} (holds : P fault) : FailsWith P (.error fault : Checked α) := by
  rintro _ ⟨⟩
  exact holds

theorem required {cause : Refusal} (holds : P (.refused cause)) (found : Option α) :
    FailsWith P (required cause found) := by
  cases found with
  | none => exact .error holds
  | some a => exact .ok a

theorem bind {c : Checked α} {f : α → Checked β} (first : FailsWith P c)
    (next : ∀ a, c = .ok a → FailsWith P (f a)) : FailsWith P (c >>= f) := by
  cases c with
  | error fault =>
    rintro _ ⟨⟩
    exact first fault rfl
  | ok a => exact next a rfl

theorem map {c : Checked α} (f : α → β) (inner : FailsWith P c) : FailsWith P (c.map f) := by
  cases c with
  | error fault =>
    rintro _ ⟨⟩
    exact inner fault rfl
  | ok a => exact .ok _

theorem mapM {f : α → Checked β} {items : List α} (each : ∀ i ∈ items, FailsWith P (f i)) :
    FailsWith P (items.mapM f) := by
  induction items with
  | nil => exact .ok _
  | cons i items ih =>
    obtain ⟨head, rest⟩ := List.forall_mem_cons.mp each
    rw [List.mapM_cons]
    exact head.bind fun _ _ => (ih rest).bind fun _ _ => .ok _

theorem imp {Q : Fault → Prop} {c : Checked α} (inner : FailsWith P c)
    (weaker : ∀ fault, P fault → Q fault) : FailsWith Q c :=
  fun fault failed => weaker fault (inner fault failed)

end FailsWith

variable {σ : Type} {f : σ → α → Checked σ} {s : σ} {i : α} {items : List α}

/-- A loop comes to an item in a state. -/
def Reaches (f : σ → α → Checked σ) (s : σ) (items : List α) (item : α) (reached : σ) : Prop :=
  ∃ before after, items = before ++ item :: after ∧ before.foldlM f s = .ok reached

theorem Reaches.mem {item : α} {reached : σ} (reaches : Reaches f s items item reached) :
    item ∈ items := by
  obtain ⟨before, after, rfl, -⟩ := reaches
  exact List.mem_append_right before (.head after)

theorem reaches_cons {item : α} {reached : σ} : Reaches f s (i :: items) item reached
    ↔ (item = i ∧ reached = s) ∨ ∃ next, f s i = .ok next ∧ Reaches f next items item reached := by
  constructor
  · rintro ⟨before, after, same, ran⟩
    cases before with
    | nil =>
      obtain ⟨rfl, rfl⟩ := List.cons.inj same
      exact .inl ⟨rfl, (Except.ok.inj ran).symm⟩
    | cons first before =>
      obtain ⟨rfl, rfl⟩ := List.cons.inj same
      obtain ⟨next, head, ran⟩ := bind_ok ran
      exact .inr ⟨next, head, before, after, rfl, ran⟩
  · rintro (⟨rfl, rfl⟩ | ⟨next, head, before, after, rfl, ran⟩)
    · exact ⟨[], items, rfl, rfl⟩
    · refine ⟨i :: before, after, rfl, ?_⟩
      rw [List.foldlM_cons, head]
      exact ran

/-- A loop comes to its end exactly when each item that it comes to is passed. -/
theorem foldlM_ok_iff : (∃ last, items.foldlM f s = .ok last)
    ↔ ∀ item reached, Reaches f s items item reached → ∃ next, f reached item = .ok next := by
  induction items generalizing s with
  | nil =>
    refine ⟨fun _ item reached reaches => ?_, fun _ => ⟨s, rfl⟩⟩
    exact absurd reaches.mem List.not_mem_nil
  | cons i items ih =>
    rw [List.foldlM_cons, exists_bind_ok]
    simp only [ih, reaches_cons]
    constructor
    · rintro ⟨next, head, rest⟩ item reached (⟨rfl, rfl⟩ | ⟨next', head', later⟩)
      · exact ⟨next, head⟩
      · rw [head] at head'
        cases head'
        exact rest item reached later
    · intro passed
      obtain ⟨next, head⟩ := passed i s (.inl ⟨rfl, rfl⟩)
      exact ⟨next, head, fun item reached later => passed item reached (.inr ⟨next, head, later⟩)⟩

end MetadataIndex.Checked
