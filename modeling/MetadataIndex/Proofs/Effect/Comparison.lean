import Mathlib.Data.List.Forall2
import MetadataIndex.Effect

/-!
# Comparing actions

Two actions are compared by running them on states that are related: both complete with related
results, or both end with the same fault, and the states they leave are related again. A lax
comparison asks nothing of runs of which one ends with a fault.
-/

set_option autoImplicit false

namespace MetadataIndex

/-- A sequence of checked values is one only through a first one. -/
theorem Checked.bind_ok {α β : Type} {c : Checked α} {f : α → Checked β} {b : β}
    (ran : (c >>= f) = .ok b) : ∃ a, c = .ok a ∧ f a = .ok b := by
  cases c with
  | ok a => exact ⟨a, rfl, ran⟩
  | error fault => cases ran

theorem Checked.exists_map_ok {α β : Type} {c : Checked α} {f : α → β} :
    (∃ b, c.map f = .ok b) ↔ ∃ a, c = .ok a := by
  cases c with
  | ok a => exact ⟨fun _ => ⟨a, rfl⟩, fun _ => ⟨f a, rfl⟩⟩
  | error fault => exact ⟨nofun, nofun⟩

/-- A sequence of checked values is one exactly when the first is, and what follows it. -/
theorem Checked.exists_bind_ok {α β : Type} {c : Checked α} {f : α → Checked β} :
    (∃ b, (c >>= f) = .ok b) ↔ ∃ a, c = .ok a ∧ ∃ b, f a = .ok b := by
  cases c with
  | ok a =>
    refine ⟨fun ran => ⟨a, rfl, ran⟩, ?_⟩
    rintro ⟨_, ⟨⟩, ran⟩
    exact ran
  | error fault => exact ⟨nofun, nofun⟩

theorem Checked.mapM_ok_iff {α β : Type} {f : α → Checked β} {items : List α} {results : List β} :
    items.mapM f = .ok results ↔ List.Forall₂ (fun a b => f a = .ok b) items results := by
  induction items generalizing results with
  | nil =>
    rw [List.forall₂_nil_left_iff]
    exact ⟨fun ran => (Except.ok.inj ran).symm, fun none => none ▸ rfl⟩
  | cons i items ih =>
    rw [List.mapM_cons, List.forall₂_cons_left_iff]
    constructor
    · intro ran
      obtain ⟨first, head, ran⟩ := Checked.bind_ok ran
      obtain ⟨rest, tail, ran⟩ := Checked.bind_ok ran
      cases ran
      exact ⟨first, rest, head, ih.mp tail, rfl⟩
    · rintro ⟨first, rest, head, tail, rfl⟩
      rw [head, ih.mpr tail]
      rfl

theorem Checked.mapM_ok_iff_map {α β : Type} {f : α → Checked β} {items : List α} {results : List β} :
    items.mapM f = .ok results ↔ items.map f = results.map .ok := by
  rw [Checked.mapM_ok_iff, ← List.forall₂_eq_eq_eq, List.forall₂_map_left_iff,
    List.forall₂_map_right_iff]

/-- What is related to a list item by item is related to one of its items. -/
theorem exists_of_forall₂ {α β : Type} {R : α → β → Prop} {as : List α} {bs : List β}
    (related : List.Forall₂ R as bs) : ∀ b ∈ bs, ∃ a ∈ as, R a b := by
  induction related with
  | nil => exact List.forall_mem_nil _
  | cons head _ ih =>
    refine List.forall_mem_cons.mpr ⟨⟨_, .head _, head⟩, fun b later => ?_⟩
    obtain ⟨a, member, related⟩ := ih b later
    exact ⟨a, .tail _ member, related⟩

theorem Checked.of_mem_mapM {α β : Type} {f : α → Checked β} {items : List α} {results : List β}
    (ran : items.mapM f = .ok results) {b : β} (member : b ∈ results) :
    ∃ a ∈ items, f a = .ok b :=
  exists_of_forall₂ (Checked.mapM_ok_iff.mp ran) b member

theorem Checked.mapM_append_ok_iff {α β : Type} {f : α → Checked β} {items more : List α}
    {results : List β} : (items ++ more).mapM f = .ok results ↔
      ∃ first rest, items.mapM f = .ok first ∧ more.mapM f = .ok rest ∧ results = first ++ rest := by
  rw [List.mapM_append]
  constructor
  · intro ran
    obtain ⟨first, head, ran⟩ := Checked.bind_ok ran
    obtain ⟨rest, tail, ran⟩ := Checked.bind_ok ran
    cases ran
    exact ⟨first, rest, head, tail, rfl⟩
  · rintro ⟨first, rest, head, tail, rfl⟩
    rw [head, tail]
    rfl

/-- Values of all items that are found in turn, taken item by item or all at once. -/
theorem Checked.mapM_flatten_ok_iff {α β γ δ : Type} (found : α → Checked (List β)) (make : α → β → γ)
    (value : γ → Checked δ) (items : List α) (results : List δ) :
    (∃ each, (items.mapM fun i => do (← found i).mapM fun a => value (make i a)) = .ok each
        ∧ each.flatten = results)
      ↔ ∃ all, (items.mapM fun i => do return (← found i).map (make i)) = .ok all
        ∧ all.flatten.mapM value = .ok results := by
  induction items generalizing results with
  | nil =>
    constructor
    · rintro ⟨each, ran, rfl⟩
      cases ran
      exact ⟨[], rfl, rfl⟩
    · rintro ⟨all, ran, valued⟩
      cases ran
      cases valued
      exact ⟨[], rfl, rfl⟩
  | cons i items ih =>
    rw [List.mapM_cons, List.mapM_cons]
    constructor
    · rintro ⟨each, ran, rfl⟩
      obtain ⟨first, head, ran⟩ := Checked.bind_ok ran
      obtain ⟨rest, tail, ran⟩ := Checked.bind_ok ran
      cases ran
      obtain ⟨places, selected, head⟩ := Checked.bind_ok head
      obtain ⟨all, others, valued⟩ := (ih _).mp ⟨rest, tail, rfl⟩
      refine ⟨places.map (make i) :: all, ?_, ?_⟩
      · rw [selected, others]
        rfl
      · rw [List.flatten_cons, List.flatten_cons]
        refine Checked.mapM_append_ok_iff.mpr ⟨first, rest.flatten, ?_, valued, rfl⟩
        rw [List.mapM_map]
        exact head
    · rintro ⟨all, ran, valued⟩
      obtain ⟨first, head, ran⟩ := Checked.bind_ok ran
      obtain ⟨rest, tail, ran⟩ := Checked.bind_ok ran
      cases ran
      obtain ⟨places, selected, head⟩ := Checked.bind_ok head
      cases head
      rw [List.flatten_cons] at valued
      obtain ⟨values, others, valuedFirst, valuedRest, rfl⟩ := Checked.mapM_append_ok_iff.mp valued
      obtain ⟨each, ran, same⟩ := (ih _).mpr ⟨rest, tail, valuedRest⟩
      rw [List.mapM_map] at valuedFirst
      refine ⟨values :: each, ?_, by rw [List.flatten_cons, same]⟩
      rw [selected, ran]
      change (do let first ← places.mapM (fun a => value (make i a)); _) = _
      rw [show places.mapM (fun a => value (make i a)) = .ok values from valuedFirst]
      rfl

theorem Checked.mapM_ok_iff_each {α β : Type} {f : α → Checked β} {items : List α} :
    (∃ results, items.mapM f = .ok results) ↔ ∀ i ∈ items, ∃ b, f i = .ok b := by
  induction items with
  | nil => exact ⟨fun _ => List.forall_mem_nil _, fun _ => ⟨[], rfl⟩⟩
  | cons i items ih =>
    simp only [Checked.mapM_ok_iff, List.forall₂_cons_left_iff, List.forall_mem_cons] at ih ⊢
    rw [← ih]
    constructor
    · rintro ⟨_, first, rest, head, tail, rfl⟩
      exact ⟨⟨first, head⟩, rest, tail⟩
    · rintro ⟨⟨first, head⟩, rest, tail⟩
      exact ⟨_, first, rest, head, tail, rfl⟩

/-- What each step of a loop keeps is kept by the loop. -/
theorem Checked.foldlM_induction {α σ : Type} {f : σ → α → Checked σ} {I : σ → Prop} {items : List α}
    {s last : σ} (start : I s) (step : ∀ i ∈ items, ∀ s s', I s → f s i = .ok s' → I s')
    (ran : items.foldlM f s = .ok last) : I last := by
  induction items generalizing s with
  | nil =>
    cases ran
    exact start
  | cons i items ih =>
    obtain ⟨next, head, ran⟩ := Checked.bind_ok ran
    exact ih (step i (.head _) s next start head) (fun j later => step j (.tail _ later)) ran

/-- Two checked values agree: the values are related, or the faults are equal. -/
inductive Checked.Agree {α β : Type} (A : α → β → Prop) : Checked α → Checked β → Prop where
  | ok {a b} : A a b → Agree A (.ok a) (.ok b)
  | error {fault} : Agree A (.error fault) (.error fault)

theorem Checked.Agree.refl {α : Type} {A : α → α → Prop} (reflexive : ∀ a, A a a) :
    (c : Checked α) → Checked.Agree A c c
  | .ok a => .ok (reflexive a)
  | .error _ => .error

theorem Checked.Agree.eq {α : Type} {c c' : Checked α} (agreed : Checked.Agree Eq c c') :
    c = c' := by
  cases agreed with
  | ok same => rw [same]
  | error => rfl

theorem Checked.Agree.bind {α α' β β' : Type} {A : α → α' → Prop} {B : β → β' → Prop}
    {c : Checked α} {c' : Checked α'} {f : α → Checked β} {f' : α' → Checked β'}
    (agreed : Checked.Agree A c c') (next : ∀ a a', A a a' → Checked.Agree B (f a) (f' a')) :
    Checked.Agree B (c >>= f) (c' >>= f') := by
  cases agreed with
  | ok related => exact next _ _ related
  | error => exact .error

theorem Checked.Agree.mapM {γ α α' : Type} {A : α → α' → Prop} {f : γ → Checked α}
    {f' : γ → Checked α'} (items : List γ) (each : ∀ i ∈ items, Checked.Agree A (f i) (f' i)) :
    Checked.Agree (List.Forall₂ A) (items.mapM f) (items.mapM f') := by
  induction items with
  | nil => exact .ok .nil
  | cons i items ih =>
    rw [List.mapM_cons, List.mapM_cons]
    refine (each i (.head _)).bind fun _ _ head => ?_
    refine (ih fun j member => each j (.tail _ member)).bind fun _ _ tail => ?_
    exact .ok (.cons head tail)

theorem Checked.Agree.of_map {α β γ : Type} {f : α → γ} {g : β → γ} {c : Checked α}
    {c' : Checked β} (same : c.map f = c'.map g) : Checked.Agree (fun a b => f a = g b) c c' := by
  cases c with
  | ok a =>
    cases c' with
    | ok b => exact .ok (Except.ok.inj same)
    | error fault => cases same
  | error fault =>
    cases c' with
    | ok b => cases same
    | error fault' =>
      cases same
      exact .error

namespace Action

variable {σ σ' ρ ρ' α α' β β' : Type}

def outcome (action : Action σ α) (s : σ) : Checked α :=
  match action s with
  | .ok a _ => .ok a
  | .error fault _ => .error fault

/-- The state that an action leaves, also when it ends with a fault. -/
def leaves (action : Action σ α) (s : σ) : σ :=
  match action s with
  | .ok _ s => s
  | .error _ s => s

/-- The action ends in the same way in every state. -/
def Gives (action : Action σ α) (result : Checked α) : Prop :=
  ∀ s, action.outcome s = result

/-- The ends of two runs compare. -/
inductive Ends (lax : Prop) (S : σ → σ' → Prop) (A : α → α' → Prop) :
    EStateM.Result Fault σ α → EStateM.Result Fault σ' α' → Prop where
  | ok {a a' s s'} : A a a' → S s s' → Ends lax S A (.ok a s) (.ok a' s')
  | error {fault s s'} : S s s' → Ends lax S A (.error fault s) (.error fault s')
  | leftFault {fault s r} : lax → Ends lax S A (.error fault s) r
  | rightFault {fault s r} : lax → Ends lax S A r (.error fault s)

def Compares (lax : Prop) (S : σ → σ' → Prop) (A : α → α' → Prop) (x : Action σ α)
    (y : Action σ' α') : Prop :=
  ∀ s s', S s s' → Ends lax S A (x s) (y s')

section Runs

variable {x : Action σ α} {f : α → Action σ β} {s s' : σ}

theorem bind_of_ok {a : α} (ran : x s = .ok a s') : (x >>= f) s = f a s' := by
  simp only [bind, EStateM.bind, ran]

theorem bind_of_error {fault : Fault} (ran : x s = .error fault s') :
    (x >>= f) s = .error fault s' := by
  simp only [bind, EStateM.bind, ran]

theorem bind_ok {b : β} (ran : (x >>= f) s = .ok b s') :
    ∃ a middle, x s = .ok a middle ∧ f a middle = .ok b s' := by
  cases first : x s with
  | ok a middle =>
    rw [bind_of_ok first] at ran
    exact ⟨a, middle, rfl, ran⟩
  | error fault middle =>
    rw [bind_of_error first] at ran
    cases ran

/-- A checked value completes an action only when it is one. -/
theorem lift_ok {c : Checked α} {a : α} (ran : (liftM c : Action σ α) s = .ok a s') :
    c = .ok a ∧ s = s' := by
  cases c with
  | ok b =>
    cases ran
    exact ⟨rfl, rfl⟩
  | error fault => cases ran

theorem onPart_of_ok {get : σ → ρ} {set : σ → ρ → σ} {part : Action ρ α} {a : α} {r : ρ}
    (ran : part (get s) = .ok a r) : part.onPart get set s = .ok a (set s r) := by
  rw [onPart, ran]

theorem onPart_of_error {get : σ → ρ} {set : σ → ρ → σ} {part : Action ρ α} {fault : Fault}
    {r : ρ} (ran : part (get s) = .error fault r) :
    part.onPart get set s = .error fault (set s r) := by
  rw [onPart, ran]

theorem onPart_ok {get : σ → ρ} {set : σ → ρ → σ} {part : Action ρ α} {a : α}
    (ran : part.onPart get set s = .ok a s') :
    ∃ r, part (get s) = .ok a r ∧ s' = set s r := by
  cases inner : part (get s) with
  | ok b r =>
    rw [onPart_of_ok inner] at ran
    cases ran
    exact ⟨r, rfl, rfl⟩
  | error fault r =>
    rw [onPart_of_error inner] at ran
    cases ran

theorem tryCatch_of_ok {handler : Fault → Action σ α} {a : α} (ran : x s = .ok a s') :
    (tryCatch x handler : Action σ α) s = .ok a s' := by
  change EStateM.tryCatch x handler s = _
  simp only [EStateM.tryCatch, ran]

theorem tryCatch_of_error {handler : Fault → Action σ α} {fault : Fault}
    (ran : x s = .error fault s') : (tryCatch x handler : Action σ α) s = handler fault s' := by
  change EStateM.tryCatch x handler s = _
  simp only [EStateM.tryCatch, ran]
  rfl

theorem outcome_of_ok {a : α} (ran : x s = .ok a s') : x.outcome s = .ok a := by
  rw [outcome, ran]

theorem leaves_of_ok {a : α} (ran : x s = .ok a s') : x.leaves s = s' := by
  rw [leaves, ran]

theorem outcome_of_error {fault : Fault} (ran : x s = .error fault s') :
    x.outcome s = .error fault := by
  rw [outcome, ran]

theorem leaves_of_error {fault : Fault} (ran : x s = .error fault s') : x.leaves s = s' := by
  rw [leaves, ran]

theorem ok_of_outcome {a : α} (ended : x.outcome s = .ok a) : ∃ s', x s = .ok a s' := by
  cases ran : x s with
  | ok b s' =>
    rw [outcome_of_ok ran] at ended
    cases ended
    exact ⟨s', rfl⟩
  | error fault s' =>
    rw [outcome_of_error ran] at ended
    cases ended

/-- A run has completed if a part of its result is known. -/
theorem ok_of_outcome_map {g : α → β} {b : β} (shown : (x.outcome s).map g = .ok b) :
    ∃ a s', x s = .ok a s' ∧ g a = b := by
  cases ended : x.outcome s with
  | ok a =>
    rw [ended] at shown
    obtain ⟨s', ran⟩ := ok_of_outcome ended
    exact ⟨a, s', ran, Except.ok.inj shown⟩
  | error fault =>
    rw [ended] at shown
    cases shown

theorem outcome_bind_of_ok {a : α} (ran : x s = .ok a s') :
    (x >>= f).outcome s = (f a).outcome s' := by
  rw [outcome, bind_of_ok ran, outcome]

theorem outcome_bind_of_error {fault : Fault} (ran : x s = .error fault s') :
    (x >>= f).outcome s = .error fault :=
  outcome_of_error (bind_of_error ran)

end Runs

namespace Compares

variable {lax : Prop} {S : σ → σ' → Prop} {A : α → α' → Prop} {B : β → β' → Prop}

theorem pure {a : α} {a' : α'} (related : A a a') :
    Compares lax S A (Pure.pure a) (Pure.pure a') :=
  fun _ _ states => .ok related states

theorem fault (fault : Fault) : Compares lax S A (throw fault) (throw fault) :=
  fun _ _ states => .error states

theorem bind {x : Action σ α} {y : Action σ' α'} {f : α → Action σ β} {g : α' → Action σ' β'}
    (first : Compares lax S A x y) (next : ∀ a a', A a a' → Compares lax S B (f a) (g a')) :
    Compares lax S B (x >>= f) (y >>= g) := by
  intro s s' states
  have ends := first s s' states
  cases ran : x s with
  | ok a middle =>
    cases ran' : y s' with
    | ok a' middle' =>
      rw [ran, ran'] at ends
      rw [bind_of_ok ran, bind_of_ok ran']
      cases ends with
      | ok related states => exact next a a' related middle middle' states
    | error fault middle' =>
      rw [ran, ran'] at ends
      rw [bind_of_error ran']
      cases ends with
      | rightFault allowed => exact .rightFault allowed
  | error fault middle =>
    cases ran' : y s' with
    | ok a' middle' =>
      rw [ran, ran'] at ends
      rw [bind_of_error ran]
      cases ends with
      | leftFault allowed => exact .leftFault allowed
    | error fault' middle' =>
      rw [ran, ran'] at ends
      rw [bind_of_error ran, bind_of_error ran']
      cases ends with
      | error states => exact .error states
      | leftFault allowed => exact .leftFault allowed
      | rightFault allowed => exact .rightFault allowed

theorem bind_eq {x : Action σ α} {y : Action σ' α} {f : α → Action σ β} {g : α → Action σ' β'}
    (first : Compares lax S Eq x y) (next : ∀ a, Compares lax S B (f a) (g a)) :
    Compares lax S B (x >>= f) (y >>= g) :=
  first.bind fun a _ same => same ▸ next a

theorem imp {C : α → α' → Prop} {x : Action σ α} {y : Action σ' α'}
    (compared : Compares lax S A x y) (weaker : ∀ a a', A a a' → C a a') :
    Compares lax S C x y := by
  intro s s' states
  have ends := compared s s' states
  generalize x s = r, y s' = r' at ends
  cases ends with
  | ok related states => exact .ok (weaker _ _ related) states
  | error states => exact .error states
  | leftFault allowed => exact .leftFault allowed
  | rightFault allowed => exact .rightFault allowed

theorem refl (x : Action σ α) : Compares lax Eq Eq x x := by
  rintro s _ rfl
  cases x s with
  | ok a s' => exact .ok rfl rfl
  | error fault s' => exact .error rfl

theorem lift {c : Checked α} {c' : Checked α'} (agreed : Checked.Agree A c c') :
    Compares lax S A (liftM c : Action σ α) (liftM c' : Action σ' α') := by
  cases agreed with
  | ok related => exact pure related
  | error => exact fault _

theorem lift_self (c : Checked α) :
    Compares lax S Eq (liftM c : Action σ α) (liftM c : Action σ' α) :=
  lift (.refl (fun _ => rfl) c)

theorem of_runs {x : Action σ α} {y : Action σ' α'}
    (each : ∀ s s' a a' left left', S s s' → x s = .ok a left → y s' = .ok a' left' →
      A a a' ∧ S left left') : Compares True S A x y := by
  intro s s' states
  cases ran : x s with
  | error fault left => exact .leftFault trivial
  | ok a left =>
    cases ran' : y s' with
    | error fault left' => exact .rightFault trivial
    | ok a' left' =>
      obtain ⟨related, states⟩ := each s s' a a' left left' states ran ran'
      exact .ok related states

theorem ofChange {change : σ → α × σ} {change' : σ' → α' × σ'}
    (kept : ∀ s s', S s s' → A (change s).1 (change' s').1 ∧ S (change s).2 (change' s').2) :
    Compares lax S A (Action.ofChange change) (Action.ofChange change') :=
  fun s s' states => .ok (kept s s' states).1 (kept s s' states).2

theorem get : Compares lax S S MonadState.get MonadState.get :=
  fun _ _ states => .ok states states

theorem modify {f : σ → σ} {f' : σ' → σ'} (kept : ∀ s s', S s s' → S (f s) (f' s')) :
    Compares lax S (fun _ _ => True) (modify f) (modify f') :=
  fun s s' states => .ok trivial (kept s s' states)

/-- Actions on parts compare when what they read and write is related. -/
theorem onPart {R : ρ → ρ' → Prop} {get : σ → ρ} {get' : σ' → ρ'} {set : σ → ρ → σ}
    {set' : σ' → ρ' → σ'} {x : Action ρ α} {y : Action ρ' α'}
    (compared : Compares lax R A x y) (read : ∀ s s', S s s' → R (get s) (get' s'))
    (written : ∀ s s' r r', S s s' → R r r' → S (set s r) (set' s' r')) :
    Compares lax S A (x.onPart get set) (y.onPart get' set') := by
  intro s s' states
  have ends := compared _ _ (read s s' states)
  unfold Action.onPart
  generalize x (get s) = r, y (get' s') = r' at ends
  cases ends with
  | ok related parts => exact .ok related (written _ _ _ _ states parts)
  | error parts => exact .error (written _ _ _ _ states parts)
  | leftFault allowed => exact .leftFault allowed
  | rightFault allowed => exact .rightFault allowed

theorem foldlM {γ γ' : Type} {I : γ → γ' → Prop} {f : α → γ → Action σ α}
    {f' : α' → γ' → Action σ' α'}
    (step : ∀ a a' i i', A a a' → I i i' → Compares lax S A (f a i) (f' a' i')) {items : List γ}
    {items' : List γ'} (alike : List.Forall₂ I items items') {a : α} {a' : α'}
    (start : A a a') : Compares lax S A (items.foldlM f a) (items'.foldlM f' a') := by
  induction alike generalizing a a' with
  | nil => exact pure start
  | cons head _ ih => exact bind (step _ _ _ _ start head) fun _ _ related => ih related

theorem mapM {γ : Type} {f : γ → Action σ α} {f' : γ → Action σ' α'} (items : List γ)
    (step : ∀ i ∈ items, Compares lax S A (f i) (f' i)) :
    Compares lax S (List.Forall₂ A) (items.mapM f) (items.mapM f') := by
  induction items with
  | nil => exact pure .nil
  | cons i items ih =>
    rw [List.mapM_cons, List.mapM_cons]
    refine bind (step i (.head _)) fun _ _ head => ?_
    refine bind (ih fun j member => step j (.tail _ member)) fun _ _ rest => ?_
    exact pure (.cons head rest)

theorem forM {γ : Type} {f : γ → Action σ Unit} {f' : γ → Action σ' Unit} (items : List γ)
    (step : ∀ i ∈ items, Compares lax S (fun _ _ => True) (f i) (f' i)) :
    Compares lax S (fun _ _ => True) (items.forM f) (items.forM f') := by
  induction items with
  | nil => exact pure trivial
  | cons i items ih =>
    exact bind (step i (.head _)) fun _ _ _ => ih fun j member => step j (.tail _ member)

/-- A fault that is caught is the same on both sides, so both handle it alike. -/
theorem tryCatch {x : Action σ α} {y : Action σ' α'} {f : Fault → Action σ α}
    {g : Fault → Action σ' α'} (compared : Compares False S A x y)
    (caught : ∀ fault, Compares False S A (f fault) (g fault)) :
    Compares False S A (MonadExcept.tryCatch x f) (MonadExcept.tryCatch y g) := by
  intro s s' states
  have ends := compared s s' states
  cases ran : x s with
  | ok a middle =>
    cases ran' : y s' with
    | ok a' middle' =>
      rw [ran, ran'] at ends
      rw [tryCatch_of_ok ran, tryCatch_of_ok ran']
      exact ends
    | error fault middle' =>
      rw [ran, ran'] at ends
      cases ends with
      | rightFault allowed => exact allowed.elim
  | error fault middle =>
    cases ran' : y s' with
    | ok a' middle' =>
      rw [ran, ran'] at ends
      cases ends with
      | leftFault allowed => exact allowed.elim
    | error fault' middle' =>
      rw [ran, ran'] at ends
      rw [tryCatch_of_error ran, tryCatch_of_error ran']
      cases ends with
      | error states => exact caught fault middle middle' states
      | leftFault allowed => exact allowed.elim
      | rightFault allowed => exact allowed.elim

/-- Runs that are not compared laxly end in the same way. -/
theorem outcome {x : Action σ α} {y : Action σ' α'} (compared : Compares False S A x y)
    {s : σ} {s' : σ'} (states : S s s') : Checked.Agree A (x.outcome s) (y.outcome s') := by
  have ends := compared s s' states
  unfold Action.outcome
  generalize x s = r, y s' = r' at ends
  cases ends with
  | ok related _ => exact .ok related
  | error _ => exact .error
  | leftFault allowed => exact allowed.elim
  | rightFault allowed => exact allowed.elim

/-- Completed runs have related results, also by a lax comparison. -/
theorem of_ok {x : Action σ α} {y : Action σ' α'} (compared : Compares lax S A x y) {s left : σ}
    {s' left' : σ'} (states : S s s') {a : α} {a' : α'} (ran : x s = .ok a left)
    (ran' : y s' = .ok a' left') : A a a' := by
  have ends := compared s s' states
  rw [ran, ran'] at ends
  cases ends with
  | ok related _ => exact related

theorem states_of_ok {x : Action σ α} {y : Action σ' α'} (compared : Compares lax S A x y)
    {s left : σ} {s' left' : σ'} (states : S s s') {a : α} {a' : α'} (ran : x s = .ok a left)
    (ran' : y s' = .ok a' left') : S left left' := by
  have ends := compared s s' states
  rw [ran, ran'] at ends
  cases ends with
  | ok _ states => exact states

theorem leaves {x : Action σ α} {y : Action σ' α'} (compared : Compares False S A x y)
    {s : σ} {s' : σ'} (states : S s s') : S (x.leaves s) (y.leaves s') := by
  have ends := compared s s' states
  unfold Action.leaves
  generalize x s = r, y s' = r' at ends
  cases ends with
  | ok _ states => exact states
  | error states => exact states
  | leftFault allowed => exact allowed.elim
  | rightFault allowed => exact allowed.elim

end Compares

/-- Two runs compare when they end alike and leave related states. -/
theorem Ends.of_outcome {lax : Prop} {S : σ → σ' → Prop} {A : α → α' → Prop} {x : Action σ α}
    {y : Action σ' α'} {s : σ} {s' : σ'}
    (agreed : Checked.Agree A (x.outcome s) (y.outcome s')) (states : S (x.leaves s) (y.leaves s')) :
    Ends lax S A (x s) (y s') := by
  unfold outcome at agreed
  unfold leaves at states
  generalize x s = r, y s' = r' at agreed states
  cases r with
  | ok a s =>
    cases r' with
    | ok a' s' =>
      cases agreed with
      | ok related => exact .ok related states
    | error fault' s' => cases agreed
  | error fault s =>
    cases r' with
    | ok a' s' => cases agreed
    | error fault' s' =>
      cases agreed with
      | error => exact .error states

/-- An action that ends in the same way in every state compares with itself. -/
theorem Gives.compares {x : Action σ α} {result : Checked α} (gives : x.Gives result)
    {lax : Prop} : Compares lax (fun _ _ => True) Eq x x := by
  intro s s' _
  have same : x.outcome s = x.outcome s' := (gives s).trans (gives s').symm
  exact .of_outcome (same ▸ .refl (fun _ => rfl) _) trivial

/-- An action that compares with itself on all states ends in the same way in every state. -/
theorem Compares.gives {x : Action σ α} (compared : Compares False (fun _ _ => True) Eq x x)
    (s : σ) : x.Gives (x.outcome s) :=
  fun _ => (compared.outcome trivial).eq

end Action

end MetadataIndex
