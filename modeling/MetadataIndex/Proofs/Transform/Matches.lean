import MetadataIndex.Proofs.Transform.Writes

/-!
# Matches of a run

A transformation meets the matches of its grouped rules one after another. Each becomes a group, and the
groups of a result are those of the matches that were met: a group is stored behind the others, or left
out because one with the same content is there.
-/

set_option autoImplicit false

namespace MetadataIndex

variable {ω τ : Type}

namespace Action

variable {σ α γ δ : Type}

/-- What is met while items are taken in turn, each in the state in which it is taken. -/
def meets (f : α → γ → Action σ α) (met : α → γ → σ → List δ) : List γ → α → σ → List δ
  | [], _, _ => []
  | i :: more, a, s =>
    met a i s ++ match f a i s with
      | .ok a s => meets f met more a s
      | .error _ _ => []

variable {f : α → γ → Action σ α} {met : α → γ → σ → List δ}

theorem of_mem_meets {items : List γ} {a : α} {s : σ} {m : δ}
    (member : m ∈ meets f met items a s) : ∃ i ∈ items, ∃ a s, m ∈ met a i s := by
  induction items generalizing a s with
  | nil => cases member
  | cons i items ih =>
    obtain now | later := List.mem_append.mp member
    · exact ⟨i, .head _, a, s, now⟩
    · cases ran : f a i s with
      | ok a' s' =>
        rw [ran] at later
        obtain ⟨j, inside, found⟩ := ih later
        exact ⟨j, .tail _ inside, found⟩
      | error fault s' =>
        rw [ran] at later
        cases later

/-- What is met links the states of a run if it does so for each item. -/
theorem meets_of_ok {P : σ → List δ → σ → Prop} (none : ∀ s, P s [] s)
    (append : ∀ {s s' s'' first rest}, P s first s' → P s' rest s'' → P s (first ++ rest) s'')
    {items : List γ}
    (each : ∀ i ∈ items, ∀ a s a' s', f a i s = .ok a' s' → P s (met a i s) s') {a b : α} {s s' : σ}
    (ran : items.foldlM f a s = .ok b s') : P s (meets f met items a s) s' := by
  induction items generalizing a s with
  | nil =>
    cases ran
    exact none _
  | cons i items ih =>
    rw [List.foldlM_cons] at ran
    obtain ⟨a', middle, first, rest⟩ := bind_ok ran
    rw [meets, first]
    exact append (each i (.head _) a s a' middle first)
      (ih (fun j later => each j (.tail _ later)) rest)

theorem forM_eq_foldlM {g : γ → Action σ Unit} (items : List γ) :
    items.forM g = items.foldlM (fun _ i => g i) () := by
  induction items with
  | nil => rfl
  | cons i items ih =>
    rw [List.foldlM_cons]
    change (g i >>= fun _ => items.forM g) = _
    rw [ih]

end Action

/-- A match of a grouped rule, and the state in which it is met. -/
structure GroupMatch (ω τ : Type) where
  rule : FieldRule
  entity : GroupEntity
  item : XPath.Item
  state : TransformState ω τ

namespace Transformer

variable {t : Transformer ω τ} {input : TransformInput}

def metBySource (t : Transformer ω τ) (r : FieldRule) (input : TransformInput)
    (elements : List Xml.Cursor) (values : List String) (s : XPathSource)
    (state : TransformState ω τ) : List (GroupMatch ω τ) :=
  match s.xpath.isEmpty, input.leading with
  | false, .ok leading =>
    let query := XPath.buildQuery s.xpath leading r.isGrouped
    Action.meets (fun values element => do
        let found ← t.builder.evaluator.evaluate query element
        found.foldlM (t.addMatch r s) values)
      (fun values element state =>
        match t.builder.evaluator.evaluate query element with
        | .ok found => Action.meets (t.addMatch r s)
          (fun _ i state => r.group.toList.map fun e => ⟨r, e, i, state⟩) found values state
        | .error _ => [])
      elements values state
  | _, _ => []

def metByRule (t : Transformer ω τ) (input : TransformInput) (r : FieldRule)
    (state : TransformState ω τ) : List (GroupMatch ω τ) :=
  match r.constant, expandScope r input.element input.context with
  | none, .ok elements =>
    Action.meets (t.addSource r input elements) (t.metBySource r input elements) r.sources [] state
  | _, _ => []

/-- The matches of grouped rules that a transformation meets, in order. -/
def met (t : Transformer ω τ) (input : TransformInput) (o : AuthorityState ω τ) :
    List (GroupMatch ω τ) :=
  Action.meets (fun _ r => t.applyRule input r) (fun _ r => t.metByRule input r) t.rules.allRules ()
    ⟨.ofDefault input.default, {}, o⟩

/-- The group that a match becomes. -/
def Builds (t : Transformer ω τ) (m : GroupMatch ω τ) (group : GroupArena) : Prop :=
  ∃ place left, m.item.place? = some place
    ∧ t.builder.build m.rule m.entity place m.rule.field m.item.isRestricted
        ⟨m.state.collector, m.state.outside⟩ = .ok group left

/-- What matches make of the groups: one that is no element nothing, and of the others each is stored, or
left out if its content is there and its rule does not ask for repetition. -/
inductive Handles (t : Transformer ω τ) : GroupArena → List (GroupMatch ω τ) → GroupArena → Prop where
  | nil {g : GroupArena} : Handles t g [] g
  | text {m : GroupMatch ω τ} {more : List (GroupMatch ω τ)} {g : GroupArena}
      (none : m.item.place? = none) (rest : Handles t m.state.groups more g) :
      Handles t m.state.groups (m :: more) g
  | stored {m : GroupMatch ω τ} {more : List (GroupMatch ω τ)} {g group : GroupArena}
      {root : GroupedRecord} (built : t.Builds m group) (first : group.get 0 = .ok root)
      (asked : m.rule.allowDuplicates = true ∨ m.state.groups.containsEqual root = false)
      (rest : Handles t (m.state.groups.merge group) more g) :
      Handles t m.state.groups (m :: more) g
  | leftOut {m : GroupMatch ω τ} {more : List (GroupMatch ω τ)} {g group : GroupArena}
      {root : GroupedRecord} (built : t.Builds m group) (first : group.get 0 = .ok root)
      (unasked : m.rule.allowDuplicates = false)
      (present : m.state.groups.containsEqual root = true)
      (rest : Handles t m.state.groups more g) : Handles t m.state.groups (m :: more) g

namespace Handles

variable {g g' g'' : GroupArena} {first rest : List (GroupMatch ω τ)}

theorem append (before : t.Handles g first g') (after : t.Handles g' rest g'') :
    t.Handles g (first ++ rest) g'' := by
  induction before with
  | nil => exact after
  | text none _ ih => exact .text none (ih after)
  | stored built first asked _ ih => exact .stored built first asked (ih after)
  | leftOut built first unasked present _ ih => exact .leftOut built first unasked present (ih after)

theorem of_append (handled : t.Handles g (first ++ rest) g'') :
    ∃ g', t.Handles g first g' ∧ t.Handles g' rest g'' := by
  induction first generalizing g with
  | nil => exact ⟨g, .nil, handled⟩
  | cons m first ih =>
    cases handled with
    | text none others =>
      obtain ⟨g', before, after⟩ := ih others
      exact ⟨g', .text none before, after⟩
    | stored built root asked others =>
      obtain ⟨g', before, after⟩ := ih others
      exact ⟨g', .stored built root asked before, after⟩
    | leftOut built root unasked present others =>
      obtain ⟨g', before, after⟩ := ih others
      exact ⟨g', .leftOut built root unasked present before, after⟩

theorem of_cons {m : GroupMatch ω τ} (handled : t.Handles g (m :: rest) g') :
    g = m.state.groups ∧ ((m.item.place? = none ∧ t.Handles m.state.groups rest g')
      ∨ ∃ group root, t.Builds m group ∧ group.get 0 = .ok root
        ∧ ((m.rule.allowDuplicates = true ∨ m.state.groups.containsEqual root = false)
            ∧ t.Handles (m.state.groups.merge group) rest g'
          ∨ m.rule.allowDuplicates = false ∧ m.state.groups.containsEqual root = true
            ∧ t.Handles m.state.groups rest g')) := by
  cases handled with
  | text none others => exact ⟨rfl, .inl ⟨none, others⟩⟩
  | stored built first asked others =>
    exact ⟨rfl, .inr ⟨_, _, built, first, .inl ⟨asked, others⟩⟩⟩
  | leftOut built first unasked present others =>
    exact ⟨rfl, .inr ⟨_, _, built, first, .inr ⟨unasked, present, others⟩⟩⟩

/-- A match finds the groups as those before it have made them. -/
theorem of_mem {matches' : List (GroupMatch ω τ)} (handled : t.Handles g matches' g'')
    {m : GroupMatch ω τ} (member : m ∈ matches') :
    ∃ before after, matches' = before ++ m :: after ∧ t.Handles g before m.state.groups
      ∧ t.Handles m.state.groups (m :: after) g'' := by
  obtain ⟨before, after, rfl⟩ := List.append_of_mem member
  obtain ⟨g', first, rest⟩ := of_append handled
  obtain ⟨rfl, -⟩ := rest.of_cons
  exact ⟨before, after, rfl, first, rest⟩

end Handles

theorem buildGroup_handles {r : FieldRule} {e : GroupEntity} {i : XPath.Item}
    {s s' : TransformState ω τ} {main : Option String} (ran : t.buildGroup r e i s = .ok main s') :
    t.Handles s.groups [⟨r, e, i, s⟩] s'.groups := by
  unfold buildGroup at ran
  cases found : i.place? with
  | none =>
    rw [found] at ran
    cases ran
    exact .text (m := ⟨r, e, i, s⟩) found .nil
  | some place =>
    rw [found] at ran
    obtain ⟨group, _, onBuild, ran⟩ := Action.bind_ok ran
    obtain ⟨left, built, rfl⟩ := Action.onPart_ok onBuild
    obtain ⟨root, _, lifted, ran⟩ := Action.bind_ok ran
    obtain ⟨first, rfl⟩ := Action.lift_ok lifted
    have built : t.Builds ⟨r, e, i, s⟩ group := ⟨place, left, found, built⟩
    rw [Action.bind_of_ok (x := get) rfl] at ran
    split at ran
    case isTrue asked =>
      obtain ⟨_, _, attached, ran⟩ := Action.bind_ok ran
      cases attached
      cases ran
      refine .stored built first ?_ .nil
      simpa using asked
    case isFalse unasked =>
      cases ran
      simp only [Bool.or_eq_true, Bool.not_eq_true', not_or, Bool.not_eq_true,
        Bool.not_eq_false] at unasked
      exact .leftOut built first unasked.1 unasked.2 .nil

theorem addMatch_handles {r : FieldRule} {s : XPathSource} {values values' : List String}
    {i : XPath.Item} {state state' : TransformState ω τ}
    (ran : t.addMatch r s values i state = .ok values' state') :
    t.Handles state.groups (r.group.toList.map fun e => ⟨r, e, i, state⟩) state'.groups := by
  unfold addMatch at ran
  cases grouped : r.group with
  | some e =>
    rw [grouped] at ran
    obtain ⟨main, _, built, ran⟩ := Action.bind_ok ran
    cases ran
    exact buildGroup_handles built
  | none =>
    rw [grouped] at ran
    obtain ⟨value, _, lifted, ran⟩ := Action.bind_ok ran
    obtain ⟨-, rfl⟩ := Action.lift_ok lifted
    cases value with
    | none =>
      cases ran
      exact .nil
    | some value =>
      cases ran
      exact .nil

theorem addSource_handles {r : FieldRule} {elements : List Xml.Cursor} {s : XPathSource}
    {values values' : List String} {state state' : TransformState ω τ}
    (ran : t.addSource r input elements values s state = .ok values' state') :
    t.Handles state.groups (t.metBySource r input elements values s state) state'.groups := by
  unfold addSource at ran
  unfold metBySource
  cases blank : s.xpath.isEmpty with
  | true =>
    rw [blank] at ran
    cases ran
    exact .nil
  | false =>
    rw [blank] at ran
    obtain ⟨leading, _, lifted, ran⟩ := Action.bind_ok ran
    obtain ⟨known, rfl⟩ := Action.lift_ok lifted
    rw [known]
    refine Action.meets_of_ok (P := fun s l s' => t.Handles s.groups l s'.groups) (fun _ => .nil)
      Handles.append (fun element _ values state values' state' ran => ?_) ran
    obtain ⟨found, _, lifted, ran⟩ := Action.bind_ok ran
    obtain ⟨evaluated, rfl⟩ := Action.lift_ok lifted
    rw [evaluated]
    exact Action.meets_of_ok (P := fun s l s' => t.Handles s.groups l s'.groups) (fun _ => .nil)
      Handles.append (fun _ _ _ _ _ _ ran => addMatch_handles ran) ran

theorem applyRule_handles {r : FieldRule} {state state' : TransformState ω τ}
    (ran : t.applyRule input r state = .ok () state') :
    t.Handles state.groups (t.metByRule input r state) state'.groups := by
  unfold applyRule at ran
  unfold metByRule
  cases constant : r.constant with
  | some value =>
    rw [constant] at ran
    obtain ⟨_, -, rfl⟩ := TransformState.change_ok ran
    exact .nil
  | none =>
    rw [constant] at ran
    obtain ⟨values, _, raw, ran⟩ := Action.bind_ok ran
    obtain ⟨elements, _, lifted, raw⟩ := Action.bind_ok raw
    obtain ⟨expanded, rfl⟩ := Action.lift_ok lifted
    obtain ⟨_, _, written, ran⟩ := Action.bind_ok ran
    obtain ⟨_, -, rfl⟩ := TransformState.change_ok written
    obtain ⟨_, -, rfl⟩ := TransformState.change_ok ran
    rw [expanded]
    exact Action.meets_of_ok (P := fun s l s' => t.Handles s.groups l s'.groups) (fun _ => .nil)
      Handles.append (fun _ _ _ _ _ _ ran => addSource_handles ran) raw

/-- The groups of a result are what the matches that were met make of no groups. -/
theorem transform_handles {o o' : AuthorityState ω τ} {result : TransformResult}
    (ran : t.transform input o = .ok result o') : t.Handles {} (t.met input o) result.groups := by
  obtain ⟨s, c, rules, -, rfl⟩ := transform_ok ran
  unfold applyRules at rules
  rw [Action.forM_eq_foldlM] at rules
  exact Action.meets_of_ok (P := fun s l s' => t.Handles s.groups l s'.groups) (fun _ => .nil)
    Handles.append (fun _ _ _ _ _ _ ran => applyRule_handles ran) rules

theorem of_mem_met {o : AuthorityState ω τ} {m : GroupMatch ω τ} (member : m ∈ t.met input o) :
    m.rule ∈ t.rules.allRules ∧ m.rule.group = some m.entity := by
  obtain ⟨r, rule, _, state, member⟩ := Action.of_mem_meets member
  suffices m.rule = r ∧ r.group = some m.entity by
    obtain ⟨rfl, grouped⟩ := this
    exact ⟨rule, grouped⟩
  unfold metByRule at member
  split at member
  case h_2 => cases member
  obtain ⟨s, _, values, state, member⟩ := Action.of_mem_meets member
  unfold metBySource at member
  split at member
  case h_2 => cases member
  obtain ⟨element, _, values, state, member⟩ := Action.of_mem_meets member
  split at member
  case h_2 => cases member
  obtain ⟨i, _, values, state, member⟩ := Action.of_mem_meets member
  obtain ⟨e, grouped, rfl⟩ := List.mem_map.mp member
  exact ⟨rfl, Option.mem_toList.mp grouped⟩

end Transformer

end MetadataIndex
