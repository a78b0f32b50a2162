import MetadataIndex.Pattern.Matcher

/-!
# Matches inside their text

The matcher hands to what follows only places of the text it was given, never one before the place
it came from, and records for the groups only parts of that text. So a match has a part, or none, for
each group of its pattern, and each part lies in the text.
-/

set_option autoImplicit false

namespace MetadataIndex.Pattern

/-- A place of a text. -/
structure Place.IsIn (cs : List Char) (p : Place) : Prop where
  text : p.before.reverse ++ p.after = cs
  offset : p.offset = p.before.length

/-- A part of a text. -/
structure Span.IsIn (cs : List Char) (s : Span) : Prop where
  ordered : s.1 ≤ s.2
  bounded : s.2 ≤ cs.length

/-- A match under way in a text with a pattern of so many groups. -/
structure Thread.IsIn (cs : List Char) (groups : Nat) (t : Thread) : Prop where
  place : t.place.IsIn cs
  groups : t.spans.size = groups
  parts : ∀ s, some s ∈ t.spans → s.IsIn cs

/-- A match in a text. -/
structure Match.IsIn (cs : List Char) (groups : Nat) (m : Match) : Prop where
  groups : m.spans.size = groups
  parts : ∀ s, some s ∈ m.spans → s.IsIn cs

variable {cs : List Char} {groups : Nat}

namespace Place

variable {p q : Place} {c : Char}

theorem IsIn.offset_le (inside : p.IsIn cs) : p.offset ≤ cs.length := by
  rw [inside.offset, ← inside.text, List.length_append, List.length_reverse]
  exact Nat.le_add_right _ _

theorem IsIn.forth (inside : p.IsIn cs) (moved : p.forth = some (c, q)) :
    q.IsIn cs ∧ q.offset = p.offset + 1 := by
  unfold Place.forth at moved
  split at moved
  · cases moved
  · next rest ahead =>
    cases moved
    refine ⟨⟨?_, ?_⟩, rfl⟩
    · rw [List.reverse_cons, List.append_assoc, List.singleton_append, ← ahead]
      exact inside.text
    · exact congrArg (· + 1) inside.offset

theorem IsIn.back {n : Nat} (inside : p.IsIn cs) (moved : p.back n = some q) :
    q.IsIn cs ∧ q.offset + n = p.offset := by
  induction n generalizing p with
  | zero =>
    cases moved
    exact ⟨inside, rfl⟩
  | succ n ih =>
    unfold Place.back at moved
    split at moved
    · cases moved
    · next c before behind =>
      have last : p.offset = before.length + 1 := by
        rw [inside.offset, behind, List.length_cons]
      have previous : Place.IsIn cs ⟨before, c :: p.after, p.offset - 1⟩ := by
        refine ⟨?_, by rw [last, Nat.add_sub_cancel]⟩
        rw [← inside.text, behind, List.reverse_cons, List.append_assoc, List.singleton_append]
      obtain ⟨reached, far⟩ := ih previous moved
      exact ⟨reached, by dsimp only at far; omega⟩

theorem IsIn.follow {how : Compare} {xs : List Char} (inside : p.IsIn cs)
    (moved : p.follow how xs = some q) : q.IsIn cs ∧ p.offset ≤ q.offset := by
  induction xs generalizing p with
  | nil =>
    cases moved
    exact ⟨inside, Nat.le_refl _⟩
  | cons x xs ih =>
    unfold Place.follow at moved
    split at moved
    · next c p' step =>
      split at moved
      · obtain ⟨inside', far⟩ := inside.forth step
        obtain ⟨reached, further⟩ := ih inside' moved
        exact ⟨reached, by omega⟩
      · cases moved
    · cases moved

end Place

theorem run_isIn_count {test : Char → Bool} {limit : Option Nat} {before after : List Char}
    {offset : Nat} (count : Nat) (inside : Place.IsIn cs ⟨before, after, offset⟩) :
    (run test limit before after offset count).2.IsIn cs
      ∧ (run test limit before after offset count).2.offset + count
        = offset + (run test limit before after offset count).1 := by
  induction after generalizing before offset count with
  | nil => exact ⟨inside, rfl⟩
  | cons c rest ih =>
    unfold run
    split
    · have further : Place.IsIn cs ⟨c :: before, rest, offset + 1⟩ := (inside.forth rfl).1
      obtain ⟨reached, counted⟩ := ih (count + 1) further
      exact ⟨reached, by omega⟩
    · exact ⟨inside, rfl⟩

/-- Going forward over characters counts them. -/
theorem Place.IsIn.run {p : Place} (inside : p.IsIn cs) (test : Char → Bool) (limit : Option Nat) :
    (run test limit p.before p.after p.offset 0).2.IsIn cs
      ∧ (run test limit p.before p.after p.offset 0).2.offset
        = p.offset + (run test limit p.before p.after p.offset 0).1 :=
  run_isIn_count 0 inside

/-! ## What a matcher hands on -/

/-- A matcher hands on matches under way that are in the text and have not gone back. -/
def HandsOn (cs : List Char) (groups : Nat) (body : Thread → Continuation → Option Thread) : Prop :=
  ∀ ⦃t k r⦄, t.IsIn cs groups → body t k = some r →
    ∃ t', t'.IsIn cs groups ∧ t.place.offset ≤ t'.place.offset ∧ k t' = some r

variable {t r : Thread} {k : Continuation} {body : Thread → Continuation → Option Thread}

theorem Thread.IsIn.at_place (inside : t.IsIn cs groups) {p : Place} (reached : p.IsIn cs) :
    Thread.IsIn cs groups ⟨p, t.spans⟩ :=
  ⟨reached, inside.groups, inside.parts⟩

/-- Recording the text between two places of a match under way. -/
theorem Thread.IsIn.record (inside : t.IsIn cs groups) {p : Place}
    (far : p.offset ≤ t.place.offset) (i : Nat) :
    Thread.IsIn cs groups { t with spans := t.spans.set! i (some (p.offset, t.place.offset)) } := by
  refine ⟨inside.place, ?_, fun s member => ?_⟩
  · rw [← inside.groups]
    exact Array.size_setIfInBounds
  · obtain recorded | same := Array.mem_or_eq_of_mem_setIfInBounds member
    · exact inside.parts s recorded
    · cases same
      exact ⟨far, inside.place.offset_le⟩

/-- What stands alone, as the inside of an assertion does, hands on the match it ends with. -/
theorem HandsOn.alone (hands : HandsOn cs groups body) (inside : t.IsIn cs groups)
    (matched : body t some = some r) : r.IsIn cs groups ∧ t.place.offset ≤ r.place.offset := by
  obtain ⟨t', reached, far, same⟩ := hands inside matched
  cases same
  exact ⟨reached, far⟩

theorem handsOn_giveBack {spans : Array (Option Span)} {p : Place} {count : Nat}
    (inside : Thread.IsIn cs groups ⟨p, spans⟩) (matched : giveBack spans k count p = some r) :
    ∃ t', t'.IsIn cs groups ∧ p.offset ≤ t'.place.offset + count ∧ k t' = some r := by
  induction count generalizing p with
  | zero => exact ⟨_, inside, Nat.le_refl _, matched⟩
  | succ count ih =>
    unfold giveBack at matched
    split at matched
    · next follows =>
      cases matched
      exact ⟨_, inside, Nat.le_add_right _ _, follows⟩
    · split at matched
      · next q moved =>
        obtain ⟨previous, far⟩ := inside.place.back moved
        obtain ⟨t', reached, near, follows⟩ := ih (inside.at_place previous) matched
        exact ⟨t', reached, by dsimp only at far; omega, follows⟩
      · cases matched

theorem handsOn_takeMore {test : Char → Bool} {spans : Array (Option Span)} {limit : Option Nat}
    {before after : List Char} {offset count : Nat}
    (inside : Thread.IsIn cs groups ⟨⟨before, after, offset⟩, spans⟩)
    (matched : takeMore test spans k limit before after offset count = some r) :
    ∃ t', t'.IsIn cs groups ∧ offset ≤ t'.place.offset ∧ k t' = some r := by
  induction after generalizing before offset count with
  | nil => exact ⟨_, inside, Nat.le_refl _, matched⟩
  | cons c rest ih =>
    unfold takeMore at matched
    split at matched
    · next follows =>
      cases matched
      exact ⟨_, inside, Nat.le_refl _, follows⟩
    · split at matched
      · have further : Place.IsIn cs ⟨c :: before, rest, offset + 1⟩ := (inside.place.forth rfl).1
        obtain ⟨t', reached, far, follows⟩ := ih (inside.at_place further) matched
        exact ⟨t', reached, Nat.le_of_succ_le far, follows⟩
      · cases matched

theorem handsOn_repeatOne (greed : Greed) (least : Nat) (most : Option Nat) (test : Char → Bool) :
    HandsOn cs groups (repeatOne greed least most test) := by
  intro t k r inside matched
  cases greed with
  | reluctant =>
    obtain ⟨reached, counted⟩ := inside.place.run test (some least)
    unfold repeatOne at matched
    dsimp only at matched
    split at matched
    · cases matched
    · obtain ⟨t', inside', far, follows⟩ := handsOn_takeMore (inside.at_place reached) matched
      exact ⟨t', inside', Nat.le_trans (counted ▸ Nat.le_add_right _ _) far, follows⟩
  | greedy =>
    obtain ⟨reached, counted⟩ := inside.place.run test most
    unfold repeatOne at matched
    dsimp only at matched
    split at matched
    · cases matched
    · obtain ⟨t', inside', far, follows⟩ := handsOn_giveBack (inside.at_place reached) matched
      exact ⟨t', inside', by omega, follows⟩
  | possessive =>
    obtain ⟨reached, counted⟩ := inside.place.run test most
    unfold repeatOne at matched
    dsimp only at matched
    split at matched
    · cases matched
    · exact ⟨_, inside.at_place reached, by dsimp only; omega, matched⟩

theorem handsOn_repeatRound (greedy : Bool) (least : Nat) (most : Option Nat)
    (hands : HandsOn cs groups body) {fuel count : Nat} {last : Option Nat}
    (inside : t.IsIn cs groups)
    (matched : repeatRound greedy least most body k fuel count last t = some r) :
    ∃ t', t'.IsIn cs groups ∧ t.place.offset ≤ t'.place.offset ∧ k t' = some r := by
  induction fuel generalizing count last t with
  | zero => cases matched
  | succ fuel ih =>
    -- One more round, and what the rounds after it hand on.
    have round {count' : Nat} {last' : Option Nat}
        (another : body t (repeatRound greedy least most body k fuel count' last') = some r) :
        ∃ t', t'.IsIn cs groups ∧ t.place.offset ≤ t'.place.offset ∧ k t' = some r := by
      obtain ⟨t₁, inside₁, far₁, matched₁⟩ := hands inside another
      obtain ⟨t₂, inside₂, far₂, follows⟩ := ih inside₁ matched₁
      exact ⟨t₂, inside₂, Nat.le_trans far₁ far₂, follows⟩
    have stop (follows : k t = some r) :
        ∃ t', t'.IsIn cs groups ∧ t.place.offset ≤ t'.place.offset ∧ k t' = some r :=
      ⟨t, inside, Nat.le_refl _, follows⟩
    rw [repeatRound] at matched
    split at matched
    · exact round matched
    · dsimp only at matched
      split at matched
      · rw [Option.orElse_eq_or, Option.or_eq_some_iff] at matched
        obtain another | ⟨-, follows⟩ := matched
        · split at another
          · exact round another
          · cases another
        · exact stop follows
      · rw [Option.orElse_eq_or, Option.or_eq_some_iff] at matched
        obtain follows | ⟨-, another⟩ := matched
        · exact stop follows
        · split at another
          · exact round another
          · cases another

theorem isIn_repeatFinal {least : Nat} {most : Option Nat} (hands : HandsOn cs groups body)
    {fuel count : Nat} (inside : t.IsIn cs groups)
    (matched : repeatFinal least most (fun t => body t some) fuel count t = some r) :
    r.IsIn cs groups ∧ t.place.offset ≤ r.place.offset := by
  induction fuel generalizing count t with
  | zero => cases matched
  | succ fuel ih =>
    have round {t' : Thread} (another : body t some = some t')
        (rest : repeatFinal least most (fun t => body t some) fuel (count + 1) t' = some r) :
        r.IsIn cs groups ∧ t.place.offset ≤ r.place.offset := by
      obtain ⟨inside₁, far₁⟩ := hands.alone inside another
      obtain ⟨inside₂, far₂⟩ := ih inside₁ rest
      exact ⟨inside₂, Nat.le_trans far₁ far₂⟩
    rw [repeatFinal] at matched
    split at matched
    · split at matched
      · next another => exact round another matched
      · cases matched
    · split at matched
      · split at matched
        · next another =>
          split at matched
          · cases matched
            exact hands.alone inside another
          · exact round another matched
        · cases matched
          exact ⟨inside, Nat.le_refl _⟩
      · cases matched
        exact ⟨inside, Nat.le_refl _⟩

theorem handsOn_rep (greed : Greed) (least : Nat) (most : Option Nat) {n : Node}
    (hands : HandsOn cs groups n.run) : HandsOn cs groups (Node.rep greed least most n).run := by
  intro t k r inside matched
  by_cases single : ∃ test, n = .one test
  · obtain ⟨test, rfl⟩ := single
    rw [Node.run] at matched
    exact handsOn_repeatOne greed least most test.holds inside matched
  · have several (test : CharTest) (same : n = .one test) : False := single ⟨test, same⟩
    cases greed with
    | possessive =>
      rw [Node.run, Option.bind_eq_some_iff] at matched
      · obtain ⟨t', ended, follows⟩ := matched
        obtain ⟨inside', far⟩ := isIn_repeatFinal hands inside ended
        exact ⟨t', inside', far, follows⟩
      · exact several
    | greedy =>
      rw [Node.run] at matched
      · exact handsOn_repeatRound true least most hands inside matched
      · exact several
      · nofun
    | reluctant =>
      rw [Node.run] at matched
      · exact handsOn_repeatRound false least most hands inside matched
      · exact several
      · nofun

theorem handsOn_run (n : Node) : HandsOn cs groups n.run := by
  induction n with
  | empty => exact fun t k r inside matched => ⟨t, inside, Nat.le_refl _, matched⟩
  | fail => exact fun t k r inside matched => nomatch matched
  | one test =>
    intro t k r inside matched
    rw [Node.run] at matched
    split at matched
    · next c p moved =>
      split at matched
      · obtain ⟨reached, far⟩ := inside.place.forth moved
        exact ⟨_, inside.at_place reached, Nat.le_of_lt (far ▸ Nat.lt_succ_self _), matched⟩
      · cases matched
    · cases matched
  | anchor a =>
    intro t k r inside matched
    rw [Node.run] at matched
    split at matched
    · exact ⟨t, inside, Nat.le_refl _, matched⟩
    · cases matched
  | seq first second first_ih second_ih =>
    intro t k r inside matched
    obtain ⟨t₁, inside₁, far₁, matched₁⟩ := first_ih inside matched
    obtain ⟨t₂, inside₂, far₂, follows⟩ := second_ih inside₁ matched₁
    exact ⟨t₂, inside₂, Nat.le_trans far₁ far₂, follows⟩
  | alt first second first_ih second_ih =>
    intro t k r inside matched
    rw [Node.run, Option.orElse_eq_or, Option.or_eq_some_iff] at matched
    obtain matched | ⟨-, matched⟩ := matched
    · exact first_ih inside matched
    · exact second_ih inside matched
  | group index body ih =>
    intro t k r inside matched
    obtain ⟨t', inside', far, follows⟩ := ih inside matched
    exact ⟨_, inside'.record far (index - 1), far, follows⟩
  | rep greed least most body ih => exact handsOn_rep greed least most ih
  | atomic body ih =>
    intro t k r inside matched
    rw [Node.run, Option.bind_eq_some_iff] at matched
    obtain ⟨t', alone, follows⟩ := matched
    obtain ⟨inside', far⟩ := ih.alone inside alone
    exact ⟨t', inside', far, follows⟩
  | look behind negated body ih =>
    intro t k r inside matched
    have stay (follows : k t = some r) :
        ∃ t', t'.IsIn cs groups ∧ t.place.offset ≤ t'.place.offset ∧ k t' = some r :=
      ⟨t, inside, Nat.le_refl _, follows⟩
    rw [Node.run] at matched
    split at matched
    · split at matched
      · exact stay matched
      · cases matched
    · next p moved =>
      split at matched
      · next t' seen =>
        split at matched
        · cases matched
        · obtain ⟨reached, -⟩ := inside.place.back moved
          obtain ⟨inside', -⟩ := ih.alone (inside.at_place reached) seen
          exact ⟨_, inside'.at_place inside.place, Nat.le_refl _, matched⟩
      · split at matched
        · exact stay matched
        · cases matched
  | back how index =>
    intro t k r inside matched
    rw [Node.run] at matched
    split at matched
    · cases matched
    · split at matched
      · next p moved =>
        obtain ⟨reached, far⟩ := inside.place.follow moved
        exact ⟨_, inside.at_place reached, far, matched⟩
      · cases matched
  | cond index given otherwise given_ih otherwise_ih =>
    intro t k r inside matched
    rw [Node.run] at matched
    split at matched
    · exact given_ih inside matched
    · exact otherwise_ih inside matched

namespace Regex

variable {regex : Regex} {m : Match}

theorem isIn_of_matchAt {advance : Bool} {p : Place} (inside : p.IsIn cs)
    (found : regex.matchAt advance p = some m) : m.IsIn cs regex.groups := by
  have start : Thread.IsIn cs regex.groups ⟨p, Array.replicate regex.groups none⟩ := by
    refine ⟨inside, Array.size_replicate, fun s member => ?_⟩
    cases (Array.mem_replicate.mp member).2
  rw [matchAt] at found
  split at found
  · next t matched =>
    obtain ⟨t', inside', -, ended⟩ := handsOn_run regex.node start matched
    split at ended
    · cases ended
    · cases ended
      cases found
      exact ⟨inside'.groups, inside'.parts⟩
  · cases found

theorem isIn_of_searchFrom {advance : Bool} {before after : List Char} {offset : Nat}
    (inside : Place.IsIn cs ⟨before, after, offset⟩)
    (found : regex.searchFrom advance before offset after = some m) : m.IsIn cs regex.groups := by
  induction after generalizing advance before offset with
  | nil => exact isIn_of_matchAt inside found
  | cons c rest ih =>
    rw [searchFrom] at found
    split at found
    · next matched =>
      cases found
      exact isIn_of_matchAt inside matched
    · exact ih (inside.forth rfl).1 found

theorem isIn_of_search (found : regex.search cs = some m) : m.IsIn cs regex.groups :=
  isIn_of_searchFrom ⟨rfl, rfl⟩ found

end Regex

end MetadataIndex.Pattern
