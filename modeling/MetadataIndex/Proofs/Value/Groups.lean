import Mathlib.Data.List.Permutation
import MetadataIndex.Proofs.Pattern.Threads
import MetadataIndex.Proofs.Value.Length

/-!
# The text around the groups

A normalizer whose pattern has groups rewrites the parts of the groups from the right, at their places
in the original value. What no group covers stays, as long as no two groups share more characters than
the fixed length: a group that is rewritten after the end of another one inside it has moved to the
left cuts off what stands behind. Where the groups are apart, the result is the value with the
normal form of each group in its place.
-/

set_option autoImplicit false

namespace MetadataIndex

open Pattern (Span Match)

namespace Pattern

/-- The parts of the groups that took part in a match, by number. -/
def Match.groups (m : Match) : List Span :=
  m.spans.toList.filterMap id

/-- The number of characters that two parts have in common. -/
def Span.shared (a b : Span) : Nat :=
  min a.2 b.2 - max a.1 b.1

theorem Span.shared_comm (a b : Span) : a.shared b = b.shared a := by
  rw [shared, shared, Nat.min_comm, Nat.max_comm]

theorem Match.mem_groups {m : Match} {s : Span} : s ∈ m.groups ↔ some s ∈ m.spans := by
  rw [Match.groups, List.mem_filterMap, ← Array.mem_toList_iff]
  exact ⟨fun ⟨_, member, same⟩ => same ▸ member, fun member => ⟨_, member, rfl⟩⟩

theorem part_append_drop (cs : List Char) {a b : Nat} (le : a ≤ b) :
    part cs (a, b) ++ cs.drop b = cs.drop a := by
  have split : (cs.drop a).drop (b - a) = cs.drop b := by
    rw [List.drop_drop, Nat.add_sub_cancel' le]
  rw [part, ← split, List.take_append_drop]

theorem take_append_part (cs : List Char) {a b : Nat} (le : a ≤ b) :
    cs.take a ++ part cs (a, b) = cs.take b := by
  rw [part, ← List.take_add, Nat.add_sub_cancel' le]

theorem part_self (cs : List Char) (a : Nat) : part cs (a, a) = [] := by
  rw [part, Nat.sub_self, List.take_zero]

theorem part_to_end (cs : List Char) (a : Nat) : part cs (a, cs.length) = cs.drop a :=
  List.take_of_length_le (Nat.le_of_eq List.length_drop)

theorem part_append_part (cs : List Char) {a b c : Nat} (first : a ≤ b) (second : b ≤ c) :
    part cs (a, b) ++ part cs (b, c) = part cs (a, c) := by
  have behind : cs.drop b = (cs.drop a).drop (b - a) := by
    rw [List.drop_drop, Nat.add_sub_cancel' first]
  rw [part, part, part, behind, ← List.take_add]
  congr 1
  omega

theorem length_part {cs : List Char} {s : Span} (inside : s.IsIn cs) :
    (part cs s).length = s.2 - s.1 := by
  have bounded := inside.bounded
  rw [part, List.length_take, List.length_drop]
  omega

end Pattern

namespace Normalizer

/-! ## What a rewriting keeps -/

/-- The character at an offset belongs to the part of a group. -/
def IsCovered (spans : List Span) (offset : Nat) : Prop :=
  ∃ s ∈ spans, s.1 ≤ offset ∧ offset < s.2

instance (spans : List Span) (offset : Nat) : Decidable (IsCovered spans offset) :=
  inferInstanceAs (Decidable (∃ s ∈ spans, _))

/-- A stretch of covered characters and what is written for it: some of these characters and of the
fillers, and nothing where no group is. -/
structure Redone (spans : List Span) (filler : Char) (offset : Nat) (old new : List Char) : Prop where
  covered : ∀ i, offset ≤ i → i < offset + old.length → IsCovered spans i
  drawn : ∀ c ∈ new, c = filler ∨ c ∈ old
  grouped : new ≠ [] → ∃ s ∈ spans, s.1 ≤ offset + old.length ∧ offset ≤ s.2

/-- Each character that no group covers is kept; the stretch behind it is redone. -/
inductive KeepsFrom (spans : List Span) (filler : Char) : Nat → List Char → List Char → Prop where
  | nil {offset : Nat} : KeepsFrom spans filler offset [] []
  | kept {offset : Nat} {c : Char} {old new cs result : List Char} (bare : ¬IsCovered spans offset)
    (redone : Redone spans filler (offset + 1) old new)
    (rest : KeepsFrom spans filler (offset + 1 + old.length) cs result) :
    KeepsFrom spans filler offset (c :: (old ++ cs)) (c :: (new ++ result))

/-- All that no group covers is in the result, unchanged, once and in its order, and stands between
the stretches that are redone. -/
def KeepsRest (spans : List Span) (filler : Char) (value result : List Char) : Prop :=
  ∃ old cs new rest, value = old ++ cs ∧ result = new ++ rest ∧ Redone spans filler 0 old new
    ∧ KeepsFrom spans filler old.length cs rest

/-- The characters from an offset on that no group covers. -/
def bare (spans : List Span) : Nat → List Char → List Char
  | _, [] => []
  | offset, c :: cs =>
    if IsCovered spans offset then bare spans (offset + 1) cs else c :: bare spans (offset + 1) cs

section Keeping

variable {spans : List Span} {filler : Char} {offset : Nat} {old new cs result value : List Char}

theorem add_length_cons (c : Char) : offset + (c :: old).length = offset + 1 + old.length := by
  rw [List.length_cons, Nat.add_assoc, Nat.add_comm 1]

theorem bare_of_covered (covered : ∀ i, offset ≤ i → i < offset + old.length → IsCovered spans i) :
    bare spans offset (old ++ cs) = bare spans (offset + old.length) cs := by
  induction old generalizing offset with
  | nil => rfl
  | cons c old ih =>
    rw [add_length_cons] at covered ⊢
    have first : IsCovered spans offset := covered offset (Nat.le_refl _) (by omega)
    rw [List.cons_append, bare, if_pos first]
    exact ih fun i behind => covered i (Nat.le_of_succ_le behind)

theorem KeepsFrom.bare_sublist (keeps : KeepsFrom spans filler offset cs result) :
    (bare spans offset cs).Sublist result := by
  induction keeps with
  | nil => exact List.nil_sublist _
  | @kept offset c old new cs result uncovered redone _ ih =>
    rw [bare, if_neg uncovered, bare_of_covered redone.covered]
    exact (ih.trans (List.sublist_append_right _ _)).cons_cons c

theorem KeepsRest.bare_sublist (keeps : KeepsRest spans filler value result) :
    (bare spans 0 value).Sublist result := by
  obtain ⟨old, cs, new, rest, rfl, rfl, redone, from_⟩ := keeps
  rw [bare_of_covered redone.covered, Nat.zero_add]
  exact from_.bare_sublist.trans (List.sublist_append_right _ _)

end Keeping

/-! ## Rewriting from the right -/

/-- The text from an offset on when all groups behind have been rewritten. The groups still to come
that end before the first character kept end before its present place. -/
structure Pending (spans later : List Span) (filler : Char) (offset : Nat) (old cs new rest : List Char) :
    Prop where
  redone : Redone spans filler offset old new
  keeps : KeepsFrom spans filler (offset + old.length) cs rest
  room : cs ≠ [] → ∀ s ∈ later, s.2 ≤ offset + old.length → s.2 ≤ offset + new.length

def IsPending (spans later : List Span) (filler : Char) (offset : Nat) (text result : List Char) : Prop :=
  ∃ old cs new rest, text = old ++ cs ∧ result = new ++ rest
    ∧ Pending spans later filler offset old cs new rest

section Rewriting

variable {spans later : List Span} {filler : Char} {offset : Nat} {text result value : List Char}

theorem redone_nil : Redone spans filler offset [] [] :=
  ⟨fun _ behind within => absurd within (Nat.not_lt.mpr behind), nofun, fun filled => absurd rfl filled⟩

theorem isPending_nil : IsPending spans later filler value.length (value.drop value.length) [] :=
  ⟨[], [], [], [], List.drop_length, rfl, redone_nil, .nil, fun more => absurd rfl more⟩

/-- One more character in front, not yet rewritten. -/
theorem IsPending.cons (pending : IsPending spans later filler (offset + 1) text result) (c : Char) :
    IsPending spans later filler offset (c :: text) (c :: result) := by
  obtain ⟨old, cs, new, rest, rfl, rfl, redone, keeps, room⟩ := pending
  by_cases covered : IsCovered spans offset
  · refine ⟨c :: old, cs, c :: new, rest, rfl, rfl, ⟨fun i behind within => ?_, ?_, fun _ => ?_⟩, ?_, ?_⟩
    · rw [add_length_cons] at within
      obtain rfl | further := Nat.eq_or_lt_of_le behind
      · exact covered
      · exact redone.covered i further within
    · intro x member
      obtain rfl | member := List.mem_cons.mp member
      · exact .inr (.head _)
      · exact (redone.drawn x member).imp_right (.tail _)
    · obtain ⟨s, member, begun, ended⟩ := covered
      exact ⟨s, member, Nat.le_trans begun (Nat.le_add_right _ _), Nat.le_of_lt ended⟩
    · rw [add_length_cons]
      exact keeps
    · rw [add_length_cons, add_length_cons]
      exact room
  · exact ⟨[], _, [], _, rfl, rfl, redone_nil, .kept covered redone keeps, fun _ _ _ => id⟩

theorem IsPending.append {front : List Char}
    (pending : IsPending spans later filler (offset + front.length) text result) :
    IsPending spans later filler offset (front ++ text) (front ++ result) := by
  induction front generalizing offset with
  | nil => exact pending
  | cons c front ih =>
    rw [add_length_cons] at pending
    exact (ih pending).cons c

theorem IsPending.extend {start : Nat}
    (pending : IsPending spans later filler offset (value.drop offset) result) (le : start ≤ offset)
    (bound : offset ≤ value.length) :
    IsPending spans later filler start (value.drop start)
      (Pattern.part value (start, offset) ++ result) := by
  have far : start + (Pattern.part value (start, offset)).length = offset := by
    rw [Pattern.length_part ⟨le, bound⟩, Nat.add_sub_cancel' le]
  rw [← Pattern.part_append_drop value le]
  refine IsPending.append ?_
  rw [far]
  exact pending

/-- Writing the normal form of a group of which what stands from `offset` on has been written before:
that is cut off where the group ends. -/
theorem IsPending.write {s : Span} {normal : List Char}
    (pending : IsPending spans (s :: later) filler offset (value.drop offset) result)
    (member : s ∈ spans) (inside : s.IsIn value) (start_le : s.1 ≤ offset) (le_end : offset ≤ s.2)
    (drawn : ∀ c ∈ normal, c = filler ∨ c ∈ Pattern.part value s)
    (begun : ∀ s' ∈ later, s'.1 ≤ s.1) (shares : ∀ s' ∈ later, s.shared s' ≤ normal.length) :
    IsPending spans later filler s.1 (value.drop s.1) (normal ++ result.drop (s.2 - offset)) := by
  obtain ⟨old, cs, new, rest, behind, rfl, redone, keeps, room⟩ := pending
  have bound := inside.bounded
  have size : value.length - offset = old.length + cs.length := by
    rw [← List.length_drop, behind, List.length_append]
  have front : (Pattern.part value (s.1, offset)).length = offset - s.1 :=
    Pattern.length_part ⟨start_le, by omega⟩
  have whole : value.drop s.1 = (Pattern.part value (s.1, offset) ++ old) ++ cs := by
    rw [← Pattern.part_append_drop value start_le, behind, List.append_assoc]
  have reach : s.2 ≤ offset + old.length := by
    cases keeps with
    | nil =>
      rw [List.length_nil] at size
      omega
    | kept bare _ _ =>
      exact Nat.le_of_not_lt fun beyond =>
        bare ⟨s, member, Nat.le_trans start_le (Nat.le_add_right _ _), beyond⟩
  have cut : (new ++ rest).drop (s.2 - offset) = new.drop (s.2 - offset) ++ rest := by
    cases keeps with
    | nil => rw [List.append_nil, List.append_nil]
    | kept =>
      have ended := room (List.cons_ne_nil _ _) s (.head _) reach
      exact List.drop_append_of_le_length (by omega)
  rw [cut, ← List.append_assoc]
  refine ⟨_, _, _, _, whole, rfl, ⟨fun i behind within => ?_, fun c taken => ?_, fun _ => ?_⟩, ?_, ?_⟩
  · rw [List.length_append, front] at within
    by_cases inner : i < s.2
    · exact ⟨s, member, behind, inner⟩
    · exact redone.covered i (by omega) (by omega)
  · obtain taken | taken := List.mem_append.mp taken
    · refine (drawn c taken).imp_right fun taken => ?_
      have short : s.2 - s.1 ≤ (Pattern.part value (s.1, offset) ++ old).length := by
        rw [List.length_append, front]
        omega
      rw [Pattern.part, whole, List.take_append_of_le_length short] at taken
      exact List.mem_of_mem_take taken
    · exact (redone.drawn c (List.mem_of_mem_drop taken)).imp_right (List.mem_append_right _)
  · exact ⟨s, member, Nat.le_add_right _ _, inside.ordered⟩
  · rw [List.length_append, front, ← Nat.add_assoc, Nat.add_sub_cancel' start_le]
    exact keeps
  · intro more s' member' ended
    rw [List.length_append, front] at ended
    have own := room more s (.head _) reach
    have before := room more s' (.tail _ member') (by omega)
    have first := begun s' member'
    have few := shares s' member'
    rw [Span.shared, Nat.max_eq_left first] at few
    rw [List.length_append, List.length_drop]
    omega

end Rewriting

section Running

variable {n : Normalizer} {spans todo : List Span} {value tail result : List Char} {offset : Nat}

theorem mem_resize {cs : List Char} {c : Char} (member : c ∈ n.resize cs) : c = n.filler ∨ c ∈ cs := by
  unfold resize at member
  split at member <;> obtain member | member := List.mem_append.mp member
  · exact .inl (List.eq_of_mem_replicate member)
  · exact .inr (List.mem_of_mem_drop member)
  · exact .inr (List.mem_of_mem_take member)
  · exact .inl (List.eq_of_mem_replicate member)

theorem part_eq_resize (plain : n.convertRoman = false) {cs normal : List Char}
    (made : n.part cs = .ok normal) : normal = n.resize cs := by
  rw [Normalizer.part, plain, Bool.false_and, if_neg Bool.false_ne_true] at made
  split at made
  · exact (Except.ok.inj made).symm
  · cases made

/-- One group: what is in front of it stays, and what was written for the text from `place` on is cut
off where it ends. -/
theorem replaceSpans_cons (plain : n.convertRoman = false) {s : Span} {place : Nat}
    (begun : s.1 ≤ offset) (bound : offset ≤ value.length) (place_le : place ≤ offset)
    (le_end : place ≤ s.2)
    (ran : n.replaceSpans value (value.take offset ++ tail) (s :: todo) = .ok result) :
    n.replaceSpans value (value.take s.1 ++ (n.resize (Pattern.part value s)
      ++ (Pattern.part value (place, offset) ++ tail).drop (s.2 - place))) todo = .ok result := by
  obtain ⟨normal, made, rest⟩ := Checked.bind_ok ran
  have front : (value.take offset ++ tail).take s.1 = value.take s.1 := by
    rw [List.take_append_of_le_length (by rw [List.length_take]; omega), List.take_take,
      Nat.min_eq_left begun]
  have behind : (value.take offset ++ tail).drop s.2
      = (Pattern.part value (place, offset) ++ tail).drop (s.2 - place) := by
    have length_front : (value.take place).length = place := by
      rw [List.length_take, Nat.min_eq_left (Nat.le_trans place_le bound)]
    have ended : (value.take place).length ≤ s.2 := by rwa [length_front]
    rw [← Pattern.take_append_part value place_le, List.append_assoc, List.drop_append,
      List.drop_of_length_le ended, List.nil_append, length_front]
  rw [part_eq_resize plain made, List.append_assoc, front, behind] at rest
  exact rest

theorem keepsRest_of_replaceSpans (plain : n.convertRoman = false)
    (pending : IsPending spans todo n.filler offset (value.drop offset) tail)
    (bound : offset ≤ value.length) (begun : ∀ s ∈ todo, s.1 ≤ offset)
    (sorted : todo.Pairwise fun a b => b.1 ≤ a.1)
    (shares : todo.Pairwise fun a b => a.shared b ≤ n.length)
    (groups : ∀ s ∈ todo, s ∈ spans) (inside : ∀ s ∈ todo, s.IsIn value)
    (ran : n.replaceSpans value (value.take offset ++ tail) todo = .ok result) :
    KeepsRest spans n.filler value result := by
  induction todo generalizing offset tail with
  | nil =>
    cases ran
    obtain ⟨old, cs, new, rest, whole, same, last⟩ := pending.extend (Nat.zero_le _) bound
    exact ⟨old, cs, new, rest, whole, same, last.redone, Nat.zero_add old.length ▸ last.keeps⟩
  | cons s todo ih =>
    obtain ⟨begun, begunLater⟩ := List.forall_mem_cons.mp begun
    obtain ⟨first, sorted⟩ := List.pairwise_cons.mp sorted
    obtain ⟨few, shares⟩ := List.pairwise_cons.mp shares
    obtain ⟨member, groups⟩ := List.forall_mem_cons.mp groups
    obtain ⟨inside, insideLater⟩ := List.forall_mem_cons.mp inside
    -- The part ends in the text that is written already or in front of it.
    have place_le : min offset s.2 ≤ offset := Nat.min_le_left _ _
    have extended := pending.extend place_le bound
    have written := extended.write member inside (Nat.le_min.mpr ⟨begun, inside.ordered⟩)
      (Nat.min_le_right _ _) (fun c => mem_resize) first
      (by simpa only [length_resize] using few)
    exact ih written (Nat.le_trans begun bound) first sorted shares groups insideLater
      (replaceSpans_cons plain begun bound place_le (Nat.min_le_right _ _) ran)

/-! ## Groups that are apart -/

/-- The text from an offset on with the normal form of each part in its place. -/
def rewriteFrom (n : Normalizer) (value : List Char) : Nat → List Span → List Char
  | offset, [] => value.drop offset
  | offset, s :: more =>
    Pattern.part value (offset, s.1) ++ n.resize (Pattern.part value s)
      ++ n.rewriteFrom value s.2 more

theorem part_append_rewriteFrom {start : Nat} {spans : List Span} (le : start ≤ offset)
    (ahead : ∀ s ∈ spans.head?, offset ≤ s.1) :
    Pattern.part value (start, offset) ++ n.rewriteFrom value offset spans
      = n.rewriteFrom value start spans := by
  cases spans with
  | nil => exact Pattern.part_append_drop value le
  | cons s more =>
    rw [rewriteFrom, rewriteFrom, List.append_assoc, List.append_assoc, ← List.append_assoc,
      Pattern.part_append_part value le (ahead s rfl)]

theorem eq_rewriteFrom_of_replaceSpans (plain : n.convertRoman = false) (bound : offset ≤ value.length)
    (ahead : ∀ s ∈ spans.head?, offset ≤ s.1) (inside : ∀ s ∈ todo, s.IsIn value)
    (behind : ∀ s ∈ todo, s.2 ≤ offset) (apart : todo.Pairwise fun a b => b.2 ≤ a.1)
    (ran : n.replaceSpans value (value.take offset ++ n.rewriteFrom value offset spans) todo
      = .ok result) : result = n.rewriteFrom value 0 (todo.reverse ++ spans) := by
  induction todo generalizing offset spans with
  | nil =>
    cases ran
    exact part_append_rewriteFrom (Nat.zero_le _) ahead
  | cons s todo ih =>
    obtain ⟨inside, insideLater⟩ := List.forall_mem_cons.mp inside
    obtain ⟨behind, -⟩ := List.forall_mem_cons.mp behind
    obtain ⟨behindLater, apart⟩ := List.pairwise_cons.mp apart
    have begun : s.1 ≤ offset := Nat.le_trans inside.ordered behind
    have ran := replaceSpans_cons plain begun bound behind (Nat.le_refl _) ran
    have written : n.resize (Pattern.part value s)
        ++ (Pattern.part value (s.2, offset) ++ n.rewriteFrom value offset spans).drop (s.2 - s.2)
          = n.rewriteFrom value s.1 (s :: spans) := by
      rw [Nat.sub_self, List.drop_zero, part_append_rewriteFrom behind ahead, rewriteFrom,
        Pattern.part_self, List.nil_append]
    rw [written] at ran
    have ahead : ∀ a ∈ (s :: spans).head?, s.1 ≤ a.1 := by
      rintro a ⟨⟩
      exact Nat.le_refl _
    rw [List.reverse_cons, List.append_assoc, List.singleton_append]
    exact ih (Nat.le_trans begun bound) ahead insideLater behindLater apart ran

/-- Rewriting begins with the whole value and nothing behind it. -/
theorem replaceSpans_whole : n.replaceSpans value (value.take value.length ++ []) todo
    = n.replaceSpans value value todo := by
  rw [List.take_length, List.append_nil]

/-- Of two parts with more characters in common than the fixed length, the one written last cuts off
as many characters behind both as there are too many. -/
theorem replaceSpans_of_shared (plain : n.convertRoman = false) {a b : Span} (begun : b.1 ≤ a.1)
    (inside : a.IsIn value) (many : n.length < a.shared b)
    (ran : n.replaceSpans value value [a, b] = .ok result) :
    result = value.take b.1 ++ n.resize (Pattern.part value b)
      ++ value.drop (max a.2 b.2 + (a.shared b - n.length)) := by
  rw [Span.shared, Nat.max_eq_left begun] at many ⊢
  have bound : a.1 ≤ value.length := Nat.le_trans inside.ordered inside.bounded
  have first := replaceSpans_cons plain bound (Nat.le_refl _) inside.bounded (Nat.le_refl _)
    (replaceSpans_whole.trans ran)
  have second := replaceSpans_cons plain begun bound (Nat.le_refl _) (by omega) first
  have ended : (n.resize (Pattern.part value a)).length ≤ b.2 - a.1 := by
    rw [length_resize]
    omega
  have far : a.2 + (b.2 - a.1 - n.length) = max a.2 b.2 + (min a.2 b.2 - a.1 - n.length) := by
    omega
  rw [Pattern.part_self, List.nil_append, Nat.sub_self, List.drop_zero, List.append_nil,
    Pattern.part_to_end, List.drop_append, List.drop_of_length_le ended, List.nil_append,
    length_resize, List.drop_drop, far, ← List.append_assoc] at second
  exact (Except.ok.inj second).symm

end Running

/-! ## The groups of a match -/

section Order

variable {m : Match} {value : List Char}

theorem laterFirst_iff {a b : Span} : laterFirst a b = true ↔ b.1 < a.1 ∨ b.1 = a.1 ∧ b.2 ≤ a.2 := by
  simp [laterFirst]

theorem relevantSpans_eq (grouped : 0 < m.spans.size) :
    relevantSpans m = m.groups.mergeSort laterFirst := by
  have some_group : ¬m.spans.isEmpty = true := by
    rw [Array.isEmpty_iff_size_eq_zero]
    exact Nat.ne_of_gt grouped
  rw [relevantSpans, if_neg some_group]
  rfl

theorem perm_relevantSpans (grouped : 0 < m.spans.size) : (relevantSpans m).Perm m.groups := by
  rw [relevantSpans_eq grouped]
  exact List.mergeSort_perm _ _

theorem pairwise_relevantSpans (grouped : 0 < m.spans.size) :
    (relevantSpans m).Pairwise fun a b => laterFirst a b = true := by
  rw [relevantSpans_eq grouped]
  refine List.pairwise_mergeSort (fun a b c first second => ?_) (fun a b => ?_) _
  · rw [laterFirst_iff] at *
    omega
  · rw [Bool.or_eq_true, laterFirst_iff, laterFirst_iff]
    omega

/-- Parts that can be listed in ascending order are written in the opposite order. -/
theorem reverse_relevantSpans (grouped : 0 < m.spans.size) (inside : ∀ s ∈ m.groups, s.IsIn value)
    {ascending : List Span} (same : ascending.Perm m.groups)
    (apart : ascending.Pairwise fun a b => a.2 ≤ b.1) :
    (relevantSpans m).Pairwise (fun a b => b.2 ≤ a.1) ∧ (relevantSpans m).reverse = ascending := by
  have perm := perm_relevantSpans grouped
  have ordered (s : Span) (member : s ∈ relevantSpans m) : s.1 ≤ s.2 :=
    (inside s (perm.mem_iff.mp member)).ordered
  have either : (relevantSpans m).Pairwise fun a b => a.2 ≤ b.1 ∨ b.2 ≤ a.1 :=
    ((same.trans perm.symm).pairwise_iff Or.symm).mp (apart.imp .inl)
  have descending : (relevantSpans m).Pairwise fun a b => b.2 ≤ a.1 := by
    refine ((pairwise_relevantSpans grouped).and either).imp_of_mem fun {a b} here there both => ?_
    have later := laterFirst_iff.mp both.1
    have first := ordered a here
    have second := ordered b there
    omega
  refine ⟨descending, ?_⟩
  refine ((List.reverse_perm _).trans (perm.trans same.symm)).eq_of_pairwise ?_
    (List.pairwise_reverse.mpr descending) apart
  intro a b here there first second
  have firstOrdered := ordered a (List.mem_reverse.mp here)
  have secondOrdered := ordered b (perm.mem_iff.mpr (same.mem_iff.mp there))
  exact Prod.ext (by omega) (by omega)

end Order

/-! ## The result -/

theorem normalize_of_replaced {n : Normalizer} {pattern value : String} {regex : Pattern.Regex} {m : Match}
    {result : List Char} (chosen : n.relevantPart = some (.text pattern))
    (read : Pattern.Regex.ofText pattern = .ok regex) (found : regex.search value.toList = some m)
    (ran : n.replaceSpans value.toList value.toList (relevantSpans m) = .ok result) :
    n.normalize value = .ok (String.ofList result) := by
  unfold normalize
  rw [chosen]
  dsimp only [Json.asText, bind, Except.bind]
  rw [read]
  dsimp only
  rw [found]
  dsimp only
  rw [ran]
  rfl

/-- The groups of a match are all that a normalizer changes as long as no two of them have more
characters in common than the fixed length. Where they can be listed one behind the other, the result
is the value with the normal form of each in its place; of two with too many common characters, the one
written last cuts off what stands behind. -/
theorem normalize_of_groups {n : Normalizer} {pattern value : String} {regex : Pattern.Regex} {m : Match}
    (plain : n.convertRoman = false) (chosen : n.relevantPart = some (.text pattern))
    (read : Pattern.Regex.ofText pattern = .ok regex) (grouped : 0 < regex.groups)
    (found : regex.search value.toList = some m)
    (fits : ∀ s ∈ m.groups, n.length ≤ fillLimit + (s.2 - s.1)) :
    ∃ result, n.normalize value = .ok (String.ofList result)
      ∧ (m.groups.Pairwise (fun a b => a.shared b ≤ n.length) →
        KeepsRest m.groups n.filler value.toList result)
      ∧ (∀ ascending, ascending.Perm m.groups → ascending.Pairwise (fun a b => a.2 ≤ b.1) →
        result = n.rewriteFrom value.toList 0 ascending)
      ∧ ∀ a b, m.groups = [a, b] → n.length < a.shared b → ∃ s ∈ [a, b],
        result = value.toList.take (min a.1 b.1) ++ n.resize (Pattern.part value.toList s)
          ++ value.toList.drop (max a.2 b.2 + (a.shared b - n.length)) := by
  have inText := Pattern.Regex.isIn_of_search found
  have grouped : 0 < m.spans.size := inText.groups ▸ grouped
  have inside : ∀ s ∈ m.groups, s.IsIn value.toList := fun s member =>
    inText.parts s (Pattern.Match.mem_groups.mp member)
  have perm := perm_relevantSpans grouped
  have insideSorted : ∀ s ∈ relevantSpans m, s.IsIn value.toList := fun s member =>
    inside s (perm.mem_iff.mp member)
  have sorted := pairwise_relevantSpans grouped
  obtain ⟨result, ran⟩ : ∃ result,
      n.replaceSpans value.toList value.toList (relevantSpans m) = .ok result := by
    refine replaceSpans_ok_iff.mpr fun s member => ?_
    rw [IsStuckOn, plain, Bool.false_and, if_neg Bool.false_ne_true,
      Pattern.length_part (insideSorted s member)]
    have fit := fits s (perm.mem_iff.mp member)
    omega
  refine ⟨result, ?_, fun shares => ?_, fun ascending same apart => ?_, fun a b both many => ?_⟩
  · exact normalize_of_replaced chosen read found ran
  · have begun : ∀ s ∈ relevantSpans m, s.1 ≤ value.toList.length := fun s member =>
      Nat.le_trans (insideSorted s member).ordered (insideSorted s member).bounded
    refine keepsRest_of_replaceSpans plain isPending_nil (Nat.le_refl _) begun
      (sorted.imp fun later => ?_) ?_ (fun s => perm.mem_iff.mp) insideSorted
      (replaceSpans_whole.trans ran)
    · have := laterFirst_iff.mp later
      omega
    · refine (perm.pairwise_iff fun {a b} few => ?_).mpr shares
      rwa [Pattern.Span.shared_comm]
  · obtain ⟨descending, reversed⟩ := reverse_relevantSpans grouped inside same apart
    rw [← reversed, ← List.append_nil (relevantSpans m).reverse]
    refine eq_rewriteFrom_of_replaceSpans plain (Nat.le_refl _) nofun insideSorted
      (fun s member => (insideSorted s member).bounded) descending ?_
    rw [rewriteFrom, List.drop_length]
    exact replaceSpans_whole.trans ran
  · rw [both] at perm
    obtain listed | listed := List.perm_pair.mp perm <;>
      rw [listed] at ran sorted insideSorted <;> rw [List.pairwise_pair, laterFirst_iff] at sorted
    · have begun : b.1 ≤ a.1 := by omega
      refine ⟨b, .tail _ (.head _), ?_⟩
      rw [Nat.min_eq_right begun]
      exact replaceSpans_of_shared plain begun (insideSorted a (.head _)) many ran
    · have begun : a.1 ≤ b.1 := by omega
      refine ⟨a, .head _, ?_⟩
      rw [Pattern.Span.shared_comm] at many ⊢
      rw [Nat.min_eq_left begun, Nat.max_comm]
      exact replaceSpans_of_shared plain begun (insideSorted b (.head _)) many ran

/-! ## A group inside another -/

/-- A pattern with a group inside another. -/
def nested (length : Nat) (length_pos : 0 < length) : Normalizer where
  length
  relevantPart := some (.text "(a(bc))d")
  length_pos

def nestedRegex : Pattern.Regex where
  node := .seq (.group 1 (.seq (.one (.char .exact 'a'))
    (.group 2 (.seq (.one (.char .exact 'b')) (.one (.char .exact 'c')))))) (.one (.char .exact 'd'))
  groups := 2
  names := []

deriving instance DecidableEq for Pattern.Regex

theorem ofText_nested : Pattern.Regex.ofText "(a(bc))d" = .ok nestedRegex := by decide +kernel

/-- Its match in `abcd`. -/
def nestedMatch : Pattern.Match := ⟨(0, 4), #[some (0, 3), some (1, 3)]⟩

theorem search_nested : nestedRegex.search "abcd".toList = some nestedMatch := by rfl

theorem normalize_of_groups_nested :
    ∃ result, (nested 2 (by decide)).normalize "abcd" = .ok (String.ofList result)
      ∧ KeepsRest nestedMatch.groups '0' "abcd".toList result := by
  obtain ⟨result, made, keeps, -⟩ := normalize_of_groups (n := nested 2 (by decide)) rfl rfl
    ofText_nested (by decide) search_nested (by decide)
  exact ⟨result, made, keeps (by decide)⟩

/-- A fixed length of one is too short for the inner group: the character behind both is lost. -/
theorem not_keepsRest_of_nested : (nested 1 (by decide)).normalize "abcd" = .ok "c"
    ∧ ¬KeepsRest nestedMatch.groups '0' "abcd".toList "c".toList := by
  have spans : relevantSpans nestedMatch = [(1, 3), (0, 3)] := by
    simp [relevantSpans, nestedMatch, List.mergeSort, laterFirst]
  have replaced : (nested 1 (by decide)).replaceSpans "abcd".toList "abcd".toList
      (relevantSpans nestedMatch) = .ok "c".toList := by
    rw [spans]
    rfl
  refine ⟨normalize_of_replaced rfl ofText_nested search_nested replaced, fun keeps => ?_⟩
  have kept := keeps.bare_sublist
  revert kept
  decide

end Normalizer

end MetadataIndex
