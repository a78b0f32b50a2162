import Mathlib.Data.Nat.Init
import MetadataIndex.Pattern.Template

/-!
# Patterns of a literal start and a literal end

A pattern that is a literal text, any characters and another literal text is read as just that. It
matches once in a text, if at all: from the first place of the literal start to the last place of the
literal end.
-/

set_option autoImplicit false

namespace MetadataIndex.Pattern

/-- A character that stands for itself in a pattern. -/
def IsLiteral (c : Char) : Prop := c ∉ ['.', '^', '$', '*', '+', '?', '\x7b', '[', '\\', '|', '(', ')']

instance (c : Char) : Decidable (IsLiteral c) := inferInstanceAs (Decidable (_ ∉ _))

/-- A word character, a bar or anything else. -/
def anyTest : CharTest :=
  .oneOf .exact false [.named false false .word, .char '|', .named false true .word]

theorem holds_anyTest (c : Char) : anyTest.holds c = true := by
  unfold anyTest
  simp only [CharTest.holds, List.any_cons, ClassItem.holds, Compare.form]
  cases NamedClass.holds false .word c <;> simp

/-- The text of a repetition of any character. -/
def anyText : List Char := ['[', '\\', 'w', '|', '\\', 'W', ']', '*']

def anyRun : Node := .rep .greedy 0 none (.one anyTest)

def literalItem (c : Char) : Item := .plain (.one (.char .exact c))

/-! ## Reading -/

section Reading

variable {fuel : Nat} {items : List Item} {n : Node} {c d : Char} {cs rest : List Char}

theorem run_bind_of_ok {α β : Type} {x : Reader α} {f : α → Reader β} {p p' : Progress} {a : α}
    (ran : x.run p = .ok (a, p')) : (x >>= f).run p = (f a).run p' := by
  rw [StateT.run_bind, ran]
  rfl

theorem run_get {p : Progress} : (get : Reader Progress).run p = .ok (p, p) := rfl

theorem accept_of_head (other : cs.head? ≠ some c) :
    (accept c).run { rest := cs } = .ok (false, { rest := cs }) := by
  change (ite (cs.head? = some c) _ _ : Reader Bool).run _ = _
  rw [if_neg other]
  rfl

theorem repeatLast_star (literal : ∀ c ∈ cs.head?, IsLiteral c) :
    (repeatLast 0 none (.plain n :: items)).run { rest := cs }
      = .ok (.repeated (.rep .greedy 0 none n) :: items, { rest := cs }) := by
  have other {c : Char} (mark : ¬IsLiteral c) : cs.head? ≠ some c := fun same => mark (literal c same)
  have greed : readGreed.run { rest := cs } = .ok (.greedy, { rest := cs }) := by
    rw [readGreed, run_bind_of_ok (accept_of_head (other (by decide))), if_neg Bool.false_ne_true,
      run_bind_of_ok (accept_of_head (other (by decide)))]
    rfl
  exact run_bind_of_ok greed

theorem readSequence_cons (literal : IsLiteral c) :
    (readSequence (fuel + 1) {} items).run { rest := c :: rest }
      = (readSequence fuel {} (literalItem c :: items)).run { rest } := by
  have inner : ¬(c = '|' || c = ')') = true := by
    intro ends
    obtain rfl | rfl : c = '|' ∨ c = ')' := by simpa using ends
    all_goals exact literal (by decide)
  rw [readSequence]
  change (ite _ _ _ : Reader Node).run _ = _
  rw [if_neg inner]
  simp only [Bool.false_and, Bool.false_eq_true, if_false]
  split
  all_goals first | rfl | exact absurd (by decide) literal

theorem readSequence_class : (readSequence (fuel + 1) {} items).run { rest := '[' :: rest }
    = (do readSequence fuel {} (.plain (← readClass {}) :: items) : Reader Node).run { rest } := by
  rw [readSequence]
  rfl

theorem readSequence_star : (readSequence (fuel + 1) {} items).run { rest := '*' :: rest }
    = (do readSequence fuel {} (← repeatLast 0 none items) : Reader Node).run { rest } := by
  rw [readSequence]
  rfl

theorem readClass_any : (readClass {}).run { rest := '\\' :: 'w' :: '|' :: '\\' :: 'W' :: ']' :: rest }
    = .ok (.one anyTest, { rest }) := by
  rfl

theorem readSequence_any (literal : ∀ c ∈ cs.head?, IsLiteral c) :
    (readSequence (fuel + 2) {} items).run { rest := anyText ++ cs }
      = (readSequence fuel {} (.repeated anyRun :: items)).run { rest := cs } := by
  simp only [anyText, List.cons_append, List.nil_append]
  rw [readSequence_class, run_bind_of_ok readClass_any, readSequence_star,
    run_bind_of_ok (repeatLast_star literal)]
  rfl

theorem readSequence_literal (literal : ∀ c ∈ cs, IsLiteral c) :
    (readSequence (fuel + cs.length) {} items).run { rest := cs ++ rest }
      = (readSequence fuel {} (cs.reverse.map literalItem ++ items)).run { rest } := by
  induction cs generalizing items with
  | nil => rfl
  | cons c cs ih =>
    obtain ⟨first, literal⟩ := List.forall_mem_cons.mp literal
    rw [List.length_cons, ← Nat.add_assoc, List.cons_append, readSequence_cons first, ih literal,
      List.reverse_cons, List.map_append, List.append_assoc]
    rfl

theorem readSequence_last (literal : ∀ c ∈ cs, IsLiteral c) :
    (readSequence (fuel + 1 + cs.length) {} items).run { rest := cs }
      = .ok (sequence (cs.reverse.map literalItem ++ items), { rest := [] }) := by
  have read : (readSequence (fuel + 1 + cs.length) {} items).run { rest := cs ++ [] }
      = (readSequence (fuel + 1) {} (cs.reverse.map literalItem ++ items)).run { rest := [] } :=
    readSequence_literal literal
  rw [List.append_nil, readSequence] at read
  exact read

/-- The items of the pattern, from the last to the first. -/
def spanItems (opening closing : List Char) : List Item :=
  closing.reverse.map literalItem ++ .repeated anyRun :: opening.reverse.map literalItem

theorem readAlternatives_nil {p : Progress} (read : (readSequence fuel {} []).run p = .ok (n, { rest := [] })) :
    (readAlternatives (fuel + 1) {}).run p = .ok (n, { rest := [] }) := by
  rw [readAlternatives, run_bind_of_ok read]
  rfl

theorem readLeadingSwitches_of_head (plain : cs.head? ≠ some '(') :
    (readLeadingSwitches (fuel + 1) {}).run { rest := cs } = .ok ({}, { rest := cs }) := by
  rw [readLeadingSwitches]
  simp only [Bool.false_eq_true, if_false]
  rw [run_bind_of_ok run_get]
  dsimp only
  split
  · exact absurd rfl plain
  · exact absurd rfl plain
  · rfl

/-- A literal text, any characters and a literal text are read as just that. -/
theorem ofText_span {opening closing : List Char} (literal : ∀ c ∈ opening, IsLiteral c)
    (literal' : ∀ c ∈ closing, IsLiteral c) :
    Regex.ofText (String.ofList (opening ++ anyText ++ closing))
      = .ok ⟨sequence (spanItems opening closing), 0, []⟩ := by
  let size := (opening ++ anyText ++ closing).length
  have long : opening.length + closing.length ≤ size := by
    simp only [size, List.length_append]
    omega
  have items : (readSequence (8 * size + 7) {} []).run { rest := opening ++ anyText ++ closing }
      = .ok (sequence (spanItems opening closing), { rest := [] }) := by
    obtain ⟨fuel, enough⟩ : ∃ fuel, 8 * size + 7 = fuel + 1 + closing.length + 2 + opening.length :=
      ⟨8 * size + 4 - opening.length - closing.length, by omega⟩
    rw [enough, List.append_assoc, readSequence_literal literal,
      readSequence_any fun c head => literal' c (List.mem_of_mem_head? head),
      readSequence_last literal', List.append_nil, spanItems]
  have plain : (opening ++ anyText ++ closing).head? ≠ some '(' := by
    cases opening with
    | nil => exact fun same => nomatch same
    | cons c opening =>
      intro same
      cases same
      exact absurd (literal '(' (.head _)) (by decide)
  have read : readPattern.run { rest := opening ++ anyText ++ closing }
      = .ok (sequence (spanItems opening closing), { rest := [] }) := by
    rw [readPattern, run_bind_of_ok run_get]
    dsimp only
    rw [run_bind_of_ok (readLeadingSwitches_of_head plain),
      run_bind_of_ok (readAlternatives_nil items)]
    rfl
  rw [Regex.ofText, String.toList_ofList, read]

end Reading

/-! ## Matching -/

/-- What items hand on, from the last to the first. -/
def runItems (k : Continuation) (items : List Item) : Continuation :=
  items.foldl (fun k item t => item.node.run t k) k

section Matching

variable {cs opening closing : List Char} {spans : Array (Option Span)} {k : Continuation}
  {t r : Thread} {i j : Nat}

theorem run_foldl (n : Node) (items : List Item) :
    (items.foldl (fun rest item => .seq item.node rest) n).run t k
      = runItems (fun t => n.run t k) items t := by
  induction items generalizing n with
  | nil => rfl
  | cons item items ih => exact ih (.seq item.node n)

theorem run_sequence (items : List Item) : (sequence items).run t k = runItems k items t := by
  cases items with
  | nil => rfl
  | cons item items => exact run_foldl item.node items

theorem forth_at {c : Char} {rest : List Char} (ahead : cs.drop i = c :: rest) :
    (Place.at cs i).forth = some (c, Place.at cs (i + 1)) := by
  have here : cs[i]? = some c := by
    rw [← List.head?_drop, ahead, List.head?_cons]
  have behind : cs.drop (i + 1) = rest := by
    rw [← List.drop_drop, ahead, List.drop_one, List.tail_cons]
  rw [Place.forth, Place.at]
  dsimp only
  rw [ahead, Place.at, behind, List.take_add_one, here, Option.toList_some, List.reverse_append]
  rfl

theorem back_at (within : i < cs.length) : (Place.at cs (i + 1)).back 1 = some (Place.at cs i) := by
  have here : cs[i]? = some cs[i] := List.getElem?_eq_getElem within
  rw [Place.at, Place.at, List.take_add_one, here, Option.toList_some, List.reverse_append,
    List.drop_eq_getElem_cons within]
  rfl

theorem holds_exact {c d : Char} : (CharTest.char .exact c).holds d = true ↔ c = d := by
  simp [CharTest.holds, Compare.forms, Compare.form, eq_comm]

/-- A literal hands on the place behind it where it stands, and nothing elsewhere. -/
theorem runItems_literal (x : List Char) :
    runItems k (x.reverse.map literalItem) ⟨Place.at cs i, spans⟩
      = if x <+: cs.drop i then k ⟨Place.at cs (i + x.length), spans⟩ else none := by
  induction x generalizing i with
  | nil => exact (if_pos List.nil_prefix).symm
  | cons c x ih =>
    have first : runItems k ((c :: x).reverse.map literalItem) ⟨Place.at cs i, spans⟩
        = (Node.one (.char .exact c)).run ⟨Place.at cs i, spans⟩
          (runItems k (x.reverse.map literalItem)) := by
      rw [List.reverse_cons, List.map_append, runItems, List.foldl_append]
      rfl
    rw [first, Node.run]
    cases ahead : cs.drop i with
    | nil =>
      have none : (Place.at cs i).forth = none := by
        rw [Place.forth, Place.at, ahead]
      rw [none, if_neg (by simp)]
    | cons d rest =>
      have behind : cs.drop (i + 1) = rest := by
        rw [← List.drop_drop, ahead, List.drop_one, List.tail_cons]
      rw [forth_at ahead]
      dsimp only
      rw [ih, behind, List.length_cons, Nat.add_assoc, Nat.add_comm 1]
      by_cases same : c = d
      · rw [if_pos (holds_exact.mpr same)]
        simp only [same, List.cons_prefix_cons, true_and]
      · rw [if_neg (mt holds_exact.mp same), if_neg fun both => same (List.cons_prefix_cons.mp both).1]

theorem run_all {test : Char → Bool} (all : ∀ c, test c = true) (before after : List Char)
    (offset count : Nat) : run test none before after offset count
      = (count + after.length, ⟨after.reverse ++ before, [], offset + after.length⟩) := by
  induction after generalizing before offset count with
  | nil => rfl
  | cons c after ih =>
    have go : ((none : Option Nat) != some count && test c) = true := by
      rw [all]
      rfl
    rw [run, if_pos go, ih, List.reverse_cons, List.append_assoc, List.length_cons, Nat.add_assoc,
      Nat.add_assoc, Nat.add_comm 1]
    rfl

/-- Any characters: to the end of the text, and back from there. -/
theorem run_anyRun (within : i ≤ cs.length) :
    anyRun.run ⟨Place.at cs i, spans⟩ k = giveBack spans k (cs.length - i) (Place.at cs cs.length) := by
  have reached : run anyTest.holds none (Place.at cs i).before (Place.at cs i).after i 0
      = (cs.length - i, Place.at cs cs.length) := by
    rw [run_all holds_anyTest, Nat.zero_add, Place.at, Place.at]
    dsimp only
    rw [← List.reverse_append, List.take_append_drop, List.length_drop, Nat.add_sub_cancel' within,
      List.take_length, List.drop_length]
  rw [anyRun, Node.run, repeatOne]
  dsimp only
  rw [show (Place.at cs i).offset = i from rfl, reached]
  rfl

theorem giveBack_none (count : Nat) (within : i + count ≤ cs.length)
    (refused : ∀ j, i ≤ j → j ≤ i + count → k ⟨Place.at cs j, spans⟩ = none) :
    giveBack spans k count (Place.at cs (i + count)) = none := by
  induction count with
  | zero => exact refused i (Nat.le_refl _) (Nat.le_refl _)
  | succ count ih =>
    have here := refused (i + (count + 1)) (Nat.le_add_right _ _) (Nat.le_refl _)
    rw [giveBack, here, ← Nat.add_assoc, back_at (by omega)]
    exact ih (by omega) fun j first last => refused j first (by omega)

theorem giveBack_last (count : Nat) (within : i + count ≤ cs.length) (first : i ≤ j)
    (last : j ≤ i + count) (taken : k ⟨Place.at cs j, spans⟩ = some r)
    (refused : ∀ j', j < j' → j' ≤ i + count → k ⟨Place.at cs j', spans⟩ = none) :
    giveBack spans k count (Place.at cs (i + count)) = some r := by
  induction count with
  | zero =>
    obtain rfl : j = i := Nat.le_antisymm last first
    exact taken
  | succ count ih =>
    obtain rfl | before := Nat.eq_or_lt_of_le last
    · rw [giveBack, taken]
    · have here := refused (i + (count + 1)) before (Nat.le_refl _)
      rw [giveBack, here, ← Nat.add_assoc, back_at (by omega)]
      exact ih (by omega) (by omega) fun j' after upTo => refused j' after (by omega)

theorem prefix_within {x : List Char} (here : x <+: cs.drop i) (given : x ≠ []) :
    i + x.length ≤ cs.length := by
  have short := here.length_le
  have long := List.length_pos_iff.mpr given
  rw [List.length_drop] at short
  omega

theorem run_span : (sequence (spanItems opening closing)).run ⟨Place.at cs i, spans⟩ k
    = if opening <+: cs.drop i then
        anyRun.run ⟨Place.at cs (i + opening.length), spans⟩
          (runItems k (closing.reverse.map literalItem))
      else none := by
  have split : runItems k (spanItems opening closing) = runItems (fun t => anyRun.run t
      (runItems k (closing.reverse.map literalItem))) (opening.reverse.map literalItem) := by
    rw [spanItems, runItems, List.foldl_append]
    rfl
  rw [run_sequence, split, runItems_literal]

/-- Any characters before a literal end where it stands last. -/
theorem run_anyRun_last (given : closing ≠ []) (behind : i ≤ j) (ends : closing <+: cs.drop j)
    (last : ∀ j', j < j' → ¬closing <+: cs.drop j') :
    anyRun.run ⟨Place.at cs i, spans⟩ (runItems some (closing.reverse.map literalItem))
      = some ⟨Place.at cs (j + closing.length), spans⟩ := by
  have within := prefix_within ends given
  have whole : i + (cs.length - i) = cs.length := by omega
  have taken : runItems some (closing.reverse.map literalItem) ⟨Place.at cs j, spans⟩
      = some ⟨Place.at cs (j + closing.length), spans⟩ := by
    rw [runItems_literal, if_pos ends]
  have went := giveBack_last (cs.length - i) (Nat.le_of_eq whole) behind (by omega) taken
    fun j' after _ => by rw [runItems_literal, if_neg (last j' after)]
  rw [whole] at went
  rw [run_anyRun (by omega), went]

theorem run_anyRun_none (within : i ≤ cs.length) (none_ends : ∀ j, i ≤ j → ¬closing <+: cs.drop j) :
    anyRun.run ⟨Place.at cs i, spans⟩ (runItems k (closing.reverse.map literalItem)) = none := by
  have whole : i + (cs.length - i) = cs.length := by omega
  have refused (j : Nat) (behind : i ≤ j) (_ : j ≤ i + (cs.length - i)) :
      runItems k (closing.reverse.map literalItem) ⟨Place.at cs j, spans⟩ = none := by
    rw [runItems_literal, if_neg (none_ends j behind)]
  have went := giveBack_none (cs.length - i) (Nat.le_of_eq whole) refused
  rw [whole] at went
  rw [run_anyRun within, went]

/-- The expression of a literal start, any characters and a literal end. -/
def spanRegex (opening closing : List Char) : Regex :=
  ⟨sequence (spanItems opening closing), 0, []⟩

theorem matchAt_eq : (spanRegex opening closing).matchAt false (Place.at cs i)
    = ((sequence (spanItems opening closing)).run ⟨Place.at cs i, #[]⟩ some).map
        fun t => ⟨(i, t.place.offset), t.spans⟩ := by
  unfold Regex.matchAt
  have final : (fun t : Thread =>
      if (false && t.place.offset == (Place.at cs i).offset) = true then none else some t) = some := rfl
  dsimp only [spanRegex, Array.replicate_zero]
  rw [final]
  cases (sequence (spanItems opening closing)).run ⟨Place.at cs i, #[]⟩ some <;> rfl

theorem matchAt_span (given : closing ≠ []) (starts : opening <+: cs.drop i)
    (behind : i + opening.length ≤ j) (ends : closing <+: cs.drop j)
    (last : ∀ j', j < j' → ¬closing <+: cs.drop j') :
    (spanRegex opening closing).matchAt false (Place.at cs i)
      = some ⟨(i, j + closing.length), #[]⟩ := by
  rw [matchAt_eq, run_span, if_pos starts, run_anyRun_last given behind ends last]
  rfl

theorem matchAt_none (given : opening ≠ [])
    (apart : opening <+: cs.drop i → ∀ j, i + opening.length ≤ j → ¬closing <+: cs.drop j) :
    (spanRegex opening closing).matchAt false (Place.at cs i) = none := by
  rw [matchAt_eq, run_span]
  split
  · next starts =>
    rw [run_anyRun_none (prefix_within starts given) (apart starts)]
    rfl
  · rfl

theorem searchFrom_at (r : Regex) (cs : List Char) (i : Nat) :
    r.searchFrom false (Place.at cs i).before i (Place.at cs i).after
      = (r.matchAt false (Place.at cs i)).or (if i < cs.length then
          r.searchFrom false (Place.at cs (i + 1)).before (i + 1) (Place.at cs (i + 1)).after
        else none) := by
  cases ahead : cs.drop i with
  | nil =>
    have beyond : ¬i < cs.length := Nat.not_lt.mpr (List.drop_eq_nil_iff.mp ahead)
    rw [if_neg beyond, Option.or_none, Place.at, ahead, Regex.searchFrom]
  | cons c rest =>
    have within : i < cs.length := by
      have size := congrArg List.length ahead
      rw [List.length_drop, List.length_cons] at size
      omega
    have here : Place.at cs i = ⟨(cs.take i).reverse, c :: rest, i⟩ := by
      rw [Place.at, ahead]
    have next : Place.at cs (i + 1) = ⟨c :: (cs.take i).reverse, rest, i + 1⟩ := by
      have moved := forth_at ahead
      rw [here] at moved
      exact (Prod.ext_iff.mp (Option.some.inj moved)).2.symm
    rw [if_pos within, here, next, Regex.searchFrom]
    cases r.matchAt false ⟨(cs.take i).reverse, c :: rest, i⟩ <;> rfl

theorem searchFrom_first {r : Regex} {m : Match} (le : i ≤ j) (within : j ≤ cs.length)
    (found : r.matchAt false (Place.at cs j) = some m)
    (first : ∀ i' < j, r.matchAt false (Place.at cs i') = none) :
    r.searchFrom false (Place.at cs i).before i (Place.at cs i).after = some m := by
  induction le using Nat.decreasingInduction with
  | self => rw [searchFrom_at, found, Option.some_or]
  | of_succ i below ih =>
    rw [searchFrom_at, first i below, Option.none_or, if_pos (by omega)]
    exact ih

theorem searchFrom_none {r : Regex} (le : i ≤ cs.length)
    (none_found : ∀ i', i ≤ i' → r.matchAt false (Place.at cs i') = none) :
    r.searchFrom false (Place.at cs i).before i (Place.at cs i).after = none := by
  induction le using Nat.decreasingInduction with
  | self => rw [searchFrom_at, none_found _ (Nat.le_refl _), Option.none_or, if_neg (Nat.lt_irrefl _)]
  | of_succ i below ih =>
    rw [searchFrom_at, none_found i (Nat.le_refl _), Option.none_or, if_pos below]
    exact ih fun i' behind => none_found i' (Nat.le_of_succ_le behind)

end Matching

/-! ## Removing -/

/-- The first place of the literal start and the last place of the literal end, which is behind it. -/
structure IsSpan (opening closing cs : List Char) (i j : Nat) : Prop where
  starts : opening <+: cs.drop i
  first : ∀ i' < i, ¬opening <+: cs.drop i'
  behind : i + opening.length ≤ j
  ends : closing <+: cs.drop j
  last : ∀ j', j < j' → ¬closing <+: cs.drop j'

section Removing

variable {opening closing cs : List Char} {i j : Nat}

theorem matchesOf_span (given : opening ≠ []) (given' : closing ≠ [])
    (span : IsSpan opening closing cs i j) :
    (spanRegex opening closing).matchesOf cs = [⟨(i, j + closing.length), #[]⟩] := by
  have within := prefix_within span.ends given'
  have behind := span.behind
  have long := List.length_pos_iff.mpr given
  have found := matchAt_span given' span.starts span.behind span.ends span.last
  have searched := searchFrom_first (i := 0) (Nat.zero_le i) (by omega) found fun i' before =>
    matchAt_none given fun starts => absurd starts (span.first i' before)
  have rest := searchFrom_none (r := spanRegex opening closing) within fun i' behind =>
    matchAt_none given fun _ j' after => span.last j' (by omega)
  have moved : (i == j + closing.length) = false := by
    rw [beq_eq_false_iff_ne]
    omega
  have only (fuel : Nat) : (spanRegex opening closing).matchesFrom cs (fuel + 2) false 0
      = [⟨(i, j + closing.length), #[]⟩] := by
    rw [Regex.matchesFrom, searched]
    dsimp only
    rw [moved, Regex.matchesFrom, rest]
  exact only (2 * cs.length)

theorem matchesOf_none (given : opening ≠ [])
    (apart : ∀ i j, opening <+: cs.drop i → i + opening.length ≤ j → ¬closing <+: cs.drop j) :
    (spanRegex opening closing).matchesOf cs = [] := by
  have rest := searchFrom_none (r := spanRegex opening closing) (Nat.zero_le cs.length) fun i _ =>
    matchAt_none given fun starts j => apart i j starts
  have none_found (fuel : Nat) :
      (spanRegex opening closing).matchesFrom cs (fuel + 1) false 0 = [] := by
    rw [Regex.matchesFrom, rest]
  exact none_found (2 * cs.length + 1)

section Literals

variable (literal : ∀ c ∈ opening, IsLiteral c) (literal' : ∀ c ∈ closing, IsLiteral c)

include literal literal'

theorem replacePattern_literals : replacePattern (String.ofList (opening ++ anyText ++ closing)) ""
      (String.ofList cs)
    = .ok (String.ofList ((spanRegex opening closing).substitute (fun _ => []) cs)) := by
  rw [replacePattern, ofText_span literal literal', String.toList_ofList]
  rfl

/-- Replaced by nothing, a literal start, any characters and a literal end take away all from the first
place of the start to the last place of the end. -/
theorem replacePattern_span (given : opening ≠ []) (given' : closing ≠ [])
    (span : IsSpan opening closing cs i j) :
    replacePattern (String.ofList (opening ++ anyText ++ closing)) "" (String.ofList cs)
      = .ok (String.ofList (cs.take i ++ cs.drop (j + closing.length))) := by
  rw [replacePattern_literals literal literal', Regex.substitute, matchesOf_span given given' span,
    substituteFrom, substituteFrom, List.append_nil, part]
  rfl

theorem replacePattern_none (given : opening ≠ [])
    (apart : ∀ i j, opening <+: cs.drop i → i + opening.length ≤ j → ¬closing <+: cs.drop j) :
    replacePattern (String.ofList (opening ++ anyText ++ closing)) "" (String.ofList cs)
      = .ok (String.ofList cs) := by
  rw [replacePattern_literals literal literal', Regex.substitute, matchesOf_none given apart]
  rfl

end Literals

end Removing

end MetadataIndex.Pattern
