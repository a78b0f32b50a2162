import Mathlib.Data.List.Forall2
import MetadataIndex.Xml.DocumentMarkup
import MetadataIndex.Xml.ListedName

/-!
# Documents of elements and texts

A document that is written with elements and texts is read as its markup. It is taken apart into tokens
piece by piece: tags by the names in them, and texts into runs of characters with a reference for each
mark. Nesting the tokens gives the elements back.
-/

set_option autoImplicit false

namespace MetadataIndex.Xml

/-! ## Names -/

/-- Every range lies in one of the wider ranges. -/
def Within (ranges wider : List (Nat × Nat)) : Prop :=
  ∀ range ∈ ranges, ∃ other ∈ wider, other.1 ≤ range.1 ∧ range.2 ≤ other.2

instance (ranges wider : List (Nat × Nat)) : Decidable (Within ranges wider) :=
  inferInstanceAs (Decidable (∀ range ∈ ranges, ∃ other ∈ wider, other.1 ≤ range.1 ∧ range.2 ≤ other.2))

theorem inRanges_iff {ranges : List (Nat × Nat)} {n : Nat} :
    inRanges ranges n = true ↔ ∃ range ∈ ranges, range.1 ≤ n ∧ n ≤ range.2 := by
  simp [inRanges]

theorem inRanges_append {ranges more : List (Nat × Nat)} {n : Nat} :
    inRanges (ranges ++ more) n = true ↔ inRanges ranges n = true ∨ inRanges more n = true := by
  rw [inRanges, List.any_append, Bool.or_eq_true]
  rfl

theorem Within.inRanges {ranges wider : List (Nat × Nat)} (within : Within ranges wider) {n : Nat}
    (inside : inRanges ranges n = true) : inRanges wider n = true := by
  obtain ⟨range, member, low, high⟩ := inRanges_iff.mp inside
  obtain ⟨other, member', low', high'⟩ := within range member
  exact inRanges_iff.mpr ⟨other, member', Nat.le_trans low' low, Nat.le_trans high high'⟩

theorem within_listedLetters : Within listedLetters nameStartRanges := by decide +kernel

theorem within_listedMarks : Within listedMarks (nameStartRanges ++ nameExtraRanges) := by
  decide +kernel

/-- No listed character is beyond the ideographs and syllables of the first plane. -/
theorem within_firstPlane : Within (listedLetters ++ listedMarks) [(128, 0xd7ff)] := by
  decide +kernel

variable {c : Char}

theorem isPlainNameStart_iff : isPlainNameStart c = true
    ↔ c.isAlpha = true ∨ c = '_' ∨ 128 ≤ c.toNat ∧ inRanges nameStartRanges c.toNat = true := by
  simp [isPlainNameStart, or_assoc]

theorem isListedStart_iff : isListedStart c = true
    ↔ c.isAlpha = true ∨ c = '_' ∨ c = ':' ∨ 128 ≤ c.toNat ∧ inRanges listedLetters c.toNat = true := by
  simp [isListedStart, or_assoc]

theorem isListedChar_iff : isListedChar c = true ↔ isListedStart c = true ∨ c.isDigit = true ∨ c = '-'
    ∨ c = '.' ∨ 128 ≤ c.toNat ∧ inRanges listedMarks c.toNat = true := by
  simp [isListedChar, or_assoc]

theorem isNameStart_of_listed (listed : isListedStart c = true) : isNameStart c = true := by
  rw [isNameStart, Bool.or_eq_true, beq_iff_eq, isPlainNameStart_iff]
  rcases isListedStart_iff.mp listed with letter | line | colon | ⟨high, inside⟩
  · exact .inr (.inl letter)
  · exact .inr (.inr (.inl line))
  · exact .inl colon
  · exact .inr (.inr (.inr ⟨high, within_listedLetters.inRanges inside⟩))

theorem isNameChar_of_listed (listed : isListedChar c = true) : isNameChar c = true := by
  have go_on (starts : isNameStart c = true) : isNameChar c = true := by
    rw [isNameStart, Bool.or_eq_true] at starts
    rcases starts with colon | starts
    · simp [isNameChar, colon]
    · simp [isNameChar, isPlainNameChar, starts]
  rcases isListedChar_iff.mp listed with starts | digit | line | dot | ⟨high, inside⟩
  · exact go_on (isNameStart_of_listed starts)
  · simp [isNameChar, isPlainNameChar, digit]
  · simp [isNameChar, isPlainNameChar, line]
  · simp [isNameChar, isPlainNameChar, dot]
  · rcases inRanges_append.mp (within_listedMarks.inRanges inside) with starts | mark
    · refine go_on ?_
      rw [isNameStart, Bool.or_eq_true, isPlainNameStart_iff]
      exact .inr (.inr (.inr ⟨high, starts⟩))
    · simp [isNameChar, isPlainNameChar, high, mark]

theorem bounds_of_letter (letter : c.isAlpha = true) : 65 ≤ c.toNat ∧ c.toNat ≤ 122 := by
  rcases Bool.or_eq_true_iff.mp letter with upper | lower
  · obtain ⟨low, high⟩ : 65 ≤ c.toNat ∧ c.toNat ≤ 90 := of_decide_eq_true upper
    omega
  · have both : (decide (c.val ≥ 'a'.val) && decide (c.val ≤ 'z'.val)) = true := lower
    rw [Bool.and_eq_true, decide_eq_true_eq, decide_eq_true_eq] at both
    obtain ⟨low, high⟩ : 97 ≤ c.toNat ∧ c.toNat ≤ 122 := both
    omega

theorem bounds_of_digit (digit : c.isDigit = true) : 48 ≤ c.toNat ∧ c.toNat ≤ 57 := by
  simp only [Char.isDigit, Bool.and_eq_true, decide_eq_true_eq] at digit
  exact digit

theorem bounds_of_listed (listed : isListedChar c = true) : 45 ≤ c.toNat ∧ c.toNat ≤ 0xd7ff := by
  have far (inside : inRanges (listedLetters ++ listedMarks) c.toNat = true) :
      45 ≤ c.toNat ∧ c.toNat ≤ 0xd7ff := by
    obtain ⟨range, member, low, high⟩ := inRanges_iff.mp (within_firstPlane.inRanges inside)
    obtain rfl := List.mem_singleton.mp member
    exact ⟨Nat.le_trans (by decide) low, high⟩
  rcases isListedChar_iff.mp listed with starts | digit | rfl | rfl | ⟨-, inside⟩
  · rcases isListedStart_iff.mp starts with letter | rfl | rfl | ⟨-, inside⟩
    · have bounds := bounds_of_letter letter
      omega
    · decide
    · decide
    · exact far (inRanges_append.mpr (.inl inside))
  · have bounds := bounds_of_digit digit
    omega
  · decide
  · decide
  · exact far (inRanges_append.mpr (.inr inside))

/-- The character stays as it is when a document is read. -/
def IsSteady (c : Char) : Prop := isChar c = true ∧ c ≠ '\r'

instance : DecidablePred IsSteady :=
  fun c => inferInstanceAs (Decidable (isChar c = true ∧ c ≠ '\r'))

theorem isSteady_of_listed (listed : isListedChar c = true) : IsSteady c := by
  have bounds := bounds_of_listed listed
  refine ⟨?_, ?_⟩
  · simp only [isChar, Bool.or_eq_true, Bool.and_eq_true, decide_eq_true_eq, bne_iff_ne, beq_iff_eq]
    omega
  · rintro rfl
    exact absurd bounds.1 (by decide)

theorem isListedName_iff {name : String} : isListedName name = true
    ↔ ∃ c cs, name.toList = c :: cs ∧ isListedStart c = true ∧ ∀ d ∈ cs, isListedChar d = true := by
  unfold isListedName
  cases name.toList with
  | nil => simp
  | cons c cs =>
    constructor
    · intro listed
      rw [Bool.and_eq_true, List.all_eq_true] at listed
      exact ⟨c, cs, rfl, listed⟩
    · rintro ⟨_, _, ⟨⟩, listed⟩
      rw [Bool.and_eq_true, List.all_eq_true]
      exact listed

variable {name : String}

/-- A name does not begin with a character that begins no name. -/
theorem ne_of_isListedStart {other : Char} (starts : isListedStart c = true)
    (begins : isListedStart other = false) : c ≠ other := by
  rintro rfl
  rw [starts] at begins
  cases begins

theorem isListedChar_of_mem (listed : isListedName name = true) (member : c ∈ name.toList) :
    isListedChar c = true := by
  obtain ⟨first, more, split, starts, each⟩ := isListedName_iff.mp listed
  rw [split, List.mem_cons] at member
  rcases member with rfl | member
  · exact isListedChar_iff.mpr (.inl starts)
  · exact each c member

/-- A name of listed characters is taken whole before what no name goes on with. -/
theorem takeName_append (listed : isListedName name = true) (stops : isNameChar c = false)
    (rest : List Char) : takeName (name.toList ++ c :: rest) = some (name, c :: rest) := by
  obtain ⟨first, more, split, starts, each⟩ := isListedName_iff.mp listed
  have names : ∀ d ∈ more, isNameChar d = true := fun d member => isNameChar_of_listed (each d member)
  have stops : ¬isNameChar c = true := by simp [stops]
  rw [split, List.cons_append, takeName, if_pos (isNameStart_of_listed starts),
    List.takeWhile_append_of_pos names, List.dropWhile_append_of_pos names,
    List.takeWhile_cons_of_neg stops, List.dropWhile_cons_of_neg stops, List.append_nil, ← split,
    String.ofList_toList]

theorem skipSpaces_name (listed : isListedName name = true) (rest : List Char) :
    skipSpaces (name.toList ++ rest) = name.toList ++ rest := by
  obtain ⟨first, more, split, starts, -⟩ := isListedName_iff.mp listed
  have bounds := bounds_of_listed (isListedChar_iff.mpr (.inl starts))
  have other : ¬isSpace first = true := by
    simp only [isSpace, Bool.or_eq_true, beq_iff_eq]
    rintro (((rfl | rfl) | rfl) | rfl)
    all_goals exact absurd bounds.1 (by decide)
  rw [split, List.cons_append, skipSpaces, List.dropWhile_cons_of_neg other]

/-! ## Texts -/

/-- A character that a text may not hold as it is. -/
def isMark (c : Char) : Bool :=
  c == '<' || c == '>' || c == '&'

/-- The characters that stand for a text: a mark is written as a reference, and any other character
that has a name may be. -/
inductive Spells : List Char → List Char → Prop where
  | nil : Spells [] []
  | plain {c : Char} {cs s : List Char} :
      isMark c = false → IsSteady c → Spells cs s → Spells (c :: cs) (c :: s)
  | named {name : String} {c : Char} {cs s : List Char} :
      (name, c) ∈ namedChars → Spells cs s → Spells ('&' :: (name.toList ++ ';' :: cs)) (c :: s)

theorem listed_of_namedChars (known : (name, c) ∈ namedChars) :
    isListedName name = true ∧ lookup? name namedChars = some c := by
  have all : ∀ entry ∈ namedChars,
      isListedName entry.1 = true ∧ lookup? entry.1 namedChars = some entry.2 := by decide +kernel
  exact all (name, c) known

theorem takeReference_named (known : (name, c) ∈ namedChars) (rest : List Char) :
    takeReference (name.toList ++ ';' :: rest) = some (.entity name, rest) := by
  obtain ⟨listed, -⟩ := listed_of_namedChars known
  have taken := takeName_append listed (show isNameChar ';' = false by decide) rest
  obtain ⟨first, more, split, starts, -⟩ := isListedName_iff.mp listed
  have number : first ≠ '#' := ne_of_isListedStart starts (by decide)
  rw [split, List.cons_append] at taken ⊢
  rw [takeReference, taken]
  · rfl
  · intro cs same
    exact absurd (List.cons.inj same).1 number
  · intro cs same
    exact absurd (List.cons.inj same).1 number

namespace Token

variable {d : Declarations} {rest : List Char}

theorem take_run {run : List Char} (given : run ≠ []) (plain : ∀ c ∈ run, isMark c = false)
    (stops : c = '<' ∨ c = '&') (rest : List Char) :
    take d (run ++ c :: rest) = some ([.chars (String.ofList run)], c :: rest) := by
  obtain ⟨first, more, rfl⟩ := List.exists_cons_of_ne_nil given
  have plains : ∀ e ∈ first :: more, (!(e == '<' || e == '&')) = true := by
    intro e member
    have other := plain e member
    simp only [isMark, Bool.or_eq_false_iff] at other
    simp [other]
  have stop : ¬(!(c == '<' || c == '&')) = true := by
    rcases stops with rfl | rfl
    · decide
    · decide
  have clear : Text.occursIn "]]>".toList (first :: more) = false := by
    refine Bool.eq_false_iff.mpr fun holds => ?_
    have member := (Text.occursIn_iff.mp holds).subset (show '>' ∈ "]]>".toList by decide)
    exact absurd (plain '>' member) (by decide)
  have other := plain first (.head _)
  have first_ne : first ≠ '<' ∧ first ≠ '&' := by
    constructor
    · rintro rfl
      exact absurd other (by decide)
    · rintro rfl
      exact absurd other (by decide)
  have text : (first :: more ++ c :: rest).takeWhile (fun e => !(e == '<' || e == '&'))
      = first :: more := by
    rw [List.takeWhile_append_of_pos plains, List.takeWhile_cons, if_neg stop, List.append_nil]
  have after : (first :: more ++ c :: rest).dropWhile (fun e => !(e == '<' || e == '&'))
      = c :: rest := by
    rw [List.dropWhile_append_of_pos plains, List.dropWhile_cons, if_neg stop]
  rw [List.cons_append] at text after ⊢
  rw [take]
  · simp only [text, after, clear, Bool.false_eq_true, if_false]
  all_goals simp [first_ne]

theorem take_reference (known : (name, c) ∈ namedChars) (rest : List Char) :
    take d ('&' :: (name.toList ++ ';' :: rest)) = some ([.section (String.singleton c)], rest) := by
  obtain ⟨-, found⟩ := listed_of_namedChars known
  rw [take, takeReference_named known]
  simp only [bind, Option.bind, found]
  rfl

theorem take_closing (listed : isListedName name = true) (rest : List Char) :
    take d ('<' :: '/' :: (name.toList ++ '>' :: rest)) = some ([.closing name], rest) := by
  rw [take, takeName_append listed (by decide)]
  rfl

/-- The tokens are taken from the front of a text one step after the other, up to what follows. -/
inductive Scans (d : Declarations) : List Char → List Token → List Char → Prop where
  | done {cs : List Char} : Scans d cs [] cs
  | next {cs mid rest : List Char} {tokens more : List Token} :
      take d cs = some (tokens, mid) → mid.length < cs.length → Scans d mid more rest →
      Scans d cs (tokens ++ more) rest

theorem Scans.append {cs mid : List Char} {tokens more : List Token} (first : Scans d cs tokens mid)
    (second : Scans d mid more rest) : Scans d cs (tokens ++ more) rest := by
  induction first with
  | done => exact second
  | next taken shorter _ ih =>
    rw [List.append_assoc]
    exact .next taken shorter (ih second)

theorem Scans.single {cs : List Char} {tokens : List Token} (taken : take d cs = some (tokens, rest))
    (shorter : rest.length < cs.length) : Scans d cs tokens rest := by
  have one := Scans.next taken shorter .done
  rwa [List.append_nil] at one

theorem Scans.takeAll {cs : List Char} {tokens : List Token} (scans : Scans d cs tokens [])
    {limit : Nat} (enough : cs.length ≤ limit) (done : List Token) :
    takeAll d limit done cs = some (tokens.reverse ++ done) := by
  generalize none : ([] : List Char) = rest at scans
  induction scans generalizing limit done with
  | done =>
    subst none
    cases limit with
    | zero => rfl
    | succ limit => rfl
  | @next cs mid rest tokens more taken shorter later ih =>
    cases cs with
    | nil => exact absurd shorter (Nat.not_lt_zero _)
    | cons c cs =>
      rw [List.length_cons] at enough shorter
      obtain ⟨limit, rfl⟩ : ∃ less, limit = less + 1 := ⟨limit - 1, by omega⟩
      rw [Token.takeAll, taken, List.reverse_append, List.append_assoc]
      · exact ih (by omega) _ none
      · exact List.cons_ne_nil c cs

theorem ofChars_of_scans {cs : List Char} {tokens : List Token} (scans : Scans d cs tokens []) :
    ofChars d cs = some tokens := by
  rw [ofChars, scans.takeAll (Nat.le_refl _), List.append_nil, Option.map_some, List.reverse_reverse]

/-- Tokens that hold nothing but the characters of a text. -/
inductive IsRun : List Token → List Char → Prop where
  | nil : IsRun [] []
  | next {token : Token} {part : String} {tokens : List Token} {s : List Char} :
      token = .chars part ∨ token = .section part → IsRun tokens s →
      IsRun (token :: tokens) (part.toList ++ s)

theorem exists_run_append {run cs s : List Char} {tokens : List Token}
    (plain : ∀ c ∈ run, isMark c = false)
    (stops : ∃ c more, cs = c :: more ∧ (c = '<' ∨ c = '&')) (scans : Scans d cs tokens rest)
    (read : IsRun tokens s) : ∃ tokens', Scans d (run ++ cs) tokens' rest ∧ IsRun tokens' (run ++ s) := by
  by_cases given : run = []
  · subst given
    exact ⟨tokens, scans, read⟩
  obtain ⟨c, more, rfl, stops⟩ := stops
  have shorter : (c :: more).length < (run ++ c :: more).length := by
    have := List.length_pos_iff.mpr given
    rw [List.length_append]
    omega
  refine ⟨_, .next (take_run given plain stops more) shorter scans, ?_⟩
  have whole := IsRun.next (.inl (Eq.refl (chars (String.ofList run)))) read
  rwa [String.toList_ofList] at whole

/-- A text that is spelled before a tag is taken as its characters. -/
theorem exists_run_of_spells {cs s : List Char} (spells : Spells cs s) (more : List Char) :
    ∃ tokens, Scans d (cs ++ '<' :: more) tokens ('<' :: more) ∧ IsRun tokens s := by
  -- What stands before the first mark is put off: it is one token together with what precedes it.
  have split : ∃ run cs' s' tokens, cs = run ++ cs' ∧ s = run ++ s' ∧ (∀ c ∈ run, isMark c = false)
      ∧ (∃ c after, cs' ++ '<' :: more = c :: after ∧ (c = '<' ∨ c = '&'))
      ∧ Scans d (cs' ++ '<' :: more) tokens ('<' :: more) ∧ IsRun tokens s' := by
    induction spells with
    | nil => exact ⟨[], [], [], [], rfl, rfl, by simp, ⟨'<', more, rfl, .inl rfl⟩, .done, .nil⟩
    | @plain c cs s clear steady _ ih =>
      obtain ⟨run, cs', s', tokens, rfl, rfl, plain, stops, scans, read⟩ := ih
      refine ⟨c :: run, cs', s', tokens, rfl, rfl, ?_, stops, scans, read⟩
      exact List.forall_mem_cons.mpr ⟨clear, plain⟩
    | @named name c cs s known _ ih =>
      obtain ⟨run, cs', s', tokens, rfl, rfl, plain, stops, scans, read⟩ := ih
      obtain ⟨tokens', scans', read'⟩ := exists_run_append plain stops scans read
      rw [← List.append_assoc] at scans'
      refine ⟨[], _, _, .section (String.singleton c) :: tokens', rfl, rfl, by simp,
        ⟨'&', _, rfl, .inr rfl⟩, ?_, ?_⟩
      · rw [List.cons_append, List.append_assoc, List.cons_append]
        refine .next (take_reference known _) ?_ scans'
        simp only [List.length_cons, List.length_append]
        omega
      · have whole := IsRun.next (.inr (Eq.refl (Token.section (String.singleton c)))) read'
        rwa [String.toList_singleton] at whole
  obtain ⟨run, cs', s', tokens, rfl, rfl, plain, stops, scans, read⟩ := split
  rw [List.append_assoc]
  exact exists_run_append plain stops scans read

end Token

/-! ## Attributes -/

/-- What is read in place of a character. -/
inductive StandsFor : Piece → Char → Prop where
  | char {c : Char} : isMark c = false → StandsFor (.char c) c
  | entity {name : String} {c : Char} : (name, c) ∈ namedChars → StandsFor (.entity name) c

theorem piecesOf_spelled {cs s : List Char} (spells : Spells cs s) :
    ∃ pieces, piecesOf cs = some pieces ∧ List.Forall₂ StandsFor pieces s := by
  suffices all : ∃ pieces, (∀ limit, cs.length ≤ limit → piecesUpTo limit cs = some pieces)
      ∧ List.Forall₂ StandsFor pieces s by
    obtain ⟨pieces, read, each⟩ := all
    exact ⟨pieces, read cs.length (Nat.le_refl _), each⟩
  induction spells with
  | nil =>
    refine ⟨[], fun limit _ => ?_, .nil⟩
    rw [piecesUpTo]
  | @plain c cs s clear steady _ ih =>
    obtain ⟨pieces, read, each⟩ := ih
    refine ⟨.char c :: pieces, ?_, .cons (.char clear) each⟩
    intro limit enough
    rw [List.length_cons] at enough
    obtain ⟨limit, rfl⟩ : ∃ less, limit = less + 1 := ⟨limit - 1, by omega⟩
    rw [piecesUpTo, read limit (by omega)]
    · rfl
    · rintro rfl
      exact absurd clear (by decide)
  | @named name c cs s known _ ih =>
    obtain ⟨pieces, read, each⟩ := ih
    refine ⟨.entity name :: pieces, ?_, .cons (.entity known) each⟩
    intro limit enough
    simp only [List.length_cons, List.length_append] at enough
    obtain ⟨limit, rfl⟩ : ∃ less, limit = less + 1 := ⟨limit - 1, by omega⟩
    rw [piecesUpTo, takeReference_named known]
    simp only [bind, Option.bind, read limit (by omega)]
    rfl

theorem mapM_of_forall₂ {α β : Type} {f : α → Option β} {l : List α} {r : List β}
    (each : List.Forall₂ (fun a b => f a = some b) l r) : l.mapM f = some r := by
  induction each with
  | nil => rfl
  | cons first _ ih =>
    rw [List.mapM_cons, first, ih]
    rfl

/-- The value of an attribute is what is spelled between its quotes. -/
theorem attributeValue_spelled {value : String} {cs : List Char} (element name : String)
    (spells : Spells cs value.toList) (blanks : ∀ c ∈ value.toList, isSpace c = true → c = ' ') :
    attributeValue {} element name cs = some value := by
  obtain ⟨pieces, read, each⟩ := piecesOf_spelled spells
  have expanded : expandValue {} entityDepth cs = some value.toList := by
    rw [entityDepth, expandValue, read]
    simp only [bind, Option.bind]
    rw [mapM_of_forall₂ (r := value.toList.map fun c => [if isSpace c = true then ' ' else c])]
    · have kept : value.toList.map (fun c => [if isSpace c = true then ' ' else c])
          = value.toList.map ([·]) := by
        refine List.map_congr_left fun c member => ?_
        split
        case isTrue space => rw [blanks c member space]
        case isFalse => rfl
      have whole : (value.toList.map ([·])).flatten = value.toList := by
        rw [← List.flatMap_def, List.flatMap_singleton']
      rw [kept]
      exact congrArg some whole
    · rw [List.forall₂_map_right_iff]
      refine each.imp fun piece c stands => ?_
      cases stands with
      | char clear =>
        refine if_neg fun less => ?_
        rw [beq_iff_eq.mp less] at clear
        exact absurd clear (by decide)
      | @entity name c known =>
        have other : ¬isSpace c = true := by
          have all : ∀ entry ∈ namedChars, ¬isSpace entry.2 = true := by decide
          exact all (name, c) known
        simp only [(listed_of_namedChars known).2, if_neg other]
  rw [attributeValue, expanded]
  exact congrArg some String.ofList_toList

/-- Attributes as they stand in a tag. -/
inductive WritesAttributes : List Char → List (String × String) → Prop where
  | nil : WritesAttributes [] []
  | cons {name value : String} {spelled cs : List Char} {more : List (String × String)} :
      isListedName name = true → Spells spelled value.toList → '"' ∉ spelled →
      (∀ c ∈ value.toList, isSpace c = true → c = ' ') → WritesAttributes cs more →
      WritesAttributes (' ' :: (name.toList ++ '=' :: '"' :: (spelled ++ '"' :: cs)))
        ((name, value) :: more)

variable {attributes : List (String × String)} {cs : List Char}

theorem WritesAttributes.length_le (writes : WritesAttributes cs attributes) :
    attributes.length ≤ cs.length := by
  induction writes with
  | nil => exact Nat.le_refl 0
  | cons _ _ _ _ _ ih =>
    simp only [List.length_cons, List.length_append]
    omega

theorem bne_of_not_mem {quote : Char} (absent : quote ∉ cs) : ∀ c ∈ cs, (c != quote) = true := by
  intro c member
  rw [bne_iff_ne]
  rintro rfl
  exact absent member

theorem takeQuoted_spelled {spelled : List Char} (unquoted : '"' ∉ spelled) (rest : List Char) :
    takeQuoted ('"' :: (spelled ++ '"' :: rest)) = some (spelled, rest) := by
  have others := bne_of_not_mem unquoted
  rw [takeQuoted, List.dropWhile_append_of_pos others, List.takeWhile_append_of_pos others]
  simp

theorem takeAttributes_written (element : String) (writes : WritesAttributes cs attributes)
    (rest : List Char) {limit : Nat} (enough : attributes.length < limit) :
    Token.takeAttributes {} element limit (cs ++ '>' :: rest) = some (attributes, '>' :: rest) := by
  induction writes generalizing limit with
  | nil =>
    obtain ⟨limit, rfl⟩ : ∃ less, limit = less + 1 := ⟨limit - 1, by omega⟩
    rfl
  | @cons name value spelled cs more listed spells unquoted blanks _ ih =>
    rw [List.length_cons] at enough
    obtain ⟨limit, rfl⟩ : ∃ less, limit = less + 1 := ⟨limit - 1, by omega⟩
    have taken := takeName_append listed (show isNameChar '=' = false by decide)
      ('"' :: (spelled ++ '"' :: (cs ++ '>' :: rest)))
    have value_read := attributeValue_spelled element name spells blanks
    have quoted := takeQuoted_spelled unquoted (cs ++ '>' :: rest)
    have later := ih (show more.length < limit by omega)
    have front : requireSpaces
          (' ' :: (name.toList ++ '=' :: '"' :: (spelled ++ '"' :: (cs ++ '>' :: rest))))
        = some (name.toList ++ '=' :: '"' :: (spelled ++ '"' :: (cs ++ '>' :: rest))) :=
      congrArg some (skipSpaces_name listed _)
    have whole : ' ' :: (name.toList ++ '=' :: '"' :: (spelled ++ '"' :: cs)) ++ '>' :: rest
        = ' ' :: (name.toList ++ '=' :: '"' :: (spelled ++ '"' :: (cs ++ '>' :: rest))) := by simp
    rw [whole, Token.takeAttributes, front]
    simp only [bind, Option.bind, taken]
    have equals : expectEquals ('=' :: '"' :: (spelled ++ '"' :: (cs ++ '>' :: rest)))
        = some ('"' :: (spelled ++ '"' :: (cs ++ '>' :: rest))) := rfl
    simp only [equals, quoted, later, value_read]
    rfl

theorem areDistinct_iff : Token.areDistinct attributes = true ↔ (attributes.map (·.1)).Nodup := by
  induction attributes with
  | nil => simp [Token.areDistinct]
  | cons a more ih =>
    rw [Token.areDistinct, Bool.and_eq_true, Option.isNone_iff_eq_none, lookup?_eq_none_iff, ih,
      List.map_cons, List.nodup_cons]

/-- A tag is taken with its attributes. -/
theorem Token.take_opening (listed : isListedName name = true) (writes : WritesAttributes cs attributes)
    (distinct : (attributes.map (·.1)).Nodup) (rest : List Char) :
    Token.take {} ('<' :: (name.toList ++ (cs ++ '>' :: rest)))
      = some ([.opening name attributes], rest) := by
  have opened : takeOpening {} (name.toList ++ (cs ++ '>' :: rest))
      = some ([.opening name attributes], rest) := by
    obtain ⟨c, more, split, stops⟩ :
        ∃ c more, cs ++ '>' :: rest = c :: more ∧ isNameChar c = false := by
      cases writes with
      | nil => exact ⟨'>', rest, rfl, by decide⟩
      | cons => exact ⟨' ', _, rfl, by decide⟩
    have taken := takeName_append listed stops more
    rw [← split] at taken
    have enough : attributes.length < (cs ++ '>' :: rest).length.succ := by
      have := writes.length_le
      rw [List.length_append]
      omega
    have read := takeAttributes_written name writes rest enough
    simp only [takeOpening, bind, Option.bind, taken, read, areDistinct_iff.mpr distinct]
    exact congrArg (fun all => some ([opening name all], rest)) (List.append_nil attributes)
  obtain ⟨first, more, split, starts, -⟩ := isListedName_iff.mp listed
  have element : first ≠ '/' ∧ first ≠ '!' ∧ first ≠ '?' :=
    ⟨ne_of_isListedStart starts (by decide), ne_of_isListedStart starts (by decide),
      ne_of_isListedStart starts (by decide)⟩
  rw [split, List.cons_append] at opened ⊢
  rw [take]
  · exact opened
  all_goals simp [element]

/-! ## Documents -/

/-- A text as the content of an element. -/
inductive Writes : List Char → List Markup → Prop where
  | nil : Writes [] []
  | text {s : String} {spelled cs : List Char} {content : List Markup} :
      s ≠ "" → Spells spelled s.toList → (∀ t more, content ≠ .text t :: more) → Writes cs content →
      Writes (spelled ++ cs) (.text s :: content)
  | element {name : String} {attributes : List (String × String)} {tag inner cs : List Char}
      {content more : List Markup} :
      isListedName name = true → WritesAttributes tag attributes → (attributes.map (·.1)).Nodup →
      Writes inner content → Writes cs more →
      Writes ('<' :: (name.toList ++ (tag ++ '>' :: (inner ++ '<' :: '/' :: (name.toList ++ '>' :: cs)))))
        (.element name attributes content :: more)

namespace Nesting

variable {resolve : String → Option String} {tokens : List Token} {s : List Char}
  {above : List OpenElement} {before content : List Markup}

theorem take_of_run {token : Token} {part : String} (run : token = .chars part ∨ token = .section part)
    (n : Nesting) : take resolve n token = some (n.pushChars part) := by
  rcases run with rfl | rfl
  · rfl
  · rfl

theorem foldlM_run_text (run : Token.IsRun tokens s) (t : String) :
    tokens.foldlM (take resolve) ⟨above, .text t :: before⟩
      = some ⟨above, .text (t ++ String.ofList s) :: before⟩ := by
  induction run generalizing t with
  | nil =>
    rw [show String.ofList [] = "" from rfl, String.append_empty]
    rfl
  | @next token part tokens s run _ ih =>
    rw [List.foldlM_cons, take_of_run run, String.ofList_append, String.ofList_toList,
      ← String.append_assoc]
    exact ih (t ++ part)

/-- Characters are one text where no text stands before them. -/
theorem foldlM_run (run : Token.IsRun tokens s) (given : s ≠ [])
    (fresh : ∀ t more, before ≠ .text t :: more) :
    tokens.foldlM (take resolve) ⟨above, before⟩ = some ⟨above, .text (String.ofList s) :: before⟩ := by
  cases run with
  | nil => exact absurd rfl given
  | @next token part tokens s run later =>
    have first : (⟨above, before⟩ : Nesting).pushChars part = ⟨above, .text part :: before⟩ := by
      unfold pushChars
      split
      · next same => exact absurd same (fresh _ _)
      · rfl
    rw [List.foldlM_cons, take_of_run run, first, String.ofList_append, String.ofList_toList]
    exact foldlM_run_text later part

end Nesting

/-- Tokens in an element put content behind what stands before them, and stay inside of the element. -/
structure Pushes (tokens : List Token) (content : List Markup) : Prop where
  takes : ∀ (resolve : String → Option String) (above : List OpenElement) (before : List Markup),
    (∀ t more u earlier, content = .text t :: more → before ≠ .text u :: earlier) →
    tokens.foldlM (Nesting.take resolve) ⟨above, before⟩ = some ⟨above, content.reverse ++ before⟩
  stays : ∀ depth more, DocumentMarkup.hasBareSeparators (depth + 1) (tokens ++ more)
    = DocumentMarkup.hasBareSeparators (depth + 1) more

theorem stays_of_run {tokens : List Token} {s : List Char} (run : Token.IsRun tokens s) (depth : Nat)
    (more : List Token) : DocumentMarkup.hasBareSeparators (depth + 1) (tokens ++ more)
      = DocumentMarkup.hasBareSeparators (depth + 1) more := by
  induction run with
  | nil => rfl
  | next run _ ih =>
    rcases run with rfl | rfl
    · rw [List.cons_append, DocumentMarkup.hasBareSeparators]
      · exact ih
      all_goals simp
    · rw [List.cons_append, DocumentMarkup.hasBareSeparators]
      · exact ih
      all_goals simp

theorem Pushes.text {tokens : List Token} {s : String} (run : Token.IsRun tokens s.toList)
    (given : s ≠ "") : Pushes tokens [.text s] where
  takes := by
    intro resolve above before fresh
    have read : tokens.foldlM (Nesting.take resolve) ⟨above, before⟩ = some ⟨above, _ :: before⟩ :=
      Nesting.foldlM_run run (by simpa using given) fun u earlier => fresh s [] u earlier rfl
    rwa [String.ofList_toList] at read
  stays := stays_of_run run

theorem Pushes.element {tokens : List Token} {content : List Markup} (inner : Pushes tokens content)
    (name : String) (attributes : List (String × String)) :
    Pushes (.opening name attributes :: (tokens ++ [.closing name]))
      [.element name attributes content] where
  takes := by
    intro resolve above before _
    have read := inner.takes resolve (⟨name, attributes, before⟩ :: above) [] (by simp)
    rw [List.append_nil] at read
    rw [List.foldlM_cons]
    change (tokens ++ [Token.closing name]).foldlM _
      (⟨⟨name, attributes, before⟩ :: above, []⟩ : Nesting) = _
    rw [List.foldlM_append, read]
    simp [Nesting.take]
  stays := by
    intro depth more
    rw [List.cons_append, DocumentMarkup.hasBareSeparators, List.append_assoc, inner.stays]
    rfl

theorem Pushes.cons {tokens more : List Token} {m : Markup} {later : List Markup}
    (first : Pushes tokens [m]) (second : Pushes more later)
    (apart : ∀ t rest u, later = .text t :: rest → m ≠ .text u) : Pushes (tokens ++ more) (m :: later) where
  takes := by
    intro resolve above before fresh
    have fresh_first : ∀ t rest u earlier, [m] = .text t :: rest → before ≠ .text u :: earlier := by
      intro t rest u earlier same
      exact fresh t later u earlier (by rw [(List.cons.inj same).1])
    have fresh_second : ∀ t rest u earlier,
        later = .text t :: rest → m :: before ≠ .text u :: earlier := by
      intro t rest u earlier same whole
      exact apart t rest u same (List.cons.inj whole).1
    have whole : (m :: later).reverse ++ before = later.reverse ++ m :: before := by simp
    rw [List.foldlM_append, first.takes resolve above before fresh_first, whole]
    exact second.takes resolve above (m :: before) fresh_second
  stays := by
    intro depth more'
    rw [List.append_assoc, first.stays, second.stays]

theorem Writes.begins {cs : List Char} {content : List Markup} (writes : Writes cs content)
    (apart : ∀ t more, content ≠ .text t :: more) (after : List Char) :
    ∃ more, cs ++ '<' :: after = '<' :: more := by
  cases writes with
  | nil => exact ⟨after, rfl⟩
  | text => exact absurd rfl (apart _ _)
  | element => exact ⟨_, rfl⟩

/-- An element is taken as its tags with the tokens of its content between them. -/
theorem exists_tokens_element {tag inner : List Char} {attributes : List (String × String)}
    {content : List Markup} (listed : isListedName name = true) (writes : WritesAttributes tag attributes)
    (distinct : (attributes.map (·.1)).Nodup)
    (inside : ∀ after, ∃ tokens, Token.Scans {} (inner ++ '<' :: after) tokens ('<' :: after)
      ∧ Pushes tokens content) (rest : List Char) :
    ∃ tokens, Token.Scans {}
        ('<' :: (name.toList ++ (tag ++ '>' :: (inner ++ '<' :: '/' :: (name.toList ++ '>' :: rest)))))
        (.opening name attributes :: (tokens ++ [.closing name])) rest ∧ Pushes tokens content := by
  obtain ⟨tokens, scans, pushes⟩ := inside ('/' :: (name.toList ++ '>' :: rest))
  refine ⟨tokens, ?_, pushes⟩
  have closes : Token.Scans {} ('<' :: '/' :: (name.toList ++ '>' :: rest)) [.closing name] rest := by
    refine .single (Token.take_closing listed rest) ?_
    simp only [List.length_cons, List.length_append]
    omega
  refine .next (Token.take_opening listed writes distinct _) ?_ (scans.append closes)
  simp only [List.length_cons, List.length_append]
  omega

/-- Content that is written is taken before the tag that ends it. -/
theorem Writes.exists_tokens {cs : List Char} {content : List Markup} (writes : Writes cs content)
    (after : List Char) :
    ∃ tokens, Token.Scans {} (cs ++ '<' :: after) tokens ('<' :: after) ∧ Pushes tokens content := by
  induction writes generalizing after with
  | nil => exact ⟨[], .done, ⟨fun _ _ _ _ => rfl, fun _ _ => rfl⟩⟩
  | @text s spelled cs content given spells apart later ih =>
    obtain ⟨tokens, scans, pushes⟩ := ih after
    obtain ⟨more, begins⟩ := later.begins apart after
    obtain ⟨run, spelled_scans, read⟩ := Token.exists_run_of_spells spells more
    rw [← begins, ← List.append_assoc] at spelled_scans
    refine ⟨run ++ tokens, spelled_scans.append scans, (Pushes.text read given).cons pushes ?_⟩
    intro t rest u same
    exact absurd same (apart t rest)
  | @element name attributes tag inner cs content more listed writes distinct _ _ inside beside =>
    obtain ⟨tokens, scans, pushes⟩ := beside after
    obtain ⟨between, element_scans, content_pushes⟩ :=
      exists_tokens_element listed writes distinct inside (cs ++ '<' :: after)
    have whole := element_scans.append scans
    refine ⟨_, ?_, (content_pushes.element name attributes).cons pushes ?_⟩
    · simpa using whole
    · intro t rest u _ same
      cases same

section Characters

variable {cs : List Char}

theorem steady_of_name (listed : isListedName name = true) : ∀ c ∈ name.toList, IsSteady c :=
  fun _ member => isSteady_of_listed (isListedChar_of_mem listed member)

theorem Spells.steady {s : List Char} (spells : Spells cs s) : ∀ c ∈ cs, IsSteady c := by
  induction spells with
  | nil => simp
  | plain _ steady _ ih => exact List.forall_mem_cons.mpr ⟨steady, ih⟩
  | @named name c cs s known _ ih =>
    have listed := (listed_of_namedChars known).1
    simp only [List.forall_mem_cons, List.forall_mem_append]
    exact ⟨by decide, steady_of_name listed, by decide, ih⟩

theorem WritesAttributes.steady {attributes : List (String × String)}
    (writes : WritesAttributes cs attributes) : ∀ c ∈ cs, IsSteady c := by
  induction writes with
  | nil => simp
  | cons listed spells _ _ _ ih =>
    simp only [List.forall_mem_cons, List.forall_mem_append]
    exact ⟨by decide, steady_of_name listed, by decide, by decide, spells.steady, by decide, ih⟩

theorem not_mem_name (listed : isListedName name = true) : '<' ∉ name.toList :=
  fun member => absurd (isListedChar_of_mem listed member) (by decide)

theorem Spells.not_mem {s : List Char} (spells : Spells cs s) : '<' ∉ cs := by
  induction spells with
  | nil => simp
  | plain clear _ _ ih =>
    rw [List.mem_cons, not_or]
    refine ⟨?_, ih⟩
    rintro rfl
    exact absurd clear (by decide)
  | named known _ ih =>
    simpa [ih] using not_mem_name (listed_of_namedChars known).1

theorem WritesAttributes.not_mem {attributes : List (String × String)}
    (writes : WritesAttributes cs attributes) : '<' ∉ cs := by
  induction writes with
  | nil => simp
  | cons listed spells _ _ _ ih =>
    simpa [ih, spells.not_mem] using not_mem_name listed

theorem Writes.steady {content : List Markup} (writes : Writes cs content) : ∀ c ∈ cs, IsSteady c := by
  induction writes with
  | nil => simp
  | text _ spells _ _ ih => exact List.forall_mem_append.mpr ⟨spells.steady, ih⟩
  | element listed tag _ _ _ inside beside =>
    simp only [List.forall_mem_cons, List.forall_mem_append]
    exact ⟨by decide, steady_of_name listed, tag.steady, by decide, inside, by decide, by decide,
      steady_of_name listed, by decide, beside⟩

theorem normalizeLineEnds_steady (steady : ∀ c ∈ cs, IsSteady c) : normalizeLineEnds cs = cs := by
  induction cs with
  | nil => rfl
  | cons c cs ih =>
    obtain ⟨first, others⟩ := List.forall_mem_cons.mp steady
    rw [normalizeLineEnds, ih others]
    all_goals simp [first.2]

end Characters

theorem WritesAttributes.listed {cs : List Char} {attributes : List (String × String)}
    (writes : WritesAttributes cs attributes) : attributes.all (isListedName ·.1) = true := by
  induction writes with
  | nil => rfl
  | cons listed _ _ _ _ ih => rw [List.all_cons, listed, Bool.true_and, ih]

theorem Writes.haveListedNames {cs : List Char} {content : List Markup} (writes : Writes cs content) :
    Markup.haveListedNames content = true := by
  induction writes with
  | nil => rfl
  | text _ _ _ _ ih => exact ih
  | element listed tag _ _ _ inside beside =>
    rw [Markup.haveListedNames, Markup.hasListedNames, listed, tag.listed, inside, beside]
    rfl

namespace DocumentMarkup

theorem hasBareSeparators_element {tokens : List Token} {content : List Markup}
    (pushes : Pushes tokens content) (name : String) (attributes : List (String × String)) :
    hasBareSeparators 0 (.opening name attributes :: (tokens ++ [.closing name])) = true := by
  rw [hasBareSeparators, pushes.stays]
  rfl

theorem contentOf_element {tokens : List Token} {content : List Markup} (pushes : Pushes tokens content)
    (resolve : String → Option String) (name : String) (attributes : List (String × String)) :
    Nesting.contentOf resolve (.opening name attributes :: (tokens ++ [.closing name]))
      = some [.element name attributes content] := by
  have read := (pushes.element name attributes).takes resolve [] [] (by simp)
  rw [Nesting.contentOf, show ({} : Nesting) = ⟨[], []⟩ from rfl, read]
  rfl

/-- A document that is written as one element is read as this element. -/
theorem ofChars_written {cs : List Char} {attributes : List (String × String)} {content : List Markup}
    (writes : Writes cs [.element name attributes content]) :
    ofChars cs = some ⟨{}, [.element name attributes content]⟩ := by
  have chars : cs.all isChar = true := List.all_eq_true.mpr fun c member => (writes.steady c member).1
  have ends := normalizeLineEnds_steady writes.steady
  cases writes with
  | @element _ _ tag inner after _ _ listed tagged distinct within rest =>
    cases rest
    obtain ⟨tokens, scans, pushes⟩ := exists_tokens_element listed tagged distinct within.exists_tokens []
    have found := Token.ofChars_of_scans scans
    obtain ⟨first, more, split, starts, -⟩ := isListedName_iff.mp listed
    have declared : first ≠ '!' := ne_of_isListedStart starts (by decide)
    have instructed : first ≠ '?' := ne_of_isListedStart starts (by decide)
    have nothing (limit : Nat) (cs : List Char) :
        takeMiscellany (limit + 1) [] ('<' :: first :: cs) = some ([], '<' :: first :: cs) := by
      have solid : skipSpaces ('<' :: first :: cs) = '<' :: first :: cs := rfl
      rw [takeMiscellany, solid]
      split
      · next same => exact absurd (List.cons.inj (List.cons.inj same).2).1 declared
      · next same => exact absurd (List.cons.inj (List.cons.inj same).2).1 instructed
      · rfl
    have untyped (cs : List Char) : expect "<!DOCTYPE" ('<' :: first :: cs) = none := by
      change Text.dropLiteral? "<!DOCTYPE".toList ('<' :: first :: cs) = none
      simp [Text.dropLiteral?, declared.symm]
    rw [ofChars]
    simp only [chars, ends]
    rw [split, List.cons_append] at found ⊢
    simp only [nothing, untyped, found, hasBareSeparators_element pushes, contentOf_element pushes, bind,
      Option.bind]
    rfl

end DocumentMarkup

end MetadataIndex.Xml
