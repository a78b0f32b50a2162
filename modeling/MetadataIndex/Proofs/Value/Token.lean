import MetadataIndex.Proofs.Text.Joined
import MetadataIndex.Value.Token

/-!
# Cleaned names and folded hierarchies

A name that was cleaned stands in the name. Something is left exactly when the name has a character that
is no ASCII mark, once it is trimmed; so a name with an ASCII letter or digit is never lost.

A hierarchy that is folded into one token has its levels in order, with a period for each separator. Of a
level the letters and digits are kept, and with them the bar; an underscore is dropped before the levels
are told apart, even where it is what separates them.
-/

set_option autoImplicit false

namespace MetadataIndex.Value

/-! ## Cleaned names -/

theorem cleanName_infix (value : String) : (cleanName value).toList <:+: value.toList := by
  rw [cleanName, String.toList_ofList]
  exact (Text.strip_infix isAsciiMark _).trans (Text.trim_infix value)

theorem cleanName_ne_empty_iff {value : String} :
    cleanName value ≠ "" ↔ ∃ c ∈ (Text.trim value).toList, isAsciiMark c = false := by
  rw [cleanName, Ne, ← String.toList_inj, String.toList_ofList]
  constructor
  · intro left
    have first := List.head?_eq_some_head left
    exact ⟨_, (Text.strip_infix _ _).subset (List.mem_of_head? first), Text.head?_strip first⟩
  · rintro ⟨c, member, kept⟩ none
    have left := Text.mem_strip_of_mem member kept
    rw [none] at left
    cases left

theorem isBlank_of_isAsciiAlphanumeric {c : Char} (given : Text.isAsciiAlphanumeric c.toNat = true) :
    Text.isBlank c = false := by
  simp only [Text.isAsciiAlphanumeric, Bool.or_eq_true, Bool.and_eq_true, decide_eq_true_eq] at given
  simp only [Text.isBlank, Bool.or_eq_false_iff, Bool.and_eq_false_iff, decide_eq_false_iff_not,
    beq_eq_false_iff_ne]
  omega

/-- A name with an ASCII letter or digit is not lost. -/
theorem cleanName_ne_empty {value : String} {c : Char} (member : c ∈ value.toList)
    (given : Text.isAsciiAlphanumeric c.toNat = true) : cleanName value ≠ "" := by
  refine cleanName_ne_empty_iff.mpr ⟨c, ?_, by simp [isAsciiMark, given]⟩
  rw [Text.trim, String.toList_ofList]
  exact Text.mem_strip_of_mem member (isBlank_of_isAsciiAlphanumeric given)

/-! ## Folded hierarchies -/

/-- The levels between separators, each with the characters that are kept, joined by periods. -/
def foldLevels (kept : Char → Bool) (s : Char) (cs : List Char) : List Char :=
  ['.'].intercalate ((cs.splitOn s).map (·.filter kept))

/-- What folding makes of one character. -/
def foldChar (kept : Char → Bool) (s c : Char) : Option Char :=
  if c = s then some '.' else if kept c then some c else none

variable {kept kept' : Char → Bool} {s : Char} {cs : List Char}

/-- Folding makes something of each character by itself. -/
theorem foldLevels_eq (kept : Char → Bool) (s : Char) (cs : List Char) :
    foldLevels kept s cs = cs.filterMap (foldChar kept s) := by
  induction cs with
  | nil => rfl
  | cons c cs ih =>
    obtain ⟨level, more, split⟩ := List.exists_cons_of_ne_nil (List.splitOn_ne_nil s cs)
    rw [foldLevels, split] at ih
    rw [foldLevels, List.splitOn_cons_eq_if_modifyHead, List.filterMap_cons, foldChar, ← ih, split]
    by_cases separates : c = s
    · rw [if_pos separates, if_pos (beq_iff_eq.mpr separates), List.map_cons, List.map_cons,
        List.intercalate_cons_cons]
      rfl
    · rw [if_neg separates, if_neg (by simpa using separates), List.modifyHead_cons, List.map_cons,
        List.map_cons, List.filter_cons]
      cases kept c with
      | false => rfl
      | true =>
        cases more with
        | nil => simp [List.intercalate]
        | cons next more => simp [List.intercalate]

theorem foldLevels_append (kept : Char → Bool) (s : Char) (front rear : List Char) :
    foldLevels kept s (front ++ s :: rear)
      = foldLevels kept s front ++ '.' :: foldLevels kept s rear := by
  simp [foldLevels_eq, foldChar]

theorem mem_foldLevels {c : Char} :
    c ∈ foldLevels kept s cs ↔ (c ∈ cs ∧ c ≠ s ∧ kept c = true) ∨ (c = '.' ∧ s ∈ cs) := by
  rw [foldLevels_eq, List.mem_filterMap]
  constructor
  · intro ⟨d, member, made⟩
    unfold foldChar at made
    split at made
    case isTrue separates =>
      cases made
      exact .inr ⟨rfl, separates ▸ member⟩
    case isFalse other =>
      split at made
      case isTrue keeps =>
        cases made
        exact .inl ⟨member, other, keeps⟩
      case isFalse => cases made
  · rintro (⟨member, other, keeps⟩ | ⟨rfl, member⟩)
    · exact ⟨c, member, by rw [foldChar, if_neg other, if_pos keeps]⟩
    · exact ⟨s, member, by rw [foldChar, if_pos rfl]⟩

theorem count_foldLevels (dropped : kept '.' = false) :
    (foldLevels kept s cs).count '.' = cs.count s := by
  rw [foldLevels_eq]
  induction cs with
  | nil => rfl
  | cons c cs ih =>
    rw [List.filterMap_cons, foldChar, List.count_cons]
    by_cases separates : c = s
    · simp [separates, ih]
    · cases keeps : kept c with
      | false => simp [separates, ih]
      | true =>
        have other : c ≠ '.' := by
          rintro rfl
          rw [dropped] at keeps
          cases keeps
        simp [separates, other, ih]

theorem foldLevels_congr (same : ∀ c ∈ cs, c ≠ s → kept c = kept' c) :
    foldLevels kept s cs = foldLevels kept' s cs := by
  rw [foldLevels_eq, foldLevels_eq]
  refine List.filterMap_congr ?_
  intro c member
  unfold foldChar
  by_cases separates : c = s
  · rw [if_pos separates, if_pos separates]
  · rw [if_neg separates, if_neg separates, same c member separates]

/-- What is dropped before the levels are told apart is dropped from the levels, if it is not the
separator. -/
theorem foldLevels_filter {q : Char → Bool} (separates : q s = true) :
    foldLevels kept s (cs.filter q) = foldLevels (fun c => q c && kept c) s cs := by
  rw [foldLevels_eq, foldLevels_eq, List.filterMap_filter]
  congr 1
  funext c
  unfold foldChar
  by_cases same : c = s
  · simp [same, separates]
  · cases keeps : q c with
    | false => simp [same, keeps]
    | true => simp [same, keeps]

/-- A character that is kept in a level: a letter, a digit or the bar. -/
def isLevelChar (c : Char) : Bool := Text.isAlphanumeric c || c == '|'

theorem replaceLiteral_singleton (s : Char) (cs : List Char) :
    Text.replaceLiteral (String.singleton s) "." (String.ofList cs)
      = String.ofList (foldLevels (fun _ => true) s cs) := by
  have all (levels : List (List Char)) : levels.map (·.filter fun _ => true) = levels := by simp
  rw [Text.replaceLiteral, String.toList_ofList, String.toList_singleton, Text.pieces_singleton,
    String.toList_ofList, foldLevels, all]

/-- Folding drops the underscores, tells the levels apart and keeps letters, digits and bars. -/
theorem foldHierarchy_singleton (visible : s ≠ ' ') (value : String) :
    foldHierarchy (String.singleton s) value
      = String.ofList (foldLevels isLevelChar s (value.toList.filter (· != '_'))) := by
  let q (c : Char) : Bool := c != ' ' && isHierarchyChar [s] c
  have regroup : ((value.toList.filter (· != ' ')).filter (isHierarchyChar [s])).filter (· != '_')
      = (value.toList.filter (· != '_')).filter q := by
    simp only [List.filter_filter]
    refine List.filter_congr ?_
    intro c _
    change (c != '_' && (isHierarchyChar [s] c && c != ' '))
      = ((c != ' ' && isHierarchyChar [s] c) && c != '_')
    rw [Bool.and_comm (c != '_'), Bool.and_comm (c != ' ')]
  have separates : q s = true := by simp [q, isHierarchyChar, visible]
  rw [foldHierarchy, String.toList_singleton, regroup, replaceLiteral_singleton,
    foldLevels_filter separates]
  congr 1
  refine foldLevels_congr ?_
  intro c member other
  have plain : c ≠ '_' := by simpa using (List.mem_filter.mp member).2
  have same : q c = isLevelChar c := by
    change (c != ' ' && (Text.isAlphanumeric c || c == '_' || c == '|' || [s].contains c)) = _
    by_cases space : c = ' '
    · subst space
      exact (by decide : false = isLevelChar ' ')
    · simp [isLevelChar, bne_iff_ne.mpr space, beq_false_of_ne plain, other]
  rw [same, Bool.and_true]

theorem toOneToken_singleton (s : Char) (value : String) :
    toOneToken value (some (.text (String.singleton s)))
      = .ok (foldHierarchy (String.singleton s) value) := by
  have given : (String.singleton s).isEmpty = false := by simp
  change Except.ok (if (String.singleton s).isEmpty then _ else _) = _
  rw [given]
  rfl

/-- What folding gives is the levels of letters and digits exactly when no bar stands in the value, but
as the separator, and no underscore does if it is the separator. -/
theorem foldLevels_plain_iff : foldLevels isLevelChar s (cs.filter (· != '_'))
      = foldLevels Text.isAlphanumeric s cs
    ↔ (s = '|' ∨ '|' ∉ cs) ∧ (s = '_' → '_' ∉ cs) := by
  constructor
  · intro same
    constructor
    · by_contra bar
      rw [not_or, not_not] at bar
      have kept : '|' ∈ foldLevels isLevelChar s (cs.filter (· != '_')) :=
        mem_foldLevels.mpr (.inl ⟨List.mem_filter.mpr ⟨bar.2, by decide⟩, Ne.symm bar.1, by decide⟩)
      rw [same, mem_foldLevels] at kept
      rcases kept with ⟨-, -, letter⟩ | ⟨period, -⟩
      · exact absurd letter (by decide)
      · exact absurd period (by decide)
    · rintro rfl separated
      have period : '.' ∈ foldLevels Text.isAlphanumeric '_' cs :=
        mem_foldLevels.mpr (.inr ⟨rfl, separated⟩)
      rw [← same, mem_foldLevels] at period
      rcases period with ⟨-, -, letter⟩ | ⟨-, left⟩
      · exact absurd letter (by decide)
      · exact absurd (List.mem_filter.mp left).2 (by decide)
  · intro ⟨bar, underscore⟩
    have letters : foldLevels isLevelChar s (cs.filter (· != '_'))
        = foldLevels Text.isAlphanumeric s (cs.filter (· != '_')) := by
      refine foldLevels_congr ?_
      intro c member other
      have plain : c ≠ '|' := by
        rintro rfl
        rcases bar with rfl | absent
        · exact other rfl
        · exact absent (List.mem_filter.mp member).1
      rw [isLevelChar, beq_false_of_ne plain, Bool.or_false]
    rw [letters]
    by_cases separates : s = '_'
    · have all : cs.filter (· != '_') = cs := by
        refine List.filter_eq_self.mpr ?_
        intro c member
        rw [bne_iff_ne]
        rintro rfl
        exact underscore separates member
      rw [all]
    · rw [foldLevels_filter (q := (· != '_')) (bne_iff_ne.mpr separates)]
      refine foldLevels_congr ?_
      intro c _ _
      by_cases dropped : c = '_'
      · rw [dropped]
        decide
      · rw [bne_iff_ne.mpr dropped, Bool.true_and]

/-- Folding goes level by level. -/
theorem foldHierarchy_append (visible : s ≠ ' ') (other : s ≠ '_') (front rear : String) :
    foldHierarchy (String.singleton s) (front ++ String.singleton s ++ rear)
      = foldHierarchy (String.singleton s) front ++ "."
        ++ foldHierarchy (String.singleton s) rear := by
  have stays : (s :: rear.toList).filter (· != '_') = s :: rear.toList.filter (· != '_') :=
    List.filter_cons_of_pos (bne_iff_ne.mpr other)
  rw [foldHierarchy_singleton visible, foldHierarchy_singleton visible, foldHierarchy_singleton visible,
    ← String.toList_inj]
  simp only [String.toList_append, String.toList_ofList, String.toList_singleton, List.append_assoc,
    List.singleton_append, List.filter_append, stays, foldLevels_append]
  rfl

/-- Folding at a separator gives the levels of letters and digits exactly when no bar stands in the value,
but as the separator, and no underscore does if it is the separator. In any case a separator becomes a
period, so that folding goes level by level; only an underscore is dropped. -/
theorem toOneToken_levels (visible : s ≠ ' ') (value : String) :
    ∃ token : String, toOneToken value (some (.text (String.singleton s))) = .ok token
      ∧ (token.toList = foldLevels Text.isAlphanumeric s value.toList
        ↔ (s = '|' ∨ '|' ∉ value.toList) ∧ (s = '_' → '_' ∉ value.toList))
      ∧ (∀ c ∈ token.toList, Text.isAlphanumeric c = true ∨ c = '.'
        ∨ c = '|' ∧ s ≠ '|' ∧ '|' ∈ value.toList)
      ∧ token.toList.count '.' = (if s = '_' then 0 else value.toList.count s)
      ∧ (s ≠ '_' → ∀ rest : String, ∃ folded,
        toOneToken rest (some (.text (String.singleton s))) = .ok folded
          ∧ toOneToken (value ++ String.singleton s ++ rest) (some (.text (String.singleton s)))
            = .ok (token ++ "." ++ folded)) := by
  refine ⟨_, toOneToken_singleton s value, ?_, ?_, ?_, ?_⟩
  · rw [foldHierarchy_singleton visible, String.toList_ofList]
    exact foldLevels_plain_iff
  · intro c member
    rw [foldHierarchy_singleton visible, String.toList_ofList, mem_foldLevels] at member
    rcases member with ⟨inside, other, kept⟩ | ⟨period, -⟩
    · rcases Bool.or_eq_true_iff.mp kept with letter | bar
      · exact .inl letter
      · obtain rfl := beq_iff_eq.mp bar
        exact .inr (.inr ⟨rfl, Ne.symm other, (List.mem_filter.mp inside).1⟩)
    · exact .inr (.inl period)
  · rw [foldHierarchy_singleton visible, String.toList_ofList, count_foldLevels (by decide)]
    split
    case isTrue separates =>
      rw [separates]
      exact List.count_eq_zero.mpr fun left => absurd (List.mem_filter.mp left).2 (by decide)
    case isFalse other => exact List.count_filter (bne_iff_ne.mpr other)
  · intro other rest
    refine ⟨_, toOneToken_singleton s rest, ?_⟩
    rw [toOneToken_singleton, foldHierarchy_append visible other]

theorem toOneToken_levels_topics :
    toOneToken "Main Topic#Sub_Topic" (some (.text "#")) = .ok "MainTopic.SubTopic" := by
  have marks : '|' ∉ "Main Topic#Sub_Topic".toList := by decide
  have levels : foldLevels Text.isAlphanumeric '#' "Main Topic#Sub_Topic".toList
      = "MainTopic.SubTopic".toList := by decide +kernel
  obtain ⟨token, folded, plain, -⟩ := toOneToken_levels (s := '#') (by decide) "Main Topic#Sub_Topic"
  have same := plain.mpr ⟨.inr marks, fun underscore => absurd underscore (by decide)⟩
  rw [levels, String.toList_inj] at same
  exact same ▸ folded

/-- A bar that stands in a level is kept, and an underscore separates no levels. -/
theorem not_levels_of_marks :
    toOneToken "a|b" (some (.text "#")) = .ok "a|b"
      ∧ String.ofList (foldLevels Text.isAlphanumeric '#' "a|b".toList) = "ab"
      ∧ toOneToken "a_b" (some (.text "_")) = .ok "ab"
      ∧ String.ofList (foldLevels Text.isAlphanumeric '_' "a_b".toList) = "a.b" := by
  refine ⟨by decide, by decide, by decide, by decide⟩

end MetadataIndex.Value
