import MetadataIndex.Proofs.Group.Key
import MetadataIndex.Proofs.Text.Trimmed

/-!
# The address of an authority record

A record notes the address of its authority record, and the address is completed again before the
authority record is looked up. The two completions agree on an address from a field if neither end of it
is blank, and on one from the attributes of the element if it begins as an address; and an address that
would be split is not noted as one.
-/

set_option autoImplicit false

namespace MetadataIndex

open MetadataIndex.Xml (Cursor)
open Collector (givenParts newParts)

variable {ω τ : Type} {rule : FieldRule}

section Completed

variable {uri : String}

/-- The address at which the default vocabulary is looked up for an identifier. -/
def addressOf (uri : String) : String := AuthorityService.resolveUri defaultVocabulary uri

theorem addressOf_of_trimmed (trimmed : Text.trim uri = uri) :
    addressOf uri = GroupReader.qualified uri := by
  rw [addressOf, AuthorityService.resolveUri, trimmed, GroupReader.qualified]

theorem mem_givenParts_self (given : uri ≠ "") :
    uri ∈ givenParts uri ↔ Text.containsLiteral uri Collector.splitMark = false := by
  constructor
  · exact Collector.whole_of_mem_givenParts
  · intro whole
    rw [Collector.givenParts_of_whole whole given]
    exact List.mem_singleton_self uri

theorem infix_of_mem_givenParts {part value : String} (member : part ∈ givenParts value) :
    part.toList <:+: value.toList := by
  obtain ⟨piece, -⟩ := List.mem_filter.mp member
  obtain ⟨cs, inside, rfl⟩ := List.mem_map.mp piece
  rw [String.toList_ofList]
  exact Text.infix_of_mem_pieces inside

/-- No part of a text is the text completed by the vocabulary. -/
theorem not_infix_vocabulary : ¬(defaultVocabulary ++ uri).toList <:+: uri.toList := by
  intro inside
  have short := inside.length_le
  rw [String.toList_append, List.length_append] at short
  have long : 0 < defaultVocabulary.toList.length := by decide
  omega

theorem startsWith_vocabulary : Text.startsWith (defaultVocabulary ++ uri) "http" = true := by
  rw [Text.startsWith_iff, String.toList_append]
  exact List.IsPrefix.trans (by decide) (List.prefix_append _ _)

theorem startsWith_qualified : Text.startsWith (GroupReader.qualified uri) "http" = true := by
  unfold GroupReader.qualified
  split
  case isTrue begins => exact begins
  case isFalse => exact startsWith_vocabulary

theorem startsWith_addressOf : Text.startsWith (addressOf uri) "http" = true := by
  unfold addressOf AuthorityService.resolveUri
  dsimp only
  split
  case isTrue begins => exact begins
  case isFalse => exact startsWith_vocabulary

theorem containsLiteral_vocabulary :
    Text.containsLiteral (defaultVocabulary ++ uri) Collector.splitMark
      = Text.containsLiteral uri Collector.splitMark := by
  rw [Bool.eq_iff_iff, Text.containsLiteral_iff, Text.containsLiteral_iff, String.toList_append]
  constructor
  · intro inside
    have ends : defaultVocabulary.toList = "https://d-nb.info/gnd".toList ++ ['/'] := by decide
    rw [ends, List.append_assoc, List.singleton_append] at inside
    rcases Text.infix_of_infix_append_cons (by decide) inside with before | after
    · exact absurd before (by decide)
    · exact after
  · intro inside
    exact inside.trans (List.suffix_append _ _).isInfix

theorem containsLiteral_addressOf : Text.containsLiteral (addressOf uri) Collector.splitMark
    = Text.containsLiteral uri Collector.splitMark := by
  have trimmed := Text.containsLiteral_trim uri
    (by decide : Text.trim Collector.splitMark = Collector.splitMark) (by decide)
  unfold addressOf AuthorityService.resolveUri
  dsimp only
  split
  · exact trimmed
  · exact containsLiteral_vocabulary.trans trimmed

theorem containsLiteral_qualified :
    Text.containsLiteral (GroupReader.qualified uri) Collector.splitMark
      = Text.containsLiteral uri Collector.splitMark := by
  unfold GroupReader.qualified
  split
  · rfl
  · exact containsLiteral_vocabulary

theorem addressOf_eq_qualified_iff : addressOf uri = GroupReader.qualified uri ↔ Text.trim uri = uri := by
  constructor
  · intro same
    unfold addressOf AuthorityService.resolveUri GroupReader.qualified at same
    dsimp only at same
    by_cases begins : Text.startsWith uri "http" = true
    · have all : "http".toList.all (fun c => !Text.isBlank c) = true := by decide
      have visible : ∀ c ∈ "http".toList, Text.isBlank c = false := by simpa using all
      rwa [if_pos begins, if_pos (Text.startsWith_trim visible begins)] at same
    · rw [if_neg begins] at same
      split at same
      · have inside := Text.trim_infix uri
        rw [same] at inside
        exact absurd inside not_infix_vocabulary
      · exact (String.append_right_inj defaultVocabulary).mp same
  · exact addressOf_of_trimmed

/-- What a field gives of an identifier is the address that is looked up if the identifier is trimmed
and is not split. -/
theorem addressOf_mem_qualified (given : uri ≠ "") :
    addressOf uri ∈ givenParts (GroupReader.qualified uri)
      ↔ Text.trim uri = uri ∧ Text.containsLiteral uri Collector.splitMark = false := by
  have written := GroupReader.qualified_ne_empty given
  constructor
  · intro member
    have whole := Collector.whole_of_mem_givenParts member
    rw [containsLiteral_addressOf] at whole
    rw [Collector.givenParts_of_whole (containsLiteral_qualified.trans whole) written,
      List.mem_singleton] at member
    exact ⟨addressOf_eq_qualified_iff.mp member, whole⟩
  · intro ⟨trimmed, whole⟩
    rw [addressOf_of_trimmed trimmed, mem_givenParts_self written, containsLiteral_qualified, whole]

/-- A trimmed identifier is the address that is looked up if it begins as an address and is not split. -/
theorem addressOf_mem_self (given : uri ≠ "") (trimmed : Text.trim uri = uri) :
    addressOf uri ∈ givenParts uri ↔ Text.startsWith uri "http" = true
      ∧ Text.containsLiteral uri Collector.splitMark = false := by
  rw [addressOf_of_trimmed trimmed, GroupReader.qualified]
  split
  case isTrue begins => rw [mem_givenParts_self given, and_iff_right begins]
  case isFalse other =>
    constructor
    · intro member
      exact absurd (infix_of_mem_givenParts member) not_infix_vocabulary
    · intro both
      exact absurd both.1 other

end Completed

theorem AuthorityService.resolve_congr {s : AuthorityService ω τ} {uri : String}
    {lookup : String → Action ω LookupResult}
    (same : lookup (resolveUri s.base uri) = s.lookup (resolveUri s.base uri)) (style : AuthorityStyle) :
    { s with lookup }.resolve style uri = s.resolve style uri := by
  unfold resolve recordOf fetch fetchAnew
  dsimp only
  rw [same]
  rfl

namespace AuthorityIdentifier

variable {value authorityUri : Option String} {attribute? : String → Option String}
  {i : AuthorityIdentifier} {v : String}

theorem nonEmpty?_eq_some_iff {s t : String} : nonEmpty? s = some t ↔ s ≠ "" ∧ s = t := by
  simp [nonEmpty?]

theorem read?_eq_some (read : read? value authorityUri = some i) :
    ∃ v, v ≠ "" ∧ Text.trim v = v ∧ i = classify v authorityUri := by
  obtain ⟨text, -, read⟩ := Option.bind_eq_some_iff.mp read
  dsimp only at read
  split at read
  case isTrue => cases read
  case isFalse named =>
    cases read
    refine ⟨Text.trim text, ?_, Text.trim_trim text, rfl⟩
    intro none
    exact named (by simp [namesNothing, none])

/-- The address that an identifier is written as: completed by the default vocabulary if no vocabulary
is given, and by the vocabulary that is given, if that is not blank. -/
theorem toUri_classify (authorityUri : Option String) (trimmed : Text.trim v = v) :
    (authorityUri >>= nonEmpty?) = none ∧ (classify v authorityUri).toUri = GroupReader.qualified v
      ∨ ∃ authority, (authorityUri >>= nonEmpty?) = some authority
        ∧ (classify v authorityUri).toUri
          = if Text.trim authority = "" ∨ Text.startsWith v (Text.trim authority) = true then v
            else Text.trim authority ++ v := by
  unfold classify
  cases given : authorityUri >>= nonEmpty? with
  | none =>
    left
    refine ⟨rfl, ?_⟩
    dsimp only
    rw [GroupReader.qualified]
    split
    · simp [toUri, trimmed]
    · simp [toUri, trimmed]
  | some authority =>
    right
    refine ⟨authority, rfl, ?_⟩
    by_cases blank : Text.trim authority = ""
    · simp [toUri, trimmed, blank, nonEmpty?]
    · simp [toUri, trimmed, blank, nonEmpty?]

theorem toUri_trimmed (read : read? value authorityUri = some i) :
    i.toUri ≠ "" ∧ Text.trim i.toUri = i.toUri := by
  obtain ⟨v, given, trimmed, rfl⟩ := read?_eq_some read
  rcases toUri_classify authorityUri trimmed with ⟨-, same⟩ | ⟨authority, -, same⟩
  · rw [same]
    constructor
    · exact GroupReader.qualified_ne_empty given
    · unfold GroupReader.qualified
      split
      · exact trimmed
      · exact Text.trim_append (by decide) trimmed (by decide) given
  · rw [same]
    split
    case isTrue => exact ⟨given, trimmed⟩
    case isFalse completes =>
      obtain ⟨named, -⟩ := not_or.mp completes
      constructor
      · intro none
        exact given (String.append_eq_empty_iff.mp none).2
      · exact Text.trim_append (Text.trim_trim authority) trimmed named given

theorem startsWith_toUri (read : read? value authorityUri = some i)
    (plain : ∀ a ∈ authorityUri, a = "" ∨ Text.startsWith (Text.trim a) "http" = true) :
    Text.startsWith i.toUri "http" = true := by
  obtain ⟨v, given, trimmed, rfl⟩ := read?_eq_some read
  rcases toUri_classify authorityUri trimmed with ⟨-, same⟩ | ⟨authority, found, same⟩
  · rw [same]
    exact startsWith_qualified
  · obtain ⟨a, member, found⟩ := Option.bind_eq_some_iff.mp found
    obtain ⟨some, rfl⟩ := nonEmpty?_eq_some_iff.mp found
    have begins := (plain a member).resolve_left some
    rw [same]
    rw [Text.startsWith_iff] at begins ⊢
    split
    case isTrue within =>
      rcases within with blank | within
      · rw [blank] at begins
        exact absurd begins (by decide)
      · exact begins.trans (Text.startsWith_iff.mp within)
    case isFalse =>
      rw [String.toList_append]
      exact begins.trans (List.prefix_append _ _)

theorem read?_of_ofAttributes? (read : ofAttributes? attribute? = some i) :
    ∃ authorityUri, read? (attribute? "valueURI") authorityUri = some i
      ∧ (authorityUri = none
        ∨ attribute? "authority" ≠ none ∧ authorityUri = attribute? "authorityURI") := by
  unfold ofAttributes? at read
  split at read
  case h_1 => exact ⟨none, read, .inl rfl⟩
  case h_2 named => exact ⟨_, read, .inr ⟨by simp [named], rfl⟩⟩

end AuthorityIdentifier

namespace GroupReader

variable {g : GroupReader} {sub : Subfield} {text uri : String} {position : Nat} {v : GroupValue}

/-- An identifier is read for the field of the address, which has it with its vocabulary. -/
theorem identifier_of_valueOf (read : g.valueOf rule sub text position = .ok (some v))
    (found : v.identifier = some uri) :
    uri ≠ "" ∧ v.field = ⟨FieldName.normUri, qualified uri⟩ := by
  obtain ⟨value, -, read⟩ := Checked.bind_ok read
  dsimp only at read
  split at read
  · cases read
  · split at read
    case isTrue address =>
      cases read
      dsimp only at found
      split at found
      case isTrue named =>
        cases found
        rw [beq_iff_eq.mp named]
        refine ⟨?_, rfl⟩
        rintro rfl
        simp at address
      case isFalse => cases found
    case isFalse =>
      cases read
      cases found

/-- Without an identifier the field of the address has single characters at most. -/
theorem length_of_valueOf (read : g.valueOf rule sub text position = .ok (some v))
    (resolves : g.resolves = true) (under : v.field.name = FieldName.normUri)
    (none : v.identifier = none) : v.field.value.length ≤ 1 := by
  have name := name_of_valueOf read
  rw [under] at name
  have address : Text.startsWith sub.name FieldName.normUri = true := by
    rw [← name]
    decide
  obtain ⟨value, -, read⟩ := Checked.bind_ok read
  dsimp only at read
  split at read
  · cases read
  · split at read
    case isTrue =>
      cases read
      simp [← name] at none
    case isFalse short =>
      cases read
      simpa [resolves, address] using short

end GroupReader

namespace Draft

variable {d : Draft} {values more : List GroupValue} {kind : GroupKind} {uri : String}

@[simp] theorem identifier_addValues (d : Draft) (values : List GroupValue) :
    (d.addValues values).identifier = d.identifier := by
  unfold addValues
  induction values generalizing d with
  | nil => rfl
  | cons v values ih => exact ih (d.addValue v)

theorem exists_of_identifierOf (found : identifierOf values = some uri) :
    ∃ v ∈ values, v.identifier = some uri :=
  List.mem_filterMap.mp (List.mem_of_getLast? found)

theorem forall_of_identifierOf (absent : identifierOf values = none) :
    ∀ v ∈ values, v.identifier = none := by
  intro v member
  rw [identifierOf, List.getLast?_eq_none_iff, List.filterMap_eq_nil_iff] at absent
  exact absent v member

/-- A draft has the addresses of the values that were read for it, and an identifier if one of them
has one. -/
structure Addressed (values : List GroupValue) (d : Draft) : Prop where
  uris : d.group.values FieldName.normUri
    = Field.valuesOf FieldName.normUri (values.flatMap (·.fields))
  given : ∀ uri, d.identifier = some uri → ∃ v ∈ values, v.identifier = some uri
  absent : d.identifier = none → ∀ v ∈ values, v.identifier = none
  reached : d.group.Reached

theorem ne_normUri_of_isMainName {name : String} (main : isMainName kind name = true) :
    name ≠ FieldName.normUri := by
  rintro rfl
  revert main
  cases kind <;> decide

theorem addressed_takeMainValue (label : String) (kind : GroupKind) (own : List GroupValue) :
    { takeMainValue kind ((ofLabel label kind).addValues own) with
      identifier := identifierOf own }.Addressed own := by
  have empty : (ofLabel label kind).group.values FieldName.normUri = [] := by
    unfold ofLabel
    rw [Collector.values_put _ (by decide), Collector.values_put _ (by decide)]
    rfl
  have uris : ((ofLabel label kind).addValues own).group.values FieldName.normUri
      = Field.valuesOf FieldName.normUri (own.flatMap (·.fields)) := by
    rw [values_addValues, empty, List.nil_append]
  constructor
  · rw [← uris]
    unfold takeMainValue
    split
    case h_1 => rfl
    case h_2 f found =>
      have main : isMainName kind f.name = true := List.find?_some (p := fun g : Field =>
        isMainName kind g.name) found
      exact Collector.values_replaceValue (ne_normUri_of_isMainName main)
  · exact fun uri => exists_of_identifierOf
  · exact forall_of_identifierOf
  · exact (collects_takeMainValue label kind own).reached

/-- An identifier is taken from the values before or from those that are added, in either order. -/
theorem Addressed.addValues (addressed : d.Addressed values) {identifier : Option String}
    (either : identifier = ((d.addValues more).identifier <|> identifierOf more)
      ∨ identifier = (identifierOf more <|> (d.addValues more).identifier)) :
    { d.addValues more with identifier }.Addressed (values ++ more) := by
  rw [identifier_addValues] at either
  constructor
  · rw [values_addValues, addressed.uris, List.flatMap_append, Field.valuesOf_append]
  · intro uri found
    have source : d.identifier = some uri ∨ identifierOf more = some uri := by
      rcases either with rfl | rfl
      · cases known : d.identifier <;> simp_all
      · cases known : identifierOf more <;> simp_all
    rcases source with known | new
    · obtain ⟨v, member, same⟩ := addressed.given uri known
      exact ⟨v, List.mem_append_left more member, same⟩
    · obtain ⟨v, member, same⟩ := exists_of_identifierOf new
      exact ⟨v, List.mem_append_right values member, same⟩
  · intro none
    have both : d.identifier = Option.none ∧ identifierOf more = Option.none := by
      rcases either with rfl | rfl
      · cases known : d.identifier <;> simp_all
      · cases known : identifierOf more <;> simp_all
    exact List.forall_mem_append.mpr ⟨addressed.absent both.1, forall_of_identifierOf both.2⟩
  · exact reached_addValues addressed.reached more

theorem Addressed.of_put {d' : Draft} (addressed : d.Addressed values) {name value : String}
    (other : name ≠ FieldName.normUri) (written : d'.group = d.group.put name value)
    (same : d'.identifier = d.identifier) : d'.Addressed values := by
  constructor
  · rw [written, Collector.values_put _ other, addressed.uris]
  · rw [same]
    exact addressed.given
  · rw [same]
    exact addressed.absent
  · rw [written]
    exact addressed.reached.put _ _ _

theorem Addressed.takePersonName (addressed : d.Addressed values) :
    (takePersonName kind d).Addressed values := by
  rw [takePersonName_eq]
  split
  · exact addressed.of_put (by decide) rfl rfl
  · exact addressed

theorem Addressed.addGroupKey (addressed : d.Addressed values) (label : String) :
    (d.addGroupKey label).Addressed values := by
  unfold Draft.addGroupKey
  split
  · split
    · exact addressed
    · exact addressed.of_put (by decide) rfl rfl
  · exact addressed

theorem addressed_ofElement {g : GroupReader} {e : GroupEntity} {c : Cursor} {label : String}
    (made : ofElement g rule e c label = .ok d) :
    ∃ (own : List GroupValue) (referenced : Option (List GroupValue)), g.values rule e c = .ok own
      ∧ (∀ values ∈ referenced, ∃ parent reference, c.parentElement? = some parent
        ∧ g.values rule e parent (some reference) = .ok values)
      ∧ d.Addressed (own ++ referenced.getD []) := by
  obtain ⟨own, read, made⟩ := Checked.bind_ok made
  have first := addressed_takeMainValue label e.kind own
  dsimp only at made
  split at made
  case h_1 parent reference above _ =>
    obtain ⟨referenced, readAbove, made⟩ := Checked.bind_ok made
    cases made
    refine ⟨own, some referenced, read, ?_, ?_⟩
    · rintro _ ⟨⟩
      exact ⟨parent, reference, above, readAbove⟩
    · exact (first.addValues (.inl rfl)).takePersonName
  case h_2 =>
    cases made
    refine ⟨own, none, read, nofun, ?_⟩
    simpa using first.takePersonName

end Draft

namespace GroupBuilder

variable {b : GroupBuilder ω τ} {t : GroupTask} {d : Draft} {restricted : Bool}

theorem addressed_of_draft {w w' : ω} (drafted : b.draft rule t w = .ok d w') :
    ∃ own referenced cited first, b.Reads rule t own referenced cited
      ∧ first.Addressed (own ++ referenced.getD [] ++ cited.getD [])
      ∧ d = if b.authority.isSome then first.takeAttributeIdentifier t.element else first := by
  unfold draft at drafted
  obtain ⟨first, _, lifted, drafted⟩ := Action.bind_ok drafted
  obtain ⟨made, rfl⟩ := Action.lift_ok lifted
  obtain ⟨own, referenced, read, readAbove, addressed⟩ := Draft.addressed_ofElement made
  obtain ⟨root, _, -, drafted⟩ := Action.bind_ok drafted
  cases root with
  | none =>
    cases drafted
    refine ⟨own, referenced, none, _, ⟨read, readAbove, nofun⟩, ?_, rfl⟩
    simpa using addressed.addGroupKey t.label
  | some root =>
    obtain ⟨cited, _, lifted, drafted⟩ := Action.bind_ok drafted
    obtain ⟨readRoot, rfl⟩ := Action.lift_ok lifted
    cases drafted
    refine ⟨own, referenced, some cited, _, ⟨read, readAbove, ?_⟩,
      (addressed.addValues (.inr rfl)).addGroupKey t.label, rfl⟩
    rintro _ ⟨⟩
    exact ⟨root, readRoot⟩

/-- The address of a record comes from a field: it is noted as it is looked up if it is trimmed and not
split, and no other way if the field has no other value. -/
structure FieldAddress (values : List GroupValue) (uri : String) (noted : List String) : Prop where
  source : ∃ v ∈ values, v.identifier = some uri
    ∧ v.field = ⟨FieldName.normUri, GroupReader.qualified uri⟩
  notes : Text.trim uri = uri → Text.containsLiteral uri Collector.splitMark = false →
    addressOf uri ∈ noted
  only : (∀ v ∈ values, v.field.name = FieldName.normUri → v.field.value = GroupReader.qualified uri) →
    addressOf uri ∈ noted →
    Text.trim uri = uri ∧ Text.containsLiteral uri Collector.splitMark = false

/-- The address of a record comes from the attributes of its element: it is noted as it is looked up
exactly if it begins as an address and is not split. -/
structure AttributeAddress (element : Cursor) (uri : String) (noted : List String) : Prop where
  source : ∃ i, AuthorityIdentifier.ofAttributes? element.attribute? = some i ∧ i.toUri = uri
  notes : addressOf uri ∈ noted
    ↔ Text.startsWith uri "http" = true ∧ Text.containsLiteral uri Collector.splitMark = false
  begins : element.attribute? "authority" = none
      ∨ (∀ a ∈ element.attribute? "authorityURI",
        a = "" ∨ Text.startsWith (Text.trim a) "http" = true) →
    Text.startsWith uri "http" = true

section Noted

variable {own : List GroupValue} {referenced cited : Option (List GroupValue)} {values : List GroupValue}
  {first : Draft} {uri : String} {answer : AuthorityAnswer} {r : GroupedRecord}

theorem mem_normUri_of_addressed (addressed : first.Addressed values) {part : String} :
    part ∈ first.group.values FieldName.normUri
      ↔ ∃ v ∈ values, v.field.name = FieldName.normUri ∧ part ∈ givenParts v.field.value := by
  rw [addressed.uris, GroupValue.valuesOf_flatMap_fields (by decide), List.mem_flatMap]
  constructor
  · intro ⟨value, member, inside⟩
    obtain ⟨v, given, same⟩ := List.mem_map.mp (Field.mem_valuesOf.mp member)
    refine ⟨v, given, ?_, ?_⟩
    · rw [same]
    · rw [same]
      exact inside
  · intro ⟨v, given, under, inside⟩
    refine ⟨v.field.value, ?_, inside⟩
    rw [Field.mem_valuesOf, ← under]
    exact List.mem_map_of_mem given

/-- The record notes what its draft has, if that is parts of values. -/
theorem mem_normUri_of_makes (makes : b.Makes rule restricted t d answer r)
    (parts : ∀ w ∈ d.group.values FieldName.normUri, ∃ value, w ∈ givenParts value) {part : String} :
    part ∈ r.values FieldName.normUri ↔ part ∈ d.group.values FieldName.normUri := by
  obtain ⟨c, c', finished⟩ := makes.finished
  have noted : Field.valuesOf FieldName.normUri r.fields = _ :=
    Finish.values_fieldsOf_of_plain finished (by decide) (.inl (by decide)) (by decide)
  change part ∈ Field.valuesOf _ _ ↔ _
  rw [noted, Collector.flatMap_givenParts parts]

theorem fieldAddress_of_makes (makes : b.Makes rule restricted t d answer r)
    (reads : b.Reads rule t own referenced cited)
    (addressed : d.Addressed (own ++ referenced.getD [] ++ cited.getD []))
    (identified : d.identifier = some uri) :
    uri ≠ "" ∧ FieldAddress (own ++ referenced.getD [] ++ cited.getD []) uri
      (r.values FieldName.normUri) := by
  obtain ⟨v, member, found⟩ := addressed.given uri identified
  have each : ∀ v ∈ own ++ referenced.getD [] ++ cited.getD [], ∀ uri, v.identifier = some uri →
      uri ≠ "" ∧ v.field = ⟨FieldName.normUri, GroupReader.qualified uri⟩ := by
    refine reads.forall_mem (P := fun v => ∀ uri, v.identifier = some uri →
      uri ≠ "" ∧ v.field = ⟨FieldName.normUri, GroupReader.qualified uri⟩) ?_
    intro c reference values read v member uri found
    obtain ⟨sub, -, text, position, read⟩ := GroupReader.of_mem_values read v member
    exact GroupReader.identifier_of_valueOf read found
  obtain ⟨given, field⟩ := each v member uri found
  have noted {part : String} : part ∈ r.values FieldName.normUri
      ↔ ∃ v ∈ own ++ referenced.getD [] ++ cited.getD [],
        v.field.name = FieldName.normUri ∧ part ∈ givenParts v.field.value := by
    rw [← mem_normUri_of_addressed addressed]
    apply mem_normUri_of_makes makes
    intro w member
    obtain ⟨v, -, -, inside⟩ := (mem_normUri_of_addressed addressed).mp member
    exact ⟨v.field.value, inside⟩
  refine ⟨given, ⟨v, member, found, field⟩, ?_, ?_⟩
  · intro trimmed whole
    rw [noted]
    refine ⟨v, member, ?_, ?_⟩
    · rw [field]
    · rw [field]
      exact (addressOf_mem_qualified given).mpr ⟨trimmed, whole⟩
  · intro only member
    obtain ⟨w, read, under, inside⟩ := noted.mp member
    rw [only w read under] at inside
    exact (addressOf_mem_qualified given).mp inside

theorem attributeAddress_of_makes (makes : b.Makes rule restricted t d answer r)
    (reads : b.Reads rule t own referenced cited) (resolves : b.authority.isSome = true)
    (addressed : first.Addressed (own ++ referenced.getD [] ++ cited.getD []))
    (absent : first.identifier = none) {i : AuthorityIdentifier}
    (found : AuthorityIdentifier.ofAttributes? t.element.attribute? = some i)
    (written : d.group = first.group.put FieldName.normUri i.toUri) :
    i.toUri ≠ "" ∧ AttributeAddress t.element i.toUri (r.values FieldName.normUri) := by
  obtain ⟨authorityUri, read, beside⟩ := AuthorityIdentifier.read?_of_ofAttributes? found
  obtain ⟨given, trimmed⟩ := AuthorityIdentifier.toUri_trimmed read
  -- Values without an identifier are too short for an address.
  have short : addressOf i.toUri ∉ first.group.values FieldName.normUri := by
    intro member
    obtain ⟨v, value, under, inside⟩ := (mem_normUri_of_addressed addressed).mp member
    have few : v.field.value.length ≤ 1 := by
      refine reads.forall_mem (P := fun v => v.field.name = FieldName.normUri → v.identifier = none →
        v.field.value.length ≤ 1) ?_ v value under (addressed.absent absent v value)
      intro c reference values read v member
      obtain ⟨sub, -, text, position, read⟩ := GroupReader.of_mem_values read v member
      exact GroupReader.length_of_valueOf read resolves
    have begins : "http".toList <+: (addressOf i.toUri).toList :=
      Text.startsWith_iff.mp startsWith_addressOf
    have enough := begins.length_le
    have long : "http".toList.length = 4 := by decide
    have within := (infix_of_mem_givenParts inside).length_le
    rw [← String.length_toList] at few
    omega
  have stored := addressed.reached.keysStored
  have noted : addressOf i.toUri ∈ r.values FieldName.normUri
      ↔ addressOf i.toUri ∈ givenParts i.toUri := by
    rw [mem_normUri_of_makes makes, written, stored.mem_values_put, or_iff_right short]
    intro w member
    rw [written, stored.mem_values_put] at member
    rcases member with before | new
    · obtain ⟨v, -, -, inside⟩ := (mem_normUri_of_addressed addressed).mp before
      exact ⟨v.field.value, inside⟩
    · exact ⟨i.toUri, new⟩
  refine ⟨given, ⟨i, found, rfl⟩, ?_, ?_⟩
  · rw [noted]
    exact addressOf_mem_self given trimmed
  · intro plain
    apply AuthorityIdentifier.startsWith_toUri read
    intro a member
    rcases beside with rfl | ⟨named, rfl⟩
    · cases member
    · exact plain.resolve_left named a member

end Noted

/-- Only the record at the address of a draft answers for it. -/
theorem answerOf_congr {service : AuthorityService ω τ} {uri : String}
    {lookup : String → Action ω LookupResult} (given : b.authority = some service)
    (base : service.base = defaultVocabulary) (identified : d.identifier = some uri)
    (same : lookup (addressOf uri) = service.lookup (addressOf uri)) :
    { b with authority := some { service with lookup } }.answerOf rule d = b.answerOf rule d := by
  have alike : resolve { service with lookup } rule uri = resolve service rule uri := by
    have address : AuthorityService.resolveUri service.base uri = addressOf uri := by
      rw [base, addressOf]
    have apart : ∀ style, { service with lookup }.resolve style uri = service.resolve style uri :=
      AuthorityService.resolve_congr (by rw [address, same])
    funext state
    unfold resolve
    dsimp only
    rw [apart]
  unfold answerOf
  rw [given, identified]
  exact alike

/-- The address of a record comes from a field or from the attributes of its element; and of all that can
be looked up, only what is found at its completed form goes into the record. -/
theorem address_of_build {service : AuthorityService ω τ} (given : b.authority = some service)
    (base : service.base = defaultVocabulary) {e : GroupEntity} {element : Cursor} {label : String}
    {s s' : BuildState ω τ} {group : GroupArena}
    (ran : b.build rule e element label restricted s = .ok group s') :
    ∀ r ∈ group.toList, ∀ uri, r.authorityUri = some uri →
      ∃ t d answer own referenced cited, TaskOf e element label r t
        ∧ b.Makes rule restricted t d answer r ∧ b.Reads rule t own referenced cited ∧ uri ≠ ""
        ∧ (∀ lookup, lookup (addressOf uri) = service.lookup (addressOf uri) →
          { b with authority := some { service with lookup } }.answerOf rule d = b.answerOf rule d)
        ∧ (FieldAddress (own ++ referenced.getD [] ++ cited.getD []) uri (r.values FieldName.normUri)
          ∨ AttributeAddress t.element uri (r.values FieldName.normUri)) := by
  intro r member uri noted
  obtain ⟨t, d, answer, task, makes, same⟩ := identified_of_build ran r member
  rw [noted] at same
  obtain ⟨w, w', drafted⟩ := makes.drafted
  obtain ⟨own, referenced, cited, first, reads, addressed, made⟩ := addressed_of_draft drafted
  have resolves : b.authority.isSome = true := by simp [given]
  rw [if_pos resolves] at made
  have source : uri ≠ "" ∧ (FieldAddress (own ++ referenced.getD [] ++ cited.getD []) uri
        (r.values FieldName.normUri)
      ∨ AttributeAddress t.element uri (r.values FieldName.normUri)) := by
    unfold Draft.takeAttributeIdentifier at made
    split at made
    case h_1 i absent found =>
      subst made
      cases same
      obtain ⟨some, address⟩ := attributeAddress_of_makes makes reads resolves addressed absent found rfl
      exact ⟨some, .inr address⟩
    case h_2 =>
      subst made
      obtain ⟨some, address⟩ := fieldAddress_of_makes makes reads addressed same.symm
      exact ⟨some, .inl address⟩
  refine ⟨t, d, answer, own, referenced, cited, task, makes, reads, source.1, ?_, source.2⟩
  intro lookup alike
  exact answerOf_congr given base same.symm alike

section Vocabulary

/-- An element whose attributes name an authority record. -/
def attributedElement (vocabulary : String) : Cursor :=
  let root : Xml.Node := .element { plain := "n" }
    [{ name := { plain := "authority" }, value := "gnd" },
      { name := { plain := "authorityURI" }, value := vocabulary },
      { name := { plain := "valueURI" }, value := "77" }] [] []
  .inside (.document { content := [root] }) 0 root

def buildAttributed (vocabulary : String) : Action (BuildState Unit Unit) GroupArena :=
  identifying.build nameRule identifiedEntity (attributedElement vocabulary) "N" false

theorem address_of_identified :
    (∃ group s', buildIdentified ⟨{}, ⟨(), none⟩⟩ = .ok group s'
      ∧ ∀ r ∈ group.toList, r.authorityUri = some "77"
        ∧ addressOf "77" ∈ r.values FieldName.normUri)
    ∧ ∃ group s', buildAttributed "https://d-nb.info/gnd/" ⟨{}, ⟨(), none⟩⟩ = .ok group s'
      ∧ ∀ r ∈ group.toList, ∀ uri, r.authorityUri = some uri →
        addressOf uri ∈ r.values FieldName.normUri := by
  constructor
  · obtain ⟨group, s', ran, shown⟩ := Action.ok_of_outcome_map (g := fun group : GroupArena =>
        decide (∀ r ∈ group.toList, r.parent = none ∧ r.authorityUri = some "77"))
      (b := true) (x := buildIdentified) (s := ⟨{}, ⟨(), none⟩⟩) (by decide +kernel)
    refine ⟨group, s', ran, ?_⟩
    intro r member
    obtain ⟨parent, noted⟩ := of_decide_eq_true shown r member
    obtain ⟨t, d, answer, own, referenced, cited, task, -, -, -, -, source⟩ :=
      address_of_build rfl rfl ran r member "77" noted
    obtain rfl := task.top parent
    refine ⟨noted, ?_⟩
    rcases source with field | attributes
    · exact field.notes (by decide) (by decide)
    · obtain ⟨i, found, -⟩ := attributes.source
      have unnamed : AuthorityIdentifier.ofAttributes? identifiedElement.attribute? = none := by
        decide +kernel
      rw [unnamed] at found
      cases found
  · obtain ⟨group, s', ran, shown⟩ := Action.ok_of_outcome_map (g := fun group : GroupArena =>
        decide (∀ r ∈ group.toList, r.parent = none
          ∧ r.authorityUri = some "https://d-nb.info/gnd/77"))
      (b := true) (x := buildAttributed "https://d-nb.info/gnd/") (s := ⟨{}, ⟨(), none⟩⟩)
      (by decide +kernel)
    refine ⟨group, s', ran, ?_⟩
    intro r member uri noted
    obtain ⟨parent, same⟩ := of_decide_eq_true shown r member
    obtain ⟨t, d, answer, own, referenced, cited, task, -, -, -, -, source⟩ :=
      address_of_build rfl rfl ran r member uri noted
    obtain rfl := task.top parent
    obtain rfl := Option.some.inj (same.symm.trans noted)
    rcases source with field | attributes
    · exact field.notes (by decide) (by decide)
    · exact attributes.notes.mpr ⟨attributes.begins (.inr (by decide +kernel)), by decide⟩

/-- Beside a blank vocabulary an identifier is noted as it stands, and looked up at another address. -/
theorem incomplete_address_of_blank :
    ∃ group s', buildAttributed " " ⟨{}, ⟨(), none⟩⟩ = .ok group s'
      ∧ group.toList.map (fun r => (r.authorityUri, r.values FieldName.normUri))
        = [(some "77", ["77"])]
      ∧ addressOf "77" = "https://d-nb.info/gnd/77" := by
  have shown : ((buildAttributed " ").outcome ⟨{}, ⟨(), none⟩⟩).map
      (fun group => group.toList.map fun r => (r.authorityUri, r.values FieldName.normUri))
        = .ok [(some "77", ["77"])] := by
    decide +kernel
  obtain ⟨group, s', ran, shown⟩ := Action.ok_of_outcome_map shown
  exact ⟨group, s', ran, shown, by decide⟩

end Vocabulary

end GroupBuilder

end MetadataIndex
