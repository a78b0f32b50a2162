import MetadataIndex.Authority.Lookup
import MetadataIndex.Proofs.Json.Written
import MetadataIndex.Proofs.Text.Trimmed
import MetadataIndex.Proofs.Xml.Written

/-!
# The shapes of a payload

A record of keys with texts may come as a mapping, as a list of keys with values, or as elements under
a root. Whatever shape carries it, the entries are its texts in order, each with its key.
-/

set_option autoImplicit false

namespace MetadataIndex.Payload

/-! ## Records -/

/-- A text that every shape can hold. -/
structure IsEntryText (t : String) : Prop where
  given : t ≠ ""
  trimmed : Text.trim t = t
  steady : ∀ c ∈ t.toList, Xml.IsSteady c

/-- Keys, each once and with at least one text. -/
structure IsRecord (record : List (String × List String)) : Prop where
  once : (record.map (·.1)).Nodup
  named : ∀ entry ∈ record, Xml.isListedName entry.1 = true
  given : ∀ entry ∈ record, entry.2 ≠ []
  texts : ∀ entry ∈ record, ∀ t ∈ entry.2, IsEntryText t

instance : DecidablePred IsEntryText := fun t =>
  decidable_of_iff (t ≠ "" ∧ Text.trim t = t ∧ t.toList.all (fun c => decide (Xml.IsSteady c)) = true)
    ⟨fun ⟨given, trimmed, steady⟩ => ⟨given, trimmed, by simpa using steady⟩,
      fun text => ⟨text.given, text.trimmed, by simpa using text.steady⟩⟩

instance : DecidablePred IsRecord := fun record =>
  decidable_of_iff ((record.map (·.1)).Nodup ∧ (∀ entry ∈ record, Xml.isListedName entry.1 = true)
      ∧ (∀ entry ∈ record, entry.2 ≠ []) ∧ ∀ entry ∈ record, ∀ t ∈ entry.2, IsEntryText t)
    ⟨fun ⟨once, named, given, texts⟩ => ⟨once, named, given, texts⟩,
      fun wf => ⟨wf.once, wf.named, wf.given, wf.texts⟩⟩

/-- The texts of a record, each with its key. -/
def pairs (record : List (String × List String)) : List (String × String) :=
  record.flatMap fun (key, texts) => texts.map (key, ·)

variable {record : List (String × List String)} {pair : String × String}

theorem pairs_cons (key : String) (texts : List String) (more : List (String × List String)) :
    pairs ((key, texts) :: more) = texts.map (key, ·) ++ pairs more := by
  rw [pairs, List.flatMap_cons, ← pairs]

theorem mem_pairs {key t : String} :
    (key, t) ∈ pairs record ↔ ∃ texts, (key, texts) ∈ record ∧ t ∈ texts := by
  simp only [pairs, List.mem_flatMap, List.mem_map, Prod.mk.injEq]
  constructor
  · rintro ⟨⟨key, texts⟩, member, t, inside, rfl, rfl⟩
    exact ⟨texts, member, inside⟩
  · rintro ⟨texts, member, inside⟩
    exact ⟨(key, texts), member, t, inside, rfl, rfl⟩

theorem IsRecord.text (wf : IsRecord record) {key t : String} (member : (key, t) ∈ pairs record) :
    IsEntryText t := by
  obtain ⟨texts, inside, held⟩ := mem_pairs.mp member
  exact wf.texts (key, texts) inside t held

theorem IsRecord.tail {entry : String × List String} (wf : IsRecord (entry :: record)) :
    IsRecord record where
  once := (List.nodup_cons.mp wf.once).2
  named := fun other member => wf.named other (.tail _ member)
  given := fun other member => wf.given other (.tail _ member)
  texts := fun other member => wf.texts other (.tail _ member)

theorem isEntryKey_of_listed {key : String} (listed : Xml.isListedName key = true) :
    isEntryKey key = true := by
  obtain ⟨first, more, split, starts, -⟩ := Xml.isListedName_iff.mp listed
  have unmarked : Text.startsWith key "@" = false := by
    have other : first ≠ '@' := Xml.ne_of_isListedStart starts (by decide)
    rw [Text.startsWith, split]
    simp [Text.beginsWith, Text.dropLiteral?, other.symm]
  have untitled : (key == "#text") = false := by
    have other : first ≠ '#' := Xml.ne_of_isListedStart starts (by decide)
    rw [beq_eq_false_iff_ne]
    rintro rfl
    exact other (List.cons.inj split).1.symm
  rw [isEntryKey, unmarked, untitled]
  rfl

/-! ## Mappings and lists -/

/-- The value of a key in a mapping: its texts, or the text itself if there is only one. -/
inductive HoldsTexts : List String → Json → Prop where
  | all (texts : List String) : HoldsTexts texts (.array (texts.map .text))
  | single (t : String) : HoldsTexts [t] (.text t)

/-- The members of a mapping hold the texts of a record. -/
def IsMapping (record : List (String × List String)) (members : List (String × Json)) : Prop :=
  List.Forall₂ (fun entry member => member.1 = entry.1 ∧ HoldsTexts entry.2 member.2) record members

/-- The items of a list name the keys and the texts of pairs. -/
def IsListing (pairs : List (String × String)) (items : List Json) : Prop :=
  List.Forall₂ (fun pair item => item.member? "key" = some (.text pair.1)
    ∧ item.member? "value" = some (.text pair.2)) pairs items

/-- The elements among content are those for pairs. -/
inductive IsElements : List (String × String) → List Xml.Markup → Prop where
  | nil : IsElements [] []
  | between {pairs : List (String × String)} {content : List Xml.Markup} (s : String) :
      IsElements pairs content → IsElements pairs (.text s :: content)
  | next {pairs : List (String × String)} {content : List Xml.Markup} {key t : String}
      {attributes : List (String × String)} :
      IsElements pairs content →
      IsElements ((key, t) :: pairs) (.element key attributes [.text t] :: content)

/-- A text carries a record in a format. -/
inductive Carries (record : List (String × List String)) : PayloadFormat → String → Prop where
  | mapping {members : List (String × Json)} {s : String} :
      IsMapping record members → Json.read s = .ok (.object members) → Carries record .json s
  | listing {items : List Json} {s : String} :
      IsListing (pairs record) items → Json.read s = .ok (.array items) → Carries record .json s
  | elements {root : String} {attributes : List (String × String)} {content : List Xml.Markup}
      {s : String} :
      IsElements (pairs record) content →
      Xml.Writes (xmlPart (Text.trim s)) [.element root attributes content] → Carries record .xml s

theorem HoldsTexts.read {texts : List String} {v : Json} (holds : HoldsTexts texts v) :
    (valuesOf v).filterMap textOfValue = texts := by
  cases holds with
  | all =>
    rw [valuesOf, List.filterMap_map]
    exact List.filterMap_some
  | single => rfl

theorem entriesOfMembers_mapping (wf : IsRecord record) {members : List (String × Json)}
    (mapping : IsMapping record members) : entriesOfMembers members = pairs record := by
  induction mapping with
  | nil => rfl
  | @cons entry member record members first _ ih =>
    obtain ⟨key, texts⟩ := entry
    obtain ⟨name, value⟩ := member
    obtain ⟨rfl, holds⟩ := first
    have kept : isEntryKey name = true := isEntryKey_of_listed (wf.named (name, texts) (.head _))
    have split : entriesOfMembers ((name, value) :: members)
        = ((valuesOf value).filterMap textOfValue).map (name, ·) ++ entriesOfMembers members := by
      rw [entriesOfMembers, List.filter_cons, if_pos kept]
      rfl
    rw [split, ih wf.tail, holds.read, pairs_cons]

theorem entryOfItem_named {item : Json} (key : item.member? "key" = some (.text pair.1))
    (value : item.member? "value" = some (.text pair.2)) : entryOfItem item = .ok (some pair) := by
  rw [entryOfItem, key, Json.member, value]
  rfl

theorem entriesOfJson_listing {pairs : List (String × String)} {items : List Json}
    (listing : IsListing pairs items) : entriesOfJson (.array items) = .ok pairs := by
  have each : items.mapM entryOfItem = .ok (pairs.map some) := by
    induction listing with
    | nil => rfl
    | @cons pair item pairs items first _ ih =>
      rw [List.mapM_cons, entryOfItem_named first.1 first.2, ih]
      rfl
  rw [entriesOfJson, each]
  exact congrArg Except.ok (by simp)

theorem directChars_text (t : String) : directChars [.text t] = t := by
  simp [directChars, String.join]

theorem childTexts_elements {pairs : List (String × String)} {content : List Xml.Markup}
    (elements : IsElements pairs content) (trimmed : ∀ pair ∈ pairs, Text.trim pair.2 = pair.2) :
    childTexts content = pairs := by
  induction elements with
  | nil => rfl
  | between s _ ih => exact ih trimmed
  | @next pairs content key t attributes _ ih =>
    obtain ⟨first, others⟩ := List.forall_mem_cons.mp trimmed
    have split : childTexts (.element key attributes [.text t] :: content)
        = (key, Text.trim (directChars [.text t])) :: childTexts content := rfl
    rw [split, directChars_text, first, ih others]

theorem key_ne_of_mem {key : String} {pair : String × String} (absent : key ∉ record.map (·.1))
    (member : pair ∈ pairs record) : pair.1 ≠ key := by
  obtain ⟨texts, inside, -⟩ := mem_pairs.mp member
  rintro rfl
  exact absent (List.mem_map_of_mem inside)

theorem filter_pairs (once : (record.map (·.1)).Nodup) {key : String} {texts : List String}
    (member : (key, texts) ∈ record) : (pairs record).filter (·.1 == key) = texts.map (key, ·) := by
  induction record with
  | nil => cases member
  | cons entry record ih =>
    obtain ⟨name, held⟩ := entry
    obtain ⟨absent, once⟩ := List.nodup_cons.mp once
    rw [pairs_cons, List.filter_append]
    rcases List.mem_cons.mp member with same | later
    · cases same
      have own : (texts.map (key, ·)).filter (·.1 == key) = texts.map (key, ·) := by
        rw [List.filter_eq_self]
        simp
      have others : (pairs record).filter (·.1 == key) = [] := by
        rw [List.filter_eq_nil_iff]
        intro pair inside
        simpa using key_ne_of_mem absent inside
      rw [own, others, List.append_nil]
    · have other : name ≠ key := by
        rintro rfl
        exact absent (List.mem_map_of_mem (f := (·.1)) later)
      have none : (held.map (name, ·)).filter (·.1 == key) = [] := by
        rw [List.filter_eq_nil_iff]
        simp [other]
      rw [none, List.nil_append, ih once later]

theorem eraseDups_keys (once : (record.map (·.1)).Nodup) (given : ∀ entry ∈ record, entry.2 ≠ []) :
    ((pairs record).map (·.1)).eraseDups = record.map (·.1) := by
  induction record with
  | nil => rfl
  | cons entry record ih =>
    obtain ⟨key, texts⟩ := entry
    obtain ⟨absent, once'⟩ := List.nodup_cons.mp once
    obtain ⟨some, given'⟩ := List.forall_mem_cons.mp given
    obtain ⟨t, texts, rfl⟩ := List.exists_cons_of_ne_nil some
    have own : (texts.map fun _ => key).filter (fun name => !name == key) = [] := by
      rw [List.filter_eq_nil_iff]
      simp
    have others : ((pairs record).map (·.1)).filter (fun name => !name == key)
        = (pairs record).map (·.1) := by
      rw [List.filter_eq_self]
      intro name member
      obtain ⟨pair, inside, rfl⟩ := List.mem_map.mp member
      simpa using key_ne_of_mem absent inside
    have split : (pairs ((key, t :: texts) :: record)).map (·.1)
        = key :: (texts.map (fun _ => key) ++ (pairs record).map (·.1)) := by
      rw [pairs_cons]
      simp [Function.comp_def]
    rw [split, List.eraseDups_cons, List.filter_append, own, others, List.nil_append, ih once' given',
      List.map_cons]

/-- Pairs that stand together by their names are in order already. -/
theorem gathered_pairs (once : (record.map (·.1)).Nodup) (given : ∀ entry ∈ record, entry.2 ≠ []) :
    gathered (pairs record) = pairs record := by
  have each : ∀ entry ∈ record, (pairs record).filter (·.1 == entry.1) = entry.2.map (entry.1, ·) :=
    fun _ member => filter_pairs once member
  rw [gathered, eraseDups_keys once given, List.flatMap_map, List.flatMap_congr each]
  rfl

/-! ## The part of a text that is a document -/

variable {cs : List Char} {c : Char}

theorem dropDeclarations_of_length_zero (none : declarationLength (c :: cs) = 0) :
    dropDeclarations 0 (c :: cs) = c :: dropDeclarations 0 cs := by
  rw [dropDeclarations, none]

theorem dropDeclarations_char (other : c ≠ '<') (rest : List Char) :
    dropDeclarations 0 (c :: rest) = c :: dropDeclarations 0 rest := by
  apply dropDeclarations_of_length_zero
  simp [declarationLength, Text.dropLiteral?, other.symm]

theorem dropDeclarations_plain (plain : '<' ∉ cs) (rest : List Char) :
    dropDeclarations 0 (cs ++ rest) = cs ++ dropDeclarations 0 rest := by
  induction cs with
  | nil => rfl
  | cons c cs ih =>
    obtain ⟨other, plain⟩ := not_or.mp (mt List.mem_cons.mpr plain)
    rw [List.cons_append, dropDeclarations_char (Ne.symm other), ih plain, List.cons_append]

theorem dropDeclarations_tag (other : c ≠ '?') (rest : List Char) :
    dropDeclarations 0 ('<' :: c :: rest) = '<' :: dropDeclarations 0 (c :: rest) := by
  apply dropDeclarations_of_length_zero
  simp [declarationLength, Text.dropLiteral?, other.symm]

theorem dropDeclarations_skip (lead rest : List Char) :
    dropDeclarations lead.length (lead ++ rest) = dropDeclarations 0 rest := by
  induction lead with
  | nil => rfl
  | cons c lead ih =>
    rw [List.length_cons, List.cons_append, dropDeclarations, ih]

theorem dropDeclarations_written {content : List Xml.Markup} (writes : Xml.Writes cs content)
    (rest : List Char) : dropDeclarations 0 (cs ++ rest) = cs ++ dropDeclarations 0 rest := by
  induction writes generalizing rest with
  | nil => rfl
  | text _ spells _ _ ih =>
    rw [List.append_assoc, dropDeclarations_plain spells.not_mem, ih, List.append_assoc]
  | @element name attributes tag inner cs content more listed tagged _ _ _ inside beside =>
    have opened (after : List Char) :
        dropDeclarations 0 ('<' :: (name.toList ++ after))
          = '<' :: dropDeclarations 0 (name.toList ++ after) := by
      obtain ⟨first, others, split, starts, -⟩ := Xml.isListedName_iff.mp listed
      have other : first ≠ '?' := Xml.ne_of_isListedStart starts (by decide)
      rw [split, List.cons_append, dropDeclarations_tag other]
    have plain := Xml.not_mem_name listed
    simp only [List.cons_append, List.append_assoc]
    rw [opened, dropDeclarations_plain plain, dropDeclarations_plain tagged.not_mem,
      dropDeclarations_char (by decide), inside, dropDeclarations_tag (by decide),
      dropDeclarations_char (by decide), dropDeclarations_plain plain,
      dropDeclarations_char (by decide), beside]

theorem declarationLength_declaration {inner : List Char} (closed : '?' ∉ inner) (rest : List Char) :
    declarationLength ("<?xml".toList ++ (inner ++ '?' :: '>' :: rest)) = inner.length + 7 := by
  have whole : (inner ++ '?' :: '>' :: rest).takeWhile (· != '?') = inner := by
    rw [List.takeWhile_append_of_pos (Xml.bne_of_not_mem closed)]
    simp
  rw [declarationLength, Text.dropLiteral?_eq_some_iff.mpr rfl]
  simp only [whole, List.drop_left]

/-- A declaration before a document is no part of it. -/
theorem dropDeclarations_declaration {inner : List Char} (closed : '?' ∉ inner) (rest : List Char) :
    dropDeclarations 0 ("<?xml".toList ++ (inner ++ '?' :: '>' :: rest)) = dropDeclarations 0 rest := by
  have length := declarationLength_declaration closed rest
  have skipped := dropDeclarations_skip ("?xml".toList ++ (inner ++ ['?', '>'])) rest
  have count : ("?xml".toList ++ (inner ++ ['?', '>'])).length = inner.length + 6 := by
    simp
  rw [count, List.append_assoc, List.append_assoc] at skipped
  have front : "<?xml".toList ++ (inner ++ '?' :: '>' :: rest)
      = '<' :: ("?xml".toList ++ (inner ++ '?' :: '>' :: rest)) := rfl
  rw [front] at length ⊢
  rw [dropDeclarations, length]
  exact skipped

/-- The text begins and ends with a tag. -/
def IsFramed (cs : List Char) : Prop := ∃ middle, cs = '<' :: (middle ++ ['>'])

theorem isFramed_of_writes {root : String} {attributes : List (String × String)}
    {content : List Xml.Markup} (writes : Xml.Writes cs [.element root attributes content]) :
    IsFramed cs := by
  cases writes with
  | @element _ _ tag inner after _ _ _ _ _ _ rest =>
    cases rest
    refine ⟨root.toList ++ (tag ++ '>' :: (inner ++ '<' :: '/' :: root.toList)), ?_⟩
    simp

theorem IsFramed.append (framed : IsFramed cs) (lead : List Char) : IsFramed ('<' :: (lead ++ cs)) := by
  obtain ⟨middle, rfl⟩ := framed
  exact ⟨lead ++ '<' :: middle, by simp⟩

theorem IsFramed.strip {p : Char → Bool} (framed : IsFramed cs) (front : p '<' = false)
    (back : p '>' = false) : Text.strip p cs = cs := by
  obtain ⟨middle, rfl⟩ := framed
  rw [Text.strip_eq_self_iff]
  refine ⟨?_, ?_⟩
  · simpa using front
  · rw [← List.cons_append, List.getLast?_concat]
    simpa using back

theorem strip_append {p : Char → Bool} {lead : List Char} (all : ∀ c ∈ lead, p c = true)
    (rest : List Char) : Text.strip p (lead ++ rest) = Text.strip p rest := by
  rw [Text.strip, List.dropWhile_append_of_pos all, ← Text.strip]

theorem xmlPart_trim {text : List Char} (framed : IsFramed text) :
    xmlPart (Text.trim (String.ofList text))
      = Text.strip isOrderMark (Text.strip Text.isBlank (dropDeclarations 0 text)) := by
  have trimmed := framed.strip (p := Text.isBlank) (by decide) (by decide)
  rw [xmlPart, Text.trim, String.toList_ofList, String.toList_ofList, trimmed]

variable {root : String} {attributes : List (String × String)} {content : List Xml.Markup}

/-- What is left of a document once its declarations are dropped is the document. -/
theorem strip_written (writes : Xml.Writes cs [.element root attributes content]) :
    Text.strip isOrderMark (Text.strip Text.isBlank (dropDeclarations 0 cs)) = cs := by
  have framed := isFramed_of_writes writes
  have kept := dropDeclarations_written writes []
  rw [List.append_nil, dropDeclarations, List.append_nil] at kept
  rw [kept, framed.strip (by decide) (by decide), framed.strip (by decide) (by decide)]

theorem xmlPart_written (writes : Xml.Writes cs [.element root attributes content]) :
    xmlPart (Text.trim (String.ofList cs)) = cs := by
  rw [xmlPart_trim (isFramed_of_writes writes), strip_written writes]

theorem xmlPart_declared (writes : Xml.Writes cs [.element root attributes content])
    {inner blanks : List Char} (closed : '?' ∉ inner) (gap : ∀ c ∈ blanks, Text.isBlank c = true) :
    xmlPart (Text.trim (String.ofList ("<?xml".toList ++ (inner ++ '?' :: '>' :: (blanks ++ cs)))))
      = cs := by
  have plain : '<' ∉ blanks := fun member => absurd (gap '<' member) (by decide)
  have framed : IsFramed ("<?xml".toList ++ (inner ++ '?' :: '>' :: (blanks ++ cs))) := by
    have long := (isFramed_of_writes writes).append ("?xml".toList ++ (inner ++ '?' :: '>' :: blanks))
    simpa using long
  rw [xmlPart_trim framed, dropDeclarations_declaration closed, dropDeclarations_plain plain,
    strip_append gap, strip_written writes]

/-! ## What is carried is read -/

theorem readXml_elements (wf : IsRecord record) {s : String}
    (elements : IsElements (pairs record) content)
    (writes : Xml.Writes (xmlPart s) [.element root attributes content]) :
    readXml s = .ok (pairs record) := by
  have trimmed : ∀ pair ∈ pairs record, Text.trim pair.2 = pair.2 :=
    fun pair member => (wf.text member).trimmed
  have given : (pairs record).filter (!·.2.isEmpty) = pairs record := by
    rw [List.filter_eq_self]
    intro pair member
    simpa using (wf.text member).given
  have entries : entriesOfRoot (.element root attributes content) = pairs record := by
    rw [entriesOfRoot, childTexts_elements elements trimmed, gathered_pairs wf.once wf.given, given]
  have some : (xmlPart s).isEmpty = false := by
    obtain ⟨middle, same⟩ := isFramed_of_writes writes
    rw [same]
    rfl
  have read := Xml.DocumentMarkup.ofChars_written writes
  simp only [readXml, some, read, writes.haveListedNames]
  exact congrArg Except.ok entries

theorem readJson_mapping (wf : IsRecord record) {members : List (String × Json)} {s : String}
    (mapping : IsMapping record members) (read : Json.read s = .ok (.object members)) :
    readJson s = .ok (pairs record) := by
  rw [readJson, read]
  exact congrArg Except.ok (entriesOfMembers_mapping wf mapping)

theorem readJson_listing {items : List Json} {s : String} (listing : IsListing (pairs record) items)
    (read : Json.read s = .ok (.array items)) : readJson s = .ok (pairs record) := by
  rw [readJson, read]
  exact entriesOfJson_listing listing

/-! ## Every shape can be written -/

theorem isTextual_all (texts : List String) : Json.AreTextual (texts.map .text) := by
  induction texts with
  | nil => exact trivial
  | cons t texts ih => exact ⟨trivial, ih⟩

theorem isTextual_mapping {members : List (String × Json)} (mapping : IsMapping record members)
    (once : (record.map (·.1)).Nodup) : Json.IsTextual (.object members) := by
  have keys : members.map (·.1) = record.map (·.1) := by
    clear once
    induction mapping with
    | nil => rfl
    | cons first _ ih => rw [List.map_cons, List.map_cons, ih, first.1]
  refine ⟨by rwa [keys], ?_⟩
  clear once keys
  induction mapping with
  | nil => exact trivial
  | @cons entry member record members first _ ih =>
    refine ⟨?_, ih⟩
    obtain ⟨key, texts⟩ := entry
    obtain ⟨name, value⟩ := member
    obtain ⟨-, holds⟩ := first
    cases holds with
    | all => exact isTextual_all _
    | single => exact trivial

/-- The items for pairs. -/
def itemsOf (pairs : List (String × String)) : List Json :=
  pairs.map fun (key, t) => .object [("key", .text key), ("value", .text t)]

theorem isListing_itemsOf (pairs : List (String × String)) : IsListing pairs (itemsOf pairs) := by
  induction pairs with
  | nil => exact .nil
  | cons pair pairs ih => exact .cons ⟨rfl, rfl⟩ ih

theorem isTextual_itemsOf (pairs : List (String × String)) : Json.AreTextual (itemsOf pairs) := by
  induction pairs with
  | nil => exact trivial
  | cons pair pairs ih => exact ⟨⟨by simp, trivial, trivial, trivial⟩, ih⟩

/-- A character as it is written in a document. -/
def escaped (c : Char) : List Char :=
  if c = '<' then "&lt;".toList
  else if c = '>' then "&gt;".toList
  else if c = '&' then "&amp;".toList
  else [c]

/-- The document with an element for each text of a record. -/
def documentOf (root : String) (record : List (String × List String)) : List Char :=
  inElement root ((pairs record).flatMap fun (key, t) => inElement key (t.toList.flatMap escaped))
where
  /-- Written content between the tags of an element. -/
  inElement (name : String) (inner : List Char) : List Char :=
    '<' :: (name.toList ++ '>' :: (inner ++ '<' :: '/' :: (name.toList ++ ['>'])))

theorem spells_escaped {s : List Char} (steady : ∀ c ∈ s, Xml.IsSteady c) :
    Xml.Spells (s.flatMap escaped) s := by
  induction s with
  | nil => exact .nil
  | cons c s ih =>
    obtain ⟨first, others⟩ := List.forall_mem_cons.mp steady
    have later := ih others
    rw [List.flatMap_cons, escaped]
    split
    · next same =>
      subst same
      exact .named (show ("lt", '<') ∈ Xml.namedChars by decide) later
    split
    · next same =>
      subst same
      exact .named (show ("gt", '>') ∈ Xml.namedChars by decide) later
    split
    · next same =>
      subst same
      exact .named (show ("amp", '&') ∈ Xml.namedChars by decide) later
    · next opens closes refers =>
      have plain : Xml.isMark c = false := by simp [Xml.isMark, opens, closes, refers]
      exact .plain plain first later

theorem writes_inElement {name : String} {inner cs : List Char} {content more : List Xml.Markup}
    (listed : Xml.isListedName name = true) (within : Xml.Writes inner content)
    (later : Xml.Writes cs more) :
    Xml.Writes (documentOf.inElement name inner ++ cs) (.element name [] content :: more) := by
  have writes := Xml.Writes.element listed .nil .nil within later
  simpa [documentOf.inElement] using writes

theorem exists_elements {pairs : List (String × String)}
    (named : ∀ pair ∈ pairs, Xml.isListedName pair.1 = true ∧ IsEntryText pair.2) :
    ∃ content, IsElements pairs content ∧ Xml.Writes (pairs.flatMap fun (key, t) =>
      documentOf.inElement key (t.toList.flatMap escaped)) content := by
  induction pairs with
  | nil => exact ⟨[], .nil, .nil⟩
  | cons pair pairs ih =>
    obtain ⟨key, t⟩ := pair
    obtain ⟨⟨listed, text⟩, others⟩ := List.forall_mem_cons.mp named
    obtain ⟨content, elements, writes⟩ := ih others
    have inner := Xml.Writes.text text.given (spells_escaped text.steady) (by simp) .nil
    rw [List.append_nil] at inner
    exact ⟨_, .next elements, writes_inElement listed inner writes⟩

theorem exists_writes_documentOf (wf : IsRecord record) (listed : Xml.isListedName root = true) :
    ∃ content, IsElements (pairs record) content
      ∧ Xml.Writes (documentOf root record) [.element root [] content] := by
  have named : ∀ pair ∈ pairs record, Xml.isListedName pair.1 = true ∧ IsEntryText pair.2 := by
    intro pair member
    obtain ⟨texts, inside, -⟩ := mem_pairs.mp member
    exact ⟨wf.named _ inside, wf.text member⟩
  obtain ⟨content, elements, writes⟩ := exists_elements named
  have whole := writes_inElement listed writes .nil
  rw [List.append_nil] at whole
  exact ⟨content, elements, whole⟩

end MetadataIndex.Payload

namespace MetadataIndex.LookupOptions

open Payload

variable {record : List (String × List String)}

theorem entriesOf_carried (wf : IsRecord record) (o : LookupOptions) {r : Web.Response}
    (carried : Carries record (o.formatOf r) r.text) : o.entriesOf r = .ok (pairs record) := by
  generalize known : o.formatOf r = format at carried
  rw [entriesOf, known]
  cases carried with
  | mapping mapping read => exact readJson_mapping wf mapping read
  | listing listing read => exact readJson_listing listing read
  | elements elements writes => exact readXml_elements wf elements writes

theorem isVisible_of_carried {format : PayloadFormat} {s : String} (carried : Carries record format s) :
    Text.IsVisible s := by
  cases carried with
  | mapping _ read => exact Json.isVisible_of_read read
  | listing _ read => exact Json.isVisible_of_read read
  | elements _ writes =>
    by_contra hidden
    obtain ⟨middle, framed⟩ := isFramed_of_writes writes
    rw [Text.trim_eq_empty_iff.mpr hidden] at framed
    cases framed

/-- Whatever carries a record, the result of a lookup has its texts in order, each with its key. -/
theorem resultOf_carried (wf : IsRecord record) (o : LookupOptions) {r : Web.Response}
    (success : r.isSuccess = true) (carried : Carries record (o.formatOf r) r.text) :
    o.resultOf r = .found (pairs record) (some r.status) := by
  have below : r.status ≠ 404 := by
    intro same
    rw [Web.Response.isSuccess, same] at success
    exact absurd success (by decide)
  have visible : (Text.trim r.text).isEmpty = false := by
    simpa using Text.trim_ne_empty_iff.mpr (isVisible_of_carried carried)
  rw [resultOf, if_neg below, if_neg (by simp [success]), if_neg (by simp [visible]),
    entriesOf_carried wf o carried]

/-- All shapes of a record agree. The mapping and the list that are written for it carry it, and so does
a document with one element for each text, under any root and with or without a declaration; whatever
carries it gives all its texts in order, each with its key. -/
theorem resultOf_shapes (wf : IsRecord record) :
    (∀ members, IsMapping record members → Carries record .json (Json.object members).render)
    ∧ Carries record .json (Json.array (itemsOf (pairs record))).render
    ∧ (∀ root, Xml.isListedName root = true →
        Carries record .xml (String.ofList (documentOf root record))
        ∧ ∀ declared blanks, '?' ∉ declared → (∀ c ∈ blanks, Text.isBlank c = true) →
          Carries record .xml (String.ofList
            ("<?xml".toList ++ (declared ++ '?' :: '>' :: (blanks ++ documentOf root record)))))
    ∧ ∀ (o : LookupOptions) (r : Web.Response), r.isSuccess = true →
        Carries record (o.formatOf r) r.text →
        o.resultOf r = .found (pairs record) (some r.status) := by
  refine ⟨?mappings, ?list, ?documents, ?results⟩
  case mappings =>
    intro members mapping
    exact .mapping mapping (Json.read_render (isTextual_mapping mapping wf.once))
  case list =>
    exact .listing (isListing_itemsOf _) (Json.read_render (isTextual_itemsOf _))
  case documents =>
    intro root listed
    obtain ⟨content, elements, writes⟩ := exists_writes_documentOf wf listed
    constructor
    · have part := xmlPart_written writes
      exact .elements elements (part.symm ▸ writes)
    · intro declared blanks closed gap
      have part := xmlPart_declared writes closed gap
      exact .elements elements (part.symm ▸ writes)
  case results =>
    intro o r success carried
    exact resultOf_carried wf o success carried

/-- A name and two further names. -/
def threeNames : List (String × List String) :=
  [("N", ["Ä"]), ("O", ["A", "B <C>"])]

def threeNamesMapping : List (String × Json) :=
  [("N", .text "Ä"), ("O", .array [.text "A", .text "B <C>"])]

def threeNamesDocument : String :=
  "<?xml version='1.0'?>\n<r><N>Ä</N><O>A</O><O>B &lt;C&gt;</O></r>"

theorem resultOf_shapes_threeNames : IsRecord threeNames
    ∧ (∀ s ∈ [(Json.object threeNamesMapping).render, (Json.array (itemsOf (pairs threeNames))).render],
        resultOf { format := some .json } { text := s } = .found (pairs threeNames) (some 200))
    ∧ resultOf { format := some .xml } { text := threeNamesDocument }
        = .found (pairs threeNames) (some 200) := by
  have wf : IsRecord threeNames := by decide +kernel
  obtain ⟨mappings, list, documents, results⟩ := resultOf_shapes wf
  have mapping : IsMapping threeNames threeNamesMapping :=
    .cons ⟨rfl, .single "Ä"⟩ (.cons ⟨rfl, .all ["A", "B <C>"]⟩ .nil)
  refine ⟨wf, ?json, ?xml⟩
  case json =>
    have carried : ∀ s ∈ [(Json.object threeNamesMapping).render,
        (Json.array (itemsOf (pairs threeNames))).render], Carries threeNames .json s := by
      simpa using ⟨mappings threeNamesMapping mapping, list⟩
    intro s member
    exact results { format := some .json } { text := s } rfl (carried s member)
  case xml =>
    have written : threeNamesDocument = String.ofList ("<?xml".toList
        ++ (" version='1.0'".toList ++ '?' :: '>' :: (['\n'] ++ documentOf "r" threeNames))) := by
      decide +kernel
    have gap : ∀ c ∈ ['\n'], Text.isBlank c = true := List.forall_mem_singleton.mpr (by decide)
    have carried := (documents "r" (by decide)).2 " version='1.0'".toList ['\n'] (by decide) gap
    rw [← written] at carried
    exact results { format := some .xml } { text := threeNamesDocument } rfl carried

end MetadataIndex.LookupOptions
