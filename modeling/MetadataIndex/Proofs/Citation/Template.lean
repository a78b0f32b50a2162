import Mathlib.Data.List.Infix
import Mathlib.Data.List.TakeWhile
import MetadataIndex.Citation.Address
import MetadataIndex.Proofs.Effect.Faults
import MetadataIndex.Proofs.Text.Percent

/-!
# Templates of addresses that are filled

A template is plain text with placeholders in it. Since there are no braces in a name, placeholders cannot
overlap, and the reader finds each of them.

An address is its template with the escaped first value of a field in the place of each of its placeholders,
all in one go. It is refused exactly when a field has no value. What is put in has nothing that delimits
the parts of an address, so that the delimiters are those of the template.
-/

set_option autoImplicit false

namespace MetadataIndex.Citation

variable {values : String → List String} {name text more front back cs : List Char}

/-! ## Placeholders -/

/-- A name that may stand between braces. -/
structure IsName (name : List Char) : Prop where
  given : name ≠ []
  chars : ∀ c ∈ name, TemplatePart.isNameChar c = true

/-- A name between braces. -/
def placeholder (name : List Char) : List Char := '\x7b' :: (name ++ ['\x7d'])

/-- A text in which no placeholder stands. -/
def IsPlain (text : List Char) : Prop := ∀ name, IsName name → ¬placeholder name <:+: text

theorem IsPlain.of_infix (plain : IsPlain text) (part : front <:+: text) : IsPlain front :=
  fun name named stands => plain name named (stands.trans part)

theorem isPlain_nil : IsPlain [] := by
  intro name _ stands
  cases List.infix_nil.mp stands

/-- Nothing, or what starts with a brace. -/
def Opens (more : List Char) : Prop := ∀ c ∈ more.head?, c = '\x7b'

theorem Opens.of_prefix (opens : Opens more) (start : front <+: more) : Opens front := by
  obtain ⟨rest, rfl⟩ := start
  cases front with
  | nil => exact nofun
  | cons c front => exact opens

theorem IsName.brace_not_mem (named : IsName name) : '\x7b' ∉ name ++ ['\x7d'] := by
  intro member
  rcases List.mem_append.mp member with inside | closing
  · exact absurd (named.chars _ inside) (by decide)
  · exact absurd closing (by decide)

/-- A placeholder has no second brace that opens one. -/
theorem split_placeholder (named : IsName name) (opens : Opens back)
    (split : front ++ back = placeholder name) : front = [] ∨ back = [] := by
  cases front with
  | nil => exact .inl rfl
  | cons c front =>
    cases back with
    | nil => exact .inr rfl
    | cons d back =>
      have brace : d = '\x7b' := opens d rfl
      have later : d ∈ name ++ ['\x7d'] := by
        rw [← (List.cons.inj split).2]
        exact List.mem_append_right _ (.head _)
      rw [brace] at later
      exact absurd later named.brace_not_mem

/-- A placeholder at the start of a text does not reach into the next one. -/
theorem placeholder_prefix_of_append {c : Char} (named : IsName name) (opens : Opens more)
    (start : placeholder name <+: c :: text ++ more) : placeholder name <+: c :: text := by
  rcases List.prefix_or_prefix_of_prefix start (List.prefix_append _ _) with inside | ⟨rest, split⟩
  · exact inside
  · rw [← split, List.prefix_append_right_inj] at start
    rcases split_placeholder named (opens.of_prefix start) split with none | rfl
    · cases none
    · rw [← split, List.append_nil]

theorem placeholder_infix_append (named : IsName name) (opens : Opens more) :
    placeholder name <:+: text ++ more ↔ placeholder name <:+: text ∨ placeholder name <:+: more := by
  constructor
  · intro stands
    rcases List.infix_append_iff.mp stands with before | after | ⟨front, back, split, ends, start⟩
    · exact .inl before
    · exact .inr after
    · rcases split_placeholder named (opens.of_prefix start) split.symm with rfl | rfl
      · rw [split]
        exact .inr start.isInfix
      · rw [split, List.append_nil]
        exact .inl ends.isInfix
  · rintro (before | after)
    · exact before.trans (List.prefix_append _ _).isInfix
    · exact after.trans (List.suffix_append _ _).isInfix

/-- No placeholder starts before a brace. -/
theorem placeholder_infix_of_append (closed : '\x7b' ∉ front)
    (stands : placeholder name <:+: front ++ more) : placeholder name <:+: more := by
  induction front with
  | nil => exact stands
  | cons c front ih =>
    obtain ⟨first, rest⟩ := List.ne_and_not_mem_of_not_mem_cons closed
    rcases List.infix_cons_iff.mp stands with start | later
    · exact absurd (List.cons_prefix_cons.mp start).1 first
    · exact ih rest later

/-! ## The reader of templates -/

namespace TemplatePart

theorem takeWhile_isNameChar (named : IsName name) :
    (name ++ '\x7d' :: more).takeWhile isNameChar = name := by
  rw [List.takeWhile_append_of_pos named.chars, List.takeWhile_cons_of_neg (by decide), List.append_nil]

theorem placeholder?_of_prefix (named : IsName name) (start : placeholder name <+: cs) :
    placeholder? cs = some name := by
  obtain ⟨more, rfl⟩ := start
  have split : placeholder name ++ more = '\x7b' :: (name ++ '\x7d' :: more) := by
    simp [placeholder]
  rw [split, placeholder?]
  simp [takeWhile_isNameChar named, named.given]

theorem of_placeholder? (read : placeholder? cs = some name) :
    IsName name ∧ placeholder name <+: cs := by
  unfold placeholder? at read
  split at read
  case h_2 => cases read
  case h_1 rest =>
    dsimp only at read
    split at read
    case isTrue => cases read
    case isFalse given =>
      split at read
      case h_2 => cases read
      case h_1 more closed =>
        obtain rfl := Option.some.inj read
        refine ⟨⟨by simpa using given, fun c member => List.mem_takeWhile_imp member⟩, more, ?_⟩
        have first := List.prefix_iff_eq_take.mp (List.takeWhile_prefix isNameChar (l := rest))
        have split := List.take_append_drop (rest.takeWhile isNameChar).length rest
        rw [← first, closed] at split
        conv_rhs => rw [← split]
        simp [placeholder]

theorem ofChars_skip : ofChars front.length (front ++ more) = ofChars 0 more := by
  induction front with
  | nil => rfl
  | cons c front ih => exact ih

theorem ofChars_placeholder (named : IsName name) :
    ofChars 0 (placeholder name ++ more) = value (String.ofList name) :: ofChars 0 more := by
  have read := placeholder?_of_prefix named (List.prefix_append (placeholder name) more)
  have rest : ofChars (name ++ ['\x7d']).length (name ++ ['\x7d'] ++ more) = ofChars 0 more := ofChars_skip
  rw [List.length_append, List.length_singleton] at rest
  rw [placeholder, List.cons_append] at read ⊢
  rw [ofChars, read, ← rest]

theorem ofChars_text (plain : IsPlain text) (opens : Opens more) :
    ofChars 0 (text ++ more) = text.map char ++ ofChars 0 more := by
  induction text with
  | nil => rfl
  | cons c text ih =>
    have none : placeholder? (c :: text ++ more) = none := by
      refine Option.eq_none_iff_forall_ne_some.mpr fun name read => ?_
      obtain ⟨named, start⟩ := of_placeholder? read
      exact plain name named (placeholder_prefix_of_append named opens start).isInfix
    rw [List.cons_append, ofChars, ← List.cons_append, none]
    simp only [List.map_cons, List.cons_append]
    rw [ih (plain.of_infix (List.suffix_cons c text).isInfix)]

end TemplatePart

/-! ## Texts between placeholders -/

/-- A placeholder with the text between it and the next one. -/
structure Slot where
  name : List Char
  text : List Char
  named : IsName name
  plain : IsPlain text

namespace Slot

theorem placeholder_infix (slot : Slot) (named : IsName name) :
    placeholder name <:+: placeholder slot.name ++ slot.text ↔ slot.name = name := by
  constructor
  · intro stands
    rcases List.infix_cons_iff.mp stands with start | later
    · have own := TemplatePart.placeholder?_of_prefix slot.named (List.prefix_append _ slot.text)
      exact Option.some.inj (own.symm.trans (TemplatePart.placeholder?_of_prefix named start))
    · exact absurd (placeholder_infix_of_append slot.named.brace_not_mem later) (slot.plain name named)
  · rintro rfl
    exact (List.prefix_append _ _).isInfix

/-- The text of placeholders and of what is behind each, where something else stands in the place of each
name's placeholders. -/
def substituted (insert : List Char → List Char) (slots : List Slot) : List Char :=
  slots.flatMap fun slot => insert slot.name ++ slot.text

def parts (slots : List Slot) : List TemplatePart :=
  slots.flatMap fun slot => .value (String.ofList slot.name) :: slot.text.map .char

theorem opens_substituted (slots : List Slot) : Opens (substituted placeholder slots) := by
  cases slots with
  | nil => exact nofun
  | cons slot slots =>
    rintro _ ⟨⟩
    rfl

theorem ofChars_substituted (slots : List Slot) :
    TemplatePart.ofChars 0 (substituted placeholder slots) = parts slots := by
  induction slots with
  | nil => rfl
  | cons slot slots ih =>
    rw [substituted, List.flatMap_cons, List.append_assoc, TemplatePart.ofChars_placeholder slot.named,
      ← substituted, TemplatePart.ofChars_text slot.plain (opens_substituted slots), ih]
    rfl

theorem placeholder_infix_substituted (named : IsName name) (slots : List Slot) :
    placeholder name <:+: substituted placeholder slots ↔ ∃ slot ∈ slots, slot.name = name := by
  induction slots with
  | nil =>
    refine ⟨fun stands => absurd stands (isPlain_nil name named), ?_⟩
    rintro ⟨slot, ⟨⟩, -⟩
  | cons slot slots ih =>
    rw [substituted, List.flatMap_cons, ← substituted,
      placeholder_infix_append named (opens_substituted slots), ih, slot.placeholder_infix named]
    simp only [List.mem_cons, exists_eq_or_imp]

end Slot

/-- The text in front of the first placeholder, and the placeholders with the text behind each. -/
structure Template where
  front : List Char
  slots : List Slot
  plain : IsPlain front

namespace Template

/-- The text of a template where something else stands in the place of each name's placeholders. -/
def substituted (t : Template) (insert : List Char → List Char) : List Char :=
  t.front ++ Slot.substituted insert t.slots

/-- The text of a template. -/
def written (t : Template) : List Char := t.substituted placeholder

def parts (t : Template) : List TemplatePart := t.front.map .char ++ Slot.parts t.slots

theorem ofChars_written (t : Template) : TemplatePart.ofChars 0 t.written = t.parts := by
  rw [written, substituted, TemplatePart.ofChars_text t.plain (Slot.opens_substituted t.slots),
    Slot.ofChars_substituted, parts]

/-- The placeholders of a template are those that its text has. -/
theorem placeholder_infix_written (t : Template) (named : IsName name) :
    placeholder name <:+: t.written ↔ ∃ slot ∈ t.slots, slot.name = name := by
  rw [written, substituted, placeholder_infix_append named (Slot.opens_substituted t.slots),
    Slot.placeholder_infix_substituted named]
  exact or_iff_right (t.plain name named)

/-- Every text can be taken apart at its placeholders. -/
theorem exists_written (skip : Nat) (cs : List Char) : ∃ t : Template, t.written = cs.drop skip := by
  -- By the steps of the reader: what it skips is the rest of a placeholder, which has its slot already.
  fun_induction TemplatePart.ofChars skip cs with
  | case1 skip => exact ⟨⟨[], [], isPlain_nil⟩, (List.drop_nil).symm⟩
  | case2 skip c cs ih => exact ih
  | case3 c cs name read ih =>
    obtain ⟨t, written⟩ := ih
    obtain ⟨named, more, split⟩ := TemplatePart.of_placeholder? read
    have rest : cs.drop (name.length + 1) = more := by
      rw [placeholder, List.cons_append] at split
      rw [← (List.cons.inj split).2]
      exact List.drop_left' (by simp)
    refine ⟨⟨[], ⟨name, t.front, named, t.plain⟩ :: t.slots, isPlain_nil⟩, ?_⟩
    rw [rest] at written
    rw [List.drop_zero, ← split, ← written]
    simp [Template.written, substituted, Slot.substituted]
  | case4 c cs none ih =>
    obtain ⟨t, written⟩ := ih
    rw [List.drop_zero] at written
    have plain : IsPlain (c :: t.front) := by
      intro name named stands
      rcases List.infix_cons_iff.mp stands with start | later
      · have part : c :: t.front <+: c :: cs := List.cons_prefix_cons.mpr ⟨rfl, _, written⟩
        have read := TemplatePart.placeholder?_of_prefix named (start.trans part)
        rw [none] at read
        cases read
      · exact t.plain name named later
    refine ⟨⟨c :: t.front, t.slots, plain⟩, ?_⟩
    exact congrArg (List.cons c) written

end Template

/-! ## Parts that are filled -/

/-- A placeholder stands in a text, and its field has no value. -/
structure Lacks (values : String → List String) (text name : List Char) : Prop where
  named : IsName name
  stands : placeholder name <:+: text
  missing : values (String.ofList name) = []

/-- A refusal that names a placeholder in a text whose field has no value. -/
def NamesLacking (values : String → List String) (text : List Char) (fault : Fault) : Prop :=
  ∃ name, Lacks values text name
    ∧ fault = .refused (.uncollectedPlaceholder (String.ofList (placeholder name)))

/-- The first value of a field that has one. -/
def firstOf (values : String → List String) (name : String) : String := (values name).headD ""

/-- The escaped first value of a field, for its placeholders. -/
def insertion (values : String → List String) (name : List Char) : List Char :=
  (Text.percentEncoded (firstOf values (String.ofList name))).toList

namespace TemplatePart

/-- What a part of a template becomes. -/
def piece (values : String → List String) : TemplatePart → String
  | char c => String.singleton c
  | value name => Text.percentEncoded (firstOf values name)

/-- A part is plain, or a placeholder of a field that has a value. -/
def IsGiven (values : String → List String) (part : TemplatePart) : Prop :=
  ∀ name, part = value name → values name ≠ []

theorem fill_of_isGiven {part : TemplatePart} (given : part.IsGiven values) :
    fill values part = .ok (piece values part) := by
  cases part with
  | char c => rfl
  | value name =>
    rw [fill, piece, firstOf]
    cases found : values name with
    | nil => exact absurd found (given name rfl)
    | cons first others => rfl

theorem fill_of_missing {name : String} (missing : values name = []) :
    fill values (value name) = refuse (.uncollectedPlaceholder ("\x7b" ++ name ++ "\x7d")) := by
  rw [fill, missing]

theorem ofList_placeholder (name : List Char) :
    String.ofList (placeholder name) = "\x7b" ++ String.ofList name ++ "\x7d" := by
  rw [placeholder, ← String.toList_inj]
  simp

theorem fill_eq_ok_iff {part : TemplatePart} :
    (∃ s, fill values part = .ok s) ↔ part.IsGiven values := by
  constructor
  · rintro ⟨s, filled⟩ name rfl missing
    rw [fill_of_missing missing] at filled
    cases filled
  · exact fun given => ⟨_, fill_of_isGiven given⟩

end TemplatePart

namespace Template

theorem mem_parts {name : String} (t : Template) :
    .value name ∈ t.parts ↔ ∃ slot ∈ t.slots, String.ofList slot.name = name := by
  simp [parts, Slot.parts, eq_comm]

theorem lacks_iff (t : Template) (values : String → List String) :
    (∃ name, Lacks values t.written name)
      ↔ ∃ slot ∈ t.slots, values (String.ofList slot.name) = [] := by
  constructor
  · rintro ⟨name, named, stands, missing⟩
    obtain ⟨slot, member, rfl⟩ := (t.placeholder_infix_written named).mp stands
    exact ⟨slot, member, missing⟩
  · rintro ⟨slot, member, missing⟩
    have stands := (t.placeholder_infix_written slot.named).mpr ⟨slot, member, rfl⟩
    exact ⟨slot.name, slot.named, stands, missing⟩

theorem flatMap_piece (t : Template) (values : String → List String) :
    t.parts.flatMap (fun part => (part.piece values).toList) = t.substituted (insertion values) := by
  have plain (text : List Char) :
      (text.map TemplatePart.char).flatMap (fun part => (part.piece values).toList) = text := by
    simp [List.flatMap_map, TemplatePart.piece]
  rw [parts, substituted, List.flatMap_append, plain, Slot.parts, Slot.substituted, List.flatMap_assoc]
  simp only [List.flatMap_cons, plain]
  rfl

/-- Where nothing of a kind is put in, what a filled template has of it is its own. -/
theorem filter_substituted (t : Template) {p : Char → Bool} {insert : List Char → List Char}
    (none : ∀ name, (insert name).filter p = []) :
    (t.substituted insert).filter p = (t.substituted fun _ => []).filter p := by
  simp only [substituted, Slot.substituted, List.filter_append, List.filter_flatMap, none]
  rfl

/-- A part of a template is refused only for a placeholder in its text whose field has no value. -/
theorem fill_failsWith (t : Template) {part : TemplatePart} (member : part ∈ t.parts) :
    Checked.FailsWith (NamesLacking values t.written) (part.fill values) := by
  cases part with
  | char c => exact .ok _
  | value name =>
    obtain ⟨slot, inside, rfl⟩ := t.mem_parts.mp member
    by_cases missing : values (String.ofList slot.name) = []
    · rw [TemplatePart.fill_of_missing missing]
      have stands := (t.placeholder_infix_written slot.named).mpr ⟨slot, inside, rfl⟩
      exact .error ⟨slot.name, ⟨slot.named, stands, missing⟩, by rw [TemplatePart.ofList_placeholder]⟩
    · rw [TemplatePart.fill_of_isGiven]
      · exact .ok _
      · rintro _ ⟨⟩
        exact missing

end Template

/-! ## Addresses -/

variable {template : String} {t : Template}

theorem addressOf_eq (written : t.written = template.toList) :
    addressOf values template = (t.parts.mapM (TemplatePart.fill values)).map String.join := by
  rw [addressOf, TemplatePart.ofText, ← written, t.ofChars_written]
  rfl

theorem addressOf_failsWith (written : t.written = template.toList) :
    Checked.FailsWith (NamesLacking values template.toList) (addressOf values template) := by
  rw [addressOf_eq written, ← written]
  exact .map _ (.mapM fun part member => t.fill_failsWith member)

theorem addressOf_of_given (written : t.written = template.toList)
    (given : ¬∃ name, Lacks values template.toList name) :
    addressOf values template = .ok (String.ofList (t.substituted (insertion values))) := by
  have filled : t.parts.mapM (TemplatePart.fill values)
      = .ok (t.parts.map (TemplatePart.piece values)) := by
    rw [Checked.mapM_ok_iff_map, List.map_map]
    refine List.map_congr_left fun part member => TemplatePart.fill_of_isGiven ?_
    rintro name rfl missing
    obtain ⟨slot, inside, rfl⟩ := t.mem_parts.mp member
    rw [← written] at given
    exact given ((t.lacks_iff values).mpr ⟨slot, inside, missing⟩)
  have joined : String.join (t.parts.map (TemplatePart.piece values))
      = String.ofList (t.substituted (insertion values)) := by
    rw [← String.toList_inj, String.toList_join, List.flatMap_map, String.toList_ofList, t.flatMap_piece]
  rw [addressOf_eq written, filled, ← joined]
  rfl

/-- An address is given exactly when each placeholder's field has a value. -/
theorem exists_addressOf_iff (written : t.written = template.toList) :
    (∃ address, addressOf values template = .ok address)
      ↔ ¬∃ name, Lacks values template.toList name := by
  constructor
  · intro made lacking
    rw [← written, t.lacks_iff] at lacking
    obtain ⟨slot, inside, missing⟩ := lacking
    rw [addressOf_eq written, Checked.exists_map_ok, Checked.mapM_ok_iff_each] at made
    have member := t.mem_parts.mpr ⟨slot, inside, rfl⟩
    exact TemplatePart.fill_eq_ok_iff.mp (made _ member) _ rfl missing
  · exact fun given => ⟨_, addressOf_of_given written given⟩

/-- A template is refused exactly when a placeholder's field has no value, and then for such a placeholder.
Otherwise the address is the template, however it is taken apart, with each placeholder's field escaped in
its place, all at once, and the delimiters in it are those of the template around its placeholders. What is
put in is escaped and stands for the value. -/
theorem addressOf_fills (values : String → List String) (template : String) :
    (∃ t : Template, t.written = template.toList)
    ∧ ((∃ fault, addressOf values template = .error fault) ↔ ∃ name, Lacks values template.toList name)
    ∧ Checked.FailsWith (NamesLacking values template.toList) (addressOf values template)
    ∧ (∀ t : Template, t.written = template.toList → (¬∃ name, Lacks values template.toList name) →
        addressOf values template = .ok (String.ofList (t.substituted (insertion values)))
        ∧ (t.substituted (insertion values)).filter (fun c => ¬Text.IsEscaped c)
          = (t.substituted fun _ => []).filter fun c => ¬Text.IsEscaped c)
    ∧ ∀ value, Text.percentDecoded? (Text.percentEncoded value) = some value
        ∧ ∀ c ∈ (Text.percentEncoded value).toList, Text.IsEscaped c := by
  obtain ⟨t, written⟩ := Template.exists_written 0 template.toList
  rw [List.drop_zero] at written
  refine ⟨⟨t, written⟩, ?refusal, addressOf_failsWith written, ?address, ?escaped⟩
  case refusal =>
    rw [← not_iff_not, ← exists_addressOf_iff written]
    cases addressOf values template with
    | ok address => simp
    | error fault => simp
  case address =>
    intro t written given
    refine ⟨addressOf_of_given written given, t.filter_substituted fun name => ?_⟩
    refine List.filter_eq_nil_iff.mpr fun c member => ?_
    simpa using Text.mem_percentEncoded member
  case escaped =>
    exact fun value => ⟨Text.percentDecoded?_percentEncoded value, fun c => Text.mem_percentEncoded⟩

/-- A value that looks like a placeholder is put in as text. -/
example : addressOf (fun _ => ["\x7bB\x7d/"]) "u/\x7bA\x7d?\x7bB"
    = .ok "u/%7BB%7D%2F?\x7bB" := by
  cbv

end MetadataIndex.Citation
