import MetadataIndex.Json.Parser
import MetadataIndex.Json.Printer
import MetadataIndex.Proofs.Text.Trimmed

/-!
# Documents that are written and read again

A value made of texts is found again when the document that is written for it is read. The escapes of
a character are taken back one by one; items and members are read up to the bracket that ends them.
-/

set_option autoImplicit false

namespace MetadataIndex.Json

variable {tail : List Char}

/-! ## Numbers of characters -/

theorem hexValue?_hexDigit {d : Nat} (small : d < 16) : hexValue? (Text.hexDigit d) = some d := by
  revert d
  decide

theorem readUnit_hexDigits {n : Nat} (small : n < 0x10000) :
    readUnit (Text.hexDigits 4 n ++ tail) = .ok (n, tail) := by
  simp only [Text.hexDigits, List.nil_append, List.cons_append]
  rw [readUnit, hexValue?_hexDigit (by omega), hexValue?_hexDigit (by omega),
    hexValue?_hexDigit (by omega), hexValue?_hexDigit (by omega)]
  simp only [Except.ok.injEq, Prod.mk.injEq, and_true]
  omega

theorem toNat_bounds (c : Char) : c.toNat < 0xd800 ∨ 0xdfff < c.toNat ∧ c.toNat < 0x110000 :=
  c.valid

theorem readUnitEscape_single {cs : List Char} {n : Nat} (read : readUnit cs = .ok (n, tail))
    (whole : n < 0xd800 ∨ 0xdfff < n) : readUnitEscape cs = .ok (Char.ofNat n, tail) := by
  have high : (decide (0xd800 ≤ n) && decide (n ≤ 0xdbff)) = false := by
    rw [Bool.and_eq_false_iff, decide_eq_false_iff_not, decide_eq_false_iff_not]
    omega
  have low : (decide (0xdc00 ≤ n) && decide (n ≤ 0xdfff)) = false := by
    rw [Bool.and_eq_false_iff, decide_eq_false_iff_not, decide_eq_false_iff_not]
    omega
  simp only [readUnitEscape, read, bind, Except.bind, high, low, Bool.false_eq_true, if_false]
  rfl

theorem readUnitEscape_double {cs more : List Char} {n m : Nat}
    (read : readUnit cs = .ok (n, '\\' :: 'u' :: more)) (read' : readUnit more = .ok (m, tail))
    (first : 0xd800 ≤ n ∧ n ≤ 0xdbff) (second : 0xdc00 ≤ m ∧ m ≤ 0xdfff) :
    readUnitEscape cs = .ok (Char.ofNat (0x10000 + (n - 0xd800) * 0x400 + (m - 0xdc00)), tail) := by
  have high : (decide (0xd800 ≤ n) && decide (n ≤ 0xdbff)) = true := by simpa using first
  have low : (decide (0xdc00 ≤ m) && decide (m ≤ 0xdfff)) = true := by simpa using second
  simp only [readUnitEscape, read, bind, Except.bind, high, if_true, read', low]
  rfl

theorem readUnitEscape_of_char {c : Char} (small : c.toNat < 0x10000) :
    readUnitEscape (Text.hexDigits 4 c.toNat ++ tail) = .ok (c, tail) := by
  have bounds := toNat_bounds c
  rw [readUnitEscape_single (readUnit_hexDigits small) (by omega), Char.ofNat_toNat]

/-- A character beyond the first plane is written as two units. -/
theorem readUnitEscape_of_pair {c : Char} (great : ¬c.toNat < 0x10000) :
    readUnitEscape (Text.hexDigits 4 (0xd800 + (c.toNat - 0x10000) / 0x400)
      ++ (unitEscape (0xdc00 + (c.toNat - 0x10000) % 0x400) ++ tail)) = .ok (c, tail) := by
  have bounds := toNat_bounds c
  have first : 0xd800 + (c.toNat - 0x10000) / 0x400 < 0x10000 := by omega
  have second : 0xdc00 + (c.toNat - 0x10000) % 0x400 < 0x10000 := by omega
  have whole : 0x10000 + (0xd800 + (c.toNat - 0x10000) / 0x400 - 0xd800) * 0x400
      + (0xdc00 + (c.toNat - 0x10000) % 0x400 - 0xdc00) = c.toNat := by omega
  have read : readUnit (_ ++ (unitEscape (0xdc00 + (c.toNat - 0x10000) % 0x400) ++ tail)) = _ :=
    readUnit_hexDigits first
  rw [readUnitEscape_double read (readUnit_hexDigits second) (by omega) (by omega), whole,
    Char.ofNat_toNat]

/-! ## Texts -/

theorem readText_plain {c : Char} (quote : c ≠ '"') (slash : c ≠ '\\') (printed : ¬c.toNat < 32)
    (fuel : Nat) (acc : List Char) :
    readText (fuel + 1) acc (c :: tail) = readText fuel (c :: acc) tail := by
  have goes : ¬(decide (c.toNat < 32) || decide (c = '\\')) = true := by
    simp [printed, slash]
  rw [readText]
  · exact if_neg goes
  · exact quote
  · intro rest same
    exact absurd same slash
  · intro c' rest same
    exact absurd same slash

theorem readText_unit {c : Char} {digits rest : List Char}
    (read : readUnitEscape digits = .ok (c, rest)) (fuel : Nat) (acc : List Char) :
    readText (fuel + 1) acc ('\\' :: 'u' :: digits) = readText fuel (c :: acc) rest := by
  rw [readText, read]

theorem readText_escapeChar (fuel : Nat) (acc : List Char) (c : Char) :
    readText (fuel + 1) acc (escapeChar c ++ tail) = readText fuel (c :: acc) tail := by
  unfold escapeChar
  split
  · next same =>
    subst same
    rfl
  split
  · next same =>
    subst same
    rfl
  split
  · next same =>
    subst same
    rfl
  split
  · next same =>
    subst same
    rfl
  split
  · next same =>
    subst same
    rfl
  split
  · next code =>
    have same : c = Char.ofNat 8 := by rw [← code, Char.ofNat_toNat]
    subst same
    rfl
  split
  · next code =>
    have same : c = Char.ofNat 12 := by rw [← code, Char.ofNat_toNat]
    subst same
    rfl
  split
  · next quote slash _ _ _ _ _ plain =>
    have printed : ¬c.toNat < 32 := by
      rw [Bool.and_eq_true, decide_eq_true_eq] at plain
      omega
    exact readText_plain quote slash printed fuel acc
  split
  · next small => exact readText_unit (readUnitEscape_of_char small) fuel acc
  · next great =>
    rw [List.append_assoc]
    exact readText_unit (readUnitEscape_of_pair great) fuel acc

theorem readText_escaped {s : List Char} {fuel : Nat} (enough : s.length < fuel) (acc : List Char) :
    readText fuel acc (s.flatMap escapeChar ++ '"' :: tail)
      = .ok (String.ofList (acc.reverse ++ s), tail) := by
  induction s generalizing fuel acc with
  | nil =>
    obtain ⟨fuel, rfl⟩ := Nat.exists_eq_add_of_lt enough
    rw [List.append_nil]
    rfl
  | cons c s ih =>
    obtain ⟨fuel, rfl⟩ : ∃ more, fuel = more + 1 := ⟨fuel - 1, by grind⟩
    rw [List.flatMap_cons, List.append_assoc, readText_escapeChar, ih (by grind)]
    simp

theorem escapeChar_ne_nil (c : Char) : escapeChar c ≠ [] := by
  intro none
  -- A character that is written as nothing could not be read back before the end of a text.
  have read : readText 1 [] (escapeChar c ++ ['"']) = readText 0 [c] ['"'] := readText_escapeChar 0 [] c
  rw [none] at read
  cases read

theorem length_le_flatMap_escapeChar (s : List Char) : s.length ≤ (s.flatMap escapeChar).length := by
  induction s with
  | nil => exact Nat.le_refl 0
  | cons c s ih =>
    rw [List.flatMap_cons, List.length_append, List.length_cons]
    have first := List.length_pos_iff.mpr (escapeChar_ne_nil c)
    omega

theorem toList_renderText (s : String) :
    (renderText s).toList = '"' :: (s.toList.flatMap escapeChar ++ ['"']) := by
  rw [renderText, String.toList_ofList, List.cons_append]

/-- A written text is read, and what follows it is left. -/
theorem readText_renderText (s : String) (rest : List Char) :
    ∃ inner, (renderText s).toList ++ rest = '"' :: inner
      ∧ readText (inner.length + 1) [] inner = .ok (s, rest) := by
  refine ⟨s.toList.flatMap escapeChar ++ '"' :: rest, ?_, ?_⟩
  · rw [toList_renderText, List.cons_append, List.append_assoc]
    rfl
  · rw [readText_escaped, List.reverse_nil, List.nil_append, String.ofList_toList]
    have enough := length_le_flatMap_escapeChar s.toList
    rw [List.length_append]
    omega

/-! ## Values -/

mutual

/-- A value made of texts: a text, or a sequence or an object of such values in which no name occurs
twice. -/
def IsTextual : Json → Prop
  | text _ => True
  | array items => AreTextual items
  | object members => (members.map (·.1)).Nodup ∧ AreTextualMembers members
  | _ => False

def AreTextual : List Json → Prop
  | [] => True
  | item :: more => IsTextual item ∧ AreTextual more

def AreTextualMembers : List (String × Json) → Prop
  | [] => True
  | (_, value) :: more => IsTextual value ∧ AreTextualMembers more

end

/-- The characters with which the values made of texts begin. -/
def IsOpening (cs : List Char) : Prop :=
  ∃ c rest, cs = c :: rest ∧ (c = '"' ∨ c = '[' ∨ c = '\x7b')

theorem isOpening_render {v : Json} (textual : IsTextual v) : IsOpening (v.render.toList ++ tail) := by
  cases v with
  | text s => exact ⟨'"', _, by rw [render, toList_renderText]; rfl, .inl rfl⟩
  | array items =>
    exact ⟨'[', _, by rw [render, String.append_assoc, String.toList_append]; rfl, .inr (.inl rfl)⟩
  | object members =>
    exact ⟨'\x7b', _, by rw [render, String.append_assoc, String.toList_append]; rfl, .inr (.inr rfl)⟩
  | null => exact textual.elim
  | bool b => exact textual.elim
  | int n => exact textual.elim
  | float x => exact textual.elim

theorem IsOpening.skipBlanks {cs : List Char} (opening : IsOpening cs) : skipBlanks cs = cs := by
  obtain ⟨c, rest, rfl, rfl | rfl | rfl⟩ := opening
  · rfl
  · rfl
  · rfl

theorem store_of_not_mem {α : Type} {name : String} {members : List (String × α)}
    (absent : name ∉ members.map (·.1)) (value : α) :
    store name value members = members ++ [(name, value)] := by
  induction members with
  | nil => rfl
  | cons member members ih =>
    rw [List.map_cons, List.mem_cons, not_or] at absent
    rw [store, if_neg (Ne.symm absent.1), ih absent.2]
    rfl

variable {fuel : Nat} {acc items : List Json} {members : List (String × Json)}
  {cs inner next : List Char} {v : Json} {name : String}

theorem readValue_text (read : readText (inner.length + 1) [] inner = .ok (name, tail)) :
    readValue (fuel + 1) ('"' :: inner) = .ok (.text name, tail) := by
  simp only [readValue, read]
  rfl

theorem readValue_array (opening : IsOpening inner) :
    readValue (fuel + 1) ('[' :: inner) = readItems fuel [] inner := by
  rw [readValue, opening.skipBlanks]
  obtain ⟨c, rest, rfl, rfl | rfl | rfl⟩ := opening
  · rfl
  · rfl
  · rfl

theorem readValue_object (opening : IsOpening inner) :
    readValue (fuel + 1) ('\x7b' :: inner) = readMembers fuel [] inner := by
  rw [readValue, opening.skipBlanks]
  obtain ⟨c, rest, rfl, rfl | rfl | rfl⟩ := opening
  · rfl
  · rfl
  · rfl

theorem readItems_last (read : readValue fuel cs = .ok (v, ']' :: tail)) :
    readItems (fuel + 1) acc cs = .ok (.array (acc.reverse ++ [v]), tail) := by
  simp only [readItems, read, List.reverse_cons]
  rfl

theorem readItems_next (read : readValue fuel cs = .ok (v, ',' :: ' ' :: next))
    (opening : IsOpening next) :
    readItems (fuel + 1) acc cs = readItems fuel (v :: acc) next := by
  have blank : skipBlanks (' ' :: next) = next := opening.skipBlanks
  simp only [readItems, read]
  change readItems fuel (v :: acc) (skipBlanks (' ' :: next)) = _
  rw [blank]

theorem readMembers_last (named : readText (inner.length + 1) [] inner = .ok (name, ':' :: ' ' :: cs))
    (opening : IsOpening cs) (read : readValue fuel cs = .ok (v, '\x7d' :: tail)) :
    readMembers (fuel + 1) members ('"' :: inner) = .ok (.object (store name v members), tail) := by
  have blank : skipBlanks (' ' :: cs) = cs := opening.skipBlanks
  have colon : skipBlanks (':' :: ' ' :: cs) = ':' :: ' ' :: cs := rfl
  simp only [readMembers, named, bind, Except.bind, colon, blank, read]
  rfl

theorem readMembers_next (named : readText (inner.length + 1) [] inner = .ok (name, ':' :: ' ' :: cs))
    (opening : IsOpening cs) (read : readValue fuel cs = .ok (v, ',' :: ' ' :: '"' :: next)) :
    readMembers (fuel + 1) members ('"' :: inner)
      = readMembers fuel (store name v members) ('"' :: next) := by
  have blank : skipBlanks (' ' :: cs) = cs := opening.skipBlanks
  have colon : skipBlanks (':' :: ' ' :: cs) = ':' :: ' ' :: cs := rfl
  simp only [readMembers, named, bind, Except.bind, colon, blank, read]
  rfl

/-- The characters of several texts with commas between them. -/
def listed (texts : List String) : List Char :=
  (", ".intercalate texts).toList

theorem listed_singleton (s : String) : listed [s] = s.toList := by
  rw [listed, String.intercalate_singleton]

theorem listed_cons_cons (s t : String) (more : List String) :
    listed (s :: t :: more) = s.toList ++ ',' :: ' ' :: listed (t :: more) := by
  rw [listed, String.intercalate_cons_of_ne_nil (List.cons_ne_nil t more), String.toList_append,
    String.toList_append, List.append_assoc]
  rfl

theorem toList_render_array (items : List Json) :
    (array items).render.toList = '[' :: (listed (renderItems items) ++ [']']) := by
  rw [render, String.append_assoc, String.toList_append, String.toList_append]
  rfl

theorem toList_render_object (members : List (String × Json)) :
    (object members).render.toList = '\x7b' :: (listed (renderMembers members) ++ ['\x7d']) := by
  rw [render, String.append_assoc, String.toList_append, String.toList_append]
  rfl

theorem isOpening_listed (textual : AreTextual items) (given : items ≠ []) :
    IsOpening (listed (renderItems items) ++ tail) := by
  obtain ⟨item, more, rfl⟩ := List.exists_cons_of_ne_nil given
  cases more with
  | nil =>
    rw [renderItems, renderItems, listed_singleton]
    exact isOpening_render textual.1
  | cons next more =>
    rw [renderItems, renderItems, listed_cons_cons, List.append_assoc]
    exact isOpening_render textual.1

/-- The characters of a member before its value. -/
theorem toList_member (name : String) (v : Json) :
    (renderText name ++ ": " ++ v.render).toList
      = (renderText name).toList ++ ':' :: ' ' :: v.render.toList := by
  rw [String.append_assoc, String.toList_append, String.toList_append]
  rfl

theorem exists_listed_members (given : members ≠ []) :
    ∃ rest, listed (renderMembers members) = '"' :: rest := by
  obtain ⟨⟨name, v⟩, more, rfl⟩ := List.exists_cons_of_ne_nil given
  cases more with
  | nil =>
    rw [renderMembers, renderMembers, listed_singleton, toList_member, toList_renderText]
    exact ⟨_, rfl⟩
  | cons next more =>
    obtain ⟨name', v'⟩ := next
    rw [renderMembers, renderMembers, listed_cons_cons, toList_member, toList_renderText]
    exact ⟨_, rfl⟩

/-- Written values, items and members are read in so many steps, and what follows is left. -/
structure ReadsWritten (fuel : Nat) : Prop where
  value : ∀ (v : Json) (tail : List Char), IsTextual v → v.render.toList.length ≤ fuel →
    readValue fuel (v.render.toList ++ tail) = .ok (v, tail)
  items : ∀ (items acc : List Json) (tail : List Char), items ≠ [] → AreTextual items →
    (listed (renderItems items)).length < fuel →
    readItems fuel acc (listed (renderItems items) ++ ']' :: tail)
      = .ok (.array (acc.reverse ++ items), tail)
  members : ∀ (members done : List (String × Json)) (tail : List Char), members ≠ [] →
    AreTextualMembers members → ((done ++ members).map (·.1)).Nodup →
    (listed (renderMembers members)).length < fuel →
    readMembers fuel done (listed (renderMembers members) ++ '\x7d' :: tail)
      = .ok (.object (done ++ members), tail)

namespace ReadsWritten

theorem value_succ (shorter : ReadsWritten fuel) (textual : IsTextual v) (tail : List Char)
    (enough : v.render.toList.length ≤ fuel + 1) :
    readValue (fuel + 1) (v.render.toList ++ tail) = .ok (v, tail) := by
  cases v with
  | text s =>
    obtain ⟨inner, split, read⟩ := readText_renderText s tail
    rw [render, split]
    exact readValue_text read
  | array items =>
    rw [toList_render_array] at enough ⊢
    cases items with
    | nil => rfl
    | cons item more =>
      have opening : IsOpening (listed (renderItems (item :: more)) ++ ([']'] ++ tail)) :=
        isOpening_listed textual (List.cons_ne_nil item more)
      rw [List.length_cons, List.length_append, List.length_singleton] at enough
      rw [List.cons_append, List.append_assoc, readValue_array opening]
      exact shorter.items _ [] tail (List.cons_ne_nil item more) textual (by omega)
  | object members =>
    rw [toList_render_object] at enough ⊢
    cases members with
    | nil => rfl
    | cons member more =>
      have given := List.cons_ne_nil member more
      obtain ⟨rest, begins⟩ := exists_listed_members given
      have opening : IsOpening (listed (renderMembers (member :: more)) ++ (['\x7d'] ++ tail)) := by
        rw [begins]
        exact ⟨'"', _, rfl, .inl rfl⟩
      rw [List.length_cons, List.length_append, List.length_singleton] at enough
      rw [List.cons_append, List.append_assoc, readValue_object opening]
      exact shorter.members _ [] tail given textual.2 textual.1 (by omega)
  | null => exact textual.elim
  | bool b => exact textual.elim
  | int n => exact textual.elim
  | float x => exact textual.elim

theorem items_succ (shorter : ReadsWritten fuel) (given : items ≠ []) (textual : AreTextual items)
    (acc : List Json) (tail : List Char) (enough : (listed (renderItems items)).length < fuel + 1) :
    readItems (fuel + 1) acc (listed (renderItems items) ++ ']' :: tail)
      = .ok (.array (acc.reverse ++ items), tail) := by
  obtain ⟨item, more, rfl⟩ := List.exists_cons_of_ne_nil given
  cases more with
  | nil =>
    rw [renderItems, renderItems, listed_singleton] at enough ⊢
    exact readItems_last (shorter.value item _ textual.1 (by omega))
  | cons next more =>
    have given' := List.cons_ne_nil next more
    have opening : IsOpening (listed (renderItems (next :: more)) ++ ']' :: tail) :=
      isOpening_listed textual.2 given'
    rw [renderItems, renderItems, listed_cons_cons, ← renderItems, List.length_append, List.length_cons,
      List.length_cons] at enough
    rw [renderItems, renderItems, listed_cons_cons, ← renderItems, List.append_assoc]
    have read := shorter.value item (',' :: ' ' :: (listed (renderItems (next :: more)) ++ ']' :: tail))
      textual.1 (by omega)
    refine (readItems_next read opening).trans ?_
    rw [shorter.items (next :: more) (item :: acc) tail given' textual.2 (by omega)]
    simp

theorem members_succ (shorter : ReadsWritten fuel) (given : members ≠ [])
    (textual : AreTextualMembers members) (done : List (String × Json)) (tail : List Char)
    (once : ((done ++ members).map (·.1)).Nodup)
    (enough : (listed (renderMembers members)).length < fuel + 1) :
    readMembers (fuel + 1) done (listed (renderMembers members) ++ '\x7d' :: tail)
      = .ok (.object (done ++ members), tail) := by
  obtain ⟨⟨name, v⟩, more, rfl⟩ := List.exists_cons_of_ne_nil given
  have absent : name ∉ done.map (·.1) := by
    rw [List.map_append, List.nodup_append] at once
    intro member
    exact once.2.2 name member name (.head _) rfl
  cases more with
  | nil =>
    rw [renderMembers, renderMembers, listed_singleton, toList_member] at enough ⊢
    rw [List.length_append, List.length_cons, List.length_cons] at enough
    obtain ⟨inner, split, named⟩ :=
      readText_renderText name (':' :: ' ' :: (v.render.toList ++ '\x7d' :: tail))
    rw [List.append_assoc]
    refine (congrArg (readMembers (fuel + 1) done) split).trans ?_
    have read := shorter.value v ('\x7d' :: tail) textual.1 (by omega)
    rw [readMembers_last named (isOpening_render textual.1) read, store_of_not_mem absent]
  | cons next more =>
    obtain ⟨name', v'⟩ := next
    have given' := List.cons_ne_nil (name', v') more
    obtain ⟨rest, begins⟩ := exists_listed_members given'
    rw [renderMembers, renderMembers, listed_cons_cons, ← renderMembers, toList_member, List.length_append,
      List.length_append, List.length_cons, List.length_cons, List.length_cons, List.length_cons] at enough
    rw [renderMembers, renderMembers, listed_cons_cons, ← renderMembers, toList_member]
    obtain ⟨inner, split, named⟩ := readText_renderText name (':' :: ' ' :: (v.render.toList
      ++ ',' :: ' ' :: (listed (renderMembers ((name', v') :: more)) ++ '\x7d' :: tail)))
    have read := shorter.value v
      (',' :: ' ' :: (listed (renderMembers ((name', v') :: more)) ++ '\x7d' :: tail)) textual.1
      (by omega)
    have once' : (((done ++ [(name, v)]) ++ (name', v') :: more).map (·.1)).Nodup := by
      rwa [List.append_assoc]
    have later := shorter.members ((name', v') :: more) (done ++ [(name, v)]) tail given' textual.2
      once' (by omega)
    rw [begins, List.cons_append] at read named split later
    rw [begins, List.append_assoc, List.append_assoc]
    refine (congrArg (readMembers (fuel + 1) done) split).trans ?_
    rw [readMembers_next named (isOpening_render textual.1) read, store_of_not_mem absent, later,
      List.append_assoc]
    rfl

end ReadsWritten

theorem readsWritten (fuel : Nat) : ReadsWritten fuel := by
  induction fuel with
  | zero =>
    constructor
    · intro v tail textual enough
      have opening : IsOpening (v.render.toList ++ []) := isOpening_render textual
      obtain ⟨c, rest, begins, -⟩ := opening
      rw [List.append_nil] at begins
      rw [begins] at enough
      exact absurd enough (Nat.not_succ_le_zero _)
    · intro items acc tail _ _ enough
      exact absurd enough (Nat.not_lt_zero _)
    · intro members done tail _ _ _ enough
      exact absurd enough (Nat.not_lt_zero _)
  | succ fuel shorter =>
    constructor
    · intro v tail textual enough
      exact shorter.value_succ textual tail enough
    · intro items acc tail given textual enough
      exact shorter.items_succ given textual acc tail enough
    · intro members done tail given textual once enough
      exact shorter.members_succ given textual done tail once enough

/-- A value made of texts is found again in the document that is written for it. -/
theorem read_render {v : Json} (textual : IsTextual v) : read v.render = .ok v := by
  have opening : IsOpening (v.render.toList ++ []) := isOpening_render textual
  have found := (readsWritten (2 * v.render.toList.length + 2)).value v [] textual (by omega)
  rw [List.append_nil] at opening found
  simp only [read, opening.skipBlanks, found]
  rfl

/-! ## Texts without a value -/

/-- The characters with which values begin, digits apart. -/
def openings : List Char := ['"', '[', '\x7b', '-', 'n', 't', 'f', 'N', 'I']

theorem readWord?_of_not_opening {c : Char} (other : c ∉ openings) (cs : List Char) :
    readWord? (c :: cs) = none := by
  have begins : ∀ entry ∈ words, entry.1.toList.head?.any openings.contains = true := by decide +kernel
  rw [readWord?, List.findSome?_eq_none_iff]
  intro entry member
  refine if_neg fun start => ?_
  have opens := begins entry member
  cases split : entry.1.toList with
  | nil =>
    rw [split] at opens
    cases opens
  | cons d more =>
    rw [split] at opens start
    obtain ⟨rfl, -⟩ := List.cons_prefix_cons.mp (List.isPrefixOf_iff_prefix.mp start)
    exact other (List.contains_iff_mem.mp opens)

theorem readNumber_of_not_opening {c : Char} (other : c ∉ openings) (digit : c.isDigit = false)
    (cs : List Char) : readNumber (c :: cs) = .error .malformed := by
  have minus : c ≠ '-' := by
    rintro rfl
    exact other (by decide)
  have zero : c ≠ '0' := by
    rintro rfl
    exact absurd digit (by decide)
  unfold readNumber
  split
  next unsigned same =>
    split at same
    · next start => exact absurd (List.cons.inj start).1 minus
    · cases same
      split
      next whole rest same =>
        split at same
        · next start => exact absurd (List.cons.inj start).1 zero
        · have none : spanDigits (c :: cs) = ([], c :: cs) := by simp [spanDigits, digit]
          rw [none] at same
          cases same
          rfl

theorem readValue_of_not_opening {c : Char} (other : c ∉ openings) (digit : c.isDigit = false)
    (cs : List Char) (fuel : Nat) : readValue fuel (c :: cs) = .error .malformed := by
  cases fuel with
  | zero => rfl
  | succ fuel =>
    rw [readValue, readWord?_of_not_opening other, readNumber_of_not_opening other digit]
    all_goals
      rintro rest same
      rw [(List.cons.inj same).1] at other
      exact other (by decide)

theorem not_opening_of_isBlank {c : Char} (blank : Text.isBlank c = true) :
    c ∉ openings ∧ c.isDigit = false := by
  constructor
  · have clear : openings.all (!Text.isBlank ·) = true := by decide
    intro member
    have shown := List.all_eq_true.mp clear c member
    rw [blank] at shown
    cases shown
  · refine Bool.eq_false_iff.mpr fun digit => ?_
    simp only [Char.isDigit, Bool.and_eq_true, decide_eq_true_eq] at digit
    have bounds : 48 ≤ c.toNat ∧ c.toNat ≤ 57 := digit
    simp only [Text.isBlank, Bool.or_eq_true, Bool.and_eq_true, decide_eq_true_eq, beq_iff_eq] at blank
    omega

/-- A text in which a value is read is not blank. -/
theorem isVisible_of_read {s : String} (found : read s = .ok v) : Text.IsVisible s := by
  by_contra hidden
  have blanks : ∀ c ∈ skipBlanks s.toList, Text.isBlank c = true := by
    intro c member
    by_contra shown
    exact hidden ⟨c, (List.dropWhile_suffix _).subset member, by simpa using shown⟩
  have failed (fuel : Nat) : readValue fuel (skipBlanks s.toList) = .error .malformed := by
    cases rest : skipBlanks s.toList with
    | nil =>
      cases fuel with
      | zero => rfl
      | succ fuel => rfl
    | cons c cs =>
      rw [rest] at blanks
      obtain ⟨other, digit⟩ := not_opening_of_isBlank (blanks c (.head _))
      exact readValue_of_not_opening other digit cs fuel
  simp [read, failed, bind, Except.bind] at found

end MetadataIndex.Json
