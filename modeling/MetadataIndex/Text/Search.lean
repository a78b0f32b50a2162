/-!
# Literal search in texts

Occurrences of a literal are found from the left and do not overlap. Splitting at a literal and
joining the pieces again is the common shape of replacement, so replacement is defined by it.
-/

set_option autoImplicit false

namespace MetadataIndex.Text

/-- What follows the literal `p` when the text begins with it. -/
def dropLiteral? : List Char → List Char → Option (List Char)
  | [], cs => some cs
  | _ :: _, [] => none
  | p :: ps, c :: cs => if p = c then dropLiteral? ps cs else none

def beginsWith (p cs : List Char) : Bool :=
  (dropLiteral? p cs).isSome

def occursIn (p : List Char) : List Char → Bool
  | [] => p.isEmpty
  | c :: cs => beginsWith p (c :: cs) || occursIn p cs

/-- The text before and after the first occurrence of `p`. -/
def cut? (p : List Char) : List Char → Option (List Char × List Char)
  | [] => if p.isEmpty then some ([], []) else none
  | c :: cs =>
    match dropLiteral? p (c :: cs) with
    | some rest => some ([], rest)
    | none => (cut? p cs).map fun (before, after) => (c :: before, after)

/-- The pieces between the leftmost non-overlapping occurrences of a non-empty separator, after
`skip` characters that belong to an occurrence already found. -/
def pieces (sep : List Char) : Nat → List Char → List (List Char)
  | _, [] => [[]]
  | skip + 1, _ :: cs => pieces sep skip cs
  | 0, c :: cs =>
    if !sep.isEmpty && beginsWith sep (c :: cs) then
      [] :: pieces sep (sep.length - 1) cs
    else
      match pieces sep 0 cs with
      | [] => [[c]]
      | piece :: more => (c :: piece) :: more

/-- The pieces of a text between the occurrences of a separator. -/
def splitAtLiteral (sep s : String) : List String :=
  (pieces sep.toList 0 s.toList).map String.ofList

/-- The text with every occurrence of `old` replaced by `new`. -/
def replaceLiteral (old new s : String) : String :=
  String.ofList (new.toList.intercalate (pieces old.toList 0 s.toList))

def startsWith (s p : String) : Bool :=
  beginsWith p.toList s.toList

def endsWith (s p : String) : Bool :=
  beginsWith p.toList.reverse s.toList.reverse

def containsLiteral (s p : String) : Bool :=
  occursIn p.toList s.toList

theorem dropLiteral?_eq_some_iff {p cs rest : List Char} :
    dropLiteral? p cs = some rest ↔ cs = p ++ rest := by
  induction p generalizing cs with
  | nil => simp [dropLiteral?, eq_comm]
  | cons a p ih =>
    cases cs with
    | nil => simp [dropLiteral?]
    | cons c cs =>
      by_cases h : a = c
      · simp [dropLiteral?, h, ih]
      · simp [dropLiteral?, h, Ne.symm h]

theorem beginsWith_iff {p cs : List Char} : beginsWith p cs = true ↔ p <+: cs := by
  simp only [beginsWith, Option.isSome_iff_exists (x := dropLiteral? p cs),
    dropLiteral?_eq_some_iff, List.IsPrefix, eq_comm (a := cs)]

theorem occursIn_iff {p cs : List Char} : occursIn p cs = true ↔ p <:+: cs := by
  induction cs with
  | nil => simp [occursIn]
  | cons c cs ih => rw [occursIn, Bool.or_eq_true, beginsWith_iff, ih, List.infix_cons_iff]

/-- The two parts with the literal between them are the text that was cut. -/
theorem eq_append_of_cut? {p cs before after : List Char}
    (h : cut? p cs = some (before, after)) : cs = before ++ p ++ after := by
  induction cs generalizing before with
  | nil =>
    cases p with
    | nil => simp_all [cut?]
    | cons a p => simp [cut?] at h
  | cons c cs ih =>
    rw [cut?] at h
    split at h
    · next rest hd =>
      obtain ⟨rfl, rfl⟩ := Prod.mk.inj (Option.some.inj h)
      simp [dropLiteral?_eq_some_iff.1 hd]
    · obtain ⟨⟨tail, rest⟩, hcut, hpair⟩ := Option.map_eq_some_iff.1 h
      obtain ⟨rfl, rfl⟩ := Prod.mk.inj hpair
      simp [ih hcut]

theorem occursIn_eq_false_of_cut? {p cs : List Char} (h : cut? p cs = none) :
    occursIn p cs = false := by
  induction cs with
  | nil => cases p <;> simp_all [cut?, occursIn]
  | cons c cs ih =>
    rw [cut?] at h
    split at h
    · exact absurd h (by simp)
    · next hd => simp [occursIn, beginsWith, hd, ih (Option.map_eq_none_iff.1 h)]

theorem pieces_ne_nil (sep : List Char) (skip : Nat) (cs : List Char) :
    pieces sep skip cs ≠ [] := by
  fun_induction pieces sep skip cs <;> simp_all

/-- The pieces with the separator between them are the text that was split. -/
theorem intercalate_pieces (sep : List Char) (skip : Nat) (cs : List Char) :
    sep.intercalate (pieces sep skip cs) = cs.drop skip := by
  fun_induction pieces sep skip cs with
  | case1 skip => simp [List.intercalate]
  | case2 skip c cs ih => simpa using ih
  | case3 c cs h ih =>
    simp only [Bool.and_eq_true, Bool.not_eq_true', List.isEmpty_eq_false_iff, beginsWith_iff] at h
    obtain ⟨hne, rest, hrest⟩ := h
    obtain ⟨piece, more, hp⟩ := List.exists_cons_of_ne_nil (pieces_ne_nil sep (sep.length - 1) cs)
    cases sep with
    | nil => exact absurd rfl hne
    | cons s sep =>
      simp only [List.cons_append, List.cons.injEq] at hrest
      obtain ⟨rfl, rfl⟩ := hrest
      simp only [List.length_cons, Nat.add_sub_cancel, List.drop_left] at ih hp ⊢
      rw [hp] at ih ⊢
      rw [List.intercalate_cons_cons]
      simp [ih]
  | case4 c cs h hp ih => exact absurd hp (pieces_ne_nil sep 0 cs)
  | case5 c cs h piece more hp ih =>
    simp only [hp, List.drop_zero] at ih ⊢
    cases more with
    | nil => simp_all [List.intercalate]
    | cons q more =>
      rw [List.intercalate_cons_cons] at ih ⊢
      simp [← ih]

theorem containsLiteral_iff {s p : String} :
    containsLiteral s p = true ↔ p.toList <:+: s.toList :=
  occursIn_iff

end MetadataIndex.Text
