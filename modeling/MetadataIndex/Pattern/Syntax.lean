import MetadataIndex.Text.Blank
import MetadataIndex.Text.Category
import MetadataIndex.Text.Case

/-!
# Patterns

The syntax of regular patterns with groups, references back, assertions and the three kinds of
repetition. What one character must satisfy is a type of its own, `CharTest`.
-/

set_option autoImplicit false

namespace MetadataIndex.Pattern

/-- How a character of the pattern is compared with one of the text. -/
inductive Compare where
  | exact
  | fold
  | foldAscii
deriving DecidableEq, Repr

/-- The three classes of characters that have a name. -/
inductive NamedClass where
  | digit
  | blank
  | word
deriving DecidableEq, Repr

/-- Whether a character is in a class; `ascii` restricts the class to ASCII. -/
def NamedClass.holds (ascii : Bool) (cls : NamedClass) (c : Char) : Bool :=
  (!ascii || c.toNat < 128) && match cls with
    | digit => Text.isDecimalDigit c
    | blank => if ascii then (9 ≤ c.toNat && c.toNat ≤ 13) || c.toNat == 32 else Text.isBlank c
    | word => Text.isWordChar c

/-- One member of a bracketed class. -/
inductive ClassItem where
  | char (c : Char)
  | range (first last : Char)
  | named (ascii negated : Bool) (cls : NamedClass)
deriving DecidableEq, Repr

/-- What a single character must satisfy. -/
inductive CharTest where
  | char (how : Compare) (c : Char)
  /-- It is any character, or any but the line end. -/
  | any (lineEndToo : Bool)
  /-- It is in a bracketed class, or not in it. -/
  | oneOf (how : Compare) (negated : Bool) (items : List ClassItem)
deriving DecidableEq, Repr

def Compare.form : Compare → Char → Char
  | exact, c => c
  | fold, c => Text.foldChar c
  | foldAscii, c => c.toLower

def Compare.forms : Compare → Char → List Char
  | fold, c => Text.caseClass c
  | _, c => [c]

/-- Whether some character of a range has the form `c`. -/
def Compare.meetsRange (how : Compare) (first last c : Char) : Bool :=
  let inside (n : Nat) : Bool := first.toNat ≤ n && n ≤ last.toNat
  match how with
  | exact => inside c.toNat
  | foldAscii => (inside c.toNat && c.toLower == c) || (c.isLower && inside c.toUpper.toNat)
  | fold =>
    (Text.caseClass c).any fun d =>
      (inside d.toNat && Text.foldChar d == d)
        || (d.isLower && inside d.toUpper.toNat)
        || Text.smallForms.rows.any fun row =>
            row.getD 1 0 == d.toNat && inside (row.getD 0 0)

/-- Whether a character form is a member of a class item. -/
def ClassItem.holds (how : Compare) (c : Char) : ClassItem → Bool
  | char x => (how.forms (how.form x)).contains c
  | range first last => how.meetsRange first last c
  | named ascii negated cls => cls.holds ascii c != negated

def CharTest.holds : CharTest → Char → Bool
  | char how x, c => (how.forms (how.form x)).contains (how.form c)
  | any lineEndToo, c => lineEndToo || c != '\n'
  | oneOf how negated items, c => (items.any fun item => item.holds how (how.form c)) != negated

/-- A condition on a place in the text. -/
inductive Anchor where
  | start (lines : Bool)
  /-- The end of the text or the place before a final line end; with `lines` the end of a line. -/
  | finish (lines : Bool)
  | textStart
  | textEnd
  /-- A place where a word starts or ends, or any other place. -/
  | wordEdge (ascii negated : Bool)
deriving DecidableEq, Repr

/-- How a repetition chooses the number of rounds. -/
inductive Greed where
  | greedy
  | reluctant
  | possessive
deriving DecidableEq, Repr

/-- A pattern. -/
inductive Node where
  | empty
  | fail
  | one (test : CharTest)
  | anchor (a : Anchor)
  | seq (first second : Node)
  | alt (first second : Node)
  | group (index : Nat) (body : Node)
  /-- A pattern repeated at least `least` and at most `most` times. -/
  | rep (greed : Greed) (least : Nat) (most : Option Nat) (body : Node)
  | atomic (body : Node)
  /-- The pattern would match from here, or, with `behind`, from that many characters back. -/
  | look (behind : Option Nat) (negated : Bool) (body : Node)
  | back (how : Compare) (index : Nat)
  /-- The first pattern if a text is recorded under a number, else the second. -/
  | cond (index : Nat) (given otherwise : Node)
deriving DecidableEq, Repr

/-- A pattern ready for matching. -/
structure Regex where
  node : Node
  groups : Nat
  names : List (String × Nat)

/-- The least and greatest length of a match. -/
structure Width where
  least : Nat
  most : Option Nat
deriving DecidableEq, Repr

namespace Width

def add (a b : Width) : Width :=
  ⟨a.least + b.least, a.most.bind fun x => b.most.map (x + ·)⟩

def union (a b : Width) : Width :=
  ⟨min a.least b.least, a.most.bind fun x => b.most.map (max x ·)⟩

/-- The width of a repeated match; what is empty or repeated no time stays empty. -/
def times (a : Width) (least : Nat) (most : Option Nat) : Width :=
  ⟨a.least * least,
    if a.most = some 0 || most = some 0 then some 0 else a.most.bind fun x => most.map (x * ·)⟩

end Width

/-- The lengths a pattern can match, where `groupWidth` gives those of the groups. -/
def Node.width (groupWidth : Nat → Width) : Node → Width
  | empty => ⟨0, some 0⟩
  | fail => ⟨0, some 0⟩
  | one _ => ⟨1, some 1⟩
  | anchor _ => ⟨0, some 0⟩
  | seq a b => (a.width groupWidth).add (b.width groupWidth)
  | alt a b => (a.width groupWidth).union (b.width groupWidth)
  | group _ body => body.width groupWidth
  | rep _ least most body => (body.width groupWidth).times least most
  | atomic body => body.width groupWidth
  | look _ _ _ => ⟨0, some 0⟩
  | back _ i => groupWidth i
  | cond _ a b => (a.width groupWidth).union (b.width groupWidth)

end MetadataIndex.Pattern
