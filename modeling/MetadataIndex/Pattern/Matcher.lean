import MetadataIndex.Pattern.Syntax

/-!
# Matching

A pattern is matched by trying its alternatives in order and going back when what follows fails.
What follows is a function of the place reached, so the matcher recurses on the pattern alone. A
place in the text is the pair of what lies before it, in reverse, and what lies after it.
-/

set_option autoImplicit false

namespace MetadataIndex.Pattern

/-- A place in the text. -/
structure Place where
  before : List Char
  after : List Char
  offset : Nat

abbrev Span := Nat × Nat

/-- A match under way. -/
structure Thread where
  place : Place
  /-- The parts recorded for the groups, by number less one. -/
  spans : Array (Option Span)

abbrev Continuation := Thread → Option Thread

def Place.forth (p : Place) : Option (Char × Place) :=
  match p.after with
  | [] => none
  | c :: rest => some (c, ⟨c :: p.before, rest, p.offset + 1⟩)

def Place.back : Nat → Place → Option Place
  | 0, p => some p
  | n + 1, p =>
    match p.before with
    | [] => none
    | c :: before => Place.back n ⟨before, c :: p.after, p.offset - 1⟩

def beginsWithWord (ascii : Bool) : List Char → Bool
  | [] => false
  | c :: _ => NamedClass.word.holds ascii c

/-- Whether an anchor holds at a place. An empty text has no word edges and no other places. -/
def Anchor.holds (p : Place) : Anchor → Bool
  | start lines => p.before.isEmpty || (lines && p.before.head? == some '\n')
  | finish lines => p.after.isEmpty || p.after == ['\n'] || (lines && p.after.head? == some '\n')
  | textStart => p.before.isEmpty
  | textEnd => p.after.isEmpty
  | wordEdge ascii negated =>
    !(p.before.isEmpty && p.after.isEmpty)
      && (beginsWithWord ascii p.before != beginsWithWord ascii p.after) != negated

/-- The part of the text between two offsets, seen from a place. -/
def Place.slice (p : Place) (s : Span) : List Char :=
  ((p.before.reverse ++ p.after).drop s.1).take (s.2 - s.1)

def Place.follow (how : Compare) : List Char → Place → Option Place
  | [], p => some p
  | x :: xs, p =>
    match p.forth with
    | some (c, q) => if how.form x == how.form c then Place.follow how xs q else none
    | none => none

/-- Goes forward over at most `limit` characters that satisfy a test, counting them. -/
def run (test : Char → Bool) (limit : Option Nat) :
    List Char → List Char → Nat → Nat → Nat × Place
  | before, [], offset, count => (count, ⟨before, [], offset⟩)
  | before, c :: rest, offset, count =>
    if limit != some count && test c then run test limit (c :: before) rest (offset + 1) (count + 1)
    else (count, ⟨before, c :: rest, offset⟩)

/-- Tries what follows at a place and then at the places before it, `count` at most. -/
def giveBack (spans : Array (Option Span)) (k : Continuation) : Nat → Place → Option Thread
  | 0, p => k ⟨p, spans⟩
  | count + 1, p =>
    match k ⟨p, spans⟩ with
    | some t => some t
    | none => match p.back 1 with
      | some q => giveBack spans k count q
      | none => none

/-- Tries what follows at a place and then at the places after it, as long as the test holds. -/
def takeMore (test : Char → Bool) (spans : Array (Option Span)) (k : Continuation)
    (limit : Option Nat) : List Char → List Char → Nat → Nat → Option Thread
  | before, [], offset, _ => k ⟨⟨before, [], offset⟩, spans⟩
  | before, c :: rest, offset, count =>
    match k ⟨⟨before, c :: rest, offset⟩, spans⟩ with
    | some t => some t
    | none =>
      if limit != some count && test c then
        takeMore test spans k limit (c :: before) rest (offset + 1) (count + 1)
      else none

def repeatOne (greed : Greed) (least : Nat) (most : Option Nat) (test : Char → Bool)
    (t : Thread) (k : Continuation) : Option Thread :=
  match greed with
  | .reluctant =>
    let (count, p) := run test (some least) t.place.before t.place.after t.place.offset 0
    if count < least then none
    else takeMore test t.spans k (most.map (· - least)) p.before p.after p.offset 0
  | .greedy =>
    let (count, p) := run test most t.place.before t.place.after t.place.offset 0
    if count < least then none else giveBack t.spans k (count - least) p
  | .possessive =>
    let (count, p) := run test most t.place.before t.place.after t.place.offset 0
    if count < least then none else k ⟨p, t.spans⟩

/-- The repetition of any pattern. `count` rounds are done; `last` is where the last optional
round began. A round that does not move on is the last one. -/
def repeatRound (greedy : Bool) (least : Nat) (most : Option Nat)
    (body : Thread → Continuation → Option Thread) (k : Continuation) :
    Nat → Nat → Option Nat → Thread → Option Thread
  | 0, _, _, _ => none
  | fuel + 1, count, last, t =>
    if count < least then body t (repeatRound greedy least most body k fuel (count + 1) last)
    else
      let another (_ : Unit) : Option Thread :=
        if most.all (count < ·) && last != some t.place.offset then
          body t (repeatRound greedy least most body k fuel (count + 1) (some t.place.offset))
        else none
      if greedy then (another ()).orElse fun _ => k t
      else (k t).orElse another

def repeatFinal (least : Nat) (most : Option Nat) (body : Thread → Option Thread) :
    Nat → Nat → Thread → Option Thread
  | 0, _, _ => none
  | fuel + 1, count, t =>
    if count < least then
      match body t with
      | some t' => repeatFinal least most body fuel (count + 1) t'
      | none => none
    else if most.all (count < ·) then
      match body t with
      | some t' =>
        if t'.place.offset = t.place.offset then some t'
        else repeatFinal least most body fuel (count + 1) t'
      | none => some t
    else some t

def Thread.span? (t : Thread) (group : Nat) : Option Span :=
  (t.spans[group - 1]?).join

/-- The first way in which a pattern matches from a place so that what follows matches too. -/
def Node.run : Node → Thread → Continuation → Option Thread
  | .empty, t, k => k t
  | .fail, _, _ => none
  | .one test, t, k =>
    match t.place.forth with
    | some (c, p) => if test.holds c then k { t with place := p } else none
    | none => none
  | .anchor a, t, k => if a.holds t.place then k t else none
  | .seq a b, t, k => a.run t fun t => b.run t k
  | .alt a b, t, k => (a.run t k).orElse fun _ => b.run t k
  | .group index body, t, k =>
    body.run t fun t' =>
      k { t' with spans := t'.spans.set! (index - 1) (some (t.place.offset, t'.place.offset)) }
  | .rep greed least most (.one test), t, k => repeatOne greed least most test.holds t k
  | .rep greed least most body, t, k =>
    let fuel := least + t.place.after.length + 2
    match greed with
    | .possessive => (repeatFinal least most (fun t => body.run t some) fuel 0 t).bind k
    | _ => repeatRound (greed == .greedy) least most (fun t k => body.run t k) k fuel 0 none t
  | .atomic body, t, k => (body.run t some).bind k
  | .look behind negated body, t, k =>
    match t.place.back (behind.getD 0) with
    | none => if negated then k t else none
    | some p =>
      match body.run { t with place := p } some with
      | some t' => if negated then none else k { t' with place := t.place }
      | none => if negated then k t else none
  | .back how index, t, k =>
    match t.span? index with
    | none => none
    | some s =>
      match t.place.follow how (t.place.slice s) with
      | some p => k { t with place := p }
      | none => none
  | .cond index given otherwise, t, k =>
    if (t.span? index).isSome then given.run t k else otherwise.run t k

/-- A match: its start and end, and the recorded parts of the groups. -/
structure Match where
  whole : Span
  /-- The parts recorded for the groups, by number less one. -/
  spans : Array (Option Span)

/-- The match that starts at a place. With `advance` it may not be empty. -/
def Regex.matchAt (r : Regex) (advance : Bool) (p : Place) : Option Match :=
  let final (t : Thread) : Option Thread :=
    if advance && t.place.offset == p.offset then none else some t
  match r.node.run ⟨p, Array.replicate r.groups none⟩ final with
  | some t => some ⟨(p.offset, t.place.offset), t.spans⟩
  | none => none

/-- The first match at or after a place. With `advance` it is not empty at that place. -/
def Regex.searchFrom (r : Regex) (advance : Bool) (before : List Char) (offset : Nat) :
    List Char → Option Match
  | [] => r.matchAt advance ⟨before, [], offset⟩
  | c :: rest =>
    match r.matchAt advance ⟨before, c :: rest, offset⟩ with
    | some m => some m
    | none => r.searchFrom false (c :: before) (offset + 1) rest

def Regex.search (r : Regex) (cs : List Char) : Option Match :=
  r.searchFrom false [] 0 cs

def Place.at (cs : List Char) (offset : Nat) : Place :=
  ⟨(cs.take offset).reverse, cs.drop offset, offset⟩

/-- The matches from an offset on. After an empty match the next one is not empty there. -/
def Regex.matchesFrom (r : Regex) (cs : List Char) : Nat → Bool → Nat → List Match
  | 0, _, _ => []
  | fuel + 1, advance, offset =>
    let p := Place.at cs offset
    match r.searchFrom advance p.before offset p.after with
    | some m => m :: r.matchesFrom cs fuel (m.whole.1 == m.whole.2) m.whole.2
    | none => []

def Regex.matchesOf (r : Regex) (cs : List Char) : List Match :=
  r.matchesFrom cs (2 * cs.length + 2) false 0

end MetadataIndex.Pattern
