import FeatureFile.Pattern.Basic

/-!
# Matching patterns

A pattern is matched from a place in a text on, and what has to follow is given as a continuation:
a choice is undone when the continuation fails on it. So the first success is the match that the
order of choices prefers.

A repetition does not go on behind a turn that has matched nothing, which bounds the number of
its turns by the length of the text. The turns of a possessive repetition are matched one by one,
each without regard to those behind it.
-/

namespace FeatureFile

/-- A place in a text, with what the groups have matched so far. -/
structure Cursor where
  /-- The text before, last character first. -/
  past : Text
  /-- The text behind. -/
  rest : Text
  /-- The groups with the text behind the places where they start, last one first. -/
  opened : List (Nat × Text) := []
  /-- The groups with the text behind the places where they end, last one first. -/
  closed : List (Nat × Text) := []
  deriving Repr, DecidableEq, Inhabited

namespace Cursor

/-- Moves over the first `n` characters. -/
def move (c : Cursor) (n : Nat) : Cursor :=
  { c with past := (c.rest.take n).reverse ++ c.past, rest := c.rest.drop n }

/-- Moves back over `n` characters, if there are so many. -/
def back? (c : Cursor) (n : Nat) : Option Cursor :=
  if n ≤ c.past.length then
    some { c with past := c.past.drop n, rest := (c.past.take n).reverse ++ c.rest }
  else none

/-- Moves to the place of another cursor. -/
def moveTo (c d : Cursor) : Cursor := { c with past := d.past, rest := d.rest }

/-- Do both cursors stand at the same place? -/
def samePlace (c d : Cursor) : Bool := c.rest.length == d.rest.length

/-- A group starts here. -/
def opening (c : Cursor) (n : Nat) : Cursor := { c with opened := (n, c.rest) :: c.opened }

/-- A group ends here. -/
def closing (c : Cursor) (n : Nat) : Cursor := { c with closed := (n, c.rest) :: c.closed }

/-- What a group has matched. It has matched nothing while it is open again, unless it starts
where it has ended before. -/
def group? (c : Cursor) (n : Nat) : Option Text := do
  let start ← c.opened.lookup n
  let stop ← c.closed.lookup n
  if stop.length ≤ start.length then some (start.take (start.length - stop.length)) else none

/-- Does the condition hold at this place? -/
def satisfies (c : Cursor) : Anchor → Bool
  | .start => c.past.isEmpty
  | .lineStart => c.past.head?.all (· == '\n')
  | .finish => c.rest.isEmpty || c.rest == ['\n']
  | .lineFinish => c.rest.head?.all (· == '\n')
  | .veryEnd => c.rest.isEmpty
  | .wordEdge ascii => !(c.past.isEmpty && c.rest.isEmpty) && before ascii != behind ascii
  | .noWordEdge ascii => !(c.past.isEmpty && c.rest.isEmpty) && before ascii == behind ascii
where
  before (ascii : Bool) : Bool := c.past.head?.any (CharClass.isWord ascii)
  behind (ascii : Bool) : Bool := c.rest.head?.any (CharClass.isWord ascii)

end Cursor

namespace Pattern

/-- What has to follow a match. -/
abbrev Continuation := Cursor → Option Cursor

/-- Can a repetition not go on? `turns` counts the turns made, and `last` is the place where the
last optional turn began. -/
def isStuck (most : Option Nat) (turns : Nat) (last : Option Cursor) (c : Cursor) : Bool :=
  (most.any fun m => m ≤ turns) || (last.any fun l => l.samePlace c)

/-- The turns of a repetition. `turns` counts those made, and `last` is the place where the last
optional turn began. -/
def repeated (body : Cursor → Continuation → Option Cursor) (least : Nat) (most : Option Nat)
    (reluctant : Bool) (k : Continuation) : Nat → Nat → Option Cursor → Cursor → Option Cursor
  | 0, _, _, _ => none
  | fuel + 1, turns, last, c =>
    if turns < least then
      body c fun d => repeated body least most reluctant k fuel (turns + 1) last d
    else
      let more := fun (_ : Unit) =>
        if isStuck most turns last c then none
        else body c fun d => repeated body least most reluctant k fuel (turns + 1) (some c) d
      if reluctant then
        match k c with
        | some d => some d
        | none => more ()
      else
        match more () with
        | some d => some d
        | none => k c

/-- The turns of a possessive repetition, counted in the same way. -/
def possessed (body : Cursor → Option Cursor) (least : Nat) (most : Option Nat) :
    Nat → Nat → Option Cursor → Cursor → Option Cursor
  | 0, _, _, _ => none
  | fuel + 1, turns, last, c =>
    if turns < least then (body c).bind (possessed body least most fuel (turns + 1) last)
    else if isStuck most turns last c then some c
    else
      match body c with
      | none => some c
      | some d => possessed body least most fuel (turns + 1) (some c) d

/-- Matches a pattern at a place, if what follows can be matched by the continuation. -/
def run : Pattern → Cursor → Continuation → Option Cursor
  | empty, c, k => k c
  | char set, c, k =>
    match c.rest with
    | [] => none
    | x :: _ => if set.holds x then k (c.move 1) else none
  | seq p q, c, k => run p c fun d => run q d k
  | alt p q, c, k =>
    match run p c k with
    | some d => some d
    | none => run q c k
  | repetition p least most greed, c, k =>
    let fuel := least + c.rest.length + 2
    match greed with
    | .greedy => repeated (run p) least most false k fuel 0 none c
    | .reluctant => repeated (run p) least most true k fuel 0 none c
    | .possessive => (possessed (fun d => run p d some) least most fuel 0 none c).bind k
  | group none p, c, k => run p c k
  | group (some n) p, c, k => run p (c.opening n) fun d => k (d.closing n)
  | atomic p, c, k => (run p c some).bind k
  | look back negated p, c, k =>
    match (c.back? back.least).bind fun d => run p d some with
    | some d => if negated then none else k (d.moveTo c)
    | none => if negated then k c else none
  | choice n p q, c, k => if (c.group? n).isSome then run p c k else run q c k
  | again n fold, c, k =>
    match c.group? n with
    | none => none
    | some t => if fold.starts t c.rest then k (c.move t.length) else none
  | anchor a, c, k => if c.satisfies a then k c else none

/-- The match at a place. With `advance` it has to be longer than nothing. -/
def matchAt (p : Pattern) (advance : Bool) (past rest : Text) : Option Cursor :=
  let c : Cursor := { past, rest }
  p.run c fun d => if advance && d.samePlace c then none else some d

end Pattern

end FeatureFile
