import FeatureFile.Text.Case
import FeatureFile.Text.Word
import FeatureFile.Text.Basic

/-!
# Patterns

The header cells of an examples table are patterns: a cell `h` stands for every stretch of text
that the regular expression `<h>` matches. This module has the abstract form of such
expressions.

A character of a pattern is given by its code. Codes that no character of a text has, those of
surrogates, are allowed and match nothing.
-/

namespace FeatureFile

/-- How far letters count as the same in either case. -/
inductive Fold where
  /-- Not at all. -/
  | exact
  /-- The letters of the basic alphabet only. -/
  | ascii
  /-- All letters. -/
  | full
  deriving Repr, DecidableEq, Inhabited

namespace Fold

/-- The codes that count as the same. -/
def variants : Fold → Nat → List Nat
  | exact, n => [n]
  | ascii, n => Text.asciiVariants n
  | full, n => Text.caseVariants n

/-- Do two characters differ in case at most? -/
def same : Fold → Char → Char → Bool
  | exact, c, d => c == d
  | ascii, c, d => Text.asciiLowerCode c.toNat == Text.asciiLowerCode d.toNat
  | full, c, d => Text.lowerCode c.toNat == Text.lowerCode d.toNat

/-- Does a text start like another, up to case? -/
def starts (fold : Fold) : Text → Text → Bool
  | [], _ => true
  | _ :: _, [] => false
  | c :: cs, d :: ds => fold.same c d && starts fold cs ds

end Fold

/-- A class of characters. The classes with flags hold for the basic characters alone if the first
flag is set, and for the characters outside the class if the second one is. -/
inductive CharClass where
  | single (code : Nat)
  | range (low high : Nat)
  | digit (ascii outside : Bool)
  | blank (ascii outside : Bool)
  | word (ascii outside : Bool)
  deriving Repr, DecidableEq, Inhabited

namespace CharClass

/-- A blank of the basic characters. -/
def isAsciiBlank (c : Char) : Bool := c == ' ' || (9 ≤ c.toNat && c.toNat ≤ 13)

/-- A digit of any script or of the basic characters. -/
def isDigit (ascii : Bool) (c : Char) : Bool := Text.isDigit c && (!ascii || c.toNat < 128)

/-- A blank of any kind or of the basic characters. -/
def isBlank (ascii : Bool) (c : Char) : Bool :=
  if ascii then isAsciiBlank c else FeatureFile.isBlank c

/-- A character of words of any script or of the basic characters. -/
def isWord (ascii : Bool) (c : Char) : Bool := Text.isWord c && (!ascii || c.toNat < 128)

/-- Does the class hold the character? Only what is given by its code is taken up to case. -/
def holds (fold : Fold) : CharClass → Char → Bool
  | single n, c => (fold.variants c.toNat).contains n
  | range low high, c => (fold.variants c.toNat).any fun n => low ≤ n && n ≤ high
  | digit ascii outside, c => isDigit ascii c != outside
  | blank ascii outside, c => isBlank ascii c != outside
  | word ascii outside, c => isWord ascii c != outside

end CharClass

/-- The characters of some classes, or all others. -/
structure CharSet where
  negated : Bool := false
  classes : List CharClass
  fold : Fold := .exact
  deriving Repr, DecidableEq, Inhabited

/-- Is the character in the set? -/
def CharSet.holds (s : CharSet) (c : Char) : Bool := s.classes.any (·.holds s.fold c) != s.negated

/-- A condition on the place between two characters. -/
inductive Anchor where
  /-- The start of the text. -/
  | start
  /-- The start of a line. -/
  | lineStart
  /-- The end of the text, or a line feed at its end. -/
  | finish
  /-- The end of a line. -/
  | lineFinish
  /-- The very end of the text. -/
  | veryEnd
  /-- Between a word character and another. -/
  | wordEdge (ascii : Bool)
  /-- Not between a word character and another. -/
  | noWordEdge (ascii : Bool)
  deriving Repr, DecidableEq, Inhabited

/-- How a repetition chooses its length. -/
inductive Greed where
  /-- As long as possible, shorter if the rest of the pattern asks for it. -/
  | greedy
  /-- As short as possible, longer if the rest of the pattern asks for it. -/
  | reluctant
  /-- As long as possible, whatever follows. -/
  | possessive
  deriving Repr, DecidableEq, Inhabited

/-- How long the matches of a pattern can be; there may be no longest one. -/
structure Width where
  least : Nat
  most : Option Nat
  deriving Repr, DecidableEq, Inhabited

namespace Width

/-- All matches are that long. -/
def fixed (n : Nat) : Width := ⟨n, some n⟩

/-- One match behind the other. -/
def add (a b : Width) : Width :=
  ⟨a.least + b.least, a.most.bind fun m => b.most.map (m + ·)⟩

/-- One match or the other. -/
def either (a b : Width) : Width :=
  ⟨min a.least b.least, a.most.bind fun m => b.most.map (max m ·)⟩

/-- So many matches, one behind the other. -/
def times (w : Width) (least : Nat) (most : Option Nat) : Width :=
  ⟨w.least * least,
    if w.most = some 0 || most = some 0 then some 0
    else w.most.bind fun m => most.map (m * ·)⟩

/-- Widths that can be looked back over have to be smaller. -/
def limit : Nat := 4294967296

/-- Are all matches equally long, and not too long? -/
def isFixed (w : Width) : Bool := w.most = some w.least && w.least < limit

end Width

/-- A regular expression with groups. -/
inductive Pattern where
  | empty
  | char (set : CharSet)
  | seq (first second : Pattern)
  | alt (first second : Pattern)
  | repetition (body : Pattern) (least : Nat) (most : Option Nat) (greed : Greed)
  /-- A bracket; with a number the text it matches is remembered. -/
  | group (number : Option Nat) (body : Pattern)
  /-- A bracket that is not matched in another way if what follows fails. -/
  | atomic (body : Pattern)
  /-- A look at the text from `back` characters before on, which moves over nothing. -/
  | look (back : Width) (negated : Bool) (body : Pattern)
  /-- One pattern if a group has matched, and else the other. -/
  | choice (number : Nat) (first second : Pattern)
  /-- The text that a group has matched. -/
  | again (number : Nat) (fold : Fold)
  | anchor (anchor : Anchor)
  deriving Repr, DecidableEq, Inhabited

namespace Pattern

/-- One given character. -/
def literal (c : Char) : Pattern := char { classes := [.single c.toNat] }

/-- Patterns one after the other. -/
def ofList : List Pattern → Pattern
  | [] => empty
  | p :: ps => seq p (ofList ps)

/-- One pattern out of several. -/
def oneOf : List Pattern → Pattern
  | [] => empty
  | [p] => p
  | p :: ps => alt p (oneOf ps)

/-- How long the matches can be, given the same of the groups. -/
def width (groups : List (Nat × Width)) : Pattern → Width
  | empty | look .. | anchor _ => .fixed 0
  | char _ => .fixed 1
  | seq p q => (width groups p).add (width groups q)
  | alt p q | choice _ p q => (width groups p).either (width groups q)
  | repetition p least most _ => (width groups p).times least most
  | group _ p | atomic p => width groups p
  | again n _ => (groups.lookup n).getD (.fixed 0)

/-- Can it be told everywhere how far to look back? -/
def looksFixed : Pattern → Bool
  | empty | char _ | again .. | anchor _ => true
  | seq p q | alt p q | choice _ p q => looksFixed p && looksFixed q
  | repetition p .. | group _ p | atomic p => looksFixed p
  | look back _ p => back.isFixed && looksFixed p

end Pattern

/-- The groups of a pattern: how many there are, and the numbers of those that have names. -/
structure Groups where
  count : Nat := 0
  names : List (Text × Nat) := []
  deriving Repr, DecidableEq, Inhabited

end FeatureFile
