import FeatureFile.Line
import FeatureFile.Location

/-!
# Tokens

Every line of a source is one token, and one more token marks the end of the input. A token
starts out as the bare line; a `Reading` is what a matcher makes of it. A token may be read
several times before it finds its place in the grammar, and it stands at the column of its last
reading, or at column zero while it has none.
-/

namespace FeatureFile

/-- What a line can be. -/
inductive TokenKind where
  | eof
  | empty
  | comment
  | tagLine
  | featureLine
  | backgroundLine
  | scenarioLine
  | scenarioOutlineLine
  | examplesLine
  | stepLine
  | docStringSeparator
  | tableRow
  | language
  | other
  deriving Repr, DecidableEq, Inhabited

namespace TokenKind

/-- Every kind of token. -/
def all : List TokenKind :=
  [eof, empty, comment, tagLine, featureLine, backgroundLine, scenarioLine, scenarioOutlineLine,
    examplesLine, stepLine, docStringSeparator, tableRow, language, other]

/-- The name of a kind in listings and error messages. -/
def name : TokenKind → Text
  | eof => "EOF".toList
  | empty => "Empty".toList
  | comment => "Comment".toList
  | tagLine => "TagLine".toList
  | featureLine => "FeatureLine".toList
  | backgroundLine => "BackgroundLine".toList
  | scenarioLine => "ScenarioLine".toList
  | scenarioOutlineLine => "ScenarioOutlineLine".toList
  | examplesLine => "ExamplesLine".toList
  | stepLine => "StepLine".toList
  | docStringSeparator => "DocStringSeparator".toList
  | tableRow => "TableRow".toList
  | language => "Language".toList
  | other => "Other".toList

/-- The kind of that name. -/
def ofName (t : Text) : Option TokenKind := all.find? fun k => k.name == t

end TokenKind

/-- What a matcher makes of a line. -/
structure Reading where
  kind : TokenKind
  /-- The part of the line that is kept: a title, a step, a comment, a line of a description. -/
  text : Option Text := none
  keyword : Option Text := none
  indent : Nat := 0
  /-- Tags or cells. -/
  items : List Item := []
  /-- The name of the dialect in force. -/
  dialect : Text
  deriving Repr, DecidableEq, Inhabited

/-- A line of a source, or the end of the input, with its last reading. -/
structure Token where
  /-- The number of the line. -/
  number : Int
  line : Option Line
  reading : Option Reading := none
  deriving Repr, DecidableEq, Inhabited

namespace Token

/-- Is this the end of the input? -/
def isEnd (t : Token) : Bool := t.line.isNone

/-- The column of the last reading. -/
def column (t : Token) : Nat :=
  match t.reading with
  | none => 0
  | some r => r.indent + 1

/-- Where the token stands. -/
def location (t : Token) : Location := ⟨t.number, t.column⟩

/-- The kind of the last reading. -/
def kind? (t : Token) : Option TokenKind := t.reading.map Reading.kind

/-- The trimmed line, or the name of the end of the input. -/
def value (t : Token) : Text :=
  match t.line with
  | none => TokenKind.eof.name
  | some l => l.trimmed

/-- The token with a new reading. -/
def withReading (t : Token) (r : Reading) : Token := { t with reading := some r }

/-- The token of a line with the given number; an empty line is the end of the input. -/
def ofLine (number : Int) (l : Line) : Token :=
  { number, line := if l = [] then none else some l }

end Token

end FeatureFile
