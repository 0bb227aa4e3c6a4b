import FeatureFile.Token

/-!
# Errors of a source

An error has a cause and two places. `stamp` is the place printed in front of its message and is
fixed when the error arises. `place` is the place reported beside the message. The two differ in
one case: a header that names an unsupported language is read once more, as a comment, and the
error then points at where that reading stands.
-/

namespace FeatureFile

/-- Why a source is refused. -/
inductive Cause where
  /-- A refusal in words of its own. -/
  | general (text : Text)
  /-- A part of the document cannot be built. -/
  | malformed (text : Text)
  | unsupportedLanguage (name : Text)
  | unexpectedEnd (expected : List Text)
  | unexpectedToken (expected : List Text) (found : Text)
  deriving Repr, DecidableEq, Inhabited

/-- The wording of a cause. -/
def Cause.message : Cause → Text
  | general text => text
  | malformed text => text
  | unsupportedLanguage name => "Language not supported: ".toList ++ name
  | unexpectedEnd expected =>
    "unexpected end of file, expected: ".toList ++ Text.join ", ".toList expected
  | unexpectedToken expected found =>
    "expected: ".toList ++ Text.join ", ".toList expected ++ ", got '".toList ++ found ++
      "'".toList

/-- The cause of a table whose rows differ in length. -/
def Cause.unevenTable : Cause := .malformed "inconsistent cell count within the table".toList

/-- A reason to refuse a source, and where it was found. -/
structure ParseError where
  cause : Cause
  stamp : Place
  place : Place
  deriving Repr, DecidableEq, Inhabited

namespace ParseError

/-- An error that is printed and reported at the same place. -/
def placed (place : Place) (cause : Cause) : ParseError := { cause, stamp := place, place }

/-- The message: the place in brackets, then the cause. -/
def message (e : ParseError) : Text := e.stamp.stamp ++ e.cause.message

/-- The message of several errors together. -/
def summary (es : List ParseError) : Text :=
  "Parser errors:\n".toList ++ Text.join "\n".toList (es.map message)

/-- Where an unexpected line is reported: where it was given to stand, unless that names no
column, and else where its text starts. -/
def unexpectedPlace (l : Line) (given : Place) : Place :=
  if given.column.getD 0 = 0 then ⟨given.line, some (l.indent + 1)⟩ else given

/-- The error of a line that no alternative of the grammar accepts. -/
def unexpectedLine (l : Line) (given : Place) (expected : List Text) : ParseError :=
  placed (unexpectedPlace l given) (.unexpectedToken expected (Text.trim l.trimmed))

/-- The same error where there may be no line; the end of the input has to be given a column. -/
def unexpectedToken (line : Option Line) (given : Place) (expected : List Text) :
    Except Fault ParseError :=
  match line with
  | some l => .ok (unexpectedLine l given expected)
  | none =>
    if given.column.getD 0 = 0 then .error .noLine
    else .ok (placed given (.unexpectedToken expected (Text.trim TokenKind.eof.name)))

/-- The error of an input that ends too early. -/
def unexpectedEnd (given : Place) (expected : List Text) : ParseError :=
  placed given (.unexpectedEnd expected)

/-- How the kinds of token that could have come are named in a message. -/
def expectedNames (kinds : List TokenKind) : List Text := kinds.map fun k => '#' :: k.name

/-- The error of a token that no alternative of the grammar accepts. A line stands at its last
reading, or else where its text starts; the end of the input stands where it is. -/
def unexpected (t : Token) (kinds : List TokenKind) : ParseError :=
  match t.line with
  | none => unexpectedEnd t.location.place (expectedNames kinds)
  | some l => unexpectedLine l t.location.place (expectedNames kinds)

/-- The error of a header whose language is not supported, printed at its reading as a header and
reported at `place`. -/
def unsupportedLanguage (header : Token) (place : Place) : ParseError :=
  { cause := .unsupportedLanguage ((header.reading.bind Reading.text).getD []),
    stamp := header.location.place, place }

end ParseError

end FeatureFile
