import FeatureFile.Token
import FeatureFile.Dialect.Table

/-!
# Matchers

A matcher decides whether a line can be read as a token of a given kind. What it remembers from
line to line is the dialect in force and, inside a doc string, the separator that opened it and the
indent of that line: until the separator returns, lines lose that much indent and escaped
separators are restored. Separator and indent are kept and forgotten together.

Two styles differ in steps alone. In the plain style a step starts with a step keyword. In the
commented style a hash mark, or a hash and a question mark, may stand in front of the keyword:
the line is then a step that is switched off, and its keyword keeps the mark.
-/

namespace FeatureFile

/-- How steps are read. -/
inductive MatcherStyle where
  | plain
  | commentedSteps
  deriving Repr, DecidableEq, Inhabited

/-- The two separators of doc strings. -/
inductive Fence where
  | quotes
  | backticks
  deriving Repr, DecidableEq, Inhabited

/-- How a separator is written. -/
def Fence.text : Fence → Text
  | .quotes => "\"\"\"".toList
  | .backticks => "```".toList

/-- How a separator is written inside a doc string. -/
def Fence.escaped : Text := "\\\"\\\"\\\"".toList

/-- A doc string under way: its separator and the indent of the line that opened it. -/
structure OpenDocString where
  fence : Fence
  indent : Nat
  deriving Repr, DecidableEq, Inhabited

/-- What is remembered between lines. -/
structure Matcher where
  style : MatcherStyle
  /-- The dialect of a source that names none. -/
  default : Dialect
  dialect : Dialect
  /-- The separator of the doc string under way. -/
  separator : Option Fence := none
  /-- The indent that the lines of a doc string lose. -/
  indentToRemove : Nat := 0
  /-- Outside of doc strings lines keep their indent. -/
  outside : separator = none → indentToRemove = 0 := by exact fun _ => rfl
  deriving Repr, DecidableEq, Inhabited

/-- The answer to the question whether a token is of some kind. -/
inductive Verdict where
  | no
  /-- It is; the matcher goes on in the given way. -/
  | yes (reading : Reading) (next : Matcher)
  /-- It is a language header, but the language it names is not supported. -/
  | unsupported (reading : Reading)
  /-- The question has no answer. -/
  | broken (fault : Fault)
  deriving Repr, DecidableEq, Inhabited

namespace Matcher

/-- A matcher for sources in the given dialect. -/
def new (style : MatcherStyle) (dialect : Dialect) : Matcher :=
  { style, default := dialect, dialect }

/-- A matcher for sources in the dialect of that name. -/
def ofName (style : MatcherStyle) (name : Text) : Option Matcher :=
  (Dialect.byName name).map (new style)

/-- The doc string under way, if there is one. -/
def docString (m : Matcher) : Option OpenDocString :=
  m.separator.map fun fence => { fence, indent := m.indentToRemove }

/-- Starts a doc string. -/
def enter (m : Matcher) (fence : Fence) (indent : Nat) : Matcher :=
  { m with separator := some fence, indentToRemove := indent, outside := fun h => by cases h }

/-- Ends a doc string. -/
def leave (m : Matcher) : Matcher :=
  { m with separator := none, indentToRemove := 0, outside := fun _ => rfl }

/-- Back to the default dialect, and outside any doc string. -/
def reset (m : Matcher) : Matcher := { m.leave with dialect := m.default }

/-- Changes the dialect in force. -/
def speak (m : Matcher) (name : Text) : Option Matcher :=
  (Dialect.byName name).map fun dialect => { m with dialect }

/-- A title line: one of the keywords, a colon, and the title. -/
def readTitle (m : Matcher) (kind : TokenKind) (keywords : List Text) (l : Line) :
    Option Reading :=
  (keywords.find? l.startsWithTitle).map fun keyword =>
    { kind, text := some (l.rest (keyword.length + 1)), keyword := some keyword,
      indent := l.indent, dialect := m.dialect.name }

/-- The mark that switches a step off, if the line starts with one. -/
def stepMark (m : Matcher) (l : Line) : Text :=
  match m.style with
  | .plain => []
  | .commentedSteps =>
    if l.startsWith "#?".toList then "#?".toList
    else if l.startsWith "#".toList then "#".toList
    else []

/-- A step line: the mark of a switched-off step, a keyword, and the text of the step. -/
def readStep (m : Matcher) (l : Line) : Option Reading :=
  let mark := m.stepMark l
  let bare : Line := if mark.isEmpty then l else Text.removeFirst mark l
  (m.dialect.steps.find? bare.startsWith).map fun keyword =>
    { kind := .stepLine, text := some (bare.rest keyword.length),
      keyword := some (mark ++ keyword), indent := l.indent, dialect := m.dialect.name }

/-- A letter, a hyphen or an underscore, as in the name of a language. -/
def isLanguageChar (c : Char) : Bool :=
  ('a' ≤ c && c ≤ 'z') || ('A' ≤ c && c ≤ 'Z') || c == '-' || c == '_'

/-- The rest of a text behind `start` and the blanks in front of it. -/
def behind (start : Text) (t : Text) : Option Text :=
  let t := Text.trimLeft t
  if start.isPrefixOf t then some (t.drop start.length) else none

/-- The language named by a header: a hash mark, the word, a colon and a name, with blanks
anywhere between them and nothing else on the line. -/
def languageOf (l : Line) : Option Text := do
  let t ← behind "#".toList l
  let t ← behind "language".toList t
  let t ← behind ":".toList t
  let t := Text.trimLeft t
  let name := t.takeWhile isLanguageChar
  if !name.isEmpty && (t.dropWhile isLanguageChar).all isBlank then some name else none

/-- A line of a description or of a doc string. -/
def contentOf (m : Matcher) (l : Line) : Text :=
  let content := l.dedent m.indentToRemove
  if m.separator.isSome then Text.replace Fence.escaped Fence.quotes.text content else content

/-- The separator that the line opens a doc string with. -/
def fenceOf (l : Line) : Option Fence :=
  if l.startsWith Fence.quotes.text then some .quotes
  else if l.startsWith Fence.backticks.text then some .backticks
  else none

/-- A separator line: inside a doc string only the separator that opened it. -/
def readSeparator (m : Matcher) (l : Line) : Verdict :=
  match m.separator with
  | none =>
    match fenceOf l with
    | none => .no
    | some fence =>
      .yes
        { kind := .docStringSeparator, text := some (l.rest fence.text.length),
          indent := l.indent, dialect := m.dialect.name }
        (m.enter fence l.indent)
  | some fence =>
    if l.startsWith fence.text then
      .yes { kind := .docStringSeparator, indent := l.indent, dialect := m.dialect.name } m.leave
    else .no

/-- A language header switches the dialect. Its reading still belongs to the dialect before. -/
def readLanguage (m : Matcher) (l : Line) : Verdict :=
  match languageOf l with
  | none => .no
  | some name =>
    let reading : Reading :=
      { kind := .language, text := some name, indent := l.indent, dialect := m.dialect.name }
    match m.speak name with
    | none => .unsupported reading
    | some next => .yes reading next

/-- A reading that leaves the matcher as it is. -/
def verdictOf (m : Matcher) : Option Reading → Verdict
  | none => .no
  | some reading => .yes reading m

/-- Can the line be read as a token of that kind? -/
def readLine (m : Matcher) (kind : TokenKind) (l : Line) : Verdict :=
  match kind with
  | .eof => .no
  | .empty =>
    if l.isBlank then .yes { kind, dialect := m.dialect.name } m else .no
  | .comment =>
    if l.startsWith "#".toList then
      .yes { kind, text := some (Text.chomp l), dialect := m.dialect.name } m
    else .no
  | .tagLine =>
    if l.startsWith "@".toList then
      .yes { kind, indent := l.indent, items := l.tags, dialect := m.dialect.name } m
    else .no
  | .featureLine => m.verdictOf (m.readTitle kind m.dialect.features l)
  | .backgroundLine => m.verdictOf (m.readTitle kind m.dialect.backgrounds l)
  | .scenarioLine => m.verdictOf (m.readTitle kind m.dialect.scenarios l)
  | .scenarioOutlineLine => m.verdictOf (m.readTitle kind m.dialect.outlines l)
  | .examplesLine => m.verdictOf (m.readTitle kind m.dialect.examples l)
  | .stepLine => m.verdictOf (m.readStep l)
  | .docStringSeparator => m.readSeparator l
  | .tableRow =>
    if l.startsWith "|".toList then
      match l.cells with
      | none => .broken .danglingEscape
      | some items => .yes { kind, indent := l.indent, items, dialect := m.dialect.name } m
    else .no
  | .language => m.readLanguage l
  | .other => .yes { kind, text := some (Text.chomp (m.contentOf l)), dialect := m.dialect.name } m

/-- Can the end of the input be read as a token of that kind? There is no line to look at, so
the kinds that have to look into one have no answer. -/
def readEnd (m : Matcher) (kind : TokenKind) : Verdict :=
  match kind with
  | .eof => .yes { kind, dialect := m.dialect.name } m
  | .comment | .tagLine | .stepLine | .docStringSeparator | .tableRow => .no
  | .empty | .featureLine | .backgroundLine | .scenarioLine | .scenarioOutlineLine
  | .examplesLine | .language | .other => .broken .noLine

/-- Can the token be read as one of that kind? -/
def read (m : Matcher) (kind : TokenKind) (t : Token) : Verdict :=
  match t.line with
  | none => m.readEnd kind
  | some l => m.readLine kind l

end Matcher

end FeatureFile
