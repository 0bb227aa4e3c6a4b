import FeatureFile.Document.Builder
import FeatureFile.Listing
import FeatureFile.Parser
import FeatureFile.Pickle.Compile

/-!
# Sessions

A session has several parsers and several matchers that are used together in any combination. A
parser may have a builder of its own or use the one that the session shares among parsers.
-/

namespace FeatureFile

/-- A parser of a session. -/
inductive Desk where
  /-- Builds documents with its own builder. -/
  | document (parser : Parser DocumentBuilder)
  /-- Lists tokens. -/
  | listing (parser : Parser Listing)
  /-- Builds documents with the shared builder. -/
  | shared (stopAtFirst : Bool)
  deriving Inhabited

/-- What a parser gives. -/
inductive Product where
  | document (document : Option Document)
  | listing (text : Text)
  deriving Repr, DecidableEq, Inhabited

/-- The pickles of what a parser gives. A listing is no document: it has no pickles, and it cannot
be asked for a feature, not even if it mentions one. -/
def Product.pickles (p : Product) (names : CharNames := .empty) : Except Fault (List Pickle) :=
  match p with
  | .document (some d) => d.pickles names
  | .document none => .error .notAnObject
  | .listing t =>
    if Text.mentions "feature".toList t then .error .notAnObject else .ok []

/-- Parsers, matchers, and the shared builder. -/
structure Session where
  desks : List Desk
  matchers : List Matcher
  shared : DocumentBuilder := {}
  deriving Inhabited

namespace Desk

/-- Sets whether to stop at the first error. -/
def setStop (stopAtFirst : Bool) : Desk → Desk
  | document p => document { p with stopAtFirst }
  | listing p => listing { p with stopAtFirst }
  | shared _ => shared stopAtFirst

/-- Parses a source that has been opened, with the shared builder at hand. Gives the outcome, the
desk, the shared builder and the matcher. -/
def parseIntake (desk : Desk) (shared : DocumentBuilder) (m : Matcher) (intake : Intake) :
    Except Halt Product × Desk × DocumentBuilder × Matcher :=
  match desk with
  | .document p =>
    let parsed := p.parseIntake m intake
    (parsed.outcome.map .document, .document parsed.parser, shared, parsed.matcher)
  | .listing p =>
    let parsed := p.parseIntake m intake
    (parsed.outcome.map .listing, .listing parsed.parser, shared, parsed.matcher)
  | .shared stopAtFirst =>
    let parsed := { builder := shared, stopAtFirst : Parser DocumentBuilder }.parseIntake m intake
    (parsed.outcome.map .document, .shared stopAtFirst, parsed.parser.builder, parsed.matcher)

/-- What has been built. -/
def result (desk : Desk) (shared : DocumentBuilder) : Except Fault Product :=
  match desk with
  | .document p => p.result.map .document
  | .listing p => p.result.map .listing
  | .shared _ => shared.result.map .document

end Desk

namespace Session

/-- Parses a source with parser `i` and matcher `j`, if there are such. -/
def parse (s : Session) (i j : Nat) (source : Text) : Option (Except Halt Product × Session) := do
  let desk ← s.desks[i]?
  let m ← s.matchers[j]?
  let (outcome, desk, shared, m) := desk.parseIntake s.shared m (.ofText source)
  some (outcome, { desks := s.desks.set i desk, matchers := s.matchers.set j m, shared })

/-- What parser `i` has built. -/
def result (s : Session) (i : Nat) : Option (Except Fault Product) :=
  s.desks[i]?.map fun desk => desk.result s.shared

/-- Sets whether parser `i` stops at the first error. -/
def setStop (s : Session) (i : Nat) (stopAtFirst : Bool) : Session :=
  { s with desks := s.desks.modify i (Desk.setStop stopAtFirst) }

end Session

end FeatureFile
