import FeatureFile.Grammar.Move
import FeatureFile.Matcher
import FeatureFile.Reader

/-!
# Finding the move for a token

In a given state the moves are tried one after the other until the token can be read as the kind
that a move asks for. A trial changes the token, which keeps its last reading, and the matcher;
a guarded move also looks ahead. Some kinds of token can be hidden from a trial: they are then
never recognised.

A header that names an unsupported language does not end the trial. The token keeps its reading
as a header, the refusal is noted, and the moves behind are tried.
-/

namespace FeatureFile

/-- The moves of a state being tried on a token. -/
structure Trial where
  token : Token
  matcher : Matcher
  reader : Reader
  /-- The token as it was read when its language was refused. -/
  refused : List Token := []
  /-- The move that was found, if any. -/
  move : Except Fault (Option Move) := .ok none
  deriving Inhabited

namespace Matcher

/-- Can the token be read as one of that kind, if the kind is not hidden? The end of the input is
only ever asked whether it is the end. -/
def ask (m : Matcher) (hidden : List TokenKind) (kind : TokenKind) (t : Token) : Verdict :=
  if hidden.contains kind || (t.isEnd && kind != .eof) then .no else m.read kind t

/-- The token with its reading as one of the given kinds, the first that fits. -/
def firstReading (m : Matcher) (hidden : List TokenKind) (t : Token) :
    List TokenKind → Option Token
  | [] => none
  | kind :: kinds =>
    match m.ask hidden kind t with
    | .yes reading _ => some (t.withReading reading)
    | _ => firstReading m hidden t kinds

/-- A look at a token in search of an examples block. Tags, comments and blank lines may stand in
front of it. -/
def lookForExamples (m : Matcher) (hidden : List TokenKind) (t : Token) : Glance × Token :=
  match m.firstReading hidden t [.examplesLine] with
  | some t => (.found, t)
  | none =>
    match m.firstReading hidden t [.empty, .comment, .tagLine] with
    | some t => (.passed, t)
    | none => (.blocked, t)

end Matcher

namespace Trial

/-- Tries moves in turn. -/
def run (hidden : List TokenKind) : List Move → Trial → Trial
  | [], trial => trial
  | move :: moves, trial =>
    match trial.matcher.ask hidden move.kind trial.token with
    | .no => run hidden moves trial
    | .broken fault => { trial with move := .error fault }
    | .unsupported reading =>
      let token := trial.token.withReading reading
      run hidden moves { trial with token, refused := trial.refused ++ [token] }
    | .yes reading matcher =>
      let trial := { trial with token := trial.token.withReading reading, matcher }
      if move.guarded then
        let (ahead, reader) := trial.reader.lookAhead (matcher.lookForExamples hidden)
        if ahead then { trial with reader, move := .ok (some move) }
        else run hidden moves { trial with reader }
      else { trial with move := .ok (some move) }

end Trial

/-- The move that a state makes on a token. -/
def State.decide (s : State) (hidden : List TokenKind) (token : Token) (matcher : Matcher)
    (reader : Reader) : Trial :=
  Trial.run hidden s.trials { token, matcher, reader }

end FeatureFile
