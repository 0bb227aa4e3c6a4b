import FeatureFile.Document.Builder
import FeatureFile.Parser
import FeatureFile.Writer

/-!
# Reading for writing

A source that is to be written again is read in the commented style, because a step that is
switched off is a step of its document and not a comment: comments are not written, steps are.
`Writer.rounds` reads and writes over and over, each time what was written last.
-/

namespace FeatureFile

/-- The matcher for sources that are to be written again. -/
def Matcher.editing : Matcher := .new .commentedSteps .english

/-- The document of a source, read by a new parser that collects errors. -/
def Document.ofSource (m : Matcher) (source : Text) : Except Halt (Option Document) :=
  (Parser.parse { builder := ({} : DocumentBuilder) } m source).outcome

/-- What became of reading a source in order to write it. -/
inductive Round where
  | written (text : Text)
  | refused (halt : Halt)
  deriving Repr, DecidableEq, Inhabited

/-- Reads a source and writes its document, then does the same with what was written, at most
that many times. A refused source is the last round; a fault in writing leaves none. -/
def Writer.rounds (w : Writer) : Nat → Text → Except Fault (List Round)
  | 0, _ => .ok []
  | times + 1, source =>
    match Document.ofSource .editing source with
    | .error halt => .ok [.refused halt]
    | .ok document => do
      let text ← w.save ((document.map Document.draft).getD {})
      let rest ← w.rounds times text
      .ok (.written text :: rest)

end FeatureFile
