import FeatureFile.Intake
import FeatureFile.Run

/-!
# Parsing a source

A parser is a builder together with the choice whether to stop at the first error. It can be used
for many sources: every parse starts by resetting the builder and the matcher. Both are left as
the parse ends, whatever its outcome.
-/

namespace FeatureFile

/-- A builder and the way to treat errors. -/
structure Parser (β : Type) where
  builder : β
  stopAtFirst : Bool := false
  deriving Inhabited

/-- What a parse leaves behind: its outcome, the parser, the matcher and the reader. -/
structure Parsed (β ρ : Type) where
  outcome : Except Halt ρ
  parser : Parser β
  matcher : Matcher
  reader : Reader

namespace Parser

variable {β ρ : Type}

/-- Parses what a reader hands out. -/
def parseReader [Builder β ρ] (parser : Parser β) (matcher : Matcher) (reader : Reader) :
    Parsed β ρ :=
  let run : Run β := { reader, matcher := matcher.reset, builder := Builder.reset parser.builder }
  match run.complete { stopAtFirst := parser.stopAtFirst } with
  | (run, some halt) =>
    { outcome := .error halt, parser := { parser with builder := run.builder },
      matcher := run.matcher, reader := run.reader }
  | (run, none) =>
    { outcome := (Builder.result run.builder).mapError Halt.fault,
      parser := { parser with builder := run.builder }, matcher := run.matcher,
      reader := run.reader }

/-- Parses a source. -/
def parse [Builder β ρ] (parser : Parser β) (matcher : Matcher) (source : Text) : Parsed β ρ :=
  parser.parseReader matcher (.ofText source)

/-- Parses a source that has been opened. A parse that asks for more than can be read ends
there. -/
def parseIntake [Builder β ρ] (parser : Parser β) (matcher : Matcher) (intake : Intake) :
    Parsed β ρ :=
  let parsed := parser.parseReader matcher intake.reader
  if intake.covers parsed.reader.count then parsed
  else { parsed with outcome := .error (.fault .badEncoding) }

/-- What the builder has built. -/
def result [Builder β ρ] (parser : Parser β) : Except Fault ρ := Builder.result parser.builder

end Parser

end FeatureFile
