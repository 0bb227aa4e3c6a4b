import FeatureFile.Archive
import FeatureFile.Builder
import FeatureFile.CommandLine
import FeatureFile.Dialect.Basic
import FeatureFile.Dialect.Table
import FeatureFile.Document.Basic
import FeatureFile.Document.Builder
import FeatureFile.Document.Json
import FeatureFile.Document.Node
import FeatureFile.Draft
import FeatureFile.Fault
import FeatureFile.Grammar.Move
import FeatureFile.Grammar.Rule
import FeatureFile.Grammar.State
import FeatureFile.Intake
import FeatureFile.Json.Basic
import FeatureFile.Json.Printer
import FeatureFile.Json.Reader
import FeatureFile.Line
import FeatureFile.Listing
import FeatureFile.Location
import FeatureFile.Main
import FeatureFile.Matcher
import FeatureFile.Message.Basic
import FeatureFile.Message.Stream
import FeatureFile.ParseError
import FeatureFile.Parser
import FeatureFile.Pattern.Basic
import FeatureFile.Pattern.Match
import FeatureFile.Pattern.Reader
import FeatureFile.Pattern.Template
import FeatureFile.Pickle.Basic
import FeatureFile.Pickle.Compile
import FeatureFile.Proofs.Acceptance
import FeatureFile.Proofs.Attaching
import FeatureFile.Proofs.BlankLines
import FeatureFile.Proofs.Calls
import FeatureFile.Proofs.CellColumns
import FeatureFile.Proofs.Census
import FeatureFile.Proofs.Chomping
import FeatureFile.Proofs.Clarity
import FeatureFile.Proofs.Closing
import FeatureFile.Proofs.Collecting
import FeatureFile.Proofs.Compilation
import FeatureFile.Proofs.Conservative
import FeatureFile.Proofs.Decision
import FeatureFile.Proofs.DocStrings
import FeatureFile.Proofs.Escapes
import FeatureFile.Proofs.EvenTables
import FeatureFile.Proofs.Fences
import FeatureFile.Proofs.FirstError
import FeatureFile.Proofs.Following
import FeatureFile.Proofs.Gathering
import FeatureFile.Proofs.History
import FeatureFile.Proofs.Insertion
import FeatureFile.Proofs.Interpolation
import FeatureFile.Proofs.Keywords
import FeatureFile.Proofs.Layout
import FeatureFile.Proofs.LeftOut
import FeatureFile.Proofs.Legible
import FeatureFile.Proofs.LineEnds
import FeatureFile.Proofs.LineOrder
import FeatureFile.Proofs.LockStep
import FeatureFile.Proofs.LookAhead
import FeatureFile.Proofs.Meaning
import FeatureFile.Proofs.Mirror
import FeatureFile.Proofs.Nodes
import FeatureFile.Proofs.Onlookers
import FeatureFile.Proofs.OpenRules
import FeatureFile.Proofs.Outcomes
import FeatureFile.Proofs.Parts
import FeatureFile.Proofs.PatternReading
import FeatureFile.Proofs.PatternTurns
import FeatureFile.Proofs.PickleLines
import FeatureFile.Proofs.PickleNumbers
import FeatureFile.Proofs.Pipes
import FeatureFile.Proofs.Placeholders
import FeatureFile.Proofs.Positions
import FeatureFile.Proofs.ReadBack
import FeatureFile.Proofs.Readings
import FeatureFile.Proofs.Recording
import FeatureFile.Proofs.Recovery
import FeatureFile.Proofs.Relocation
import FeatureFile.Proofs.Rendering
import FeatureFile.Proofs.Replacing
import FeatureFile.Proofs.RoundTrip
import FeatureFile.Proofs.Samples
import FeatureFile.Proofs.Sequence
import FeatureFile.Proofs.Structure
import FeatureFile.Proofs.StepKeywords
import FeatureFile.Proofs.SwitchedOff
import FeatureFile.Proofs.Tables
import FeatureFile.Proofs.Titles
import FeatureFile.Proofs.Trails
import FeatureFile.Proofs.Trimming
import FeatureFile.Proofs.Turns
import FeatureFile.Proofs.Upcoming
import FeatureFile.Proofs.Verdict
import FeatureFile.Proofs.Words
import FeatureFile.Proofs.WrittenLanguage
import FeatureFile.Proofs.WrittenLines
import FeatureFile.Proofs.WrittenPhrases
import FeatureFile.Proofs.WrittenTables
import FeatureFile.Reader
import FeatureFile.Reformat
import FeatureFile.Run
import FeatureFile.Session
import FeatureFile.Table.Cells
import FeatureFile.Text.Basic
import FeatureFile.Text.Case
import FeatureFile.Text.Lines
import FeatureFile.Text.Name
import FeatureFile.Text.Word
import FeatureFile.Token
import FeatureFile.Trace
import FeatureFile.Trial
import FeatureFile.Writer
import FeatureFile.Proofs.Expansion
import FeatureFile.Proofs.Descriptions
