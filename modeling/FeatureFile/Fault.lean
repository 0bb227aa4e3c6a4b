import FeatureFile.Text.Basic

/-!
# Faults

A fault is a failure that is not an error of the source as such: a table row that cannot be
decoded, a document handed over with a field missing, a placeholder that is no valid pattern, a
file that cannot be read. A fault ends the operation at once, while errors of a source
(`ParseError`) can be collected.
-/

namespace FeatureFile

/-- What made an operation impossible. -/
inductive Fault where
  /-- A table row ends inside an escape. -/
  | danglingEscape
  /-- The end of the input has no line to look at. -/
  | noLine
  /-- The parser was asked to go on from a state that has no alternatives. -/
  | unknownState (number : Int)
  /-- There is no open rule. -/
  | noOpenRule
  /-- A token was handed over before it was recognised. -/
  | unrecognisedToken
  /-- A rule was closed without the token or part that its result is made from. -/
  | missingPart
  /-- A table has no rows. -/
  | emptyTable
  /-- A doc string has no separator. -/
  | noSeparator
  /-- A doc string starts with a closing separator. -/
  | closingSeparator
  /-- All lines of a description are empty. -/
  | blankDescription
  /-- A scenario definition holds neither a scenario nor a scenario outline. -/
  | noScenario
  /-- A document lacks a field. -/
  | missingField (key : Text)
  /-- A step has no keyword to measure. -/
  | noKeyword
  /-- An example row has fewer cells than its header. -/
  | fewCells
  /-- A step argument is neither a table nor a doc string. -/
  | unknownArgument
  /-- A header cell is no valid pattern. -/
  | badPattern
  /-- A pattern asks for more repetitions than can be counted. -/
  | hugeCount
  /-- A number has more digits than are read. -/
  | longNumber
  /-- A value cell is no valid replacement. -/
  | badTemplate
  /-- A replacement names a group that the pattern does not name. -/
  | unknownGroup
  /-- The rows of a table to be written differ in length. -/
  | raggedTable
  /-- An indent is too large to be a length at all. -/
  | hugeIndent
  /-- There is no room for an indent. -/
  | noRoom
  /-- The surroundings offer no way to measure and write tables. -/
  | tablesUnsupported
  /-- The surroundings offer no way to open a file. -/
  | filesUnsupported
  /-- The surroundings offer no message text for reports. -/
  | reportsUnsupported
  /-- There is no such file. -/
  | noFile
  /-- The name is that of a directory. -/
  | isDirectory
  /-- The bytes of a file are not valid UTF-8. -/
  | badEncoding
  /-- A line of a message stream is no JSON text. -/
  | badJson
  /-- A message is not an object. -/
  | notAnObject
  /-- The source in a message is not a text. -/
  | notAText
  /-- A parser was given something else than a text. -/
  | notASource
  /-- Pickles cannot be printed on a line stream. -/
  | picklesUnsupported
  /-- The command line is misused. -/
  | usage
  deriving Repr, DecidableEq, Inhabited

/-- The text that goes with a fault, for those that have one. -/
def Fault.message : Fault → Option Text
  | .danglingEscape => some "generator raised StopIteration".toList
  | .unknownState n => some ("Unknown state: ".toList ++ Text.ofInt n)
  | .noScenario => some "Internal grammar error".toList
  | .missingField key => some ("'".toList ++ key ++ "'".toList)
  | .unknownArgument => some "Internal error".toList
  | _ => none

/-- The results for all items of a list, or the first fault. -/
def collect {α β : Type} (f : α → Except Fault β) : List α → Except Fault (List β)
  | [] => .ok []
  | a :: as => do
    let b ← f a
    let bs ← collect f as
    .ok (b :: bs)

/-- What the surroundings of a run provide. -/
structure Support where
  /-- Files can be opened for reading. -/
  files : Bool
  /-- Tables can be measured, and documents written to a stream or a file. -/
  tables : Bool
  /-- Errors can be reported on a line stream. -/
  reports : Bool
  /-- There is memory for margins up to this length. -/
  room : Nat := Nat.pow 2 36
  deriving Repr, DecidableEq, Inhabited

/-- Surroundings that provide everything. -/
def Support.full : Support := { files := true, tables := true, reports := true }

/-- Surroundings that provide nothing beyond parsing and compiling. -/
def Support.bare : Support := { files := false, tables := false, reports := false }

end FeatureFile
