import FeatureFile.Table.Cells

/-!
# A line of a source

A line is looked at through its indent and its trimmed text. Tags and table cells are read off
a line together with the column at which they stand.
-/

namespace FeatureFile

/-- One line of a source, line terminator included. -/
abbrev Line := Text

/-- A tag or a table cell of a line: its text and the column, counted from one, it stands at. -/
structure Item where
  column : Nat
  text : Text
  deriving Repr, DecidableEq, Inhabited

namespace Line

/-- The number of blanks in front. A line of blanks alone is all indent, terminator included. -/
def indent (l : Line) : Nat := Text.indent l

/-- The line without its indent. -/
def trimmed (l : Line) : Text := Text.trimLeft l

/-- Nothing but blanks. -/
def isBlank (l : Line) : Bool := (trimmed l).isEmpty

/-- Does the trimmed line begin with `start`? -/
def startsWith (l : Line) (start : Text) : Bool := start.isPrefixOf (trimmed l)

/-- Does the trimmed line begin with the keyword and a colon? -/
def startsWithTitle (l : Line) (keyword : Text) : Bool := startsWith l (keyword ++ [':'])

/-- What follows the first `n` characters of the trimmed line, without surrounding blanks. -/
def rest (l : Line) (n : Nat) : Text := Text.trim ((trimmed l).drop n)

/-- What follows position `n` of the trimmed line, without surrounding blanks; a negative
position counts from the end. -/
def restFrom (l : Line) (n : Int) : Text := Text.trim (Text.sliceFrom (trimmed l) n)

/-- The line without its first `n` characters if they are all indent, and else without its
indent. -/
def dedent (l : Line) (n : Nat) : Text := if indent l < n then trimmed l else l.drop n

/-- As `dedent`; a negative number takes away the whole indent. -/
def dedentBy (l : Line) : Int → Text
  | .ofNat n => dedent l n
  | .negSucc _ => trimmed l

/-- The cells of the line with the column of their text, if no escape is left open. -/
def cells (l : Line) : Option (List Item) :=
  (Table.splitCells (Text.trim l)).map fun found =>
    found.map fun (cell, start) =>
      { column := start + indent l + Text.indent cell, text := Text.trim cell }

/-- Tags for the pieces behind each at sign, the first of which stands at `column`. -/
def tagsFrom (column : Nat) : List Text → List Item
  | [] => []
  | piece :: pieces =>
    { column, text := '@' :: Text.trim piece } :: tagsFrom (column + piece.length + 1) pieces

/-- The tags of the line. -/
def tags (l : Line) : List Item :=
  tagsFrom (indent l + 1) (Text.splitOn '@' (Text.trim l)).tail

end Line

end FeatureFile
