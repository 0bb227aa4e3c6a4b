import FeatureFile.Fault

/-!
# Cells of a table row

A row is a sequence of cells between pipes. Inside a cell a backslash escapes a pipe, another
backslash, or the letter `n`, which stands for a line feed; before any other character the
backslash stands for itself. `splitCells` decodes a row and remembers where each cell starts;
`escapeCell` encodes one cell so that `splitCells` gives it back.
-/

namespace FeatureFile.Table

/-- What a backslash followed by the given character stands for. -/
def unescape (c : Char) : Text :=
  if c = 'n' then ['\n'] else if c = '|' || c = '\\' then [c] else ['\\', c]

/-- Cells of the rest of a row. `column` is the position of the next character, `inside` tells
whether a pipe has been passed, and `start` and `cell` are the position and the decoded text of
the cell under way. Text before the first pipe and after the last one is no cell. -/
def splitCellsFrom (column : Nat) (inside : Bool) (start : Nat) (cell : Text) :
    Text → Option (List (Text × Nat))
  | [] => some []
  | '|' :: cs =>
    let rest := splitCellsFrom (column + 1) true (column + 1) [] cs
    if inside then rest.map ((cell, start) :: ·) else rest
  | ['\\'] => none
  | '\\' :: c :: cs => splitCellsFrom (column + 2) inside start (cell ++ unescape c) cs
  | c :: cs => splitCellsFrom (column + 1) inside start (cell ++ [c]) cs

/-- The decoded cells of a row with the position after their left pipe, counted from one. There
are none if the row ends inside an escape. -/
def splitCells (row : Text) : Option (List (Text × Nat)) := splitCellsFrom 1 false 1 [] row

/-- The written form of one character of a cell. -/
def escapeChar (c : Char) : Text :=
  if c = '\\' then ['\\', '\\'] else if c = '\n' then ['\\', 'n']
  else if c = '|' then ['\\', '|'] else [c]

/-- The written form of a cell. -/
def escapeCell (cell : Text) : Text := cell.flatMap escapeChar

/-- Column by column the greater of two widths; the rows must be of equal length. -/
def widen : List Nat → List Text → Option (List Nat)
  | [], [] => some []
  | w :: ws, t :: ts => (widen ws ts).map (max w t.length :: ·)
  | _, _ => none

/-- Widths that hold the given rows as well. -/
def widenAll (widths : List Nat) : List (List Text) → Except Fault (List Nat)
  | [] => .ok widths
  | row :: rows =>
    match widen widths row with
    | none => .error .raggedTable
    | some wider => widenAll wider rows

/-- The width of every column of a table. -/
def columnWidths : List (List Text) → Except Fault (List Nat)
  | [] => .error .emptyTable
  | row :: rows => widenAll (row.map List.length) (row :: rows)

end FeatureFile.Table
