import FeatureFile.Draft
import FeatureFile.Table.Cells
import FeatureFile.Text.Lines

/-!
# Writing feature files

A document is written block by block: tags, a title line, a description, and what belongs to the
block, indented by its level. Tables are padded so that their columns line up. Doc strings and
comments of the source are not written.

Writing can fail midway, on a missing field or on a table, and what was written before stays
written; so the outcome of writing is a text together with the fault that ended it, if any.
-/

namespace FeatureFile

open Draft

/-- What has been written, and why no more. -/
structure Written where
  text : Text := []
  fault : Option Fault := none
  deriving Repr, DecidableEq, Inhabited

namespace Written

/-- Goes on writing unless a fault has ended it. -/
def andThen (a b : Written) : Written :=
  match a.fault with
  | some _ => a
  | none => { text := a.text ++ b.text, fault := b.fault }

/-- Writes one piece after the other. -/
def all : List Written → Written
  | [] => {}
  | w :: ws => w.andThen (all ws)

/-- Writes what a computation gives, or ends with its fault. -/
def given {α : Type} (e : Except Fault α) (f : α → Written) : Written :=
  match e with
  | .ok a => f a
  | .error fault => { fault := some fault }

/-- A text and a line feed. -/
def line (t : Text) : Written := { text := t ++ ['\n'] }

end Written

/-- How to write: the width of one level of indent, and what the surroundings provide. -/
structure Writer where
  indent : Int := 2
  support : Support := .full
  deriving Repr, DecidableEq, Inhabited

namespace Writer

/-- Lengths of either sign are smaller. -/
def lengthLimit : Int := Int.pow 2 63

/-- The blanks in front of a line of that level; there are none if the indent is negative. -/
def margin (w : Writer) (level : Nat) : Except Fault Text :=
  let length := level * w.indent
  if length < -lengthLimit || lengthLimit ≤ length then .error .hugeIndent
  else if w.support.room < length then .error .noRoom
  else .ok (List.replicate length.toNat ' ')

/-- A line at a level; blanks in front of its text give way to the margin. -/
def line (w : Writer) (level : Nat) (t : Text) : Written :=
  .given (w.margin level) fun margin => .line (margin ++ Text.trimLeft t)

/-- A text as it is, if there is any. -/
def description : Option Text → Written
  | none | some [] => {}
  | some d => .line d

/-- A line of tags, if there are any. -/
def tags (w : Writer) (level : Nat) : Option (List Draft.Tag) → Written
  | none | some [] => {}
  | some tags =>
    .given (collect (fun t => need "name" t.name) tags) fun names =>
      w.line level (Text.join [' '] names)

/-- A title line. -/
def title (w : Writer) (level : Nat) (keyword name : Option Text) : Written :=
  .given (need "keyword" keyword) fun keyword =>
    .given (need "name" name) fun name => w.line level (keyword ++ ": ".toList ++ name)

/-- A comment to be written in front, if there is one. -/
def comment (w : Writer) (level : Nat) : Option Text → Written
  | none => {}
  | some c => w.line level c

/-- The cells of a row as they are written. -/
def row (r : Draft.Row) : Except Fault (List Text) := do
  let cells ← need "cells" r.cells
  collect (fun c => (need "value" c.value).map Table.escapeCell) cells

/-- A text filled up with blanks to a width. -/
def pad (width : Nat) (t : Text) : Text := t ++ List.replicate (width - t.length) ' '

/-- The text of a row with columns of the given widths. -/
def rowText (widths : List Nat) (cells : List Text) : Text :=
  '|' :: Text.join ['|'] (List.zipWith pad widths cells) ++ ['|']

/-- The widths of the columns of a table, if the surroundings can tell. -/
def widths (w : Writer) (rows : List (List Text)) : Except Fault (List Nat) :=
  if w.support.tables then Table.columnWidths rows else .error .tablesUnsupported

/-- A table, row by row. -/
def table (w : Writer) (level : Nat) (rows : List Draft.Row) : Written :=
  .given (collect row rows) fun rows =>
    .given (w.widths rows) fun widths =>
      .all (rows.map fun cells => w.line level (rowText widths cells))

/-- The argument of a step. Only tables are written. -/
def argument (w : Writer) (level : Nat) : Option Draft.Argument → Written
  | none => {}
  | some a =>
    .given (need "type" a.type) fun type =>
      if type = Draft.dataTableType then .given (need "rows" a.rows) (w.table level) else {}

/-- A step and its argument. -/
def step (w : Writer) (level : Nat) (s : Draft.Step) : Written :=
  .given (need "keyword" s.keyword) fun keyword =>
    .given (need "text" s.text) fun text =>
      (w.line level (keyword ++ text)).andThen (w.argument level s.argument)

/-- The table of an examples block, if it has a header. -/
def examplesTable (w : Writer) (level : Nat) (e : Draft.Examples) : Written :=
  match e.header with
  | none => {}
  | some header =>
    if header = {} then {} else w.table level (header :: e.body.getD [])

/-- An examples block. -/
def examples (w : Writer) (level : Nat) (e : Draft.Examples) : Written :=
  .all [w.tags level e.tags, w.title level e.keyword e.name, description e.description,
    w.examplesTable (level + 1) e]

/-- A background, scenario or scenario outline. -/
def child (w : Writer) (level : Nat) (c : Draft.Child) : Written :=
  .all [w.comment level c.comment, w.tags level c.tags, w.title level c.keyword c.name,
    description c.description, .all ((c.steps.getD []).map (w.step (level + 1))), .line [],
    .all ((c.examples.getD []).map fun e => (w.examples level e).andThen (.line []))]

/-- A feature. -/
def feature (w : Writer) (f : Draft.Feature) : Written :=
  .all [w.comment 0 f.comment, w.tags 0 f.tags, w.title 0 f.keyword f.name,
    description f.description, .line [], .all ((f.children.getD []).map (w.child 1))]

/-- Writes a draft. -/
def write (w : Writer) (d : Draft) : Written := .given (need "feature" d.feature) w.feature

/-- Writes a draft to a stream or a file: all of it or nothing. -/
def save (w : Writer) (d : Draft) : Except Fault Text :=
  if w.support.tables then
    match w.write d with
    | { text, fault := none } => .ok text
    | { fault := some fault, .. } => .error fault
  else .error .tablesUnsupported

end Writer

end FeatureFile
