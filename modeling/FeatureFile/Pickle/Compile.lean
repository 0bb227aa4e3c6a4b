import FeatureFile.Draft
import FeatureFile.Pattern.Template
import FeatureFile.Pickle.Basic

/-!
# Compiling pickles

Every scenario gives one pickle, and every row of examples below a header gives one. The steps of
the background come first, unless the scenario has no steps of its own. The tags are those of the
feature, of the scenario and of the examples, in that order.

In a scenario outline each header cell is a placeholder. `interpolate` replaces the placeholders
one header cell after the other, each in the result of the one before.
-/

namespace FeatureFile

open Draft

namespace Pickle

/-- The location of a part. -/
def location (l : Option Draft.Location) : Except Fault FeatureFile.Location := do
  let l ← need "location" l
  let line ← need "line" l.line
  let column ← need "column" l.column
  .ok { line, column }

/-- Where the text of a step stands, behind its keyword. -/
def stepLocation (s : Draft.Step) : Except Fault FeatureFile.Location := do
  let l ← location s.location
  match s.keyword with
  | none => .error .noKeyword
  | some keyword => .ok { l with column := l.column + keyword.length }

/-- A tag of a pickle. -/
def tag (t : Draft.Tag) : Except Fault PickleTag := do
  let name ← need "name" t.name
  let location ← location t.location
  .ok { name, location }

/-! The names of characters that header cells use come from the surroundings. -/

variable (names : CharNames)

/-- A text with every match of the placeholder of a header cell replaced by a value. -/
def fill (header value t : Text) : Except Fault Text := do
  let (pattern, groups) ← Pattern.ofHeader names header
  let template ← TemplatePart.ofText groups value
  .ok (pattern.replaceMatches template t)

/-- Replaces the placeholders of the header cells by the values of a row, one after the other. -/
def interpolate : List Draft.Cell → List Draft.Cell → Text → Except Fault Text
  | [], _, t => .ok t
  | _ :: _, [], _ => .error .fewCells
  | header :: headers, value :: values, t => do
    let header ← need "value" header.value
    let value ← need "value" value.value
    let t ← fill names header value t
    interpolate headers values t

/-- The cell of a table argument. -/
def cell (headers values : List Draft.Cell) (c : Draft.Cell) : Except Fault PickleCell := do
  let location ← location c.location
  let value ← need "value" c.value
  let value ← interpolate names headers values value
  .ok { location, value }

/-- The arguments of a step: none or one. -/
def arguments (headers values : List Draft.Cell) :
    Option Draft.Argument → Except Fault (List PickleArgument)
  | none => .ok []
  | some a => do
    let type ← need "type" a.type
    if type = Draft.dataTableType then
      let rows ← need "rows" a.rows
      let rows ← collect (fun (row : Draft.Row) => do
        let cells ← need "cells" row.cells
        collect (cell names headers values) cells) rows
      .ok [.table rows]
    else if type = Draft.docStringType then
      let location ← location a.location
      let content ← need "content" a.content
      let content ← interpolate names headers values content
      match a.contentType with
      | none => .ok [.docString location content none]
      | some contentType =>
        let contentType ← interpolate names headers values contentType
        .ok [.docString location content (some contentType)]
    else .error .unknownArgument

/-- A step without placeholders. -/
def plainStep (s : Draft.Step) : Except Fault PickleStep := do
  let text ← need "text" s.text
  let arguments ← arguments names [] [] s.argument
  let location ← stepLocation s
  .ok { text, arguments, locations := [location] }

/-- A step of a scenario outline for one row of examples. -/
def rowStep (headers values : List Draft.Cell) (row : Option Draft.Location) (s : Draft.Step) :
    Except Fault PickleStep := do
  let text ← need "text" s.text
  let text ← interpolate names headers values text
  let arguments ← arguments names headers values s.argument
  let rowLocation ← location row
  let location ← stepLocation s
  .ok { text, arguments, locations := [rowLocation, location] }

/-- The steps of the background, if the scenario has steps of its own. -/
def backgroundFor {α : Type} (background : List PickleStep) (steps : List α) :
    List PickleStep :=
  if steps.isEmpty then [] else background

/-- The pickle of a scenario. -/
def ofScenario (featureTags : List Draft.Tag) (background : List PickleStep) (language : Text)
    (s : Draft.Child) : Except Fault Pickle := do
  let steps ← need "steps" s.steps
  let tags ← need "tags" s.tags
  let own ← collect (plainStep names) steps
  let tags ← collect tag (featureTags ++ tags)
  let name ← need "name" s.name
  let location ← location s.location
  .ok { origin := .scenario, name, language, steps := backgroundFor background steps ++ own, tags,
        locations := [location] }

/-- The pickle of one row of examples. -/
def ofRow (featureTags : List Draft.Tag) (background : List PickleStep) (language : Text)
    (s : Draft.Child) (examples : Draft.Examples) (headers : List Draft.Cell)
    (row : Draft.Row) : Except Fault Pickle := do
  let values ← need "cells" row.cells
  let steps ← need "steps" s.steps
  let outlineTags ← need "tags" s.tags
  let examplesTags ← need "tags" examples.tags
  let own ← collect (rowStep names headers values row.location) steps
  let name ← need "name" s.name
  let name ← interpolate names headers values name
  let tags ← collect tag (featureTags ++ outlineTags ++ examplesTags)
  let rowLocation ← location row.location
  let location ← location s.location
  .ok { origin := .exampleRow, name, language, steps := backgroundFor background steps ++ own,
        tags, locations := [rowLocation, location] }

/-- The pickles of one examples block; without a table there are none. -/
def ofExamples (featureTags : List Draft.Tag) (background : List PickleStep) (language : Text)
    (s : Draft.Child) (examples : Draft.Examples) : Except Fault (List Pickle) :=
  match examples.header with
  | none => .ok []
  | some header => do
    let headers ← need "cells" header.cells
    let rows ← need "tableBody" examples.body
    collect (ofRow names featureTags background language s examples headers) rows

/-- The pickles of a scenario outline. -/
def ofOutline (featureTags : List Draft.Tag) (background : List PickleStep) (language : Text)
    (s : Draft.Child) : Except Fault (List Pickle) := do
  let examples ← need "examples" s.examples
  let pickles ← collect (ofExamples names featureTags background language s) examples
  .ok pickles.flatten

/-- The pickles of the children of a feature, in order. A background counts for the scenarios
behind it. -/
def ofChildren (featureTags : List Draft.Tag) (language : Text) :
    List PickleStep → List Draft.Child → Except Fault (List Pickle)
  | _, [] => .ok []
  | background, child :: children => do
    let type ← need "type" child.type
    if type = Draft.backgroundType then
      let steps ← need "steps" child.steps
      let background ← collect (plainStep names) steps
      ofChildren featureTags language background children
    else if type = Draft.scenarioType then
      let pickle ← ofScenario names featureTags background language child
      let pickles ← ofChildren featureTags language background children
      .ok (pickle :: pickles)
    else
      let first ← ofOutline names featureTags background language child
      let pickles ← ofChildren featureTags language background children
      .ok (first ++ pickles)

end Pickle

/-- The pickles of a draft, in the order of the source. -/
def Draft.pickles (d : Draft) (names : CharNames := .empty) : Except Fault (List Pickle) :=
  match d.feature with
  | none => .ok []
  | some feature => do
    let tags ← need "tags" feature.tags
    let language ← need "language" feature.language
    let children ← need "children" feature.children
    Pickle.ofChildren names tags language [] children

/-- The pickles of a document. -/
def Document.pickles (d : Document) (names : CharNames := .empty) :
    Except Fault (List Pickle) :=
  d.draft.pickles names

end FeatureFile
