import FeatureFile.Document.Basic
import FeatureFile.Fault
import FeatureFile.Json.Basic

/-!
# Drafts

A draft is a document as it may be handed over from outside, where any field can be missing.
Pickles are compiled and feature files are written from drafts; a missing field is a fault of
the work that needs it, and of no other. A document is the draft that has all its fields.
-/

namespace FeatureFile

namespace Draft

/-- The value of a field that is needed. -/
def need (key : String) {α : Type} : Option α → Except Fault α
  | none => .error (.missingField key.toList)
  | some a => .ok a

@[simp] theorem need_some (key : String) {α : Type} (a : α) : need key (some a) = .ok a := rfl

structure Location where
  line : Option Int := none
  column : Option Int := none
  deriving Repr, DecidableEq, Inhabited

structure Tag where
  location : Option Location := none
  name : Option Text := none
  deriving Repr, DecidableEq, Inhabited

structure Cell where
  location : Option Location := none
  value : Option Text := none
  deriving Repr, DecidableEq, Inhabited

structure Row where
  location : Option Location := none
  cells : Option (List Cell) := none
  deriving Repr, DecidableEq, Inhabited

/-- A step argument; which kind it is stands in `type`. -/
structure Argument where
  type : Option Text := none
  location : Option Location := none
  rows : Option (List Row) := none
  contentType : Option Text := none
  content : Option Text := none
  deriving Repr, DecidableEq, Inhabited

structure Step where
  location : Option Location := none
  keyword : Option Text := none
  text : Option Text := none
  argument : Option Argument := none
  deriving Repr, DecidableEq, Inhabited

structure Examples where
  tags : Option (List Tag) := none
  keyword : Option Text := none
  name : Option Text := none
  description : Option Text := none
  header : Option Row := none
  body : Option (List Row) := none
  deriving Repr, DecidableEq, Inhabited

/-- A background, scenario or scenario outline; which of them it is stands in `type`. -/
structure Child where
  type : Option Text := none
  tags : Option (List Tag) := none
  location : Option Location := none
  keyword : Option Text := none
  name : Option Text := none
  description : Option Text := none
  /-- A comment to be written in front. -/
  comment : Option Text := none
  steps : Option (List Step) := none
  examples : Option (List Examples) := none
  deriving Repr, DecidableEq, Inhabited

structure Feature where
  tags : Option (List Tag) := none
  language : Option Text := none
  keyword : Option Text := none
  name : Option Text := none
  description : Option Text := none
  /-- A comment to be written in front. -/
  comment : Option Text := none
  children : Option (List Child) := none
  deriving Repr, DecidableEq, Inhabited

end Draft

/-- A document in which any field may be missing. -/
structure Draft where
  feature : Option Draft.Feature := none
  deriving Repr, DecidableEq, Inhabited

/-- The type of a background. -/
def Draft.backgroundType : Text := "Background".toList

/-- The type of a scenario. -/
def Draft.scenarioType : Text := "Scenario".toList

/-- The type of a scenario outline. -/
def Draft.outlineType : Text := "ScenarioOutline".toList

/-- The type of a table. -/
def Draft.dataTableType : Text := "DataTable".toList

/-- The type of a doc string. -/
def Draft.docStringType : Text := "DocString".toList

/-! ### The draft of a document -/

def Location.draft (l : Location) : Draft.Location :=
  { line := some l.line, column := some l.column }

def Tag.draft (t : Tag) : Draft.Tag :=
  { location := some t.location.draft, name := some t.name }

def Cell.draft (c : Cell) : Draft.Cell :=
  { location := some c.location.draft, value := some c.value }

def Row.draft (r : Row) : Draft.Row :=
  { location := some r.location.draft, cells := some (r.cells.map Cell.draft) }

def Argument.draft : Argument → Draft.Argument
  | dataTable t =>
    { type := some Draft.dataTableType, location := some t.location.draft,
      rows := some (t.rows.map Row.draft) }
  | docString d =>
    { type := some Draft.docStringType, location := some d.location.draft,
      contentType := d.contentType, content := some d.content }

def Step.draft (s : Step) : Draft.Step :=
  { location := some s.location.draft, keyword := some s.keyword, text := some s.text,
    argument := s.argument.map Argument.draft }

def Examples.draft (e : Examples) : Draft.Examples :=
  { tags := some (e.tags.map Tag.draft), keyword := some e.keyword, name := some e.name,
    description := e.description, header := e.table.map fun t => t.header.draft,
    body := e.table.map fun t => t.body.map Row.draft }

def Background.draft (b : Background) : Draft.Child :=
  { type := some Draft.backgroundType, location := some b.location.draft,
    keyword := some b.keyword, name := some b.name, description := b.description,
    steps := some (b.steps.map Step.draft) }

def ScenarioDefinition.draft : ScenarioDefinition → Draft.Child
  | scenario s =>
    { type := some Draft.scenarioType, tags := some (s.tags.map Tag.draft),
      location := some s.location.draft, keyword := some s.keyword, name := some s.name,
      description := s.description, steps := some (s.steps.map Step.draft) }
  | outline s =>
    { type := some Draft.outlineType, tags := some (s.tags.map Tag.draft),
      location := some s.location.draft, keyword := some s.keyword, name := some s.name,
      description := s.description, steps := some (s.steps.map Step.draft),
      examples := some (s.examples.map Examples.draft) }

def Feature.draft (f : Feature) : Draft.Feature :=
  { tags := some (f.tags.map Tag.draft), language := some f.language, keyword := some f.keyword,
    name := some f.name, description := f.description,
    children := some (f.background.toList.map Background.draft ++
      f.scenarios.map ScenarioDefinition.draft) }

def Document.draft (d : Document) : Draft := { feature := d.feature.map Feature.draft }

/-! ### The draft of a JSON value -/

namespace Draft

/-- A text field. -/
def textField (name : String) (j : Json) : Option Text := (j.get? name).bind Json.text?

/-- A field that holds a list. -/
def listField (name : String) {α : Type} (read : Json → α) (j : Json) : Option (List α) :=
  ((j.get? name).bind Json.items?).map fun items => items.map read

/-- A field that holds an object. -/
def partField (name : String) {α : Type} (read : Json → α) (j : Json) : Option α :=
  (j.get? name).map read

def Location.ofJson (j : Json) : Location :=
  { line := (j.get? "line").bind Json.int?, column := (j.get? "column").bind Json.int? }

def Tag.ofJson (j : Json) : Tag :=
  { location := partField "location" Location.ofJson j, name := textField "name" j }

def Cell.ofJson (j : Json) : Cell :=
  { location := partField "location" Location.ofJson j, value := textField "value" j }

def Row.ofJson (j : Json) : Row :=
  { location := partField "location" Location.ofJson j, cells := listField "cells" Cell.ofJson j }

def Argument.ofJson (j : Json) : Argument :=
  { type := textField "type" j, location := partField "location" Location.ofJson j,
    rows := listField "rows" Row.ofJson j, contentType := textField "contentType" j,
    content := textField "content" j }

/-- A step; an empty argument is none. -/
def Step.ofJson (j : Json) : Step :=
  { location := partField "location" Location.ofJson j, keyword := textField "keyword" j,
    text := textField "text" j,
    argument := ((j.get? "argument").filter Json.isSolid).map Argument.ofJson }

def Examples.ofJson (j : Json) : Examples :=
  { tags := listField "tags" Tag.ofJson j, keyword := textField "keyword" j,
    name := textField "name" j, description := textField "description" j,
    header := partField "tableHeader" Row.ofJson j, body := listField "tableBody" Row.ofJson j }

def Child.ofJson (j : Json) : Child :=
  { type := textField "type" j, tags := listField "tags" Tag.ofJson j,
    location := partField "location" Location.ofJson j, keyword := textField "keyword" j,
    name := textField "name" j, description := textField "description" j,
    comment := textField "comment" j, steps := listField "steps" Step.ofJson j,
    examples := listField "examples" Examples.ofJson j }

def Feature.ofJson (j : Json) : Feature :=
  { tags := listField "tags" Tag.ofJson j, language := textField "language" j,
    keyword := textField "keyword" j, name := textField "name" j,
    description := textField "description" j, comment := textField "comment" j,
    children := listField "children" Child.ofJson j }

def ofJson (j : Json) : Draft := { feature := partField "feature" Feature.ofJson j }

end Draft

end FeatureFile
