import FeatureFile.Document.Basic
import FeatureFile.Json.Basic

/-!
# Documents as JSON

Every part of a document is an object that names its type. Absent parts are left out, and the
fields have a fixed order.
-/

namespace FeatureFile

open Json

/-- A field that is left out if there is no value for it. -/
def Json.optional (name : String) : Option Json → List (String × Json)
  | none => []
  | some value => [(name, value)]

def Location.toJson (l : Location) : Json :=
  object [("line", int l.line), ("column", int l.column)]

def Tag.toJson (t : Tag) : Json :=
  object [("type", string "Tag"), ("location", t.location.toJson), ("name", str t.name)]

def Comment.toJson (c : Comment) : Json :=
  object [("type", string "Comment"), ("location", c.location.toJson), ("text", str c.text)]

def Cell.toJson (c : Cell) : Json :=
  object [("type", string "TableCell"), ("location", c.location.toJson), ("value", str c.value)]

def Row.toJson (r : Row) : Json :=
  object
    [("type", string "TableRow"), ("location", r.location.toJson),
     ("cells", arr (r.cells.map Cell.toJson))]

def DataTable.toJson (t : DataTable) : Json :=
  object
    [("type", string "DataTable"), ("location", t.location.toJson),
     ("rows", arr (t.rows.map Row.toJson))]

def DocString.toJson (d : DocString) : Json :=
  object
    ([("type", string "DocString"), ("location", d.location.toJson)] ++
     optional "contentType" (d.contentType.map str) ++ [("content", str d.content)])

def Argument.toJson : Argument → Json
  | dataTable t => t.toJson
  | docString d => d.toJson

def Step.toJson (s : Step) : Json :=
  object
    ([("type", string "Step"), ("location", s.location.toJson), ("keyword", str s.keyword),
      ("text", str s.text)] ++ optional "argument" (s.argument.map Argument.toJson))

/-- The fields that a titled block has after its tags. -/
def titleFields (location : Location) (keyword name : Text) (description : Option Text) :
    List (String × Json) :=
  [("location", location.toJson), ("keyword", str keyword), ("name", str name)] ++
    optional "description" (description.map str)

def Background.toJson (b : Background) : Json :=
  object
    ([("type", string "Background")] ++
     titleFields b.location b.keyword b.name b.description ++
     [("steps", arr (b.steps.map Step.toJson))])

def Scenario.toJson (s : Scenario) : Json :=
  object
    ([("type", string "Scenario"), ("tags", arr (s.tags.map Tag.toJson))] ++
     titleFields s.location s.keyword s.name s.description ++
     [("steps", arr (s.steps.map Step.toJson))])

/-- The fields of an examples table. -/
def ExamplesTable.fields (t : ExamplesTable) : List (String × Json) :=
  [("tableHeader", t.header.toJson), ("tableBody", arr (t.body.map Row.toJson))]

def Examples.toJson (e : Examples) : Json :=
  object
    ([("type", string "Examples"), ("tags", arr (e.tags.map Tag.toJson))] ++
     titleFields e.location e.keyword e.name e.description ++
     (e.table.map ExamplesTable.fields).getD [])

def ScenarioOutline.toJson (s : ScenarioOutline) : Json :=
  object
    ([("type", string "ScenarioOutline"), ("tags", arr (s.tags.map Tag.toJson))] ++
     titleFields s.location s.keyword s.name s.description ++
     [("steps", arr (s.steps.map Step.toJson)),
      ("examples", arr (s.examples.map Examples.toJson))])

def ScenarioDefinition.toJson : ScenarioDefinition → Json
  | scenario s => s.toJson
  | outline s => s.toJson

def Feature.toJson (f : Feature) : Json :=
  object
    ([("type", string "Feature"), ("tags", arr (f.tags.map Tag.toJson)),
      ("location", f.location.toJson), ("language", str f.language), ("keyword", str f.keyword),
      ("name", str f.name)] ++
     optional "description" (f.description.map str) ++
     [("children",
       arr (f.background.toList.map Background.toJson ++
         f.scenarios.map ScenarioDefinition.toJson))])

def Document.toJson (d : Document) : Json :=
  object
    ([("type", string "GherkinDocument")] ++ optional "feature" (d.feature.map Feature.toJson) ++
     [("comments", arr (d.comments.map Comment.toJson))])

end FeatureFile
