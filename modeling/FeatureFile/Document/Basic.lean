import FeatureFile.Location

/-!
# Documents

A document is a source taken apart: at most one feature with a background, scenarios and scenario
outlines, and the comments of the source. Every part knows where it stands.
-/

namespace FeatureFile

structure Tag where
  location : Location
  name : Text
  deriving Repr, DecidableEq, Inhabited

structure Comment where
  location : Location
  text : Text
  deriving Repr, DecidableEq, Inhabited

structure Cell where
  location : Location
  value : Text
  deriving Repr, DecidableEq, Inhabited

structure Row where
  location : Location
  cells : List Cell
  deriving Repr, DecidableEq, Inhabited

/-- A table that belongs to a step. -/
structure DataTable where
  location : Location
  rows : List Row
  deriving Repr, DecidableEq, Inhabited

/-- A text of several lines that belongs to a step. -/
structure DocString where
  location : Location
  /-- What stands behind the opening separator, if anything does. -/
  contentType : Option Text
  content : Text
  deriving Repr, DecidableEq, Inhabited

/-- What a step can bring along. -/
inductive Argument where
  | dataTable (table : DataTable)
  | docString (text : DocString)
  deriving Repr, DecidableEq, Inhabited

structure Step where
  location : Location
  keyword : Text
  text : Text
  argument : Option Argument
  deriving Repr, DecidableEq, Inhabited

/-- Steps that come before the steps of every scenario. -/
structure Background where
  location : Location
  keyword : Text
  name : Text
  description : Option Text
  steps : List Step
  deriving Repr, DecidableEq, Inhabited

structure Scenario where
  tags : List Tag
  location : Location
  keyword : Text
  name : Text
  description : Option Text
  steps : List Step
  deriving Repr, DecidableEq, Inhabited

/-- The header row of an examples table and the rows below it. -/
structure ExamplesTable where
  header : Row
  body : List Row
  deriving Repr, DecidableEq, Inhabited

structure Examples where
  tags : List Tag
  location : Location
  keyword : Text
  name : Text
  description : Option Text
  table : Option ExamplesTable
  deriving Repr, DecidableEq, Inhabited

/-- A scenario with placeholders, and the examples to fill them in. -/
structure ScenarioOutline where
  tags : List Tag
  location : Location
  keyword : Text
  name : Text
  description : Option Text
  steps : List Step
  examples : List Examples
  deriving Repr, DecidableEq, Inhabited

inductive ScenarioDefinition where
  | scenario (scenario : Scenario)
  | outline (outline : ScenarioOutline)
  deriving Repr, DecidableEq, Inhabited

structure Feature where
  tags : List Tag
  location : Location
  language : Text
  keyword : Text
  name : Text
  description : Option Text
  background : Option Background
  scenarios : List ScenarioDefinition
  deriving Repr, DecidableEq, Inhabited

structure Document where
  feature : Option Feature
  comments : List Comment
  deriving Repr, DecidableEq, Inhabited

end FeatureFile
