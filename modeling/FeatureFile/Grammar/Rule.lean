import FeatureFile.Token

/-!
# Rules

The rules of the grammar are the parts a document is made of. While a source is read, rules are
opened and closed like brackets, each inside the one before.
-/

namespace FeatureFile

/-- A part of a document. -/
inductive Rule where
  /-- What lies around the document. -/
  | root
  | document
  | feature
  | featureHeader
  | background
  | scenarioDefinition
  | scenario
  | scenarioOutline
  | examplesDefinition
  | examples
  | examplesTable
  | step
  | dataTable
  | docString
  | tags
  | description
  /-- A part without a result of its own. -/
  | named (name : Text)
  deriving Repr, DecidableEq, Inhabited

namespace Rule

/-- The name of a rule. -/
def name : Rule → Text
  | root => "None".toList
  | document => "GherkinDocument".toList
  | feature => "Feature".toList
  | featureHeader => "Feature_Header".toList
  | background => "Background".toList
  | scenarioDefinition => "Scenario_Definition".toList
  | scenario => "Scenario".toList
  | scenarioOutline => "ScenarioOutline".toList
  | examplesDefinition => "Examples_Definition".toList
  | examples => "Examples".toList
  | examplesTable => "Examples_Table".toList
  | step => "Step".toList
  | dataTable => "DataTable".toList
  | docString => "DocString".toList
  | tags => "Tags".toList
  | description => "Description".toList
  | named name => name

/-- The part of a step that a table and a doc string are two forms of. -/
def stepArgument : Rule := named "Step_Arg".toList

/-- The part behind a title that holds a description and comments. -/
def descriptionHelper : Rule := named "Description_Helper".toList

/-- The rules of the grammar, each after the rules it is used in where that is possible. -/
def all : List Rule :=
  [document, feature, featureHeader, background, scenarioDefinition, scenario, scenarioOutline,
    examplesDefinition, examples, examplesTable, step, stepArgument, dataTable, docString, tags,
    descriptionHelper, description]

/-- The rule of that name. -/
def ofName (t : Text) : Rule := ((root :: all).find? fun r => r.name == t).getD (named t)

/-- The names of everything the grammar speaks of: the surroundings, the kinds of token, the
rules. -/
def vocabulary : List Text :=
  root.name :: (TokenKind.all.map fun k => '_' :: k.name) ++ all.map name

end Rule

end FeatureFile
