import FeatureFile.Builder
import FeatureFile.Document.Basic

/-!
# Nodes

While a document is being built, every open rule has a node that gathers what is found inside it:
tokens, and the results of the rules closed there. When the rule closes, its node is turned into
the part of the document that it stands for; rules without a part of their own stay nodes.

A node is asked for its contents by label. The label of a token is its kind, and the label of a
result is the rule it comes from.
-/

namespace FeatureFile

/-- What the contents of a node are found by. -/
inductive Label where
  | token (kind : TokenKind)
  | rule (rule : Rule)
  deriving Repr, DecidableEq, Inhabited

/-- The label of what comes from a rule. A rule that has the name of a kind of token is found like
a token. -/
def Rule.label (r : Rule) : Label :=
  match TokenKind.ofName r.name with
  | some kind => .token kind
  | none => .rule r

/-- The name of a label. -/
def Label.name : Label → Text
  | token kind => kind.name
  | rule r => r.name

/-- A token, the result of a rule, or a node that has no result of its own. -/
inductive NodeItem where
  | token (kind : TokenKind) (token : Token)
  | node (rule : Rule) (items : List NodeItem)
  | step (step : Step)
  | dataTable (table : DataTable)
  | docString (text : DocString)
  | background (background : Background)
  | scenarioDefinition (scenario : ScenarioDefinition)
  | examples (examples : Examples)
  | examplesTable (table : ExamplesTable)
  | description (text : Text)
  | feature (feature : Option Feature)
  | document (feature : Option Feature)
  deriving Inhabited

/-- The label an item is found by. -/
def NodeItem.label : NodeItem → Label
  | token kind _ => .token kind
  | node rule _ => rule.label
  | step _ => .rule .step
  | dataTable _ => .rule .dataTable
  | docString _ => .rule .docString
  | background _ => .rule .background
  | scenarioDefinition _ => .rule .scenarioDefinition
  | examples _ => .rule .examplesDefinition
  | examplesTable _ => .rule .examplesTable
  | description _ => .rule .description
  | feature _ => .rule .feature
  | document _ => .rule .document

/-- What has been found inside a rule, in order. -/
structure Node where
  rule : Rule
  items : List NodeItem := []
  deriving Inhabited

/-- The location, reported as an error, of the first row whose length differs from the first
row's. -/
def unevenRow : List Row → Option ParseError
  | [] => none
  | row :: rows =>
    (rows.find? fun r => r.cells.length != row.cells.length).map fun r =>
      .placed r.location.place .unevenTable

namespace Node

/-- Adds an item. -/
def add (n : Node) (item : NodeItem) : Node := { n with items := n.items ++ [item] }

/-- The first item with that label. -/
def first (n : Node) (l : Label) : Option NodeItem := n.items.find? fun i => i.label == l

/-- The first token of that kind. -/
def token (n : Node) (kind : TokenKind) : Except Fault Token :=
  match n.first (.token kind) with
  | some (.token _ t) => .ok t
  | _ => .error .missingPart

/-- The tokens of that kind among some items. -/
def tokensOf (kind : TokenKind) : List NodeItem → Except Fault (List Token)
  | [] => .ok []
  | i :: is =>
    if i.label = .token kind then
      match i with
      | .token _ t => (tokensOf kind is).map (t :: ·)
      | _ => .error .missingPart
    else tokensOf kind is

/-- The tokens of that kind. -/
def tokens (n : Node) (kind : TokenKind) : Except Fault (List Token) := tokensOf kind n.items

/-- The first node of a rule that has no result of its own. -/
def child? (n : Node) (r : Rule) : Option Node :=
  match n.first (.rule r) with
  | some (.node rule items) => some { rule, items }
  | _ => none

/-- The keyword of a token that has one. -/
def keywordOf (t : Token) : Text := (t.reading.bind Reading.keyword).getD []

/-- The text of a token that has one. -/
def textOf (t : Token) : Text := (t.reading.bind Reading.text).getD []

/-- The tags or cells of a token. -/
def itemsOf (t : Token) : List Item := (t.reading.map Reading.items).getD []

/-- The tags of a tag line. -/
def tagsOf (t : Token) : List Tag :=
  (itemsOf t).map fun i => { location := ⟨t.number, i.column⟩, name := i.text }

/-- The row of a table row token. -/
def rowOf (t : Token) : Row :=
  { location := t.location,
    cells := (itemsOf t).map fun i => { location := ⟨t.number, i.column⟩, value := i.text } }

/-- The tags of a node. -/
def tags (n : Node) : Except Fault (List Tag) :=
  match n.child? .tags with
  | none => .ok []
  | some node => (node.tokens .tagLine).map fun ts => ts.flatMap tagsOf

/-- The rows of a node, all of one length. -/
def rows (n : Node) : Except Refusal (List Row) := do
  let rows := ((← (n.tokens .tableRow).mapError .fault).map rowOf)
  match unevenRow rows with
  | some e => .error (.error e)
  | none => .ok rows

/-- The description of a node. -/
def description? (n : Node) : Option Text :=
  match n.first (.rule .description) with
  | some (.description d) => some d
  | _ => none

/-- The steps of a node. -/
def steps (n : Node) : List Step := n.items.filterMap fun
  | .step s => some s
  | _ => none

/-- The argument of a step: its first table, or else its first doc string. -/
def argument? (n : Node) : Option Argument :=
  match n.first (.rule .dataTable), n.first (.rule .docString) with
  | some (.dataTable t), _ => some (.dataTable t)
  | _, some (.docString d) => some (.docString d)
  | _, _ => none

/-- A step from its line and its argument. -/
def toStep (n : Node) : Except Fault Step := do
  let line ← n.token .stepLine
  .ok { location := line.location, keyword := keywordOf line, text := textOf line,
        argument := n.argument? }

/-- A doc string from its opening separator and its lines. -/
def toDocString (n : Node) : Except Fault DocString := do
  match n.first (.token .docStringSeparator) with
  | none => .error .noSeparator
  | some (.token _ separator) =>
    match separator.reading.bind Reading.text with
    | none => .error .closingSeparator
    | some contentType =>
      let lines ← n.tokens .other
      .ok { location := separator.location,
            contentType := if contentType.isEmpty then none else some contentType,
            content := Text.join ['\n'] (lines.map textOf) }
  | some _ => .error .missingPart

/-- A table from its rows. -/
def toDataTable (n : Node) : Except Refusal DataTable := do
  match ← n.rows with
  | [] => .error (.fault .emptyTable)
  | row :: rows => .ok { location := row.location, rows := row :: rows }

/-- An examples table from its rows. -/
def toExamplesTable (n : Node) : Except Refusal ExamplesTable := do
  match ← n.rows with
  | [] => .error (.fault .emptyTable)
  | header :: body => .ok { header, body }

/-- A background from its title line, description and steps. -/
def toBackground (n : Node) : Except Fault Background := do
  let line ← n.token .backgroundLine
  .ok { location := line.location, keyword := keywordOf line, name := textOf line,
        description := n.description?, steps := n.steps }

/-- The examples blocks of a node. -/
def examples (n : Node) : List Examples := n.items.filterMap fun
  | .examples e => some e
  | _ => none

/-- A scenario or a scenario outline from its tags and its node. -/
def toScenarioDefinition (n : Node) : Except Fault ScenarioDefinition := do
  let tags ← n.tags
  match n.child? .scenario, n.child? .scenarioOutline with
  | some node, _ =>
    let line ← node.token .scenarioLine
    .ok (.scenario
      { tags, location := line.location, keyword := keywordOf line, name := textOf line,
        description := node.description?, steps := node.steps })
  | none, some node =>
    let line ← node.token .scenarioOutlineLine
    .ok (.outline
      { tags, location := line.location, keyword := keywordOf line, name := textOf line,
        description := node.description?, steps := node.steps, examples := node.examples })
  | none, none => .error .noScenario

/-- An examples block from its tags and its node. -/
def toExamples (n : Node) : Except Fault Examples := do
  let tags ← n.tags
  match n.child? .examples with
  | none => .error .missingPart
  | some node =>
    let line ← node.token .examplesLine
    .ok { tags, location := line.location, keyword := keywordOf line, name := textOf line,
          description := node.description?,
          table := match node.first (.rule .examplesTable) with
            | some (.examplesTable t) => some t
            | _ => none }

/-- A description from its lines, without the empty ones at the end. -/
def toDescription (n : Node) : Except Fault Text := do
  let texts := (← n.tokens .other).map textOf
  match (texts.reverse.dropWhile List.isEmpty).reverse with
  | [] => .error .blankDescription
  | texts => .ok (Text.join ['\n'] texts)

/-- The first background of a node. -/
def background? (n : Node) : Option Background :=
  match n.first (.rule .background) with
  | some (.background b) => some b
  | _ => none

/-- The scenarios and scenario outlines of a node. -/
def scenarios (n : Node) : List ScenarioDefinition := n.items.filterMap fun
  | .scenarioDefinition s => some s
  | _ => none

/-- A feature from its header, background and scenarios; there is none without a title line. -/
def toFeature (n : Node) : Except Fault (Option Feature) := do
  match n.child? .featureHeader with
  | none => .ok none
  | some header =>
    let tags ← header.tags
    match header.first (.token .featureLine) with
    | none => .ok none
    | some (.token _ line) =>
      .ok (some
        { tags, location := line.location,
          language := (line.reading.map Reading.dialect).getD [],
          keyword := keywordOf line, name := textOf line, description := header.description?,
          background := n.background?, scenarios := n.scenarios })
    | some _ => .error .missingPart

/-- The feature of a document. -/
def feature? (n : Node) : Option Feature :=
  match n.first (.rule .feature) with
  | some (.feature f) => f
  | _ => none

/-- What a node stands for when its rule closes. -/
def toItem (n : Node) : Except Refusal NodeItem :=
  match n.rule with
  | .step => (n.toStep.map .step).mapError .fault
  | .docString => (n.toDocString.map .docString).mapError .fault
  | .dataTable => n.toDataTable.map .dataTable
  | .background => (n.toBackground.map .background).mapError .fault
  | .scenarioDefinition => (n.toScenarioDefinition.map .scenarioDefinition).mapError .fault
  | .examplesDefinition => (n.toExamples.map .examples).mapError .fault
  | .examplesTable => n.toExamplesTable.map .examplesTable
  | .description => (n.toDescription.map .description).mapError .fault
  | .feature => (n.toFeature.map .feature).mapError .fault
  | .document => .ok (.document n.feature?)
  | .root | .featureHeader | .scenario | .scenarioOutline | .examples | .tags | .named _ =>
    .ok (.node n.rule n.items)

end Node

end FeatureFile
