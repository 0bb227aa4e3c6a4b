import FeatureFile.Grammar.State

/-!
# Moves

The grammar as a table: for every state, the kinds of token that may come next and what each of
them does to the open rules. A move closes some of the open rules from the inside out, opens new
ones, and leads to the next state. `Move.Fits` says that the rules it closes are the innermost ones
and that the rules left open are those of the next state.

Tags are the one place where the next token does not decide. Inside a scenario outline they
belong to an examples block if one follows, and to the next scenario otherwise, so the
move for examples is guarded by a look at the lines ahead.

The moves of a state stand in the order of the grammar, in which error messages name
them. They are tried in the same order, except that a step is tried first: a switched-off step
looks like a comment and must not be taken for one.
-/

namespace FeatureFile

/-- A kind of token that may come next, and where it leads. -/
structure Move where
  kind : TokenKind
  /-- Only if an examples block follows. -/
  guarded : Bool := false
  /-- The rules that are closed first, innermost first. -/
  closes : List Rule := []
  /-- The rules that are opened then, outermost first. -/
  opens : List Rule := []
  next : State
  deriving Repr, DecidableEq, Inhabited

namespace Move

/-- Changes no rules. -/
def stay (kind : TokenKind) (next : State) : Move := { kind, next }

/-- Opens rules inside those of the state. -/
def enter (kind : TokenKind) (opens : List Rule) (next : State) : Move := { kind, opens, next }

/-- The rules that end with a block, innermost first. -/
def ended : Block → List Rule
  | .feature => [.featureHeader]
  | .background => [.background]
  | .scenario => [.scenario, .scenarioDefinition]
  | .outline => [.scenarioOutline, .scenarioDefinition]
  | .examples => [.examples, .examplesDefinition, .scenarioOutline, .scenarioDefinition]

/-- Ends the document, apart from the document itself, behind a block with the rules `inner` in
it. -/
def ending (inner : List Rule) (b : Block) : Move :=
  { kind := .eof, closes := inner ++ ended b ++ [.feature], next := .finished }

/-- What may follow a complete part of a block, with the rules `inner` in it. -/
def followers (inner : List Rule) (b : Block) : List Move :=
  match b with
  | .feature =>
    { kind := .backgroundLine, closes := inner ++ ended b, opens := [.background],
      next := .block .background .titled } :: scenarios (inner ++ ended b)
  | .background | .scenario => scenarios (inner ++ ended b)
  | .outline => examples inner (inner ++ ended b)
  | .examples => examples (inner ++ [.examples, .examplesDefinition]) (inner ++ ended b)
where
  scenarios (closes : List Rule) : List Move :=
    [{ kind := .tagLine, closes, opens := [.scenarioDefinition, .tags], next := .scenarioTags },
     { kind := .scenarioLine, closes, opens := [.scenarioDefinition, .scenario],
       next := .block .scenario .titled },
     { kind := .scenarioOutlineLine, closes, opens := [.scenarioDefinition, .scenarioOutline],
       next := .block .outline .titled }]
  /-- More examples, behind which the outline is still open, or a scenario. -/
  examples (part closes : List Rule) : List Move :=
    { kind := .tagLine, guarded := true, closes := part, opens := [.examplesDefinition, .tags],
      next := .examplesTags } ::
    { kind := .tagLine, closes, opens := [.scenarioDefinition, .tags], next := .scenarioTags } ::
    { kind := .examplesLine, closes := part, opens := [.examplesDefinition, .examples],
      next := .block .examples .titled } ::
    (scenarios closes).tail

/-- A new step of the owner. -/
def newStep (inner : List Rule) (o : StepOwner) : Move :=
  { kind := .stepLine, closes := inner, opens := [.step], next := .step o }

/-- What the body of a block is made of. -/
def body (inner : List Rule) : Block → List Move
  | .feature => []
  | .background => [newStep inner .background]
  | .scenario => [newStep inner .scenario]
  | .outline => [newStep inner .outline]
  | .examples =>
    [{ kind := .tableRow, closes := inner, opens := [.examplesTable], next := .examplesTable }]

end Move

namespace State

open Move

/-- What may come next, in the order of the grammar. -/
def moves : State → List Move
  | s@start =>
    [stay .eof finished, enter .language [.feature, .featureHeader] language,
     enter .tagLine [.feature, .featureHeader, .tags] featureTags,
     enter .featureLine [.feature, .featureHeader] (block .feature .titled),
     stay .comment s, stay .empty s]
  | s@language =>
    [enter .tagLine [.tags] featureTags, stay .featureLine (block .feature .titled),
     stay .comment s, stay .empty s]
  | s@featureTags =>
    [stay .tagLine s,
     { kind := .featureLine, closes := [.tags], next := block .feature .titled },
     stay .comment s, stay .empty s]
  | s@(block b .titled) =>
    [ending [] b, stay .empty s, stay .comment (block b .commented)] ++ body [] b ++
      followers [] b ++ [enter .other [.description] (block b .described)]
  | s@(block b .described) =>
    [ending [.description] b,
     { kind := .comment, closes := [.description], next := block b .commented }] ++
      body [.description] b ++ followers [.description] b ++ [stay .other s]
  | s@(block b .commented) =>
    [ending [] b, stay .comment s] ++ body [] b ++ followers [] b ++ [stay .empty s]
  | s@scenarioTags =>
    [stay .tagLine s,
     { kind := .scenarioLine, closes := [.tags], opens := [.scenario],
       next := block .scenario .titled },
     { kind := .scenarioOutlineLine, closes := [.tags], opens := [.scenarioOutline],
       next := block .outline .titled },
     stay .comment s, stay .empty s]
  | s@examplesTags =>
    [stay .tagLine s,
     { kind := .examplesLine, closes := [.tags], opens := [.examples],
       next := block .examples .titled },
     stay .comment s, stay .empty s]
  | s@examplesTable =>
    [ending [.examplesTable] .examples, stay .tableRow s] ++
      followers [.examplesTable] .examples ++ [stay .comment s, stay .empty s]
  | s@(step o) =>
    [ending [.step] o.block, enter .tableRow [.dataTable] (dataTable o),
     enter .docStringSeparator [.docString] (docString o), newStep [.step] o] ++
      followers [.step] o.block ++ [stay .comment s, stay .empty s]
  | s@(dataTable o) =>
    [ending [.dataTable, .step] o.block, stay .tableRow s, newStep [.dataTable, .step] o] ++
      followers [.dataTable, .step] o.block ++ [stay .comment s, stay .empty s]
  | s@(docString o) => [stay .docStringSeparator (docStringEnd o), stay .other s]
  | s@(docStringEnd o) =>
    [ending [.docString, .step] o.block, newStep [.docString, .step] o] ++
      followers [.docString, .step] o.block ++ [stay .comment s, stay .empty s]
  | finished => []

/-- The moves in the order in which they are tried. -/
def trials (s : State) : List Move :=
  s.moves.filter (fun a => a.kind = .stepLine) ++
    s.moves.filter (fun a => a.kind ≠ .stepLine)

/-- The kinds of token that may come next, as error messages name them. -/
def expected (s : State) : List TokenKind :=
  (s.moves.filter fun a => !a.guarded).map Move.kind

end State

namespace Move

/-- The number of open rules, outermost first, that a move leaves open in a state. -/
def keep (a : Move) (s : State) : Nat := s.path.length - a.closes.length

/-- The rules that are closed are the innermost ones of the state, and with those that are opened
the rules left open are those of the next state. -/
def Fits (a : Move) (s : State) : Prop :=
  a.closes = (s.path.drop (a.keep s)).reverse ∧ s.path.take (a.keep s) ++ a.opens = a.next.path

instance (a : Move) (s : State) : Decidable (a.Fits s) :=
  inferInstanceAs (Decidable (_ ∧ _))

end Move

theorem State.fits_of_mem_moves (s : State) : ∀ a ∈ s.moves, a.Fits s := by
  match s with
  | start | language | featureTags | scenarioTags | examplesTags | examplesTable | finished =>
    decide
  | block b p => cases b <;> cases p <;> decide
  | step o | dataTable o | docString o | docStringEnd o => cases o <;> decide

end FeatureFile
