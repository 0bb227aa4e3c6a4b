import FeatureFile.Grammar.Rule

/-!
# States of the parser

A state says which part of the grammar has just been read. Titled blocks share three states: the
title has been read, a description is being read, or a comment has ended the description. The
three places that hold steps share four: a step, its table, its doc string and the end of its
doc string.

`State.path` lists the rules that are open in a state, outermost first. It is the link between
the states and the document that is being built: moving from one state to another closes and
opens exactly the rules by which their paths differ.
-/

namespace FeatureFile

/-- A block with a title. -/
inductive Block where
  | feature
  | background
  | scenario
  | outline
  | examples
  deriving Repr, DecidableEq, Inhabited

/-- How far the head of a block has been read. -/
inductive Phase where
  /-- The title, and blank lines behind it. -/
  | titled
  /-- A description. -/
  | described
  /-- A comment, after which no description can follow. -/
  | commented
  deriving Repr, DecidableEq, Inhabited

/-- A place for steps. -/
inductive StepOwner where
  | background
  | scenario
  | outline
  deriving Repr, DecidableEq, Inhabited

/-- What has just been read. -/
inductive State where
  | start
  | language
  | featureTags
  | block (block : Block) (phase : Phase)
  | scenarioTags
  | examplesTags
  | examplesTable
  | step (owner : StepOwner)
  | dataTable (owner : StepOwner)
  | docString (owner : StepOwner)
  | docStringEnd (owner : StepOwner)
  | finished
  deriving Repr, DecidableEq, Inhabited

/-- The block that steps belong to. -/
def StepOwner.block : StepOwner → Block
  | background => .background
  | scenario => .scenario
  | outline => .outline

/-- The rules that are open inside a block. -/
def Block.path : Block → List Rule
  | feature => [.root, .document, .feature, .featureHeader]
  | background => [.root, .document, .feature, .background]
  | scenario => [.root, .document, .feature, .scenarioDefinition, .scenario]
  | outline => [.root, .document, .feature, .scenarioDefinition, .scenarioOutline]
  | examples =>
    [.root, .document, .feature, .scenarioDefinition, .scenarioOutline, .examplesDefinition,
      .examples]

namespace State

/-- The rules that are open in a state, outermost first. -/
def path : State → List Rule
  | start => [.root, .document]
  | language => [.root, .document, .feature, .featureHeader]
  | featureTags => [.root, .document, .feature, .featureHeader, .tags]
  | block b .described => b.path ++ [.description]
  | block b _ => b.path
  | scenarioTags => [.root, .document, .feature, .scenarioDefinition, .tags]
  | examplesTags =>
    [.root, .document, .feature, .scenarioDefinition, .scenarioOutline, .examplesDefinition,
      .tags]
  | examplesTable => Block.examples.path ++ [.examplesTable]
  | step o => o.block.path ++ [.step]
  | dataTable o => o.block.path ++ [.step, .dataTable]
  | docString o => o.block.path ++ [.step, .docString]
  | docStringEnd o => o.block.path ++ [.step, .docString]
  | finished => [.root, .document]

/-- The number a state goes by. -/
def number : State → Nat
  | start => 0
  | language => 1
  | featureTags => 2
  | block .feature .titled => 3
  | block .feature .described => 4
  | block .feature .commented => 5
  | block .background .titled => 6
  | block .background .described => 7
  | block .background .commented => 8
  | step .background => 9
  | dataTable .background => 10
  | scenarioTags => 11
  | block .scenario .titled => 12
  | block .scenario .described => 13
  | block .scenario .commented => 14
  | step .scenario => 15
  | dataTable .scenario => 16
  | block .outline .titled => 17
  | block .outline .described => 18
  | block .outline .commented => 19
  | step .outline => 20
  | dataTable .outline => 21
  | examplesTags => 22
  | block .examples .titled => 23
  | block .examples .described => 24
  | block .examples .commented => 25
  | examplesTable => 26
  | finished => 27
  | docString .outline => 28
  | docStringEnd .outline => 29
  | docString .scenario => 30
  | docStringEnd .scenario => 31
  | docString .background => 32
  | docStringEnd .background => 33

/-- Every state, in the order of their numbers. -/
def all : List State :=
  [start, language, featureTags,
    block .feature .titled, block .feature .described, block .feature .commented,
    block .background .titled, block .background .described, block .background .commented,
    step .background, dataTable .background, scenarioTags,
    block .scenario .titled, block .scenario .described, block .scenario .commented,
    step .scenario, dataTable .scenario,
    block .outline .titled, block .outline .described, block .outline .commented,
    step .outline, dataTable .outline, examplesTags,
    block .examples .titled, block .examples .described, block .examples .commented,
    examplesTable, finished,
    docString .outline, docStringEnd .outline, docString .scenario, docStringEnd .scenario,
    docString .background, docStringEnd .background]

/-- The state of that number. -/
def ofNumber : Int → Option State
  | .ofNat n => all[n]?
  | .negSucc _ => none

theorem all_getElem?_number (s : State) : all[s.number]? = some s := by
  match s with
  | start | language | featureTags | scenarioTags | examplesTags | examplesTable | finished => rfl
  | block b p => cases b <;> cases p <;> rfl
  | step o | dataTable o | docString o | docStringEnd o => cases o <;> rfl

@[simp] theorem ofNumber_number (s : State) : ofNumber s.number = some s :=
  all_getElem?_number s

end State

end FeatureFile
