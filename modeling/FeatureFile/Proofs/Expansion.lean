import FeatureFile.Proofs.Placeholders

/-!
# Outlines as scenarios

A scenario outline with a row of examples stands for a scenario: the outline with the placeholders
filled in (`ScenarioOutline.fillIn`). The pickle of the row is compiled from the outline directly, by
other functions than the pickle of a scenario. Still it is the pickle of that scenario, but for the
places it comes from: the row is listed in front of the places of the pickle and of its own steps
(`Pickle.RowOf`).

Both sides are compared with what a step is without any placeholders (`Step.pickled`). A scenario has
nothing to fill in, so its steps are the case in which filling in leaves all texts alone.
-/

namespace FeatureFile

/-! ## Filling in -/

section FillIn

variable (fill : Text → Except Fault Text)

def Cell.fillIn (c : Cell) : Except Fault Cell := do
  let value ← fill c.value
  .ok { c with value }

def Row.fillIn (r : Row) : Except Fault Row := do
  let cells ← collect (Cell.fillIn fill) r.cells
  .ok { r with cells }

def DocString.fillIn (d : DocString) : Except Fault DocString := do
  let content ← fill d.content
  match d.contentType with
  | none => .ok { d with content }
  | some contentType =>
    let contentType ← fill contentType
    .ok { d with content, contentType := some contentType }

def Argument.fillIn : Argument → Except Fault Argument
  | dataTable t => do
    let rows ← collect (Row.fillIn fill) t.rows
    .ok (.dataTable { t with rows })
  | docString d => do
    let d ← d.fillIn fill
    .ok (.docString d)

def Step.fillIn (s : Step) : Except Fault Step := do
  let text ← fill s.text
  match s.argument with
  | none => .ok { s with text }
  | some argument =>
    let argument ← argument.fillIn fill
    .ok { s with text, argument := some argument }

end FillIn

/-- The scenario that an outline stands for with a row of examples below a header. -/
def ScenarioOutline.fillIn (names : CharNames) (o : ScenarioOutline) (e : Examples)
    (header row : Row) : Except Fault Scenario := do
  let fill := Pickle.interpolate names (header.cells.map Cell.draft) (row.cells.map Cell.draft)
  let steps ← collect (Step.fillIn fill) o.steps
  let name ← fill o.name
  .ok { tags := o.tags ++ e.tags, location := o.location, keyword := o.keyword, name,
        description := o.description, steps }

/-- The scenarios of all rows of an examples block, each with the place of its row. -/
def Examples.expand (names : CharNames) (o : ScenarioOutline) (e : Examples) :
    Except Fault (List (Location × Scenario)) :=
  match e.table with
  | none => .ok []
  | some t => collect (fun row => do
      let s ← o.fillIn names e t.header row
      .ok (row.location, s)) t.body

/-- All scenarios that an outline stands for. -/
def ScenarioOutline.expand (names : CharNames) (o : ScenarioOutline) :
    Except Fault (List (Location × Scenario)) := do
  let blocks ← collect (Examples.expand names o) o.examples
  .ok blocks.flatten

/-! ## Pickles without placeholders -/

def Cell.pickled (c : Cell) : PickleCell := { location := c.location, value := c.value }

def Argument.pickled : Argument → PickleArgument
  | dataTable t => .table (t.rows.map fun r => r.cells.map Cell.pickled)
  | docString d => .docString d.location d.content d.contentType

/-- A step of a pickle, with the places it comes from besides its own. -/
def Step.pickled (front : List Location) (s : Step) : PickleStep :=
  { text := s.text, arguments := s.argument.toList.map Argument.pickled,
    locations := front ++ [s.textLocation] }

/-- The pickle of a scenario, with the places it comes from besides its own. -/
def Scenario.pickled (origin : PickleOrigin) (featureTags : List Tag) (background : List PickleStep)
    (language : Text) (front : List Location) (s : Scenario) : Pickle :=
  { origin, name := s.name, language,
    steps := Pickle.backgroundFor background s.steps ++ s.steps.map (Step.pickled front),
    tags := (featureTags ++ s.tags).map Tag.pickled, locations := front ++ [s.location] }

/-- A step of a pickle that also comes from a row of examples at that place. -/
def PickleStep.fromRow (l : Location) (s : PickleStep) : PickleStep :=
  { s with locations := l :: s.locations }

/-- The first pickle is the second one but for a row of examples at that place, which it and its own
steps come from too. The steps of the background come first and do not come from the row. -/
structure Pickle.RowOf (l : Location) (p q : Pickle) : Prop where
  name : p.name = q.name
  language : p.language = q.language
  tags : p.tags = q.tags
  steps : ∃ background own, q.steps = background ++ own ∧
    p.steps = background ++ own.map (PickleStep.fromRow l)
  locations : p.locations = l :: q.locations

theorem Scenario.pickled_rowOf (featureTags : List Tag) (background : List PickleStep)
    (language : Text) (l : Location) (s : Scenario) :
    (s.pickled .exampleRow featureTags background language [l]).RowOf l
      (s.pickled .scenario featureTags background language []) := by
  refine ⟨rfl, rfl, rfl, ⟨_, s.steps.map (Step.pickled []), rfl, ?_⟩, rfl⟩
  rw [List.map_map]
  rfl

/-! ## Nothing to fill in -/

theorem collect_self {α : Type} {f : α → Except Fault α} (hf : ∀ a, f a = .ok a) (as : List α) :
    collect f as = .ok as := by
  have has := collect_map (g := id) (k := id) hf as
  rwa [List.map_id] at has

theorem Cell.fillIn_ok (c : Cell) : c.fillIn .ok = .ok c := rfl

theorem Row.fillIn_ok (r : Row) : r.fillIn .ok = .ok r := by
  rw [Row.fillIn, collect_self Cell.fillIn_ok]
  rfl

theorem Argument.fillIn_ok (a : Argument) : a.fillIn .ok = .ok a := by
  cases a with
  | dataTable t =>
      rw [Argument.fillIn, collect_self Row.fillIn_ok]
      rfl
  | docString d =>
      obtain ⟨_, contentType, _⟩ := d
      cases contentType <;> rfl

/-! ## Steps -/

namespace Pickle

variable {names : CharNames}

section Steps

variable (headers values : List Draft.Cell)

theorem cell_fillIn (c : Cell) : cell names headers values c.draft =
    Cell.pickled <$> c.fillIn (interpolate names headers values) := by
  rw [Cell.fillIn, map_bind]
  rfl

theorem cells_fillIn (r : Row) : collect (cell names headers values) (r.cells.map Cell.draft) =
    (fun r => r.cells.map Cell.pickled) <$> r.fillIn (interpolate names headers values) := by
  rw [collect_map_corresponds (cell_fillIn headers values), Row.fillIn, map_bind]
  rfl

theorem arguments_fillIn (a : Argument) : arguments names headers values (some a.draft) =
    (fun a => [a.pickled]) <$> a.fillIn (interpolate names headers values) := by
  cases a with
  | dataTable t =>
      have hrows : collect (fun row : Draft.Row => do
          let cells ← Draft.need "cells" row.cells
          collect (cell names headers values) cells) (t.rows.map Row.draft) =
            (List.map fun r => r.cells.map Cell.pickled) <$>
              collect (Row.fillIn (interpolate names headers values)) t.rows :=
        collect_map_corresponds (v := Row.draft) (fun r => cells_fillIn headers values r) t.rows
      rw [arguments_dataTable, hrows, bind_map_left, Argument.fillIn, map_bind]
      rfl
  | docString d =>
      rw [arguments_docString, Argument.fillIn, DocString.fillIn, map_bind, bind_assoc]
      congr 1
      funext content
      cases d.contentType with
      | none => rfl
      | some contentType =>
          change _ = (interpolate names headers values contentType >>= _) >>= _
          rw [bind_assoc]
          rfl

theorem rowStep_fillIn (l : Location) (s : Step) :
    rowStep names headers values (some l.draft) s.draft =
      Step.pickled [l] <$> s.fillIn (interpolate names headers values) := by
  rw [Step.fillIn, map_bind]
  change (interpolate names headers values s.text >>= fun text =>
    arguments names headers values (s.argument.map Argument.draft) >>= fun arguments => _) = _
  congr 1
  funext text
  cases s.argument with
  | none => rfl
  | some a =>
      rw [Option.map_some, arguments_fillIn, bind_map_left, map_bind]
      rfl

theorem plainStep_pickled (s : Step) : plainStep names s.draft = .ok (s.pickled []) := by
  change (arguments names [] [] (s.argument.map Argument.draft) >>= fun arguments => _) = _
  rw [Step.pickled]
  cases s.argument with
  | none => rfl
  | some a =>
      have hfill : interpolate names [] [] = .ok := funext fun _ => rfl
      rw [Option.map_some, arguments_fillIn, hfill, Argument.fillIn_ok]
      rfl

end Steps

/-! ## Pickles -/

section Pickles

variable (featureTags : List Tag) (background : List PickleStep) (language : Text)

theorem ofScenario_pickled (s : Scenario) :
    ofScenario names (featureTags.map Tag.draft) background language
      (ScenarioDefinition.scenario s).draft =
        .ok (s.pickled .scenario featureTags background language []) := by
  rw [ofScenario_draft, collect_map plainStep_pickled, backgroundFor_draft]
  rfl

theorem backgroundFor_eq {α β : Type} {as : List α} {bs : List β} (h : as.length = bs.length) :
    backgroundFor background as = backgroundFor background bs := by
  cases as <;> cases bs <;> simp_all [backgroundFor]

theorem ofRow_pickled (o : ScenarioOutline) (e : Examples) (header row : Row) :
    ofRow names (featureTags.map Tag.draft) background language (ScenarioDefinition.outline o).draft
      e.draft (header.cells.map Cell.draft) row.draft =
        Scenario.pickled .exampleRow featureTags background language [row.location] <$>
          o.fillIn names e header row := by
  rw [ofRow_draft, collect_map_corresponds (rowStep_fillIn _ _ row.location), bind_map_left,
    ScenarioOutline.fillIn, map_bind]
  cases hsteps : collect (Step.fillIn _) o.steps with
  | error => rfl
  | ok steps =>
      -- A scenario gets the background if it has steps, and filling in keeps their number.
      have hlength := (forall₂_of_collect hsteps).length_eq
      have hbackground : backgroundFor background (o.steps.map Step.draft) =
          backgroundFor background steps :=
        backgroundFor_eq _ (by rw [List.length_map, hlength])
      rw [hbackground]
      change _ = _ <$> (interpolate names _ _ o.name >>= _)
      rw [map_bind]
      rfl

theorem ofExamples_pickled (o : ScenarioOutline) (e : Examples) :
    ofExamples names (featureTags.map Tag.draft) background language
      (ScenarioDefinition.outline o).draft e.draft = (List.map fun x =>
        x.2.pickled .exampleRow featureTags background language [x.1]) <$> e.expand names o := by
  rw [ofExamples_draft, Examples.expand]
  cases e.table with
  | none => rfl
  | some t =>
      refine collect_map_corresponds (fun row => ?_) t.body
      rw [ofRow_pickled, map_bind]
      cases o.fillIn names e t.header row <;> rfl

theorem ofOutline_pickled (o : ScenarioOutline) :
    ofOutline names (featureTags.map Tag.draft) background language
      (ScenarioDefinition.outline o).draft = (List.map fun x =>
        x.2.pickled .exampleRow featureTags background language [x.1]) <$> o.expand names := by
  change (collect _ (o.examples.map Examples.draft) >>= fun pickles => _) = _
  rw [collect_map_corresponds (ofExamples_pickled featureTags background language o), bind_map_left,
    ScenarioOutline.expand, map_bind]
  congr 1
  funext blocks
  exact congrArg Except.ok List.map_flatten.symm

end Pickles

/-- A row of examples gives the pickle that the outline, with the placeholders filled in, gives as a
scenario, but for the places it comes from. -/
theorem outline_as_scenarios (featureTags : List Tag) (background : List PickleStep)
    (language : Text) (o : ScenarioOutline) :
    (∀ e header row s, o.fillIn names e header row = .ok s → ∃ p q,
      ofRow names (featureTags.map Tag.draft) background language
        (ScenarioDefinition.outline o).draft e.draft (header.cells.map Cell.draft) row.draft = .ok p ∧
      ofScenario names (featureTags.map Tag.draft) background language
        (ScenarioDefinition.scenario s).draft = .ok q ∧
      p.RowOf row.location q) ∧
    ∀ xs, o.expand names = .ok xs → ∃ ps,
      ofOutline names (featureTags.map Tag.draft) background language
        (ScenarioDefinition.outline o).draft = .ok ps ∧
      List.Forall₂ (fun x p => ∃ q,
        ofScenario names (featureTags.map Tag.draft) background language
          (ScenarioDefinition.scenario x.2).draft = .ok q ∧ p.RowOf x.1 q) xs ps := by
  constructor
  · intro e header row s hs
    refine ⟨_, _, ?_, ofScenario_pickled featureTags background language s,
      s.pickled_rowOf featureTags background language row.location⟩
    rw [ofRow_pickled, hs]
    rfl
  · intro xs hxs
    refine ⟨_, (ofOutline_pickled featureTags background language o).trans (by rw [hxs]; rfl), ?_⟩
    rw [List.forall₂_map_right_iff, List.forall₂_same]
    intro x _
    exact ⟨_, ofScenario_pickled featureTags background language x.2,
      x.2.pickled_rowOf featureTags background language x.1⟩

def feedingHeader : Row :=
  { location := ⟨11, 1⟩,
    cells := [⟨⟨11, 2⟩, "pet".toList⟩, ⟨⟨11, 6⟩, "food".toList⟩] }

/-- A row with a cell too many. -/
def feedingRow : Row :=
  { location := ⟨12, 1⟩,
    cells := [⟨⟨12, 2⟩, "cat".toList⟩, ⟨⟨12, 6⟩, "fish".toList⟩, ⟨⟨12, 11⟩, "<pet>".toList⟩] }

def feedingExamples : Examples :=
  { tags := [⟨⟨9, 1⟩, "@e".toList⟩], location := ⟨10, 1⟩, keyword := "Examples".toList, name := [],
    description := none, table := some { header := feedingHeader, body := [feedingRow] } }

/-- The steps of an outline or a scenario about feeding a pet. -/
def feedingSteps (pet food : Text) : List Step :=
  [{ location := ⟨4, 1⟩, keyword := "* ".toList, text := "feed ".toList ++ pet,
     argument := some (.dataTable
      { location := ⟨5, 1⟩, rows := [⟨⟨5, 1⟩, [⟨⟨5, 2⟩, food⟩, ⟨⟨5, 9⟩, "now".toList⟩]⟩] }) },
   { location := ⟨6, 1⟩, keyword := "* ".toList, text := "leave".toList,
     argument := some (.docString
      { location := ⟨7, 1⟩, contentType := some food, content := pet ++ "\n".toList ++ food }) }]

def feedingOutline : ScenarioOutline :=
  { tags := [⟨⟨2, 1⟩, "@o".toList⟩], location := ⟨3, 1⟩, keyword := "Scenario Outline".toList,
    name := "The <pet>".toList, description := none,
    steps := feedingSteps "<pet>".toList "<food>".toList, examples := [feedingExamples] }

def feedingScenario : Scenario :=
  { tags := [⟨⟨2, 1⟩, "@o".toList⟩, ⟨⟨9, 1⟩, "@e".toList⟩], location := ⟨3, 1⟩,
    keyword := "Scenario Outline".toList, name := "The cat".toList, description := none,
    steps := feedingSteps "cat".toList "fish".toList }

theorem outline_as_scenarios_feeding :
    feedingOutline.fillIn .empty feedingExamples feedingHeader feedingRow = .ok feedingScenario ∧
    (∃ p q, ofRow .empty [] [⟨"wake".toList, [], [⟨1, 9⟩]⟩] "en".toList
        (ScenarioDefinition.outline feedingOutline).draft feedingExamples.draft
        (feedingHeader.cells.map Cell.draft) feedingRow.draft = .ok p ∧
      ofScenario .empty [] [⟨"wake".toList, [], [⟨1, 9⟩]⟩] "en".toList
        (ScenarioDefinition.scenario feedingScenario).draft = .ok q ∧ p.RowOf ⟨12, 1⟩ q) ∧
    feedingOutline.expand .empty = .ok [(⟨12, 1⟩, feedingScenario)] ∧
    ∃ ps, ofOutline .empty [] [] "en".toList
      (ScenarioDefinition.outline feedingOutline).draft = .ok ps ∧ ps.length = 1 := by
  have hrow : feedingOutline.fillIn .empty feedingExamples feedingHeader feedingRow =
      .ok feedingScenario := by
    decide +kernel
  have hexpand : feedingOutline.expand .empty = .ok [(⟨12, 1⟩, feedingScenario)] := by
    decide +kernel
  obtain ⟨ps, hps, hall⟩ := (outline_as_scenarios [] [] "en".toList feedingOutline).2 _ hexpand
  exact ⟨hrow, (outline_as_scenarios [] _ _ feedingOutline).1 _ _ _ _ hrow, hexpand, ps, hps,
    hall.length_eq.symm⟩

end Pickle

end FeatureFile
