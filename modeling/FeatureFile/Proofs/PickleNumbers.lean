import FeatureFile.Proofs.Compilation
import FeatureFile.Proofs.Relocation

/-!
# Pickles of a document with other line numbers

Compiling does not look at line numbers, it hands them on. So the pickles of a document whose lines
have other numbers are the old pickles with other numbers, and what cannot be compiled still cannot
(`Document.pickles_renumber`). The columns are another matter: the text of a step stands behind its
keyword, at a column that is computed.
-/

namespace FeatureFile

section Renumber

variable (σ : Int → Int)

def PickleTag.renumber (t : PickleTag) : PickleTag := { t with location := t.location.renumber σ }

def PickleCell.renumber (c : PickleCell) : PickleCell := { c with location := c.location.renumber σ }

def PickleArgument.renumber : PickleArgument → PickleArgument
  | .table rows => .table (rows.map (List.map (PickleCell.renumber σ)))
  | .docString location content contentType =>
    .docString (location.renumber σ) content contentType

def PickleStep.renumber (s : PickleStep) : PickleStep :=
  { s with
    arguments := s.arguments.map (PickleArgument.renumber σ)
    locations := s.locations.map (Location.renumber σ) }

/-- The pickle with other line numbers. -/
def Pickle.renumber (p : Pickle) : Pickle :=
  { p with
    steps := p.steps.map (PickleStep.renumber σ)
    tags := p.tags.map (PickleTag.renumber σ)
    locations := p.locations.map (Location.renumber σ) }

end Renumber

/-- Work on a list, of which every item corresponds. -/
theorem collect_eq_map {α β γ : Type} {f f' : α → Except Fault β} {r : γ → α} {m : γ → γ} {h : β → β}
    (hf : ∀ c, f' (r (m c)) = (f (r c)).map h) (cs : List γ) :
    collect f' ((cs.map m).map r) = (collect f (cs.map r)).map (List.map h) := by
  rw [List.map_map]
  exact collect_corresponds hf cs

namespace Pickle

variable {names : CharNames} {σ : Int → Int} {headers values headers' values' : List Draft.Cell}

theorem tag_renumber (t : Tag) : tag (t.relocate (Location.renumber σ)).draft =
    (tag t.draft).map (PickleTag.renumber σ) := rfl

theorem tags_renumber (ts : List Tag) :
    collect tag ((ts.map (Tag.relocate (Location.renumber σ))).map Tag.draft) =
      (collect tag (ts.map Tag.draft)).map (List.map (PickleTag.renumber σ)) :=
  collect_eq_map tag_renumber ts

/-! ## Steps -/

/-- Placeholders are filled in by the texts of cells, wherever these stand. -/
theorem interpolate_relocate (names : CharNames) (f : Location → Location) (hs vs : List Cell)
    (t : Text) :
    interpolate names ((hs.map (Cell.relocate f)).map Cell.draft)
        ((vs.map (Cell.relocate f)).map Cell.draft) t =
      interpolate names (hs.map Cell.draft) (vs.map Cell.draft) t := by
  induction hs generalizing vs t with
  | nil => rfl
  | cons h hs ih =>
      cases vs with
      | nil => rfl
      | cons v vs =>
          simp only [List.map_cons, interpolate, ih]
          rfl

section Interpolate

variable (hfill : ∀ t, interpolate names headers' values' t = interpolate names headers values t)
include hfill

/-- Work on a text with its placeholders filled in, which is the same text on both sides. -/
theorem interpolate_bind {α : Type} {f f' : Text → Except Fault α} {h : α → α} (t : Text)
    (hf : ∀ t, f' t = (f t).map h) :
    (interpolate names headers' values' t >>= f') =
      (interpolate names headers values t >>= f).map h :=
  bind_eq_map id (by rw [hfill, Except.map_id, id]) hf

theorem cell_renumber (c : Cell) :
    cell names headers' values' (c.relocate (Location.renumber σ)).draft =
      (cell names headers values c.draft).map (PickleCell.renumber σ) :=
  interpolate_bind hfill c.value fun _ => rfl

theorem arguments_renumber (a : Option Argument) :
    arguments names headers' values'
        ((a.map (Argument.relocate (Location.renumber σ))).map Argument.draft) =
      (arguments names headers values (a.map Argument.draft)).map
        (List.map (PickleArgument.renumber σ)) := by
  cases a with
  | none => rfl
  | some a =>
      cases a with
      | dataTable t =>
          exact bind_eq_map (List.map (List.map (PickleCell.renumber σ)))
            (collect_eq_map (fun r => collect_eq_map (cell_renumber hfill) r.cells) t.rows)
            fun rows => rfl
      | docString d =>
          obtain ⟨location, contentType, text⟩ := d
          refine interpolate_bind hfill text fun content => ?_
          cases contentType with
          | none => rfl
          | some contentType => exact interpolate_bind hfill contentType fun _ => rfl

theorem rowStep_renumber (l : Location) (s : Step) :
    rowStep names headers' values' (some (l.renumber σ).draft)
        (s.relocate (Location.renumber σ)).draft =
      (rowStep names headers values (some l.draft) s.draft).map (PickleStep.renumber σ) :=
  interpolate_bind hfill s.text fun _ =>
    bind_eq_map (List.map (PickleArgument.renumber σ)) (arguments_renumber hfill s.argument)
      fun _ => rfl

end Interpolate

theorem plainStep_renumber (s : Step) :
    plainStep names (s.relocate (Location.renumber σ)).draft =
      (plainStep names s.draft).map (PickleStep.renumber σ) :=
  bind_eq_map (List.map (PickleArgument.renumber σ)) (arguments_renumber (fun _ => rfl) s.argument)
    fun _ => rfl

theorem steps_renumber (ss : List Step) :
    collect (plainStep names) ((ss.map (Step.relocate (Location.renumber σ))).map Step.draft) =
      (collect (plainStep names) (ss.map Step.draft)).map (List.map (PickleStep.renumber σ)) :=
  collect_eq_map plainStep_renumber ss

/-! ## Pickles -/

variable (featureTags : List Tag) (background : List PickleStep) (language : Text)

theorem backgroundFor_renumber (ss : List Step) :
    (backgroundFor background (ss.map Step.draft)).map (PickleStep.renumber σ) =
      backgroundFor (background.map (PickleStep.renumber σ))
        ((ss.map (Step.relocate (Location.renumber σ))).map Step.draft) := by
  rw [backgroundFor, backgroundFor, List.isEmpty_map, List.isEmpty_map, List.isEmpty_map]
  split <;> rfl

theorem ofScenario_renumber (s : Scenario) :
    ofScenario names ((featureTags.map (Tag.relocate (Location.renumber σ))).map Tag.draft)
        (background.map (PickleStep.renumber σ)) language
        ((ScenarioDefinition.scenario s).relocate (Location.renumber σ)).draft =
      (ofScenario names (featureTags.map Tag.draft) background language
        (ScenarioDefinition.scenario s).draft).map (Pickle.renumber σ) := by
  refine bind_eq_map (List.map (PickleStep.renumber σ)) (steps_renumber s.steps) fun own => ?_
  refine bind_eq_map (List.map (PickleTag.renumber σ)) ?_ fun tags => congrArg Except.ok ?_
  · have htags := tags_renumber (σ := σ) (featureTags ++ s.tags)
    simp only [List.map_append] at htags
    exact htags
  · simp only [Pickle.renumber, List.map_append, backgroundFor_renumber]
    rfl

theorem ofRow_renumber (o : ScenarioOutline) (e : Examples) (headers : List Cell) (r : Row) :
    ofRow names ((featureTags.map (Tag.relocate (Location.renumber σ))).map Tag.draft)
        (background.map (PickleStep.renumber σ)) language
        ((ScenarioDefinition.outline o).relocate (Location.renumber σ)).draft
        (e.relocate (Location.renumber σ)).draft
        ((headers.map (Cell.relocate (Location.renumber σ))).map Cell.draft)
        (r.relocate (Location.renumber σ)).draft =
      (ofRow names (featureTags.map Tag.draft) background language
        (ScenarioDefinition.outline o).draft e.draft (headers.map Cell.draft) r.draft).map
          (Pickle.renumber σ) := by
  have hfill := interpolate_relocate names (Location.renumber σ) headers r.cells
  refine bind_eq_map (List.map (PickleStep.renumber σ))
    (collect_eq_map (rowStep_renumber hfill r.location) o.steps) fun own => ?_
  refine interpolate_bind hfill o.name fun name => ?_
  refine bind_eq_map (List.map (PickleTag.renumber σ)) ?_ fun tags => congrArg Except.ok ?_
  · have htags := tags_renumber (σ := σ) (featureTags ++ o.tags ++ e.tags)
    simp only [List.map_append] at htags
    exact htags
  · simp only [Pickle.renumber, List.map_append, backgroundFor_renumber]
    rfl

theorem ofExamples_renumber (o : ScenarioOutline) (e : Examples) :
    ofExamples names ((featureTags.map (Tag.relocate (Location.renumber σ))).map Tag.draft)
        (background.map (PickleStep.renumber σ)) language
        ((ScenarioDefinition.outline o).relocate (Location.renumber σ)).draft
        (e.relocate (Location.renumber σ)).draft =
      (ofExamples names (featureTags.map Tag.draft) background language
        (ScenarioDefinition.outline o).draft e.draft).map (List.map (Pickle.renumber σ)) := by
  obtain ⟨tags, location, keyword, name, description, table⟩ := e
  cases table with
  | none => rfl
  | some t =>
      exact collect_eq_map (ofRow_renumber featureTags background language o
        ⟨tags, location, keyword, name, description, some t⟩ t.header.cells) t.body

theorem ofOutline_renumber (o : ScenarioOutline) :
    ofOutline names ((featureTags.map (Tag.relocate (Location.renumber σ))).map Tag.draft)
        (background.map (PickleStep.renumber σ)) language
        ((ScenarioDefinition.outline o).relocate (Location.renumber σ)).draft =
      (ofOutline names (featureTags.map Tag.draft) background language
        (ScenarioDefinition.outline o).draft).map (List.map (Pickle.renumber σ)) :=
  bind_eq_map (List.map (List.map (Pickle.renumber σ)))
    (collect_eq_map (ofExamples_renumber featureTags background language o) o.examples)
    fun _ => congrArg Except.ok List.map_flatten.symm

theorem ofChildren_renumber (ss : List ScenarioDefinition) :
    ofChildren names ((featureTags.map (Tag.relocate (Location.renumber σ))).map Tag.draft) language
        (background.map (PickleStep.renumber σ))
        ((ss.map (ScenarioDefinition.relocate (Location.renumber σ))).map
          ScenarioDefinition.draft) =
      (ofChildren names (featureTags.map Tag.draft) language background
        (ss.map ScenarioDefinition.draft)).map (List.map (Pickle.renumber σ)) := by
  induction ss with
  | nil => rfl
  | cons s ss ih =>
      cases s with
      | scenario s =>
          exact bind_eq_map (Pickle.renumber σ)
            (ofScenario_renumber featureTags background language s) fun p =>
              bind_eq_map (List.map (Pickle.renumber σ)) ih fun ps => rfl
      | outline o =>
          exact bind_eq_map (List.map (Pickle.renumber σ))
            (ofOutline_renumber featureTags background language o) fun ps =>
              bind_eq_map (List.map (Pickle.renumber σ)) ih fun ps' =>
                congrArg Except.ok List.map_append.symm

theorem ofFeature_renumber (f : Feature) :
    ofChildren names ((f.tags.map (Tag.relocate (Location.renumber σ))).map Tag.draft) f.language []
        ((f.background.map (Background.relocate (Location.renumber σ))).toList.map
            Background.draft ++
          (f.scenarios.map (ScenarioDefinition.relocate (Location.renumber σ))).map
            ScenarioDefinition.draft) =
      (ofChildren names (f.tags.map Tag.draft) f.language []
        (f.background.toList.map Background.draft ++
          f.scenarios.map ScenarioDefinition.draft)).map (List.map (Pickle.renumber σ)) := by
  cases f.background with
  | none => exact ofChildren_renumber f.tags [] f.language f.scenarios
  | some b =>
      exact bind_eq_map (List.map (PickleStep.renumber σ)) (steps_renumber b.steps)
        fun background => ofChildren_renumber f.tags background f.language f.scenarios

end Pickle

/-- The pickles of a document with other line numbers are its pickles with other line numbers. -/
theorem Document.pickles_renumber (names : CharNames) (σ : Int → Int) (d : Document) :
    (d.relocate (Location.renumber σ)).pickles names =
      (d.pickles names).map (List.map (Pickle.renumber σ)) := by
  obtain ⟨feature, comments⟩ := d
  cases feature with
  | none => rfl
  | some f => exact Pickle.ofFeature_renumber f

end FeatureFile
