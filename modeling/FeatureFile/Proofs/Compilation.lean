import FeatureFile.Pickle.Compile
import FeatureFile.Proofs.Collecting

/-!
# What pickles are made from

A document lists what its pickles are made from: its scenarios, and the rows below the header of the
examples of its scenario outlines (`Document.sources`). If the pickles can be compiled at all there is
one for each, in the same order, and it is told here what of it comes from where
(`Document.compiles_of_pickles`). The steps of the background are compiled once and are the same
everywhere.

Pickles are compiled from drafts, in which any field may be missing. In the draft of a document none
is, so what is left to fail are the placeholders.
-/

namespace FeatureFile

/-- What one pickle is made from. -/
inductive PickleSource where
  | scenario (scenario : Scenario)
  | row (outline : ScenarioOutline) (examples : Examples) (row : Row)

namespace PickleSource

/-- Where the pickle stands in the source. -/
def location : PickleSource → Location
  | scenario s => s.location
  | row _ _ r => r.location

/-- All places that the pickle comes from. -/
def locations : PickleSource → List Location
  | scenario s => [s.location]
  | row o _ r => [r.location, o.location]

def steps : PickleSource → List Step
  | scenario s => s.steps
  | row o _ _ => o.steps

def tags : PickleSource → List Tag
  | scenario s => s.tags
  | row o e _ => o.tags ++ e.tags

/-- The places that every step of the pickle comes from, besides its own. -/
def stepFront : PickleSource → List Location
  | scenario _ => []
  | row _ _ r => [r.location]

theorem head?_locations (x : PickleSource) : x.locations.head? = some x.location := by
  cases x <;> rfl

end PickleSource

/-- An examples block without a table, or with a header alone, has no rows. -/
def Examples.sources (outline : ScenarioOutline) (e : Examples) : List PickleSource :=
  e.table.toList.flatMap fun t => t.body.map (.row outline e)

def ScenarioDefinition.sources : ScenarioDefinition → List PickleSource
  | .scenario s => [.scenario s]
  | .outline o => o.examples.flatMap (Examples.sources o)

def Feature.sources (f : Feature) : List PickleSource :=
  f.scenarios.flatMap ScenarioDefinition.sources

def Document.sources (d : Document) : List PickleSource := d.feature.toList.flatMap Feature.sources

/-- Where the text of a step stands: behind its keyword. -/
def Step.textLocation (s : Step) : Location :=
  { line := s.location.line, column := s.location.column + s.keyword.length }

/-- A step of a pickle that is made from a step of the document. -/
structure PickleStep.Carries (front : List Location) (s : Step) (p : PickleStep) : Prop where
  locations : p.locations = front ++ [s.textLocation]
  /-- Without a row of examples there is nothing to fill in. -/
  text : front = [] → p.text = s.text

def Tag.pickled (t : Tag) : PickleTag := { name := t.name, location := t.location }

/-- A pickle that is made from a scenario or a row of a feature, with these steps of the
background. -/
structure Pickle.MadeFrom (f : Feature) (background : List PickleStep) (x : PickleSource)
    (p : Pickle) : Prop where
  locations : p.locations = x.locations
  language : p.language = f.language
  tags : p.tags = (f.tags ++ x.tags).map Tag.pickled
  steps : ∃ own, p.steps = (if x.steps.isEmpty then [] else background) ++ own ∧
    List.Forall₂ (PickleStep.Carries x.stepFront) x.steps own

/-- The pickles of a document: one for each of their sources, in order. -/
def Document.Compiles (d : Document) (ps : List Pickle) : Prop :=
  match d.feature with
  | none => ps = []
  | some f => ∃ background,
    List.Forall₂ (PickleStep.Carries []) (f.background.toList.flatMap Background.steps)
      background ∧
    List.Forall₂ (Pickle.MadeFrom f background) f.sources ps

namespace Pickle

variable {names : CharNames}

/-! ## Drafts without gaps -/

theorem tag_draft (t : Tag) : tag t.draft = .ok t.pickled := rfl

theorem collect_tags (ts : List Tag) : collect tag (ts.map Tag.draft) = .ok (ts.map Tag.pickled) :=
  collect_map tag_draft ts

/-! ## Steps -/

theorem plainStep_carries {s : Step} {p : PickleStep} (h : plainStep names s.draft = .ok p) :
    p.Carries [] s := by
  obtain ⟨text, htext, h⟩ := exists_of_bind_ok h
  obtain ⟨arguments, _, h⟩ := exists_of_bind_ok h
  cases htext
  cases h
  exact ⟨rfl, fun _ => rfl⟩

theorem rowStep_carries {headers values : List Draft.Cell} {l : Location} {s : Step}
    {p : PickleStep} (h : rowStep names headers values (some l.draft) s.draft = .ok p) :
    p.Carries [l] s := by
  obtain ⟨_, _, h⟩ := exists_of_bind_ok h
  obtain ⟨_, _, h⟩ := exists_of_bind_ok h
  obtain ⟨_, _, h⟩ := exists_of_bind_ok h
  cases h
  exact ⟨rfl, fun hfront => nomatch hfront⟩

theorem collect_steps {f : Draft.Step → Except Fault PickleStep} {front : List Location}
    (hf : ∀ {s : Step} {p : PickleStep}, f s.draft = .ok p → p.Carries front s) {ss : List Step}
    {ps : List PickleStep} (h : collect f (ss.map Step.draft) = .ok ps) :
    List.Forall₂ (PickleStep.Carries front) ss ps := by
  have hall := forall₂_of_collect h
  rw [List.forall₂_map_left_iff] at hall
  exact hall.imp fun _ _ => hf

/-! ## Pickles -/

variable {f : Feature} {background : List PickleStep}

theorem backgroundFor_draft (ss : List Step) :
    backgroundFor background (ss.map Step.draft) = if ss.isEmpty then [] else background := by
  rw [backgroundFor, List.isEmpty_map]

theorem ofScenario_draft (featureTags : List Tag) (language : Text) (s : Scenario) :
    ofScenario names (featureTags.map Tag.draft) background language
      (ScenarioDefinition.scenario s).draft =
        (collect (plainStep names) (s.steps.map Step.draft) >>= fun own =>
          .ok { origin := .scenario, name := s.name, language,
                steps := backgroundFor background (s.steps.map Step.draft) ++ own,
                tags := (featureTags ++ s.tags).map Tag.pickled, locations := [s.location] }) := by
  have htags := collect_tags (featureTags ++ s.tags)
  rw [List.map_append] at htags
  change (collect (plainStep names) (s.steps.map Step.draft) >>= fun own =>
    collect tag (featureTags.map Tag.draft ++ s.tags.map Tag.draft) >>= fun tags => _) = _
  rw [htags]
  rfl

theorem ofRow_draft (featureTags : List Tag) (language : Text) (o : ScenarioOutline) (e : Examples)
    (headers : List Draft.Cell) (r : Row) :
    ofRow names (featureTags.map Tag.draft) background language (ScenarioDefinition.outline o).draft
      e.draft headers r.draft =
        (collect (rowStep names headers (r.cells.map Cell.draft) (some r.location.draft))
          (o.steps.map Step.draft) >>= fun own =>
            interpolate names headers (r.cells.map Cell.draft) o.name >>= fun name =>
              .ok { origin := .exampleRow, name, language,
                    steps := backgroundFor background (o.steps.map Step.draft) ++ own,
                    tags := (featureTags ++ (o.tags ++ e.tags)).map Tag.pickled,
                    locations := [r.location, o.location] }) := by
  have htags := collect_tags (featureTags ++ (o.tags ++ e.tags))
  rw [List.map_append, List.map_append, ← List.append_assoc] at htags
  change (collect _ (o.steps.map Step.draft) >>= fun own =>
    interpolate names headers (r.cells.map Cell.draft) o.name >>= fun name =>
      collect tag (featureTags.map Tag.draft ++ o.tags.map Tag.draft ++ e.tags.map Tag.draft) >>=
        fun tags => _) = _
  rw [htags]
  rfl

theorem ofExamples_draft (featureTags : List Tag) (language : Text) (o : ScenarioOutline)
    (e : Examples) :
    ofExamples names (featureTags.map Tag.draft) background language
      (ScenarioDefinition.outline o).draft e.draft =
        match e.table with
        | none => .ok []
        | some t => collect (ofRow names (featureTags.map Tag.draft) background language
            (ScenarioDefinition.outline o).draft e.draft (t.header.cells.map Cell.draft))
            (t.body.map Row.draft) := by
  have hheader : e.draft.header = e.table.map fun t => t.header.draft := rfl
  have hbody : e.draft.body = e.table.map fun t => t.body.map Row.draft := rfl
  rw [ofExamples, hheader, hbody]
  cases e.table <;> rfl

theorem ofScenario_madeFrom {s : Scenario} {p : Pickle}
    (h : ofScenario names (f.tags.map Tag.draft) background f.language
      (ScenarioDefinition.scenario s).draft = .ok p) :
    p.MadeFrom f background (.scenario s) := by
  rw [ofScenario_draft] at h
  obtain ⟨own, hown, h⟩ := exists_of_bind_ok h
  cases h
  exact ⟨rfl, rfl, rfl, own, by rw [backgroundFor_draft]; rfl,
    collect_steps plainStep_carries hown⟩

theorem ofRow_madeFrom {o : ScenarioOutline} {e : Examples} {headers : List Draft.Cell} {r : Row}
    {p : Pickle}
    (h : ofRow names (f.tags.map Tag.draft) background f.language
      (ScenarioDefinition.outline o).draft e.draft headers r.draft = .ok p) :
    p.MadeFrom f background (.row o e r) := by
  rw [ofRow_draft] at h
  obtain ⟨own, hown, h⟩ := exists_of_bind_ok h
  obtain ⟨_, _, h⟩ := exists_of_bind_ok h
  cases h
  exact ⟨rfl, rfl, rfl, own, by rw [backgroundFor_draft]; rfl,
    collect_steps rowStep_carries hown⟩

theorem ofExamples_madeFrom {o : ScenarioOutline} {e : Examples} {ps : List Pickle}
    (h : ofExamples names (f.tags.map Tag.draft) background f.language
      (ScenarioDefinition.outline o).draft e.draft = .ok ps) :
    List.Forall₂ (MadeFrom f background) (e.sources o) ps := by
  rw [ofExamples_draft] at h
  unfold Examples.sources
  cases htable : e.table with
  | none =>
      rw [htable] at h
      cases h
      exact .nil
  | some t =>
      rw [htable] at h
      have hall := forall₂_of_collect h
      rw [List.forall₂_map_left_iff] at hall
      rw [Option.toList_some, List.flatMap_singleton, List.forall₂_map_left_iff]
      exact hall.imp fun _ _ => ofRow_madeFrom

/-- Lists that correspond to sources block by block correspond to all of them. -/
theorem forall₂_flatten {α β γ : Type} {r : α → β → Prop} {g : γ → List α} {xs : List γ}
    {yss : List (List β)} (h : List.Forall₂ (fun x ys => List.Forall₂ r (g x) ys) xs yss) :
    List.Forall₂ r (xs.flatMap g) yss.flatten := by
  induction h with
  | nil => exact .nil
  | cons hx _ ih =>
      rw [List.flatMap_cons, List.flatten_cons]
      exact List.rel_append hx ih

theorem ofOutline_madeFrom {o : ScenarioOutline} {ps : List Pickle}
    (h : ofOutline names (f.tags.map Tag.draft) background f.language
      (ScenarioDefinition.outline o).draft = .ok ps) :
    List.Forall₂ (MadeFrom f background) (ScenarioDefinition.outline o).sources ps := by
  obtain ⟨examples, hexamples, h⟩ := exists_of_bind_ok h
  cases hexamples
  obtain ⟨pss, hpss, h⟩ := exists_of_bind_ok h
  cases h
  have hall := forall₂_of_collect hpss
  rw [List.forall₂_map_left_iff] at hall
  exact forall₂_flatten (hall.imp fun _ _ => ofExamples_madeFrom)

theorem ofChildren_madeFrom {ss : List ScenarioDefinition} {ps : List Pickle}
    (h : ofChildren names (f.tags.map Tag.draft) f.language background
      (ss.map ScenarioDefinition.draft) = .ok ps) :
    List.Forall₂ (MadeFrom f background) (ss.flatMap ScenarioDefinition.sources) ps := by
  induction ss generalizing ps with
  | nil =>
      cases h
      exact .nil
  | cons s ss ih =>
      rw [List.map_cons, ofChildren] at h
      obtain ⟨type, htype, h⟩ := exists_of_bind_ok h
      cases s with
      | scenario s =>
          cases htype
          rw [if_neg (by decide), if_pos rfl] at h
          obtain ⟨p, hp, h⟩ := exists_of_bind_ok h
          obtain ⟨rest, hrest, h⟩ := exists_of_bind_ok h
          cases h
          exact .cons (ofScenario_madeFrom hp) (ih hrest)
      | outline o =>
          cases htype
          rw [if_neg (by decide), if_neg (by decide)] at h
          obtain ⟨first, hfirst, h⟩ := exists_of_bind_ok h
          obtain ⟨rest, hrest, h⟩ := exists_of_bind_ok h
          cases h
          exact List.rel_append (ofOutline_madeFrom hfirst) (ih hrest)

/-- The background comes before all scenarios, if there is one. -/
theorem ofFeature_madeFrom {ps : List Pickle}
    (h : ofChildren names (f.tags.map Tag.draft) f.language []
      (f.background.toList.map Background.draft ++ f.scenarios.map ScenarioDefinition.draft) =
        .ok ps) :
    ∃ background,
      List.Forall₂ (PickleStep.Carries []) (f.background.toList.flatMap Background.steps)
        background ∧
      List.Forall₂ (MadeFrom f background) f.sources ps := by
  cases hbackground : f.background with
  | none =>
      rw [hbackground] at h
      exact ⟨[], .nil, ofChildren_madeFrom h⟩
  | some b =>
      rw [hbackground] at h
      obtain ⟨type, htype, h⟩ := exists_of_bind_ok h
      cases htype
      rw [if_pos rfl] at h
      obtain ⟨steps, hsteps, h⟩ := exists_of_bind_ok h
      cases hsteps
      obtain ⟨background, hcollect, h⟩ := exists_of_bind_ok h
      refine ⟨background, ?_, ofChildren_madeFrom h⟩
      rw [Option.toList_some, List.flatMap_singleton]
      exact collect_steps plainStep_carries hcollect

end Pickle

/-- If a document can be compiled, every scenario and every row of examples has become one pickle. -/
theorem Document.compiles_of_pickles {names : CharNames} {d : Document} {ps : List Pickle}
    (h : d.pickles names = .ok ps) : d.Compiles ps := by
  unfold Document.pickles Document.draft Draft.pickles at h
  unfold Document.Compiles
  cases hfeature : d.feature with
  | none =>
      rw [hfeature] at h
      cases h
      rfl
  | some f =>
      rw [hfeature] at h
      obtain ⟨tags, htags, h⟩ := exists_of_bind_ok h
      cases htags
      obtain ⟨language, hlanguage, h⟩ := exists_of_bind_ok h
      cases hlanguage
      obtain ⟨children, hchildren, h⟩ := exists_of_bind_ok h
      cases hchildren
      exact Pickle.ofFeature_madeFrom h

/-- The pickles stand where their sources do. -/
theorem Document.Compiles.lines {d : Document} {ps : List Pickle} (h : d.Compiles ps) :
    ps.map (fun p => p.locations.head?.map Location.line) =
      d.sources.map fun x => some x.location.line := by
  unfold Document.Compiles at h
  unfold Document.sources
  cases hfeature : d.feature with
  | none =>
      rw [hfeature] at h
      rw [h]
      rfl
  | some f =>
      rw [hfeature] at h
      obtain ⟨background, _, hall⟩ := h
      rw [Option.toList_some, List.flatMap_singleton]
      refine map_eq_of_forall₂ hall fun x p hp => ?_
      rw [hp.locations, x.head?_locations]
      rfl

end FeatureFile
