import FeatureFile.Proofs.Gathering
import FeatureFile.Proofs.SwitchedOff

/-!
# Arguments put behind steps

A step that has no argument can be given one, in a document (`Step.attach`) and in a layout
(`Layout.Step.attach`). In the layout a doc string is put right behind the line of the step, so that
comments and blank lines which stood there are now behind the doc string. All else stays, the value of
the new layout is the value of the old one with the argument in it (`Layout.Document.value_mapSteps`),
and its tokens are the old ones with those of the doc string in between
(`Layout.Document.tokens_mapSteps`).
-/

namespace FeatureFile

/-! ## Documents -/

section MapSteps

variable (f : Step → Step)

def Background.mapSteps (x : Background) : Background := { x with steps := x.steps.map f }

def ScenarioDefinition.mapSteps : ScenarioDefinition → ScenarioDefinition
  | .scenario x => .scenario { x with steps := x.steps.map f }
  | .outline x => .outline { x with steps := x.steps.map f }

def Feature.mapSteps (x : Feature) : Feature :=
  { x with
    background := x.background.map (Background.mapSteps f)
    scenarios := x.scenarios.map (ScenarioDefinition.mapSteps f) }

/-- The document with other steps in the places of its steps. -/
def Document.mapSteps (d : Document) : Document :=
  { d with feature := d.feature.map (Feature.mapSteps f) }

end MapSteps

/-- The step with an argument, if it stands on that line. -/
def Step.attach (line : Int) (a : Argument) (x : Step) : Step :=
  if x.location.line = line then { x with argument := some a } else x

/-! ## Layouts -/

namespace Layout

open FeatureFile.Part (gather Kinds)

section MapSteps

variable (f : Step → Step)

def Background.mapSteps (x : Background) : Background := { x with steps := x.steps.map f }

def Scenario.mapSteps : Scenario → Scenario
  | .plain tags head steps => .plain tags head (steps.map f)
  | .outline tags head steps examples => .outline tags head (steps.map f) examples

def Feature.mapSteps (x : Feature) : Feature :=
  { x with
    background := x.background.map (Background.mapSteps f)
    scenarios := x.scenarios.map (Scenario.mapSteps f) }

def Document.mapSteps (x : Document) : Document :=
  { x with feature := x.feature.map (Feature.mapSteps f) }

end MapSteps

/-- The step with a doc string right behind its line, if that has the number. The gaps behind the line
are now those behind the doc string. -/
def Step.attach (number : Int) (a : DocString) (x : Step) : Step :=
  if x.line.token.number = number then
    { line := x.line, gaps := [], argument := some (.docString { a with gaps := x.gaps }) }
  else x

/-! ### Their tokens -/

section Tokens

variable {f : Step → Step} {φ : Token → List Token}
  (hφ : ∀ t : Token, t.kind? ≠ some .stepLine → φ t = [t])
include hφ

theorem gather_of_kinds {ks : List TokenKind} {ps : List Part} (h : Kinds ks ps)
    (hks : .stepLine ∉ ks) : gather φ ps = Part.tokensAll ps := by
  refine h.gather_eq_self fun t _ k hk hkind => hφ t ?_
  rw [hkind]
  exact fun heq => hks (Option.some.inj heq ▸ hk)

theorem Background.tokens_mapSteps (x : Background)
    (h : ∀ y ∈ x.steps, (f y).part.tokens = gather φ [y.part]) :
    (x.mapSteps f).part.tokens = gather φ [x.part] := by
  simp only [mapSteps, part, Part.gather_node, Part.gather_append, Part.tokens_node,
    Part.tokensAll_append, Part.tokensAll_change h, gather_of_kinds hφ x.head.kinds (by decide),
    Part.gather_nil, List.append_nil]

theorem Scenario.tokens_mapSteps (x : Scenario)
    (h : ∀ y ∈ x.steps, (f y).part.tokens = gather φ [y.part]) :
    (x.mapSteps f).part.tokens = gather φ [x.part] := by
  cases x with
  | plain tags head steps =>
      have hsteps : Part.tokensAll ((steps.map f).map Step.part) = gather φ (steps.map Step.part) :=
        Part.tokensAll_change h
      simp only [mapSteps, part, Part.gather_node, Part.gather_append, Part.tokens_node,
        Part.tokensAll_append, Part.tokensAll_cons, Part.tokensAll_nil, hsteps,
        gather_of_kinds hφ (kinds_tags tags) (by decide),
        gather_of_kinds hφ head.kinds (by decide), Part.gather_nil, List.append_nil]
  | outline tags head steps examples =>
      have hsteps : Part.tokensAll ((steps.map f).map Step.part) = gather φ (steps.map Step.part) :=
        Part.tokensAll_change h
      have hexamples : Kinds _ (examples.map Examples.part) := .map Examples.kinds
      simp only [mapSteps, part, Part.gather_node, Part.gather_append, Part.tokens_node,
        Part.tokensAll_append, Part.tokensAll_cons, Part.tokensAll_nil, hsteps,
        gather_of_kinds hφ (kinds_tags tags) (by decide),
        gather_of_kinds hφ head.kinds (by decide), gather_of_kinds hφ hexamples (by decide),
        Part.gather_nil, List.append_nil]

theorem Feature.tokens_mapSteps (x : Feature)
    (h : ∀ y ∈ x.steps, (f y).part.tokens = gather φ [y.part]) :
    (x.mapSteps f).part.tokens = gather φ [x.part] := by
  have hbackground : ∀ b ∈ x.background.toList, (b.mapSteps f).part.tokens = gather φ [b.part] :=
    fun b hb => b.tokens_mapSteps hφ fun y hy =>
      h y (List.mem_append_left _ (List.mem_flatMap.mpr ⟨b, hb, hy⟩))
  have hscenarios : ∀ s ∈ x.scenarios, (s.mapSteps f).part.tokens = gather φ [s.part] :=
    fun s hs => s.tokens_mapSteps hφ fun y hy =>
      h y (List.mem_append_right _ (List.mem_flatMap.mpr ⟨s, hs, hy⟩))
  simp only [mapSteps, part, headerParts, Part.gather_node, Part.gather_append, Part.tokens_node,
    Part.tokensAll_append, Part.tokensAll_cons, Option.toList_map,
    Part.tokensAll_change hbackground, Part.tokensAll_change hscenarios,
    gather_of_kinds hφ (kinds_header x.header) (by decide),
    gather_of_kinds hφ (kinds_tags x.tags) (by decide),
    gather_of_kinds hφ x.head.kinds (by decide), Part.gather_nil, List.append_nil]

/-- Tokens can be added to each step, if nothing is added elsewhere. -/
theorem Document.tokens_mapSteps (x : Document)
    (h : ∀ y ∈ x.steps, (f y).part.tokens = gather φ [y.part]) :
    (x.mapSteps f).tokens = x.tokens.flatMap φ := by
  have hfeature : ∀ y ∈ x.feature.toList, (y.mapSteps f).part.tokens = gather φ [y.part] :=
    fun y hy => y.tokens_mapSteps hφ fun z hz => h z (List.mem_flatMap.mpr ⟨y, hy, hz⟩)
  have hparts : Part.tokensAll (x.mapSteps f).parts = gather φ x.parts := by
    simp only [mapSteps, parts, Part.gather_append, Part.tokensAll_append, Option.toList_map,
      Part.tokensAll_change hfeature, gather_of_kinds hφ (kinds_gaps x.gaps) (by decide),
      gather_of_kinds hφ x.eof.kinds (by decide)]
  exact hparts

end Tokens

section Sublist

/-- Phrases in a row have the lines of their steps among their tokens, if each of them has. -/
theorem sublist_of_forall {α : Type} {g : α → Part} {f : α → List Step}
    (h : ∀ x, ((f x).map fun y => y.line.token).Sublist (g x).tokens) (xs : List α) :
    ((xs.flatMap f).map fun y => y.line.token).Sublist (Part.tokensAll (xs.map g)) := by
  induction xs with
  | nil => exact .slnil
  | cons x xs ih =>
      rw [List.flatMap_cons, List.map_append, List.map_cons, Part.tokensAll_cons]
      exact (h x).append ih

theorem sublist_steps (xs : List Step) :
    (xs.map fun x => x.line.token).Sublist (Part.tokensAll (xs.map Step.part)) := by
  have h := sublist_of_forall (g := Step.part) (f := fun x => [x])
    (fun x => .cons_cons _ (List.nil_sublist _)) xs
  rwa [List.flatMap_singleton'] at h

theorem Background.sublist_steps (x : Background) :
    (x.steps.map fun y => y.line.token).Sublist x.part.tokens := by
  rw [part, Part.tokens_node, Part.tokensAll_append]
  exact (Layout.sublist_steps x.steps).trans (List.sublist_append_right _ _)

theorem Scenario.sublist_steps (x : Scenario) :
    (x.steps.map fun y => y.line.token).Sublist x.part.tokens := by
  cases x with
  | plain tags head steps =>
      have hsteps := Layout.sublist_steps steps
      simp only [part, Scenario.steps, Part.tokens_node, Part.tokensAll_append,
        Part.tokensAll_cons, Part.tokensAll_nil, List.append_nil]
      exact (hsteps.trans (List.sublist_append_right _ _)).trans (List.sublist_append_right _ _)
  | outline tags head steps examples =>
      have hsteps := Layout.sublist_steps steps
      simp only [part, Scenario.steps, Part.tokens_node, Part.tokensAll_append,
        Part.tokensAll_cons, Part.tokensAll_nil, List.append_nil]
      exact ((hsteps.trans (List.sublist_append_left _ _)).trans
        (List.sublist_append_right _ _)).trans (List.sublist_append_right _ _)

theorem Feature.sublist_steps (x : Feature) :
    (x.steps.map fun y => y.line.token).Sublist x.part.tokens := by
  rw [steps, List.map_append, part, Part.tokens_node, Part.tokensAll_cons, Part.tokensAll_append]
  exact ((sublist_of_forall Background.sublist_steps _).append
    (sublist_of_forall Scenario.sublist_steps _)).trans (List.sublist_append_right _ _)

/-- The lines of steps come in the order of the tokens. -/
theorem Document.sublist_steps (x : Document) :
    (x.steps.map fun y => y.line.token).Sublist x.tokens := by
  rw [tokens, parts, Part.tokensAll_append, Part.tokensAll_append]
  exact ((sublist_of_forall Feature.sublist_steps _).trans
    (List.sublist_append_left _ _)).trans (List.sublist_append_right _ _)

end Sublist

/-! ### Their values -/

section Value

variable {f : Step → Step} {g : FeatureFile.Step → FeatureFile.Step}
  (hvalue : ∀ y : Step, (f y).value = g y.value)
include hvalue

theorem map_value_mapSteps (xs : List Step) :
    (xs.map f).map Step.value = (xs.map Step.value).map g := by
  rw [List.map_map, List.map_map]
  exact List.map_congr_left fun y _ => hvalue y

theorem Background.value_mapSteps (x : Background) : (x.mapSteps f).value = x.value.mapSteps g := by
  simp only [value, mapSteps, FeatureFile.Background.mapSteps, map_value_mapSteps hvalue]

theorem Scenario.value_mapSteps (x : Scenario) : (x.mapSteps f).value = x.value.mapSteps g := by
  cases x <;>
    simp only [value, mapSteps, ScenarioDefinition.mapSteps, map_value_mapSteps hvalue]

theorem Feature.value_mapSteps (x : Feature) : (x.mapSteps f).value = x.value.mapSteps g := by
  simp only [value, mapSteps, FeatureFile.Feature.mapSteps, Option.map_map, List.map_map,
    Function.comp_def, Background.value_mapSteps hvalue, Scenario.value_mapSteps hvalue]

theorem Document.value_mapSteps (x : Document)
    (hcomments : (x.mapSteps f).tokens.filterMap Token.comment? =
      x.tokens.filterMap Token.comment?) : (x.mapSteps f).value = x.value.mapSteps g := by
  rw [value, hcomments]
  simp only [value, mapSteps, FeatureFile.Document.mapSteps, Option.map_map, Function.comp_def,
    Feature.value_mapSteps hvalue]

end Value

theorem Document.valid_mapSteps {f : Step → Step} (hf : ∀ y : Step, y.Valid → (f y).Valid)
    {x : Document} (h : x.Valid) : (x.mapSteps f).Valid := by
  have hsteps : ∀ xs : List Step, (∀ y ∈ xs, y.Valid) → ∀ y ∈ xs.map f, y.Valid :=
    fun xs hxs => List.forall_mem_map.mpr fun y hy => hf y (hxs y hy)
  intro y hy
  obtain ⟨z, hz, rfl⟩ := Option.map_eq_some_iff.mp hy
  obtain ⟨hhead, hbackground, hscenarios⟩ := h z hz
  refine ⟨hhead, fun b hb => ?_, List.forall_mem_map.mpr fun s hs => ?_⟩
  · obtain ⟨b, hb', rfl⟩ := Option.map_eq_some_iff.mp hb
    exact ⟨(hbackground b hb').1, hsteps _ (hbackground b hb').2⟩
  · have hvalid := hscenarios s hs
    cases s with
    | plain tags head steps => exact ⟨hvalid.1, hsteps _ hvalid.2⟩
    | outline tags head steps examples => exact ⟨hvalid.1, hsteps _ hvalid.2.1, hvalid.2.2⟩

/-! ### Doc strings in steps -/

variable {number : Int} {a : DocString}

theorem Step.value_attach (x : Step) :
    (x.attach number a).value = x.value.attach number (.docString a.value) := by
  rw [attach, FeatureFile.Step.attach, show x.value.location.line = x.line.token.number from rfl]
  split <;> rfl

theorem Step.valid_attach (ha : a.Valid) (x : Step) (h : x.Valid) : (x.attach number a).Valid := by
  rw [attach]
  split
  · intro y hy
    cases hy
    exact ha
  · exact h

/-- The token of a step line of that number, with the doc string behind it. -/
def withDocString (number : Int) (a : DocString) (t : Token) : List Token :=
  if t.kind? = some .stepLine ∧ t.number = number then t :: Part.tokensAll a.parts else [t]

theorem withDocString_of_ne_kind {t : Token} (h : t.kind? ≠ some .stepLine) :
    withDocString number a t = [t] :=
  if_neg fun hand => h hand.1

theorem withDocString_of_ne_number {t : Token} (h : t.number ≠ number) :
    withDocString number a t = [t] :=
  if_neg fun hand => h hand.2

theorem Step.tokens_attach (ha : a.gaps = []) (x : Step)
    (h : x.line.token.number = number → x.argument = none) :
    (x.attach number a).part.tokens = gather (withDocString number a) [x.part] := by
  have hφ : ∀ t : Token, t.kind? ≠ some .stepLine → withDocString number a t = [t] :=
    fun _ => withDocString_of_ne_kind
  have hgather : gather (withDocString number a) [x.part] =
      withDocString number a x.line.token ++ (Part.tokensAll (x.gaps.map Gap.part) ++
        gather (withDocString number a) (x.argument.toList.map Argument.part)) := by
    rw [part, Part.gather_node, Leaf.part, Part.gather_token, Part.gather_append,
      gather_of_kinds hφ (kinds_gaps x.gaps) (by decide), Part.gather_nil, List.append_nil]
  rw [hgather]
  by_cases hnumber : x.line.token.number = number
  · rw [attach, if_pos hnumber, withDocString, if_pos ⟨x.line.kind_eq, hnumber⟩, h hnumber]
    simp [part, Leaf.part, Argument.part, DocString.parts, ha]
  · have harguments : Kinds _ (x.argument.toList.map Argument.part) := .map Argument.kinds
    rw [attach, if_neg hnumber, withDocString_of_ne_number hnumber,
      gather_of_kinds hφ harguments (by decide), ← Part.tokensAll_append]
    rfl

/-- Lines have numbers of their own, so the doc string goes to one place. -/
theorem flatMap_withDocString {us vs : List Token} {t : Token}
    (h : ((us ++ t :: vs).map Token.number).Nodup) (ht : t.kind? = some .stepLine) :
    (us ++ t :: vs).flatMap (withDocString t.number a) = us ++ t :: (Part.tokensAll a.parts ++ vs) := by
  have hself : ∀ ts : List Token, (∀ u ∈ ts, u.number ≠ t.number) →
      ts.flatMap (withDocString t.number a) = ts := by
    intro ts hts
    have hall : ts.flatMap (withDocString t.number a) = ts.flatMap fun u => [u] :=
      List.flatMap_congr fun u hu => withDocString_of_ne_number (hts u hu)
    rw [hall, List.flatMap_singleton']
  rw [List.map_append, List.map_cons, List.nodup_append, List.nodup_cons] at h
  obtain ⟨_, ⟨hback, _⟩, hfront⟩ := h
  rw [List.flatMap_append, List.flatMap_cons, withDocString, if_pos ⟨ht, rfl⟩,
    hself us fun u hu => hfront _ (List.mem_map_of_mem hu) _ List.mem_cons_self,
    hself vs fun u hu heq => hback (heq ▸ List.mem_map_of_mem hu), List.cons_append]

theorem DocString.kinds (ha : a.gaps = []) : Kinds [.docStringSeparator, .other] a.parts := by
  rw [parts, ha]
  exact a.opener.kinds_cons (by decide)
    (.append (.map fun y => y.kinds_of_mem (by decide)) (a.closer.kinds_cons (by decide) .nil))

/-- A doc string has no comments in it. -/
theorem comments_withDocString (ha : a.gaps = []) (ts : List Token) :
    (ts.flatMap (withDocString number a)).filterMap Token.comment? =
      ts.filterMap Token.comment? := by
  have hdoc : (Part.tokensAll a.parts).filterMap Token.comment? = [] := by
    refine List.filterMap_eq_nil_iff.mpr fun t ht => if_neg ?_
    obtain ⟨k, hk, hkind⟩ := DocString.kinds ha t ht
    rw [hkind]
    rintro ⟨⟩
    revert hk
    decide
  induction ts with
  | nil => rfl
  | cons t ts ih =>
      rw [List.flatMap_cons, List.filterMap_append, ih, withDocString]
      split
      · rw [List.filterMap_cons, hdoc, List.filterMap_cons]
        cases t.comment? <;> rfl
      · rw [List.filterMap_cons, List.filterMap_cons]
        cases t.comment? <;> rfl

/-- If one step on a line has no argument, none on that line has. -/
theorem Document.argument_eq_none {x : Document} (hnumbers : (x.tokens.map Token.number).Nodup)
    {y z : Step} (hy : y ∈ x.steps) (hnone : y.argument = none) (hz : z ∈ x.steps)
    (heq : z.line.token.number = y.line.token.number) : z.argument = none := by
  have hsteps : (x.steps.map fun y => y.line.token.number).Nodup := by
    have hsublist := x.sublist_steps.map Token.number
    rw [List.map_map] at hsublist
    exact hnumbers.sublist hsublist
  rw [List.inj_on_of_nodup_map hsteps hz hy heq, hnone]

/-- A doc string can be put behind the line of a step that has no argument. -/
theorem Document.exists_attached {w : Document} (hnumbers : (w.tokens.map Token.number).Nodup)
    (hw : w.Valid) {y : Step} (hy : y ∈ w.steps) (hnone : y.argument = none) {us vs : List Token}
    {t : Token} (htokens : w.tokens = us ++ t :: vs) (ht : t.number = y.line.token.number)
    (ha : a.gaps = []) (hvalid : a.Valid) :
    t.kind? = some .stepLine ∧ ∃ z : Document, z.Valid ∧
      z.value = w.value.mapSteps (.attach t.number (.docString a.value)) ∧
      z.tokens = us ++ t :: (Part.tokensAll a.parts ++ vs) := by
  have hkind : t.kind? = some .stepLine := by
    have hmem : t ∈ w.tokens := by
      rw [htokens]
      exact List.mem_append_right _ List.mem_cons_self
    have hline := w.sublist_steps.subset (List.mem_map_of_mem hy)
    rw [List.inj_on_of_nodup_map hnumbers hmem hline ht]
    exact y.line.kind_eq
  have hmap : (w.mapSteps (Step.attach t.number a)).tokens =
      w.tokens.flatMap (withDocString t.number a) :=
    w.tokens_mapSteps (fun _ => withDocString_of_ne_kind) fun u hu =>
      u.tokens_attach ha fun hu' =>
        w.argument_eq_none hnumbers hy hnone hu (hu'.trans ht)
  refine ⟨hkind, w.mapSteps (Step.attach t.number a), valid_mapSteps (Step.valid_attach hvalid) hw,
    ?_, ?_⟩
  · refine w.value_mapSteps Step.value_attach ?_
    rw [hmap, comments_withDocString ha]
  · rw [htokens] at hnumbers
    rw [hmap, htokens, flatMap_withDocString hnumbers hkind]

end Layout

theorem Document.steps_relocate (f : Location → Location) (d : Document) :
    (d.relocate f).steps = d.steps.map (Step.relocate f) := by
  have hscenario : ∀ s : ScenarioDefinition,
      (s.relocate f).steps = s.steps.map (Step.relocate f) := by
    intro s
    cases s <;> rfl
  obtain ⟨feature, comments⟩ := d
  cases feature with
  | none => rfl
  | some x =>
      simp only [steps, relocate, Option.map_some, Option.toList_some, List.flatMap_singleton,
        Feature.steps, Feature.relocate, List.flatMap_map, hscenario, List.map_append,
        List.map_flatMap]
      cases x.background <;> rfl

theorem Document.steps_mapSteps (f : Step → Step) (d : Document) :
    (d.mapSteps f).steps = d.steps.map f := by
  have hscenario : ∀ s : ScenarioDefinition, (s.mapSteps f).steps = s.steps.map f := by
    intro s
    cases s <;> rfl
  obtain ⟨feature, comments⟩ := d
  cases feature with
  | none => rfl
  | some x =>
      simp only [steps, mapSteps, Option.map_some, Option.toList_some, List.flatMap_singleton,
        Feature.steps, Feature.mapSteps, List.flatMap_map, hscenario, List.map_append,
        List.map_flatMap]
      cases x.background <;> rfl

end FeatureFile
