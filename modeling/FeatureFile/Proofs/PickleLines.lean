import FeatureFile.Proofs.Census
import FeatureFile.Proofs.Compilation
import FeatureFile.Proofs.Recovery
import FeatureFile.Proofs.Tables

/-!
# Where pickles stand

A scenario that no pickle is made from is a test that nobody runs. So the lines of the pickles are
read off the source here: they are those of the scenarios and those of the rows of examples below a
header, each once and from top to bottom (`Parser.pickles_follow_source`).

What the pickles of a document are made from is known (`Document.compiles_of_pickles`), and the
document is the value of a layout. It remains to go through the phrases and to say which lines each
of them contributes (`Part.Gives`). The rows of examples are those of the tables that the parse has
opened and closed. No phrase leaves a table open, so the tables of phrases in a row are one after the
other.
-/

namespace FeatureFile

/-- The line of a scenario, or of a row of examples below the header. -/
def PickleLine (ts : List Token) (tables : List RawTable) (n : Int) : Prop :=
  (∃ t ∈ ts, t.kind? = some .scenarioLine ∧ t.number = n) ∨
    ∃ x ∈ tables, x.rule = .examplesTable ∧ ∃ t ∈ x.rows.tail, t.number = n

theorem pickleLine_append {ts us : List Token} {xs ys : List RawTable} {n : Int} :
    PickleLine (ts ++ us) (xs ++ ys) n ↔ PickleLine ts xs n ∨ PickleLine us ys n := by
  simp only [PickleLine, List.mem_append, or_and_right, exists_or]
  exact or_or_or_comm

theorem not_pickleLine {ts : List Token} {n : Int} (h : ∀ t ∈ ts, t.kind? ≠ some .scenarioLine) :
    ¬ PickleLine ts [] n := by
  rintro (⟨t, ht, hkind, _⟩ | ⟨x, hx, _⟩)
  · exact h t ht hkind
  · cases hx

namespace Part

theorem takeAll_node (tally : Tally) (r : Rule) (ps : List Part) :
    tally.takeAll (callsAll [.node r ps]) =
      ((tally.take (.opened r)).takeAll (callsAll ps)).take (.closed r) := by
  rw [callsAll_cons, callsAll_nil, List.append_nil, calls, ← List.singleton_append,
    Tally.takeAll_append, Tally.takeAll_append]
  rfl

/-- These are the lines of the pickles that the parts are responsible for. -/
structure Gives (ps : List Part) (ns : List Int) : Prop where
  sublist : ns.Sublist ((tokensAll ps).map Token.number)
  /-- The parts add their own tables to those before. -/
  tables : ∃ xs : List RawTable,
    (∀ before, Tally.takeAll { tables := before } (callsAll ps) = { tables := before ++ xs }) ∧
    ∀ n, n ∈ ns ↔ PickleLine (tokensAll ps) xs n

namespace Gives

variable {ps qs : List Part} {ms ns : List Int}

theorem nil : Gives [] [] := by
  refine ⟨.slnil, [], fun before => ?_, fun n => ?_⟩
  · rw [List.append_nil]
    rfl
  · exact iff_of_false List.not_mem_nil (not_pickleLine fun t ht => nomatch ht)

theorem append (h : Gives ps ms) (h' : Gives qs ns) : Gives (ps ++ qs) (ms ++ ns) := by
  obtain ⟨xs, hxs, hms⟩ := h.tables
  obtain ⟨ys, hys, hns⟩ := h'.tables
  refine ⟨?_, xs ++ ys, fun before => ?_, fun n => ?_⟩
  · rw [tokensAll_append, List.map_append]
    exact h.sublist.append h'.sublist
  · rw [callsAll_append, Tally.takeAll_append, hxs, hys, List.append_assoc]
  · rw [tokensAll_append, pickleLine_append, List.mem_append, hms, hns]

/-- Phrases of one sort in a row. -/
theorem list {α : Type} {f : α → List Part} {g : α → List Int} (h : ∀ x, Gives (f x) (g x))
    (xs : List α) : Gives (xs.flatMap f) (xs.flatMap g) := by
  induction xs with
  | nil => exact nil
  | cons x xs ih => exact (h x).append ih

theorem parts {α : Type} {f : α → Part} {g : α → List Int} (h : ∀ x, Gives [f x] (g x))
    (xs : List α) : Gives (xs.map f) (xs.flatMap g) := by
  rw [List.map_eq_flatMap]
  exact list h xs

/-- Phrases without pickles. -/
theorem silent {α : Type} {f : α → Part} (h : ∀ x, Gives [f x] []) (xs : List α) :
    Gives (xs.map f) [] := by
  have hparts := parts h xs
  rwa [List.flatMap_eq_nil_iff.mpr fun _ _ => rfl] at hparts

theorem node (h : Gives ps ns) {r : Rule} (hr : r.isTable = false) : Gives [.node r ps] ns := by
  obtain ⟨xs, hxs, hns⟩ := h.tables
  have htokens : tokensAll [.node r ps] = tokensAll ps := List.append_nil _
  refine ⟨htokens ▸ h.sublist, xs, fun before => ?_, htokens ▸ hns⟩
  have hopened : Tally.take { tables := before } (.opened r) = { tables := before } := by
    rw [Tally.take, hr]
    rfl
  rw [takeAll_node, hopened, hxs]
  rfl

end Gives

end Part

namespace Layout

open FeatureFile.Part

variable {kind : TokenKind}

theorem Leaf.takeAll (x : Leaf kind) (before : List RawTable) :
    Tally.takeAll { tables := before } (callsAll [x.part]) = { tables := before } := by
  change Tally.take _ (.read x.token) = _
  rw [Tally.take]
  split <;> rfl

theorem Leaf.gives_nil (x : Leaf kind) (hkind : kind ≠ .scenarioLine) : Gives [x.part] [] := by
  refine ⟨List.nil_sublist _, [], fun before => ?_, fun n => ?_⟩
  · rw [x.takeAll, List.append_nil]
  · refine iff_of_false List.not_mem_nil (not_pickleLine fun t ht => ?_)
    rw [List.mem_singleton.mp ht, x.kind_eq]
    exact fun h => hkind (Option.some.inj h)

theorem Leaf.gives_scenario (x : Leaf .scenarioLine) : Gives [x.part] [x.token.number] := by
  refine ⟨List.Sublist.refl _, [], fun before => ?_, fun n => ?_⟩
  · rw [x.takeAll, List.append_nil]
  · simp [PickleLine, Leaf.part, x.kind_eq, eq_comm]

/-! ## Steps and heads -/

theorem Gap.gives (x : Gap) : Gives [x.part] [] := by
  cases x with
  | comment x => exact x.gives_nil TokenKind.noConfusion
  | blank x => exact x.gives_nil TokenKind.noConfusion

theorem gives_gaps (xs : List Gap) : Gives (xs.map Gap.part) [] := Gives.silent Gap.gives xs

theorem gives_lines (xs : List (Leaf kind)) (hkind : kind ≠ .scenarioLine) :
    Gives (xs.map Leaf.part) [] := Gives.silent (fun x => x.gives_nil hkind) xs

/-- The title of a head is all there is to it. -/
theorem Head.gives (x : Head kind) {ns : List Int} (htitle : Gives [x.title.part] ns) :
    Gives x.parts ns := by
  have hdescription : Gives x.description [] := by
    rw [Head.description]
    split
    · exact .nil
    · exact (gives_lines x.lines TokenKind.noConfusion).node rfl
  have hremarks : Gives (x.remarks.elim [] fun r => r.1.part :: r.2.map Gap.part) [] := by
    cases x.remarks with
    | none => exact .nil
    | some r => exact (r.1.gives_nil TokenKind.noConfusion).append (gives_gaps r.2)
  have h : Gives x.parts (ns ++ []) := htitle.append
    ((gives_lines x.blanks TokenKind.noConfusion).append (hdescription.append hremarks))
  rwa [List.append_nil] at h

/-- The row of a line of a table, if it is one. -/
def TableLine.token? : TableLine → Option Token
  | .row x => some x.token
  | .gap _ => none

/-- The tokens of the rows below the first. -/
def Table.bodyTokens (x : Table) : List Token := x.rest.filterMap TableLine.token?

theorem Table.body_lines (x : Table) :
    x.body.map (fun r => r.location.line) = x.bodyTokens.map Token.number := by
  rw [Table.body, Table.bodyTokens, List.map_filterMap, List.map_filterMap]
  congr 1
  funext y
  cases y <;> rfl

theorem takeAll_lines (r : Rule) (before : List RawTable) (rows : List Token)
    (xs : List TableLine) :
    Tally.takeAll { current := some { rule := r, rows }, tables := before }
        (callsAll (xs.map TableLine.part)) =
      { current := some { rule := r, rows := rows ++ xs.filterMap TableLine.token? }
        tables := before } := by
  induction xs generalizing rows with
  | nil => rw [List.filterMap_nil, List.append_nil]; rfl
  | cons x xs ih =>
      rw [List.map_cons, callsAll_cons, Tally.takeAll_append]
      cases x with
      | row y =>
          have hrow : Tally.takeAll { current := some { rule := r, rows }, tables := before }
              (TableLine.row y).part.calls =
              { current := some { rule := r, rows := rows ++ [y.token] }, tables := before } :=
            if_pos y.kind_eq
          rw [hrow, ih, List.append_assoc]
          rfl
      | gap y =>
          have hgap : Tally.takeAll { current := some { rule := r, rows }, tables := before }
              (TableLine.gap y).part.calls =
              { current := some { rule := r, rows }, tables := before } := by
            cases y with
            | comment y => exact if_neg (by rw [y.kind_eq]; decide)
            | blank y => exact if_neg (by rw [y.kind_eq]; decide)
          rw [hgap, ih]
          rfl

/-- A table is opened, gets its rows and is closed. -/
theorem Table.takeAll (x : Table) {r : Rule} (hr : r.isTable = true) (before : List RawTable) :
    Tally.takeAll { tables := before } (callsAll [.node r x.parts]) =
      { tables := before ++ [{ rule := r, rows := x.first.token :: x.bodyTokens }] } := by
  have hopened : Tally.take { tables := before } (.opened r) =
      { current := some { rule := r, rows := [] }, tables := before } := if_pos hr
  have hfirst : Tally.take { current := some { rule := r, rows := [] }, tables := before }
      (.read x.first.token) =
      { current := some { rule := r, rows := [x.first.token] }, tables := before } :=
    if_pos x.first.kind_eq
  rw [takeAll_node, hopened, Table.parts, callsAll_cons, Tally.takeAll_append]
  change ((Tally.take _ (.read x.first.token)).takeAll _).take _ = _
  rw [hfirst, takeAll_lines]
  exact if_pos rfl

theorem Table.tokens_kind (x : Table) :
    ∀ t ∈ tokensAll x.parts, t.kind? ≠ some .scenarioLine := by
  have hline : ∀ y : TableLine, ∀ t ∈ y.part.tokens, t.kind? ≠ some .scenarioLine := by
    intro y t ht
    rcases y with y | (y | y) <;> rw [List.mem_singleton.mp ht, y.kind_eq] <;> decide
  intro t ht
  rw [Table.parts, tokensAll_cons, tokensAll_map] at ht
  rcases List.mem_append.mp ht with ht | ht
  · rw [List.mem_singleton.mp ht, x.first.kind_eq]
    decide
  · obtain ⟨y, _, ht⟩ := List.mem_flatMap.mp ht
    exact hline y t ht

theorem Table.bodyTokens_sublist (x : Table) : x.bodyTokens.Sublist (tokensAll x.parts) := by
  rw [Table.parts, tokensAll_cons]
  refine List.Sublist.trans ?_ (List.sublist_append_right _ _)
  rw [Table.bodyTokens]
  induction x.rest with
  | nil => exact .slnil
  | cons y ys ih =>
      rw [List.map_cons, tokensAll_cons]
      cases y with
      | row y => exact ih.cons_cons _
      | gap y =>
          rw [List.filterMap_cons_none rfl]
          exact ih.trans (List.sublist_append_right _ _)

theorem Table.pickleLine (x : Table) {r : Rule} {n : Int} :
    PickleLine (tokensAll [.node r x.parts])
        [{ rule := r, rows := x.first.token :: x.bodyTokens }] n ↔
      r = .examplesTable ∧ n ∈ x.bodyTokens.map Token.number := by
  have hnone : ¬ ∃ t ∈ tokensAll x.parts, t.kind? = some .scenarioLine ∧ t.number = n :=
    fun ⟨t, ht, hkind, _⟩ => x.tokens_kind t ht hkind
  simp [PickleLine, hnone]

theorem Table.gives_examples (x : Table) :
    Gives [.node .examplesTable x.parts] (x.bodyTokens.map Token.number) := by
  refine ⟨?_, _, x.takeAll rfl, fun n => ?_⟩
  · rw [tokensAll_cons, tokensAll_nil, List.append_nil]
    exact x.bodyTokens_sublist.map _
  · rw [x.pickleLine, and_iff_right rfl]

theorem Argument.gives (x : Argument) : Gives [x.part] [] := by
  cases x with
  | table x =>
      refine ⟨List.nil_sublist _, _, x.takeAll rfl, fun n => ?_⟩
      refine iff_of_false List.not_mem_nil fun h => ?_
      cases (x.pickleLine.mp h).1
  | docString x =>
      have h := (x.opener.gives_nil TokenKind.noConfusion).append
        ((gives_lines x.lines TokenKind.noConfusion).append
          ((x.closer.gives_nil TokenKind.noConfusion).append (gives_gaps x.gaps)))
      exact h.node rfl

theorem Step.gives (x : Step) : Gives [x.part] [] := by
  have h := (x.line.gives_nil TokenKind.noConfusion).append
    ((gives_gaps x.gaps).append (Gives.silent Argument.gives x.argument.toList))
  exact h.node rfl

theorem gives_steps (xs : List Step) : Gives (xs.map Step.part) [] := Gives.silent Step.gives xs

theorem gives_tags (xs : List TagLine) : Gives (tagParts xs) [] := by
  have hline : ∀ x : TagLine, Gives x.parts [] := fun x =>
    (x.line.gives_nil TokenKind.noConfusion).append (gives_gaps x.gaps)
  have hlines := Gives.list hline xs
  rw [List.flatMap_eq_nil_iff.mpr fun _ _ => rfl] at hlines
  rw [tagParts]
  split
  · exact .nil
  · exact hlines.node rfl

/-! ## Blocks -/

/-- The lines of sources. -/
def linesOf (xs : List PickleSource) : List Int := xs.map fun x => x.location.line

theorem Examples.gives (o : ScenarioOutline) (x : Examples) :
    Gives [x.part] (linesOf (x.value.sources o)) := by
  have hvalue : x.value.table =
      x.table.map fun t => { header := Node.rowOf t.first.token, body := t.body } := rfl
  have hlines : linesOf (x.value.sources o) =
      x.table.toList.flatMap fun t => t.bodyTokens.map Token.number := by
    rw [FeatureFile.Examples.sources, hvalue]
    cases x.table with
    | none => rfl
    | some t =>
        rw [Option.map_some, Option.toList_some, Option.toList_some, List.flatMap_singleton,
          List.flatMap_singleton, ← t.body_lines, linesOf, List.map_map]
        rfl
  have htable := Gives.parts Table.gives_examples x.table.toList
  rw [← hlines] at htable
  have hhead := x.head.gives (x.head.title.gives_nil TokenKind.noConfusion)
  exact ((gives_tags x.tags).append ((hhead.append htable).node rfl)).node rfl

theorem Background.gives (x : Background) : Gives [x.part] [] :=
  ((x.head.gives (x.head.title.gives_nil TokenKind.noConfusion)).append
    (gives_steps x.steps)).node rfl

theorem Scenario.gives (x : Scenario) : Gives [x.part] (linesOf x.value.sources) := by
  cases x with
  | plain tags head steps =>
      have h := (head.gives head.title.gives_scenario).append (gives_steps steps)
      exact ((gives_tags tags).append (h.node rfl)).node rfl
  | outline tags head steps examples =>
      have hexamples : Gives (examples.map Examples.part)
          (linesOf (Scenario.outline tags head steps examples).value.sources) := by
        rw [linesOf, Scenario.value, ScenarioDefinition.sources, List.flatMap_map,
          List.map_flatMap]
        exact Gives.parts (Examples.gives _) examples
      have h := (head.gives (head.title.gives_nil TokenKind.noConfusion)).append
        ((gives_steps steps).append hexamples)
      exact ((gives_tags tags).append (h.node rfl)).node rfl

theorem Feature.gives (x : Feature) : Gives [x.part] (linesOf x.value.sources) := by
  have hlanguage : Gives (x.header.elim [] fun h => h.1.part :: h.2.map Gap.part) [] := by
    cases x.header with
    | none => exact .nil
    | some h => exact (h.1.gives_nil TokenKind.noConfusion).append (gives_gaps h.2)
  have hhead := x.head.gives (x.head.title.gives_nil TokenKind.noConfusion)
  have hscenarios : Gives (x.scenarios.map Scenario.part) (linesOf x.value.sources) := by
    rw [linesOf, FeatureFile.Feature.sources, Feature.value, List.flatMap_map, List.map_flatMap]
    exact Gives.parts Scenario.gives x.scenarios
  have hheader := ((hlanguage.append (gives_tags x.tags)).append hhead).node
    (r := .featureHeader) rfl
  have hbackground := Gives.silent Background.gives x.background.toList
  exact (hheader.append (hbackground.append hscenarios)).node rfl

theorem Document.gives (x : Document) : Gives x.parts (linesOf x.value.sources) := by
  have hfeature : Gives (x.feature.toList.map Feature.part) (linesOf x.value.sources) := by
    have hvalue : x.value.feature = x.feature.map Feature.value := rfl
    rw [FeatureFile.Document.sources, hvalue]
    cases x.feature with
    | none => exact .nil
    | some y =>
        rw [Option.map_some, Option.toList_some, Option.toList_some, List.flatMap_singleton]
        exact y.gives
  have h := (gives_gaps x.gaps).append
    (hfeature.append (x.eof.gives_nil TokenKind.noConfusion))
  rwa [List.append_nil] at h

end Layout

namespace Parser

/-- There is one pickle for each scenario of an accepted source and for each row of examples below a
header, from top to bottom, with the steps and tags that belong to it. -/
theorem pickles_follow_source (builder : DocumentBuilder) (stopAtFirst : Bool) (matcher : Matcher)
    (hmatcher : matcher.default ∈ Dialect.table) (source : Text) (d : Option Document)
    (h : (parse { builder, stopAtFirst } matcher source).outcome = .ok d) :
    ∃ doc, d = some doc ∧ ∀ names ps, doc.pickles names = .ok ps →
      doc.Compiles ps ∧
      ∃ lines : List Int,
        ps.map (fun p => p.locations.head?.map Location.line) = lines.map some ∧
        lines.Pairwise (· < ·) ∧
        ∀ n, n ∈ lines ↔ PickleLine (built { builder, stopAtFirst } matcher source)
          (Call.tables (calls { builder, stopAtFirst } matcher source)) n := by
  obtain ⟨x, _, _, htokens, _, hvalue, _, _, _, _, hlog⟩ := exists_layout h
  have hnumbers := built_numbers hmatcher h
  obtain ⟨tables, htables, hlines⟩ := x.gives.tables
  have hcalls : Call.tables (calls { builder, stopAtFirst } matcher source) = tables := by
    have hnode : calls { builder, stopAtFirst } matcher source =
        Part.callsAll [.node .document x.parts] := by
      rw [calls, hlog]
      exact (List.append_nil _).symm
    rw [Call.tables, hnode, Part.takeAll_node]
    change (Tally.take (Tally.takeAll { tables := [] } _) _).tables = _
    rw [htables]
    rfl
  rw [← htokens] at hnumbers ⊢
  refine ⟨x.value, hvalue, fun names ps hps => ?_⟩
  have hcompiles := Document.compiles_of_pickles hps
  refine ⟨hcompiles, Layout.linesOf x.value.sources, ?_, hnumbers.sublist x.gives.sublist, ?_⟩
  · rw [hcompiles.lines, Layout.linesOf, List.map_map]
    rfl
  · rw [hcalls]
    exact hlines

/-- A background, scenarios with and without steps, and an outline whose examples have rows, a header
alone, and no table. -/
def motleySource : Text :=
  ("@f\nFeature: f\nBackground:\n* b\nScenario:\n@s\nScenario:\n* s\nScenario Outline:\n" ++
    "* <h>\n@e\nExamples:\n|h|\n|i|\n|j|\nExamples:\n|k|\nExamples:\n").toList

theorem pickles_follow_source_motleySource :
    Dialect.english ∈ Dialect.table ∧
      ∃ doc ps, (parse { builder := ({} : DocumentBuilder) } (.new .plain .english)
          motleySource).outcome = .ok (some doc) ∧ doc.pickles = .ok ps ∧
        ps.map (fun p => p.steps.length) = [0, 2, 2, 2] ∧ doc.Compiles ps ∧
        ps.map (fun p => p.locations.head?.map Location.line) =
          [some 5, some 7, some 14, some 15] ∧
        ∀ n, n ∈ [5, 7, 14, 15] ↔
          PickleLine (built { builder := ({} : DocumentBuilder) } (.new .plain .english) motleySource)
            (Call.tables (calls { builder := ({} : DocumentBuilder) } (.new .plain .english)
              motleySource)) n := by
  have henglish : Dialect.english ∈ Dialect.table := by decide
  refine ⟨henglish, ?_⟩
  have heval : (parse { builder := ({} : DocumentBuilder) } (.new .plain .english)
      motleySource).outcome.toOption.join.bind (fun doc => doc.pickles.toOption.map fun ps =>
        (ps.map (fun p => p.steps.length),
          ps.map fun p => p.locations.head?.map Location.line)) =
      some ([0, 2, 2, 2], [some 5, some 7, some 14, some 15]) := by decide +kernel
  cases h : (parse { builder := ({} : DocumentBuilder) } (.new .plain .english)
      motleySource).outcome with
  | error e =>
      rw [h] at heval
      cases heval
  | ok d =>
      obtain ⟨doc, rfl, hall⟩ := pickles_follow_source {} false (.new .plain .english) henglish
        motleySource d h
      cases hpickles : doc.pickles with
      | error fault =>
          rw [h] at heval
          simp [hpickles, Except.toOption] at heval
      | ok ps =>
          rw [h] at heval
          simp only [Except.toOption, Option.join_some, Option.bind_some, hpickles, Option.map_some,
            Option.some.injEq, Prod.mk.injEq] at heval
          obtain ⟨hcompiles, lines, hlines, _, hmem⟩ := hall .empty ps hpickles
          have heq : lines = [5, 7, 14, 15] := by
            refine List.map_injective_iff.mpr (Option.some_injective _) ?_
            rw [← hlines, heval.2]
            rfl
          rw [heq] at hmem
          exact ⟨doc, ps, rfl, hpickles, heval.1, hcompiles, heval.2, hmem⟩

end Parser

end FeatureFile
