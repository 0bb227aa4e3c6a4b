import FeatureFile.Proofs.Gathering
import FeatureFile.Proofs.Insertion
import FeatureFile.Proofs.Legible
import FeatureFile.Proofs.LockStep
import FeatureFile.Proofs.PickleNumbers

/-!
# Blank lines

Between two lines a blank line may be put in, and the document stays what it was, with the line
numbers behind the new line moved down (`Parser.parse_blank_line_inserted`). Two places are excepted,
descriptions and doc strings, where a blank line is text.

Everywhere else a state stays where it is at a blank line (`State.stays_at_blank`), so the strides
behind it are those of the old parse. What the builder makes of them is a matter of layouts: a layout
has the same value without its blank lines (`Layout.Document.dense`), and the two layouts are the same
without them. Comments are no such thing, they stay.
-/

namespace FeatureFile

/-! ## Layouts without blank lines -/

/-- The token, if it is no blank line. -/
def Token.solid (t : Token) : List Token := if t.kind? = some .empty then [] else [t]

namespace Layout

variable {kind : TokenKind}

def Gap.isComment : Gap → Bool
  | .comment _ => true
  | .blank _ => false

def TableLine.isSolid : TableLine → Bool
  | .row _ => true
  | .gap x => x.isComment

def Head.dense (x : Head kind) : Head kind :=
  { x with blanks := [], remarks := x.remarks.map fun r => (r.1, r.2.filter Gap.isComment) }

def Table.dense (x : Table) : Table := { x with rest := x.rest.filter TableLine.isSolid }

def Argument.dense : Argument → Argument
  | .table x => .table x.dense
  | .docString x => .docString { x with gaps := x.gaps.filter Gap.isComment }

def Step.dense (x : Step) : Step :=
  { x with gaps := x.gaps.filter Gap.isComment, argument := x.argument.map Argument.dense }

def TagLine.dense (x : TagLine) : TagLine := { x with gaps := x.gaps.filter Gap.isComment }

def Examples.dense (x : Examples) : Examples where
  tags := x.tags.map TagLine.dense
  head := x.head.dense
  table := x.table.map Table.dense

def Background.dense (x : Background) : Background where
  head := x.head.dense
  steps := x.steps.map Step.dense

def Scenario.dense : Scenario → Scenario
  | .plain tags head steps => .plain (tags.map TagLine.dense) head.dense (steps.map Step.dense)
  | .outline tags head steps examples =>
    .outline (tags.map TagLine.dense) head.dense (steps.map Step.dense)
      (examples.map Examples.dense)

def Feature.dense (x : Feature) : Feature where
  header := x.header.map fun h => (h.1, h.2.filter Gap.isComment)
  tags := x.tags.map TagLine.dense
  head := x.head.dense
  background := x.background.map Background.dense
  scenarios := x.scenarios.map Scenario.dense

/-- The layout without its blank lines, but for those in descriptions. -/
def Document.dense (x : Document) : Document where
  gaps := x.gaps.filter Gap.isComment
  feature := x.feature.map Feature.dense
  eof := x.eof

/-! ### Their tokens -/

open FeatureFile.Part (gather)

theorem Leaf.solid_token (hkind : kind ≠ .empty) (x : Leaf kind) : x.token.solid = [x.token] := by
  rw [Token.solid, x.kind_eq, if_neg]
  exact fun h => hkind (Option.some.inj h)

theorem gather_leaf (hkind : kind ≠ .empty) (x : Leaf kind) (ps : List Part) :
    gather Token.solid (x.part :: ps) = x.token :: gather Token.solid ps := by
  rw [Leaf.part, Part.gather_token, x.solid_token hkind, List.singleton_append]

theorem gather_blank (x : Leaf .empty) (ps : List Part) :
    gather Token.solid (x.part :: ps) = gather Token.solid ps := by
  rw [Leaf.part, Part.gather_token, Token.solid, x.kind_eq, if_pos rfl, List.nil_append]

theorem tokensAll_filter {α : Type} {f : α → Part} {p : α → Bool}
    (h : ∀ x, gather Token.solid [f x] = if p x then (f x).tokens else []) (xs : List α) :
    Part.tokensAll ((xs.filter p).map f) = gather Token.solid (xs.map f) := by
  rw [Part.gather_map, Part.tokensAll_map]
  induction xs with
  | nil => rfl
  | cons x xs ih =>
      rw [List.filter_cons, List.flatMap_cons, h, ← ih]
      split <;> rfl

theorem Gap.gather_part (x : Gap) :
    gather Token.solid [x.part] = if x.isComment then x.part.tokens else [] := by
  cases x with
  | comment x => exact gather_leaf TokenKind.noConfusion x []
  | blank x => exact gather_blank x []

theorem tokensAll_gaps (xs : List Gap) :
    Part.tokensAll ((xs.filter Gap.isComment).map Gap.part) =
      gather Token.solid (xs.map Gap.part) :=
  tokensAll_filter Gap.gather_part xs

/-- Lines of text are not blank, whatever they look like. -/
theorem tokensAll_lines (xs : List (Leaf .other)) :
    Part.tokensAll (xs.map Leaf.part) = gather Token.solid (xs.map Leaf.part) := by
  rw [Part.gather_map, Part.tokensAll_map]
  exact List.flatMap_congr fun x _ => (gather_leaf TokenKind.noConfusion x []).symm

theorem Head.tokensAll_dense (hkind : kind ≠ .empty) (x : Head kind) :
    Part.tokensAll x.dense.parts = gather Token.solid x.parts := by
  have hblanks : gather Token.solid (x.blanks.map Leaf.part) = [] := by
    rw [Part.gather_map, List.flatMap_eq_nil_iff]
    exact fun y _ => gather_blank y []
  have hlines : Part.tokensAll x.description = gather Token.solid x.description := by
    rw [Head.description]
    split
    · rfl
    · rw [Part.gather_node, Part.tokensAll_cons, Part.tokens_node, tokensAll_lines]
      rfl
  have hremarks : Part.tokensAll (x.dense.remarks.elim [] fun r => r.1.part :: r.2.map Gap.part) =
      gather Token.solid (x.remarks.elim [] fun r => r.1.part :: r.2.map Gap.part) := by
    rw [Head.dense]
    cases x.remarks with
    | none => rfl
    | some r =>
        simp only [Option.map_some, Option.elim_some]
        rw [gather_leaf TokenKind.noConfusion, Part.tokensAll_cons, tokensAll_gaps]
        rfl
  have hdescription : x.dense.description = x.description := rfl
  have hnone : x.dense.blanks = [] := rfl
  rw [Head.parts, Head.parts, gather_leaf hkind, Part.gather_append, Part.gather_append, hblanks,
    Part.tokensAll_cons, Part.tokensAll_append, Part.tokensAll_append, hremarks, hdescription,
    hlines, hnone]
  rfl

theorem Table.tokensAll_dense (x : Table) :
    Part.tokensAll x.dense.parts = gather Token.solid x.parts := by
  have hrest : Part.tokensAll (x.dense.rest.map TableLine.part) =
      gather Token.solid (x.rest.map TableLine.part) := by
    refine tokensAll_filter (fun y => ?_) x.rest
    cases y with
    | row y => exact gather_leaf TokenKind.noConfusion y []
    | gap y => exact y.gather_part
  rw [Table.parts, Table.parts, gather_leaf TokenKind.noConfusion, Part.tokensAll_cons, hrest]
  rfl

theorem Argument.tokens_dense (x : Argument) :
    x.dense.part.tokens = gather Token.solid [x.part] := by
  cases x with
  | table x =>
      rw [Argument.dense, Argument.part, Argument.part, Part.gather_node, Part.tokens_node,
        x.tokensAll_dense, Part.gather_nil, List.append_nil]
  | docString x =>
      rw [Argument.dense, Argument.part, Argument.part, Part.gather_node, Part.tokens_node,
        DocString.parts, DocString.parts, gather_leaf TokenKind.noConfusion, Part.gather_append,
        gather_leaf TokenKind.noConfusion, Part.tokensAll_cons, Part.tokensAll_append,
        Part.tokensAll_cons, tokensAll_lines, tokensAll_gaps, Part.gather_nil, List.append_nil]
      rfl

theorem Step.tokens_dense (x : Step) : x.dense.part.tokens = gather Token.solid [x.part] := by
  have hargument : Part.tokensAll (x.dense.argument.toList.map Argument.part) =
      gather Token.solid (x.argument.toList.map Argument.part) := by
    rw [Step.dense, Option.toList_map]
    exact Part.tokensAll_change fun y _ => y.tokens_dense
  rw [Step.part, Step.part, Part.gather_node, gather_leaf TokenKind.noConfusion, Part.gather_append,
    Part.tokens_node, Part.tokensAll_cons, Part.tokensAll_append, hargument, Part.gather_nil,
    List.append_nil, ← tokensAll_gaps]
  rfl

theorem tokensAll_tags (xs : List TagLine) :
    Part.tokensAll (tagParts (xs.map TagLine.dense)) = gather Token.solid (tagParts xs) := by
  have hlines : Part.tokensAll ((xs.map TagLine.dense).flatMap TagLine.parts) =
      gather Token.solid (xs.flatMap TagLine.parts) := by
    rw [Part.gather_flatMap, Part.tokensAll_flatMap, List.flatMap_map]
    refine List.flatMap_congr fun x _ => ?_
    rw [TagLine.parts, TagLine.parts, gather_leaf TokenKind.noConfusion, Part.tokensAll_cons,
      ← tokensAll_gaps]
    rfl
  cases xs with
  | nil => rfl
  | cons x xs =>
      rw [tagParts, tagParts, if_neg (by simp), if_neg (by simp), Part.gather_node,
        Part.tokensAll_cons, Part.tokens_node, hlines]
      rfl

theorem Examples.tokens_dense (x : Examples) :
    x.dense.part.tokens = gather Token.solid [x.part] := by
  have htable : Part.tokensAll
      ((x.table.map Table.dense).toList.map fun t => .node .examplesTable t.parts) =
      gather Token.solid (x.table.toList.map fun t => .node .examplesTable t.parts) := by
    rw [Option.toList_map]
    refine Part.tokensAll_change fun t _ => ?_
    rw [Part.gather_node, Part.tokens_node, t.tokensAll_dense, Part.gather_nil, List.append_nil]
  simp only [Examples.dense, Examples.part, Part.gather_node, Part.gather_append, Part.tokens_node,
    Part.tokensAll_append, Part.tokensAll_cons, Part.tokensAll_nil, htable, tokensAll_tags,
    x.head.tokensAll_dense TokenKind.noConfusion, Part.gather_nil, List.append_nil]

theorem Background.tokens_dense (x : Background) :
    x.dense.part.tokens = gather Token.solid [x.part] := by
  simp only [Background.dense, Background.part, Part.gather_node, Part.gather_append,
    Part.tokens_node, Part.tokensAll_append, x.head.tokensAll_dense TokenKind.noConfusion,
    Part.tokensAll_change fun y (_ : y ∈ x.steps) => y.tokens_dense, Part.gather_nil, List.append_nil]

theorem Scenario.tokens_dense (x : Scenario) :
    x.dense.part.tokens = gather Token.solid [x.part] := by
  cases x with
  | plain tags head steps =>
      simp only [Scenario.dense, Scenario.part, Part.gather_node, Part.gather_append,
        Part.tokens_node, Part.tokensAll_append, Part.tokensAll_cons, Part.tokensAll_nil,
        tokensAll_tags, head.tokensAll_dense TokenKind.noConfusion,
        Part.tokensAll_change fun y (_ : y ∈ steps) => y.tokens_dense, Part.gather_nil, List.append_nil]
  | outline tags head steps examples =>
      simp only [Scenario.dense, Scenario.part, Part.gather_node, Part.gather_append,
        Part.tokens_node, Part.tokensAll_append, Part.tokensAll_cons, Part.tokensAll_nil,
        tokensAll_tags, head.tokensAll_dense TokenKind.noConfusion,
        Part.tokensAll_change fun y (_ : y ∈ steps) => y.tokens_dense,
        Part.tokensAll_change fun y (_ : y ∈ examples) => y.tokens_dense, Part.gather_nil, List.append_nil]

theorem Feature.tokens_dense (x : Feature) :
    x.dense.part.tokens = gather Token.solid [x.part] := by
  have hheader : Part.tokensAll ((x.header.map fun h => (h.1, h.2.filter Gap.isComment)).elim []
      fun h => h.1.part :: h.2.map Gap.part) =
      gather Token.solid (x.header.elim [] fun h => h.1.part :: h.2.map Gap.part) := by
    cases x.header with
    | none => rfl
    | some h =>
        simp only [Option.map_some, Option.elim_some]
        rw [gather_leaf TokenKind.noConfusion, Part.tokensAll_cons, tokensAll_gaps]
        rfl
  simp only [Feature.dense, Feature.part, Feature.headerParts, Part.gather_node,
    Part.gather_append, Part.tokens_node, Part.tokensAll_append, Part.tokensAll_cons, hheader,
    tokensAll_tags, x.head.tokensAll_dense TokenKind.noConfusion, Option.toList_map,
    Part.tokensAll_change fun y (_ : y ∈ x.background.toList) => y.tokens_dense,
    Part.tokensAll_change fun y (_ : y ∈ x.scenarios) => y.tokens_dense, Part.gather_nil, List.append_nil]

theorem Document.tokens_dense (x : Document) : x.dense.tokens = x.tokens.flatMap Token.solid := by
  have hparts : Part.tokensAll x.dense.parts = gather Token.solid x.parts := by
    simp only [Document.dense, Document.parts, Part.gather_append, Part.tokensAll_append,
      tokensAll_gaps, Option.toList_map, Part.tokensAll_change fun y (_ : y ∈ x.feature.toList) => y.tokens_dense,
      gather_leaf TokenKind.noConfusion x.eof, Part.gather_nil]
    rfl
  exact hparts

/-! ### Their values -/

theorem Table.body_dense (x : Table) : x.dense.body = x.body := by
  rw [Table.body, Table.body, Table.dense, List.filterMap_filter]
  refine List.filterMap_congr fun y _ => ?_
  cases y with
  | row y => rfl
  | gap y => exact ite_self _

theorem Table.rows_dense (x : Table) : x.dense.rows = x.rows := by
  rw [Table.rows, x.body_dense]
  rfl

theorem Argument.value_dense (x : Argument) : x.dense.value = x.value := by
  cases x with
  | table x =>
      rw [Argument.dense, Argument.value, x.rows_dense]
      rfl
  | docString x => rfl

theorem Step.value_dense (x : Step) : x.dense.value = x.value := by
  have hargument : x.dense.argument.map Argument.value = x.argument.map Argument.value := by
    rw [Step.dense, Option.map_map]
    exact Option.map_congr fun y _ => y.value_dense
  rw [Step.value, hargument]
  rfl

theorem tagValues_dense (xs : List TagLine) : tagValues (xs.map TagLine.dense) = tagValues xs := by
  rw [tagValues, List.flatMap_map]
  rfl

theorem map_value_dense {α β : Type} {e : α → α} {value : α → β} (h : ∀ x, value (e x) = value x)
    (xs : List α) : (xs.map e).map value = xs.map value := by
  rw [List.map_map]
  exact List.map_congr_left fun x _ => h x

theorem Examples.value_dense (x : Examples) : x.dense.value = x.value := by
  have htable : (x.table.map Table.dense).map (fun t : Table =>
      ({ header := Node.rowOf t.first.token, body := t.body } : ExamplesTable)) =
      x.table.map fun t => { header := Node.rowOf t.first.token, body := t.body } := by
    rw [Option.map_map]
    refine Option.map_congr fun t _ => ?_
    rw [Function.comp, t.body_dense]
    rfl
  rw [Examples.value, Examples.dense, tagValues_dense, htable]
  rfl

theorem Background.value_dense (x : Background) : x.dense.value = x.value := by
  rw [Background.value, Background.dense, map_value_dense Step.value_dense]
  rfl

theorem Scenario.value_dense (x : Scenario) : x.dense.value = x.value := by
  cases x with
  | plain tags head steps =>
      rw [Scenario.dense, Scenario.value, tagValues_dense, map_value_dense Step.value_dense]
      rfl
  | outline tags head steps examples =>
      rw [Scenario.dense, Scenario.value, tagValues_dense, map_value_dense Step.value_dense,
        map_value_dense Examples.value_dense]
      rfl

theorem Feature.value_dense (x : Feature) : x.dense.value = x.value := by
  have hbackground : (x.background.map Background.dense).map Background.value =
      x.background.map Background.value := by
    rw [Option.map_map]
    exact Option.map_congr fun y _ => y.value_dense
  rw [Feature.value, Feature.dense, tagValues_dense, hbackground, map_value_dense Scenario.value_dense]
  rfl

/-- Blank lines do not show in the value. -/
theorem Document.value_dense (x : Document) : x.dense.value = x.value := by
  have hfeature : (x.feature.map Feature.dense).map Feature.value = x.feature.map Feature.value := by
    rw [Option.map_map]
    exact Option.map_congr fun y _ => y.value_dense
  have hsolid : ∀ t : Token, t.solid.filterMap Token.comment? = t.comment?.toList := by
    intro t
    rw [Token.solid]
    split
    · next hblank => rw [Token.comment?, hblank, if_neg (by decide)]; rfl
    · cases h : t.comment? <;> simp [h]
  have hcomments : x.dense.tokens.filterMap Token.comment? = x.tokens.filterMap Token.comment? := by
    rw [x.tokens_dense, List.filterMap_flatMap, List.filterMap_eq_flatMap_toList]
    exact List.flatMap_congr fun t _ => hsolid t
  rw [Document.value, hcomments, Document.dense, hfeature]
  rfl

theorem Argument.valid_dense (x : Argument) : x.dense.Valid ↔ x.Valid := by
  cases x with
  | table x =>
      change unevenRow x.dense.rows = none ↔ unevenRow x.rows = none
      rw [x.rows_dense]
  | docString x => exact Iff.rfl

theorem Step.valid_dense (x : Step) : x.dense.Valid ↔ x.Valid := by
  simp only [Step.Valid, Step.dense, Option.forall_mem_map, Argument.valid_dense]

theorem Examples.valid_dense (x : Examples) : x.dense.Valid ↔ x.Valid := by
  have htable : ∀ t : Table, t.dense.Valid ↔ t.Valid := fun t => by
    rw [Table.Valid, t.rows_dense, Table.Valid]
  simp only [Examples.Valid, Examples.dense, Option.forall_mem_map, htable]
  rfl

theorem Background.valid_dense (x : Background) : x.dense.Valid ↔ x.Valid := by
  simp only [Background.Valid, Background.dense, List.forall_mem_map, Step.valid_dense]
  rfl

theorem Scenario.valid_dense (x : Scenario) : x.dense.Valid ↔ x.Valid := by
  cases x with
  | plain tags head steps =>
      simp only [Scenario.dense, Scenario.Valid, List.forall_mem_map, Step.valid_dense]
      rfl
  | outline tags head steps examples =>
      simp only [Scenario.dense, Scenario.Valid, List.forall_mem_map, Step.valid_dense,
        Examples.valid_dense]
      rfl

/-- Nor do they matter to what is refused. -/
theorem Document.valid_dense (x : Document) : x.dense.Valid ↔ x.Valid := by
  have hfeature : ∀ y : Feature, y.dense.Valid ↔ y.Valid := fun y => by
    simp only [Feature.Valid, Feature.dense, Option.forall_mem_map, List.forall_mem_map,
      Background.valid_dense, Scenario.valid_dense]
    rfl
  simp only [Document.Valid, Document.dense, Option.forall_mem_map, hfeature]

end Layout

/-! ## Reading a blank line -/

theorem Line.startsWith_of_isBlank {l : Line} {start : Text} (hl : l.isBlank = true)
    (hne : start ≠ []) : l.startsWith start = false := by
  rw [Bool.eq_false_iff]
  intro hstart
  cases hl.symm.trans (not_isBlank_of_startsWith hne hstart)

/-- A blank line is blank or free text, and nothing else. -/
theorem Matcher.readLine_of_isBlank {m : Matcher} {kind : TokenKind} {l : Line}
    (hm : m.dialect ∈ Dialect.table) (hl : l.isBlank = true) (hempty : kind ≠ .empty)
    (hother : kind ≠ .other) : m.readLine kind l = .no := by
  have hstart : ∀ {start : Text}, start ≠ [] → l.startsWith start = false :=
    fun hne => Line.startsWith_of_isBlank hl hne
  have htitle : ∀ kind (keywords : List Text), m.readTitle kind keywords l = none :=
    fun _ _ => readTitle_eq_none_iff.mpr fun _ _ => hstart (by simp)
  cases kind with
  | eof => rfl
  | empty => exact absurd rfl hempty
  | other => exact absurd rfl hother
  | comment => rw [readLine, if_neg (by simp [hstart])]
  | tagLine => rw [readLine, if_neg (by simp [hstart])]
  | tableRow => rw [readLine, if_neg (by simp [hstart])]
  | featureLine => exact verdictOf_eq_no.mpr (htitle _ _)
  | backgroundLine => exact verdictOf_eq_no.mpr (htitle _ _)
  | scenarioLine => exact verdictOf_eq_no.mpr (htitle _ _)
  | scenarioOutlineLine => exact verdictOf_eq_no.mpr (htitle _ _)
  | examplesLine => exact verdictOf_eq_no.mpr (htitle _ _)
  | stepLine =>
      refine verdictOf_eq_no.mpr (readStep_eq_none_iff.mpr fun word hword => ?_)
      have hnil : l.trimmed = [] := List.isEmpty_iff.mp hl
      rw [hnil, List.drop_nil]
      exact Line.startsWith_of_isBlank rfl
        (Dialect.keyword_ne_nil hm (List.mem_append_right _ hword))
  | docStringSeparator => exact readSeparator_eq_no fun f => hstart (by cases f <;> decide)
  | language =>
      rw [readLine, readLanguage, languageOf_of_not_hash (hstart (by decide))]

/-- Outside of descriptions and doc strings a state stays where it is at a blank line, and reads no
free text before it has looked for one. -/
theorem State.stays_at_blank (s : State) : s ≠ .finished →
    s.number ∉ [4, 7, 13, 18, 24, 28, 30, 32] →
    .stay .empty s ∈ s.moves ∧
      ∀ a ∈ s.moves, s.rank a.kind < s.rank .empty → a.kind ≠ .other := by
  revert s
  exact State.forall_of_all (by decide)

/-- The stride over a blank line. -/
def Stride.overBlank (s : State) (m : Matcher) (number : Int) (l : Line) : Stride where
  state := s
  move := .stay .empty s
  token :=
    { number, line := some l.ended, reading := some { kind := .empty, dialect := m.dialect.name } }

theorem Stride.overBlank_taken {s : State} {m : Matcher} {l : Line}
    (hm : m.dialect ∈ Dialect.table) (number : Int) (hl : l.isBlank = true) (hs : s ≠ .finished)
    (hnumber : s.number ∉ [4, 7, 13, 18, 24, 28, 30, 32]) :
    (overBlank s m number l).Taken m m := by
  obtain ⟨hmove, hfirst⟩ := s.stays_at_blank hs hnumber
  refine .of_line hm rfl rfl hmove (if_pos hl) fun a ha hrank => ?_
  refine Matcher.readLine_of_isBlank hm hl (fun hempty => ?_) (hfirst a ha hrank)
  rw [hempty] at hrank
  exact absurd hrank (Nat.lt_irrefl _)

/-! ## States between lines -/

/-- A run along a trail comes to the states of the trail. -/
theorem Run.Before.boundaries {mode : Mode} {s : State} {m : Matcher} {xs : List Stride}
    {run : Run (Recorder DocumentBuilder)} (h : Before m s xs run) (hs : s ≠ .finished)
    (hmode : mode.hidden = []) {fuel : Nat} (hfuel : xs.length ≤ fuel)
    (hfeed : (Builder.feed (xs.flatMap Stride.calls) run.builder.builder).2 = []) :
    (run.boundaries mode fuel s).map Boundary.state = xs.map fun x => x.move.next := by
  induction xs generalizing m s run fuel with
  | nil =>
      cases h.trail
      exact absurd rfl hs
  | cons x xs ih =>
      obtain ⟨fuel, rfl⟩ : ∃ n, fuel = n + 1 := ⟨fuel - 1, by rw [List.length_cons] at hfuel; omega⟩
      rw [List.flatMap_cons, Builder.feed_append] at hfeed
      obtain ⟨hfirst, hrest⟩ := List.append_eq_nil_iff.mp hfeed
      obtain ⟨hnext, htoken, hend, ⟨next, hbefore⟩, hbuilt⟩ := h.advance hmode hfirst
      rw [boundaries_ok fuel hnext, List.map_cons, List.map_cons, htoken]
      refine congrArg (x.move.next :: ·) ?_
      split
      · next hlast =>
          cases xs with
          | nil => rfl
          | cons y ys => exact absurd (hend.mp hlast) hbefore.ne_finished
      · next hlast =>
          refine ih hbefore (mt hend.mpr hlast) (Nat.le_of_succ_le_succ hfuel) ?_
          rw [hbuilt]
          exact hrest

/-- The state that a trail has come to behind its first part. -/
theorem Trail.getElem?_length {s s' : State} {xs ys : List Stride} (h : Trail s xs s') :
    (s :: (xs ++ ys).map fun x => x.move.next)[xs.length]? = some s' := by
  induction h with
  | nil s => rfl
  | cons _ _ _ ih => exact ih

namespace Parser

variable {parser : Parser DocumentBuilder} {matcher : Matcher} {source longer : Text} {k : Nat}

/-- The state of a parse behind that many lines. -/
def stateBehind {β ρ : Type} [Builder β ρ] (parser : Parser β) (matcher : Matcher)
    (source : Text) (k : Nat) : Option State :=
  (.start :: (parser.boundaries matcher source).map Run.Boundary.state)[k]?

variable (parser) in
theorem Cut.stateBehind_eq {x : Layout.Document} {front back : List Stride} {s : State} {m : Matcher}
    (h : Cut matcher source k x front back s m) (hmatcher : matcher.default ∈ Dialect.table)
    (hk : k ≤ (Text.lines source).length) : parser.stateBehind matcher source k = some s := by
  obtain ⟨last, htaken⟩ := h.back_taken
  obtain ⟨hbefore, hlength, _, hfeed⟩ :=
    parser.before_trail hmatcher x h.valid (h.bare hk) (h.front_trail.append h.back_trail)
      (by rw [List.map_append, h.tokens]) (h.front_taken.append htaken)
  rw [stateBehind, boundaries, hbefore.boundaries State.noConfusion rfl hlength.le hfeed,
    ← h.length_front hk]
  exact h.front_trail.getElem?_length

end Parser

/-! ## Documents -/

/-- A layout is worth what it is worth without its blank lines. -/
theorem Layout.Document.value_congr_solid {x y : Document}
    (h : x.tokens.flatMap Token.solid = y.tokens.flatMap Token.solid) :
    (x.Valid ↔ y.Valid) ∧ (x.Valid → x.value = y.value) := by
  rw [← tokens_dense, ← tokens_dense] at h
  obtain ⟨hvalid, hvalue⟩ := value_congr h
  rw [valid_dense, valid_dense] at hvalid
  rw [valid_dense, value_dense, value_dense] at hvalue
  exact ⟨hvalid, hvalue⟩

namespace Parser

variable {parser : Parser DocumentBuilder} {matcher : Matcher} {source longer : Text} {k : Nat}

/-- A blank line more, outside of descriptions and doc strings, changes the line numbers behind it and
nothing else, neither in the document nor in the pickles. -/
theorem parse_blank_line_inserted (hmatcher : matcher.default ∈ Dialect.table) {d : Document}
    (h : (parser.parse matcher source).outcome = .ok (some d)) {l : Line} (hl : l.isBlank = true)
    (hinserts : Text.Inserts [l] k source longer)
    (hstate : ∀ s ∈ parser.stateBehind matcher source k,
      s.number ∉ [4, 7, 13, 18, 24, 28, 30, 32]) :
    (parser.parse matcher longer).outcome =
        .ok (some (d.relocate (Location.renumber (moveDown k 1)))) ∧
      ∀ names, (d.relocate (Location.renumber (moveDown k 1))).pickles names =
        (d.pickles names).map (List.map (Pickle.renumber (moveDown k 1))) := by
  refine ⟨?_, fun names => d.pickles_renumber names _⟩
  obtain ⟨x, front, back, s, m, rfl, hcut⟩ := exists_cut hmatcher h hinserts.le
  have hs := hcut.ne_finished
  have hnumber := hstate s (hcut.stateBehind_eq parser hmatcher hinserts.le)
  have hm := hcut.front_taken.dialect_mem hmatcher
  obtain ⟨last, hback⟩ := hcut.back_taken
  -- The state stays where it is, so that the strides behind the blank line are the old ones.
  have htrail : Trail .start (front.map (Stride.shift (moveDown k 1) Line.ended) ++
      .overBlank s m (k + 1) l :: back.map (Stride.shift (moveDown k 1) Line.ended))
        .finished :=
    hcut.front_trail.shift.append
      (.cons (s.stays_at_blank hs hnumber).1 rfl hcut.back_trail.shift)
  have htaken := (hcut.front_taken.shift (σ := moveDown k 1) hmatcher Text.chomp_ended).append
    (.cons (Stride.overBlank_taken hm (k + 1) hl hs hnumber)
      (hback.shift (σ := moveDown k 1) hm Text.chomp_ended))
  obtain ⟨y, hstrides⟩ := htrail.exists_layout
  have hy := hstrides
  rw [List.map_append, List.map_cons, Stride.map_token_shift, Stride.map_token_shift] at hy
  -- But for the blank line, the tokens are those of the old layout in their new places.
  obtain ⟨z, hz, hzvalid, hzvalue⟩ := x.exists_shift (moveDown k 1) Line.ended
  obtain ⟨hsame, heq⟩ := Layout.Document.value_congr_solid (x := y) (y := z) (by
    rw [hy, hz, hcut.tokens, List.map_append, List.flatMap_append, List.flatMap_cons,
      List.flatMap_append]
    rfl)
  have hvalid := hsame.mpr (hzvalid.mpr hcut.valid)
  have hnew : [(Stride.overBlank s m (k + 1) l).token].map Token.bare =
      Reader.numbered k ([l].map Line.ended) := rfl
  rw [hcut.parse_inserted hmatcher hinserts hnew y hvalid hy htrail hstrides.symm htaken,
    heq hvalid, hzvalue hcut.valid]

/-- Tags of examples on two lines, with a look ahead over them. -/
def crowdedSource : Text :=
  "Feature: f\nd\n# c\nScenario Outline: o\nGiven <a>\n@t\n@u\nExamples:\n|a|\n|1|\n".toList

/-- The same with a blank line between the tags. -/
def spacedSource : Text :=
  "Feature: f\nd\n# c\nScenario Outline: o\nGiven <a>\n@t\n \t\n@u\nExamples:\n|a|\n|1|\n".toList

theorem parse_blank_line_inserted_spacedSource :
    Dialect.english ∈ Dialect.table ∧ Line.isBlank " \t".toList = true ∧
      Text.Inserts [" \t".toList] 6 crowdedSource spacedSource ∧
      stateBehind { builder := ({} : DocumentBuilder) } (.new .plain .english) crowdedSource 6 =
        some .examplesTags ∧
      ∃ d : Document, (parse { builder := ({} : DocumentBuilder) } (.new .plain .english)
          crowdedSource).outcome = .ok (some d) ∧
        d.pickles.toOption.map List.length = some 1 ∧
        (parse { builder := ({} : DocumentBuilder) } (.new .plain .english) spacedSource).outcome =
          .ok (some (d.relocate (Location.renumber (moveDown 6 1)))) ∧
        ∀ names, (d.relocate (Location.renumber (moveDown 6 1))).pickles names =
          (d.pickles names).map (List.map (Pickle.renumber (moveDown 6 1))) := by
  have henglish : Dialect.english ∈ Dialect.table := by decide
  have hblank : Line.isBlank " \t".toList = true := by decide
  have hinserts : Text.Inserts [" \t".toList] 6 crowdedSource spacedSource :=
    ⟨by decide +kernel, by decide +kernel⟩
  have hstate : stateBehind { builder := ({} : DocumentBuilder) } (.new .plain .english)
      crowdedSource 6 = some .examplesTags := by
    decide +kernel
  have hcheck : ((parse { builder := ({} : DocumentBuilder) } (.new .plain .english)
      crowdedSource).outcome.toOption.join.any fun d =>
        d.pickles.toOption.map List.length == some 1) = true := by
    decide +kernel
  obtain ⟨d, hd, hpickles⟩ := (Option.any_eq_true _ _).mp hcheck
  have h := eq_ok_some_of_join hd
  refine ⟨henglish, hblank, hinserts, hstate, d, h, beq_iff_eq.mp hpickles,
    parse_blank_line_inserted henglish h hblank hinserts ?_⟩
  intro s hs
  rw [hstate, Option.mem_some_iff] at hs
  rw [← hs]
  decide

end Parser

end FeatureFile
