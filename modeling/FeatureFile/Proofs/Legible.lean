import FeatureFile.Proofs.EvenTables
import FeatureFile.Proofs.Readings
import FeatureFile.Proofs.Structure

/-!
# Documents that can be written and read again

What a matcher hands on from a line has been trimmed or cut at a keyword, and a line of a description
has been taken for nothing else. A document in which every text has kept these marks of its origin is
`Legible`: its parts can be put on lines again so that they are read for what they are.

Two things are not seen when a document is written: doc strings, and that a table has no cells. What
is seen of the document of an accepted source is legible, if its language is English
(`Parser.legible_printed_of_parse_ok`). As the document is the value of a layout, this is a matter of
the single tokens, apart from descriptions: for these it has to be known in which state their lines
were read.
-/

namespace FeatureFile

/-! ## Legible documents -/

/-- A line that is free text in that state, and is all of it. -/
structure Line.Free (s : State) (t : Line) : Prop where
  newline : '\n' ∉ t
  chomp : Text.chomp t = t
  no : ∀ a ∈ s.moves, a.kind ≠ .other → Matcher.editing.readLine a.kind t = .no

/-- The kind of the title of a block. -/
def Block.kind : Block → TokenKind
  | feature => .featureLine
  | background => .backgroundLine
  | scenario => .scenarioLine
  | outline => .scenarioOutlineLine
  | examples => .examplesLine

/-- The keywords of the title of a block. -/
def Block.keywords : Block → List Text
  | feature => Dialect.english.features
  | background => Dialect.english.backgrounds
  | scenario => Dialect.english.scenarios
  | outline => Dialect.english.outlines
  | examples => Dialect.english.examples

/-- Free text below the title of a block. It does not end with empty lines. -/
def Block.Describes (b : Block) (d : Text) : Prop :=
  ∃ first rest, d = Text.join ['\n'] (first :: rest) ∧ Line.Free (.block b .titled) first ∧
    (∀ l ∈ rest, Line.Free (.block b .described) l) ∧
    (first :: rest).rdropWhile List.isEmpty = first :: rest

structure Block.Titles (b : Block) (keyword name : Text) (description : Option Text) : Prop where
  keyword : keyword ∈ b.keywords
  name : name.Tidy
  description : ∀ d ∈ description, b.Describes d

/-- The names of tags. -/
def Text.IsTag (t : Text) : Prop := ∃ p, t = '@' :: p ∧ Text.Tidy p ∧ '@' ∉ p

def Tag.Legible (x : Tag) : Prop := Text.IsTag x.name

/-- Rows of one length, and not of none. -/
structure Row.LegibleAll (rows : List Row) : Prop where
  ne_nil : rows ≠ []
  even : unevenRow rows = none
  cells_ne_nil : ∀ r ∈ rows, r.cells ≠ []
  trim : ∀ r ∈ rows, ∀ c ∈ r.cells, Text.trim c.value = c.value

def Argument.Legible : Argument → Prop
  | .dataTable t => Row.LegibleAll t.rows
  | .docString _ => False

structure Step.Legible (x : Step) : Prop where
  keyword : ∃ mark ∈ Matcher.marks, ∃ word ∈ Dialect.english.steps, x.keyword = mark ++ word
  text : x.text.Tidy
  argument : ∀ a ∈ x.argument, a.Legible

structure Background.Legible (x : Background) : Prop where
  titles : Block.background.Titles x.keyword x.name x.description
  steps : ∀ s ∈ x.steps, s.Legible

structure Examples.Legible (x : Examples) : Prop where
  tags : ∀ t ∈ x.tags, t.Legible
  titles : Block.examples.Titles x.keyword x.name x.description
  table : ∀ t ∈ x.table, Row.LegibleAll (t.header :: t.body)

structure Scenario.Legible (x : Scenario) : Prop where
  tags : ∀ t ∈ x.tags, t.Legible
  titles : Block.scenario.Titles x.keyword x.name x.description
  steps : ∀ s ∈ x.steps, s.Legible

structure ScenarioOutline.Legible (x : ScenarioOutline) : Prop where
  tags : ∀ t ∈ x.tags, t.Legible
  titles : Block.outline.Titles x.keyword x.name x.description
  steps : ∀ s ∈ x.steps, s.Legible
  examples : ∀ e ∈ x.examples, e.Legible

def ScenarioDefinition.Legible : ScenarioDefinition → Prop
  | .scenario x => x.Legible
  | .outline x => x.Legible

structure Feature.Legible (x : Feature) : Prop where
  language : x.language = Dialect.english.name
  tags : ∀ t ∈ x.tags, t.Legible
  titles : Block.feature.Titles x.keyword x.name x.description
  background : ∀ b ∈ x.background, b.Legible
  scenarios : ∀ s ∈ x.scenarios, s.Legible

/-! ## Doc strings and rows -/

def Argument.isDocString : Argument → Bool
  | .dataTable _ => false
  | .docString _ => true

def Argument.rows : Argument → List Row
  | .dataTable t => t.rows
  | .docString _ => []

def Step.rows (x : Step) : List Row := x.argument.toList.flatMap Argument.rows

def Examples.rows (x : Examples) : List Row := x.table.toList.flatMap fun t => t.header :: t.body

def ScenarioDefinition.steps : ScenarioDefinition → List Step
  | .scenario x => x.steps
  | .outline x => x.steps

def ScenarioDefinition.examples : ScenarioDefinition → List Examples
  | .scenario _ => []
  | .outline x => x.examples

/-- The steps of a feature, those of its background included. -/
def Feature.steps (x : Feature) : List Step :=
  x.background.toList.flatMap Background.steps ++ x.scenarios.flatMap ScenarioDefinition.steps

/-- The rows of all tables of a feature. -/
def Feature.rows (x : Feature) : List Row :=
  x.steps.flatMap Step.rows ++
    (x.scenarios.flatMap ScenarioDefinition.examples).flatMap Examples.rows

/-! ## What is seen of a document -/

/-- A row of the table as it looks when the table is written. If there are no cells at all, every row
looks as if it had an empty one. -/
def Row.printed (table : List Row) (r : Row) : Row :=
  if table.all fun r => r.cells.isEmpty then
    { r with cells := [{ location := r.location, value := [] }] }
  else r

/-- Doc strings are not written. -/
def Argument.printed : Argument → Option Argument
  | .dataTable t => some (.dataTable { t with rows := t.rows.map (Row.printed t.rows) })
  | .docString _ => none

def Step.printed (x : Step) : Step := { x with argument := x.argument.bind Argument.printed }

def Background.printed (x : Background) : Background :=
  { x with steps := x.steps.map Step.printed }

def ExamplesTable.printed (x : ExamplesTable) : ExamplesTable where
  header := Row.printed (x.header :: x.body) x.header
  body := x.body.map (Row.printed (x.header :: x.body))

def Examples.printed (x : Examples) : Examples :=
  { x with table := x.table.map ExamplesTable.printed }

def ScenarioDefinition.printed : ScenarioDefinition → ScenarioDefinition
  | .scenario x => .scenario { x with steps := x.steps.map Step.printed }
  | .outline x =>
    .outline { x with steps := x.steps.map Step.printed, examples := x.examples.map Examples.printed }

def Feature.printed (x : Feature) : Feature :=
  { x with
    background := x.background.map Background.printed
    scenarios := x.scenarios.map ScenarioDefinition.printed }

section Printed

variable {rows : List Row}

theorem Row.printed_eq_self (h : ∀ r ∈ rows, r.cells ≠ []) {r : Row} (hr : r ∈ rows) :
    Row.printed rows r = r := by
  rw [printed, if_neg]
  exact fun hall => h r hr (List.isEmpty_iff.mp (List.all_eq_true.mp hall r hr))

theorem Row.map_printed_eq_self (h : ∀ r ∈ rows, r.cells ≠ []) : rows.map (Row.printed rows) = rows :=
  (List.map_congr_left fun _ hr => printed_eq_self h hr).trans (List.map_id rows)

/-- The rows of a table look as rows of one length which is not zero. -/
theorem Row.legibleAll_printed (hne : rows ≠ []) (heven : unevenRow rows = none)
    (htrim : ∀ r ∈ rows, ∀ c ∈ r.cells, Text.trim c.value = c.value) :
    Row.LegibleAll (rows.map (Row.printed rows)) := by
  obtain ⟨k, hk⟩ := exists_length_of_unevenRow heven
  by_cases hempty : rows.all (fun r => r.cells.isEmpty) = true
  · have hcells : ∀ r ∈ rows.map (Row.printed rows), ∃ p, r.cells = [⟨p, []⟩] := by
      intro r hr
      obtain ⟨r, _, rfl⟩ := List.mem_map.mp hr
      rw [printed, if_pos hempty]
      exact ⟨r.location, rfl⟩
    refine ⟨mt List.map_eq_nil_iff.mp hne, unevenRow_eq_none (k := 1) fun r hr => ?_,
      fun r hr => ?_, fun r hr c hc => ?_⟩
    all_goals obtain ⟨p, hp⟩ := hcells r hr
    · rw [hp, List.length_singleton]
    · rw [hp]
      exact List.cons_ne_nil _ _
    · rw [hp, List.mem_singleton] at hc
      rw [hc]
      rfl
  · -- One row has cells, so all have.
    have hcells : ∀ r ∈ rows, r.cells ≠ [] := by
      intro r hr hnil
      refine hempty (List.all_eq_true.mpr fun r' hr' => ?_)
      rw [List.isEmpty_iff, ← List.length_eq_zero_iff, hk r' hr', ← hk r hr, hnil,
        List.length_nil]
    rw [map_printed_eq_self hcells]
    exact ⟨hne, heven, hcells, htrim⟩

end Printed

theorem Step.printed_eq_self {x : Step} (hdoc : ∀ a ∈ x.argument, a.isDocString = false)
    (hcells : ∀ r ∈ x.rows, r.cells ≠ []) : x.printed = x := by
  obtain ⟨location, keyword, text, argument⟩ := x
  cases argument with
  | none => rfl
  | some a =>
      cases a with
      | docString d => cases hdoc _ rfl
      | dataTable t =>
          rw [Step.rows, Option.toList_some, List.flatMap_singleton, Argument.rows] at hcells
          rw [printed, Option.bind_some, Argument.printed, Row.map_printed_eq_self hcells]

theorem Examples.printed_eq_self {x : Examples} (hcells : ∀ r ∈ x.rows, r.cells ≠ []) :
    x.printed = x := by
  obtain ⟨tags, location, keyword, name, description, table⟩ := x
  cases table with
  | none => rfl
  | some t =>
      rw [rows, Option.toList_some, List.flatMap_singleton] at hcells
      have hrows := Row.map_printed_eq_self hcells
      rw [List.map_cons] at hrows
      obtain ⟨hheader, hbody⟩ := List.cons.inj hrows
      rw [printed, Option.map_some, ExamplesTable.printed, hheader, hbody]

/-- All is seen of a feature without doc strings in which every row has cells. -/
theorem Feature.printed_eq_self {x : Feature}
    (hdoc : ∀ s ∈ x.steps, ∀ a ∈ s.argument, a.isDocString = false)
    (hcells : ∀ r ∈ x.rows, r.cells ≠ []) : x.printed = x := by
  have hstep : ∀ s ∈ x.steps, s.printed = s := fun s hs =>
    Step.printed_eq_self (hdoc s hs) fun r hr =>
      hcells r (List.mem_append_left _ (List.mem_flatMap.mpr ⟨s, hs, hr⟩))
  have hsteps : ∀ ss : List Step, ss ⊆ x.steps → ss.map Step.printed = ss := fun ss hss =>
    (List.map_congr_left fun s hs => hstep s (hss hs)).trans (List.map_id ss)
  have hbackground : x.background.map Background.printed = x.background := by
    cases hb : x.background with
    | none => rfl
    | some b =>
        rw [Option.map_some, Background.printed, hsteps b.steps]
        intro s hs
        exact List.mem_append_left _ (List.mem_flatMap.mpr ⟨b, Option.mem_toList.mpr hb, hs⟩)
  have hscenarios : x.scenarios.map ScenarioDefinition.printed = x.scenarios := by
    refine (List.map_congr_left fun y hy => ?_).trans (List.map_id _)
    have hys : y.steps ⊆ x.steps := fun s hs =>
      List.mem_append_right _ (List.mem_flatMap.mpr ⟨y, hy, hs⟩)
    cases y with
    | scenario y => rw [ScenarioDefinition.printed, hsteps y.steps hys]; rfl
    | outline y =>
        have hexamples : y.examples.map Examples.printed = y.examples := by
          refine (List.map_congr_left fun e he => ?_).trans (List.map_id _)
          refine Examples.printed_eq_self fun r hr => hcells r (List.mem_append_right _ ?_)
          exact List.mem_flatMap.mpr ⟨e, List.mem_flatMap.mpr ⟨_, hy, he⟩, hr⟩
        rw [ScenarioDefinition.printed, hsteps y.steps hys, hexamples]
        rfl
  rw [printed, hbackground, hscenarios]

/-! ## Tokens -/

/-- What the reading of a token says is what a legible document says. -/
structure Token.Legible (t : Token) : Prop where
  title : ∀ b : Block, t.kind? = some b.kind →
    Node.keywordOf t ∈ b.keywords ∧ (Node.textOf t).Tidy
  step : t.kind? = some .stepLine →
    (∃ mark ∈ Matcher.marks, ∃ word ∈ Dialect.english.steps, Node.keywordOf t = mark ++ word) ∧
      (Node.textOf t).Tidy
  tags : t.kind? = some .tagLine → ∀ x ∈ Node.tagsOf t, x.Legible
  cells : t.kind? = some .tableRow → ∀ c ∈ (Node.rowOf t).cells, Text.trim c.value = c.value

theorem Token.legible_of_kind {t : Token} {k : TokenKind} (hk : t.kind? = some k)
    (hmem : k ∈ [TokenKind.empty, .comment, .language]) : t.Legible := by
  have hnot : ∀ k', t.kind? = some k' → k' ∈ [TokenKind.empty, .comment, .language] := by
    intro k' hk'
    rwa [← Option.some.inj (hk.symm.trans hk')]
  refine ⟨fun b hb => ?_, fun h => ?_, fun h => ?_, fun h => ?_⟩
  · cases b <;> exact absurd (hnot _ hb) (by decide)
  · exact absurd (hnot _ h) (by decide)
  · exact absurd (hnot _ h) (by decide)
  · exact absurd (hnot _ h) (by decide)

/-- Free text is what is tried last. -/
theorem State.rank_lt_other (b : Block) (p : Phase) :
    ∀ a ∈ (State.block b p).moves, a.kind ≠ .other →
      (State.block b p).rank a.kind < (State.block b p).rank .other ∧
        a.kind ∉ [TokenKind.docStringSeparator, .language, .other] := by
  cases b <;> cases p <;> decide

namespace Stride.Taken

variable {m next : Matcher} {x : Stride}

theorem kind (h : x.Taken m next) : x.token.kind? = some x.move.kind := by
  obtain ⟨reading, hreading, hask⟩ := h.ask
  rw [Token.kind?, hreading, ← (Matcher.ask_yes hask).1]
  rfl

/-- A line that is taken for some kind is read as that kind. -/
theorem readLine (h : x.Taken m next) (hkind : x.move.kind ≠ .eof) :
    ∃ l reading, x.token.line = some l ∧ x.token.reading = some reading ∧
      m.readLine x.move.kind l = .yes reading next := by
  obtain ⟨reading, hreading, hask⟩ := h.ask
  rcases Matcher.ask_cases m [] x.move.kind x.token with hno | ⟨_, heof, _⟩ | ⟨l, hl, hline⟩
  · rw [hno] at hask
    cases hask
  · exact absurd heof hkind
  · exact ⟨l, reading, hl, hreading, hline ▸ hask⟩

theorem legible_tags (h : x.Taken m next) (hline : ∀ l ∈ x.token.line, Text.OneLine l)
    (htags : x.token.kind? = some .tagLine) : ∀ y ∈ Node.tagsOf x.token, y.Legible := by
  have hkind : x.move.kind = .tagLine := Option.some.inj (h.kind.symm.trans htags)
  obtain ⟨l, reading, hl, hreading, hread⟩ := h.readLine (hkind ▸ TokenKind.noConfusion)
  rw [hkind, Matcher.readLine] at hread
  split at hread
  · cases hread
    intro y hy
    obtain ⟨i, hi, rfl⟩ := List.mem_map.mp hy
    rw [Node.itemsOf, hreading] at hi
    have htext : i.text ∈ (Line.tags l).map Item.text := List.mem_map_of_mem hi
    rw [Line.tags_text] at htext
    obtain ⟨p, hp, hname⟩ := List.mem_map.mp htext
    obtain ⟨hat, hsub⟩ := Text.mem_splitOn (List.mem_of_mem_tail hp)
    refine ⟨Text.trim p, hname.symm, ⟨Text.trim_trim p, fun hmem => ?_⟩, fun hmem => ?_⟩
    · exact (hline l hl).newline_not_mem_trim (hsub _ (Text.trim_suffix_mem hmem))
    · exact hat (Text.trim_suffix_mem hmem)
  · cases hread

theorem legible (h : x.Taken m next) (hdialect : m.dialect = .english)
    (hline : ∀ l ∈ x.token.line, Text.OneLine l) : x.token.Legible := by
  have hmove : ∀ {k}, x.token.kind? = some k → k ≠ .eof → ∃ l reading, Text.OneLine l ∧
      x.token.reading = some reading ∧ m.readLine k l = .yes reading next := by
    intro k hk hne
    have hk' : x.move.kind = k := Option.some.inj (h.kind.symm.trans hk)
    obtain ⟨l, reading, hl, hreading, hread⟩ := h.readLine (hk' ▸ hne)
    exact ⟨l, reading, hline l hl, hreading, hk' ▸ hread⟩
  refine ⟨fun b hb => ?_, fun hstep => ?_, h.legible_tags hline, fun hrow => ?_⟩
  · obtain ⟨l, reading, hl, hreading, hread⟩ := hmove hb (by cases b <;> exact TokenKind.noConfusion)
    have htitle : m.readTitle b.kind b.keywords l = some reading := by
      cases b <;> rw [Block.kind, Matcher.readLine, hdialect] at hread <;>
        exact (Matcher.verdictOf_yes hread).1
    obtain ⟨keyword, hmem, hkeyword, htext, _⟩ := Matcher.readTitle_eq_some htitle
    rw [Node.keywordOf, Node.textOf, hreading, Option.bind_some, hkeyword, Option.bind_some, htext]
    exact ⟨hmem, Line.rest_tidy (hl.of_suffix (List.dropWhile_suffix _)) _⟩
  · obtain ⟨l, reading, hl, hreading, hread⟩ := hmove hstep TokenKind.noConfusion
    obtain ⟨mark, hmark, word, hword, hkeyword, htext⟩ :=
      Matcher.readStep_eq_some (Matcher.verdictOf_yes hread).1
    rw [Node.keywordOf, Node.textOf, hreading, Option.bind_some, hkeyword, Option.bind_some, htext]
    exact ⟨⟨mark, hmark, word, hdialect ▸ hword, rfl⟩,
      Line.rest_tidy (hl.of_suffix (m.trimmed_bare_suffix l)) _⟩
  · obtain ⟨l, reading, hl, hreading, hread⟩ := hmove hrow TokenKind.noConfusion
    rw [Matcher.readLine] at hread
    split at hread
    · cases hcells : Line.cells l with
      | none =>
          rw [hcells] at hread
          cases hread
      | some items =>
          rw [hcells] at hread
          cases hread
          intro c hc
          obtain ⟨i, hi, rfl⟩ := List.mem_map.mp hc
          rw [Node.itemsOf, hreading] at hi
          obtain ⟨found, _, rfl⟩ := Option.map_eq_some_iff.mp hcells
          obtain ⟨cell, _, rfl⟩ := List.mem_map.mp hi
          exact Text.trim_trim _
    · cases hread

/-- The title of a feature tells the dialect. -/
theorem dialect_name (h : x.Taken m next) (hkind : x.move.kind = .featureLine) :
    (x.token.reading.map Reading.dialect).getD [] = m.dialect.name := by
  obtain ⟨l, reading, _, hreading, hread⟩ := h.readLine (hkind ▸ TokenKind.noConfusion)
  rw [hkind, Matcher.readLine] at hread
  obtain ⟨_, _, _, _, hdialect⟩ := Matcher.readTitle_eq_some (Matcher.verdictOf_yes hread).1
  rw [hreading, ← hdialect]
  rfl

/-- A line of a description has been taken for nothing else. -/
theorem free (h : x.Taken m next) (hdialect : m.dialect = .english)
    (hstyle : m.style = .commentedSteps) (hdoc : m.separator = none)
    (hline : ∀ l ∈ x.token.line, Text.OneLine l) {b : Block} {p : Phase}
    (hstate : x.state = .block b p) (hother : x.move.kind = .other) :
    Line.Free (.block b p) (Node.textOf x.token) := by
  obtain ⟨l, reading, hl, hreading, hread⟩ := h.readLine (hother ▸ TokenKind.noConfusion)
  have htext : Node.textOf x.token = Text.chomp l := by
    rw [hother, Matcher.readLine, Matcher.contentOf_of_outside hdoc] at hread
    cases hread
    rw [Node.textOf, hreading]
    rfl
  obtain ⟨e, hsplit, hends⟩ := Text.exists_dropEnd Text.isLineEnd l
  rw [htext]
  refine ⟨(hline l hl).newline_not_mem_dropEnd rfl, Text.dropEnd_dropEnd _ _, fun a ha hne => ?_⟩
  obtain ⟨hrank, hkind⟩ := State.rank_lt_other b p a ha hne
  rw [← hstate, ← hother] at hrank
  have hno := h.before a.kind hrank
  rw [Matcher.ask_of_line hl rfl, hsplit] at hno
  exact (Matcher.readLine_eq_no_iff hends hdialect hstyle hkind).mp hno

end Stride.Taken

/-! ## The matcher along a trail -/

theorem Stride.Taken.follows {m next : Matcher} {x : Stride} (h : x.Taken m next) :
    m.Follows x.move.kind next := by
  obtain ⟨reading, _, hask⟩ := h.ask
  exact (Matcher.ask_yes hask).2

namespace Matcher.Follows

variable {m next : Matcher} {kind : TokenKind}

theorem inDocString (h : m.Follows kind next) {s : State} {a : Move} (ha : a ∈ s.moves)
    (hkind : a.kind = kind) (hs : m.separator.isSome = s.inDocString) :
    next.separator.isSome = a.next.inDocString := by
  rw [s.inDocString_next a ha, ← hs, hkind]
  by_cases hsep : kind = .docStringSeparator
  · subst hsep
    rw [h.separator_isSome]
    cases m.separator.isSome <;> rfl
  · rw [h.separator_eq hsep, beq_false_of_ne hsep]
    cases m.separator.isSome <;> rfl

end Matcher.Follows

theorem Taken.dialect_mem {m last : Matcher} {xs : List Stride} (h : Taken m xs last)
    (hm : m.dialect ∈ Dialect.table) : last.dialect ∈ Dialect.table := by
  induction h with
  | nil m => exact hm
  | cons first _ ih => exact ih (first.follows.dialect_mem hm)

/-- Whatever is read behind the header, the dialect of the document is in force. -/
theorem Taken.settled {s s' : State} {m last : Matcher} {xs : List Stride}
    (htrail : Trail s xs s') (h : Taken m xs last) (hs : m.separator.isSome = s.inDocString) :
    last.style = m.style ∧ (s ≠ .start → m.dialect = last.dialect) ∧
      ∀ x ∈ xs, x.move.kind ∉ [TokenKind.empty, .comment, .language] →
        ∃ m' next, x.Taken m' next ∧ m'.dialect = last.dialect ∧ m'.style = m.style ∧
          m'.separator.isSome = x.state.inDocString ∧ m'.default = m.default := by
  induction htrail generalizing m with
  | nil s =>
      cases h
      exact ⟨rfl, fun _ => rfl, fun x hx => by cases hx⟩
  | @cons s s' a t xs ha _ rest ih =>
      cases h with
      | @cons _ next _ _ _ first htaken =>
          obtain ⟨hstyle, hdialect, hmem⟩ := ih htaken (first.follows.inDocString ha rfl hs)
          have hkeep := first.follows.style_eq
          have hsame : a.kind ≠ .language → a.next ≠ .start → m.dialect = last.dialect :=
            fun hk hnext => (first.follows.dialect_eq hk).symm.trans (hdialect hnext)
          refine ⟨hstyle.trans hkeep, fun hne => ?_, fun x hx hkind => ?_⟩
          · exact hsame (s.not_language hne a ha) fun hnext => hne (s.next_ne_start a ha hnext).1
          · rcases List.mem_cons.mp hx with rfl | hx
            · simp only [List.mem_cons, List.not_mem_nil, or_false, not_or] at hkind
              refine ⟨m, next, first, hsame hkind.2.2 fun hnext => ?_, rfl, hs, rfl⟩
              exact (s.next_ne_start a ha hnext).2.elim hkind.2.1 hkind.1
            · obtain ⟨m', next', h, hd, hst, hdoc, hdefault⟩ := hmem x hx hkind
              exact ⟨m', next', h, hd, hst.trans hkeep, hdoc,
                hdefault.trans first.follows.default_eq⟩

/-! ## Phrases -/

/-- Lines of descriptions are free text where they stand. -/
def FreeSpots (vs : List (State × Token)) : Prop :=
  ∀ v ∈ vs, ∀ b p, v.1 = .block b p → Line.Free (.block b p) (Node.textOf v.2)

theorem FreeSpots.mono {vs ws : List (State × Token)} (h : FreeSpots ws) (hsub : vs ⊆ ws) :
    FreeSpots vs := fun v hv => h v (hsub hv)

namespace Layout

theorem Head.legible (b : Block) (x : Head b.kind) (hvalid : x.Valid)
    (htitle : x.title.token.Legible) (hspots : FreeSpots (x.spots b)) :
    b.Titles (Node.keywordOf x.title.token) (Node.textOf x.title.token) x.value := by
  obtain ⟨hkeyword, hname⟩ := htitle.title b x.title.kind_eq
  refine ⟨hkeyword, hname, fun d hd => ?_⟩
  have htexts : x.texts = (x.lines.map fun y => Node.textOf y.token).rdropWhile List.isEmpty := rfl
  rw [Head.value] at hd
  rw [Head.Valid] at hvalid
  rw [Head.spots] at hspots
  cases hlines : x.lines with
  | nil =>
      rw [hlines] at hd
      cases hd
  | cons y ys =>
      rw [hlines] at hd hspots hvalid htexts
      obtain rfl : Text.join ['\n'] x.texts = d := Option.some.inj hd
      have hfront := List.rdropWhile_prefix List.isEmpty ((y :: ys).map fun y => Node.textOf y.token)
      rw [← htexts, List.map_cons] at hfront
      cases hcase : x.texts with
      | nil => exact absurd hcase (hvalid (List.cons_ne_nil _ _))
      | cons first rest =>
          rw [hcase] at hfront htexts
          obtain ⟨rfl, hrest⟩ := List.cons_prefix_cons.mp hfront
          refine ⟨_, rest, rfl, ?_, fun l hl => ?_, ?_⟩
          · exact hspots (.block b .titled, y.token) List.mem_cons_self b .titled rfl
          · obtain ⟨z, hz, rfl⟩ := List.mem_map.mp (hrest.subset hl)
            exact hspots (.block b .described, z.token)
              (List.mem_cons_of_mem _ (List.mem_map_of_mem hz)) b .described rfl
          · rw [htexts, List.rdropWhile_idempotent]

theorem Table.legible (x : Table) (hvalid : x.Valid)
    (htokens : ∀ t ∈ Part.tokensAll x.parts, t.Legible) :
    Row.LegibleAll (x.rows.map (Row.printed x.rows)) := by
  have hrow : ∀ y : Leaf .tableRow, y.token ∈ Part.tokensAll x.parts →
      ∀ c ∈ (Node.rowOf y.token).cells, Text.trim c.value = c.value := fun y hy =>
    (htokens _ hy).cells y.kind_eq
  refine Row.legibleAll_printed (List.cons_ne_nil _ _) hvalid fun r hr => ?_
  rcases List.mem_cons.mp hr with rfl | hr
  · exact hrow x.first List.mem_cons_self
  · obtain ⟨line, hline, hr⟩ := List.mem_filterMap.mp hr
    cases line with
    | gap y => cases hr
    | row y =>
        cases hr
        exact hrow y (List.mem_cons_of_mem _
          (Part.mem_tokensAll_map hline (List.mem_singleton_self _)))

theorem Step.legible (x : Step) (hvalid : x.Valid) (htokens : ∀ t ∈ x.part.tokens, t.Legible) :
    x.value.printed.Legible := by
  simp only [Step.part, Part.tokens_node, Part.tokensAll_cons, Part.tokensAll_append,
    List.forall_mem_append] at htokens
  obtain ⟨hline, _, hargument⟩ := htokens
  obtain ⟨hkeyword, htext⟩ := (hline x.line.token List.mem_cons_self).step x.line.kind_eq
  refine ⟨hkeyword, htext, fun a ha => ?_⟩
  obtain ⟨_, hmem, hprinted⟩ := Option.bind_eq_some_iff.mp ha
  obtain ⟨y, hy, rfl⟩ := Option.map_eq_some_iff.mp hmem
  cases y with
  | docString y => cases hprinted
  | table y =>
      cases hprinted
      refine y.legible (hvalid _ hy) fun t ht => hargument t ?_
      exact Part.mem_tokensAll_map (f := Argument.part) (Option.mem_toList.mpr hy) ht

theorem legible_steps (xs : List Step) (hvalid : ∀ x ∈ xs, x.Valid)
    (htokens : ∀ t ∈ Part.tokensAll (xs.map Step.part), t.Legible) :
    ∀ s ∈ (xs.map Step.value).map FeatureFile.Step.printed, s.Legible := by
  intro s hs
  obtain ⟨_, hmem, rfl⟩ := List.mem_map.mp hs
  obtain ⟨x, hx, rfl⟩ := List.mem_map.mp hmem
  exact x.legible (hvalid x hx) fun t ht => htokens t (Part.mem_tokensAll_map hx ht)

theorem legible_tags (xs : List TagLine) (htokens : ∀ t ∈ Part.tokensAll (tagParts xs),
    t.kind? = some .tagLine → ∀ y ∈ Node.tagsOf t, y.Legible) : ∀ y ∈ tagValues xs, y.Legible := by
  intro y hy
  obtain ⟨x, hx, hy⟩ := List.mem_flatMap.mp hy
  refine htokens x.line.token ?_ x.line.kind_eq y hy
  have hne : xs.isEmpty = false := by
    cases xs with
    | nil => cases hx
    | cons => rfl
  rw [tagParts, hne]
  simp only [Bool.false_eq_true, if_false, Part.tokensAll_cons, Part.tokens_node,
    Part.tokensAll_flatMap, Part.tokensAll_nil, List.append_nil]
  exact List.mem_flatMap.mpr ⟨x, hx, List.mem_cons_self⟩

theorem Head.title_mem {kind : TokenKind} (x : Head kind) :
    x.title.token ∈ Part.tokensAll x.parts := List.mem_cons_self

theorem Examples.legible (x : Examples) (hvalid : x.Valid)
    (htokens : ∀ t ∈ x.part.tokens, t.Legible) (hspots : FreeSpots x.spots) :
    x.value.printed.Legible := by
  simp only [Examples.part, Part.tokens_node, Part.tokensAll_append, Part.tokensAll_cons,
    Part.tokensAll_nil, List.append_nil, List.forall_mem_append] at htokens
  obtain ⟨htags, hhead, htable⟩ := htokens
  refine ⟨legible_tags x.tags fun t ht => (htags t ht).tags,
    Head.legible .examples x.head hvalid.1 (hhead _ x.head.title_mem) hspots, fun t ht => ?_⟩
  obtain ⟨_, hmem, rfl⟩ := Option.map_eq_some_iff.mp ht
  obtain ⟨y, hy, rfl⟩ := Option.map_eq_some_iff.mp hmem
  refine y.legible (hvalid.2 y hy) fun u hu => htable u ?_
  exact Part.mem_tokensAll_map (f := fun t : Table => .node .examplesTable t.parts)
    (Option.mem_toList.mpr hy) hu

theorem Background.legible (x : Background) (hvalid : x.Valid)
    (htokens : ∀ t ∈ x.part.tokens, t.Legible) (hspots : FreeSpots x.spots) :
    x.value.printed.Legible := by
  simp only [Background.part, Part.tokens_node, Part.tokensAll_append,
    List.forall_mem_append] at htokens
  exact ⟨Head.legible .background x.head hvalid.1 (htokens.1 _ x.head.title_mem)
      (hspots.mono (List.subset_append_left _ _)), legible_steps x.steps hvalid.2 htokens.2⟩

theorem Scenario.legible (x : Scenario) (hvalid : x.Valid)
    (htokens : ∀ t ∈ x.part.tokens, t.Legible) (hspots : FreeSpots x.spots) :
    x.value.printed.Legible := by
  cases x with
  | plain tags head steps =>
      simp only [Scenario.part, Part.tokens_node, Part.tokensAll_append, Part.tokensAll_cons,
        Part.tokensAll_nil, List.append_nil, List.forall_mem_append] at htokens
      obtain ⟨htags, hhead, hsteps⟩ := htokens
      exact ⟨legible_tags tags fun t ht => (htags t ht).tags,
        Head.legible .scenario head hvalid.1 (hhead _ head.title_mem)
          (hspots.mono (List.subset_append_left _ _)), legible_steps steps hvalid.2 hsteps⟩
  | outline tags head steps examples =>
      simp only [Scenario.part, Part.tokens_node, Part.tokensAll_append, Part.tokensAll_cons,
        Part.tokensAll_nil, List.append_nil, List.forall_mem_append] at htokens
      obtain ⟨htags, hhead, hsteps, htables⟩ := htokens
      refine ⟨legible_tags tags fun t ht => (htags t ht).tags,
        Head.legible .outline head hvalid.1 (hhead _ head.title_mem)
          (hspots.mono (List.subset_append_left _ _)),
        legible_steps steps hvalid.2.1 hsteps, fun e he => ?_⟩
      obtain ⟨_, hmem, rfl⟩ := List.mem_map.mp he
      obtain ⟨y, hy, rfl⟩ := List.mem_map.mp hmem
      refine y.legible (hvalid.2.2 y hy) (fun t ht => htables t (Part.mem_tokensAll_map hy ht))
        (hspots.mono fun v hv => ?_)
      exact List.mem_append_right _ (List.mem_append_right _ (List.mem_flatMap.mpr ⟨y, hy, hv⟩))

theorem Feature.title_mem (x : Feature) : x.head.title.token ∈ x.part.tokens := by
  rw [Feature.part, Part.tokens_node, Part.tokensAll_cons, Part.tokens_node, Part.tokensAll_append]
  exact List.mem_append_left _ (List.mem_append_right _ x.head.title_mem)

theorem Feature.tags_mem (x : Feature) : ∀ t ∈ Part.tokensAll (tagParts x.tags), t ∈ x.part.tokens := by
  intro t ht
  rw [Feature.part, Part.tokens_node, Part.tokensAll_cons, Part.tokens_node, Part.tokensAll_append,
    headerParts, Part.tokensAll_append]
  exact List.mem_append_left _ (List.mem_append_left _ (List.mem_append_right _ ht))

theorem Feature.legible (x : Feature) (hvalid : x.Valid)
    (htokens : ∀ t ∈ x.part.tokens, t.Legible) (hspots : FreeSpots x.spots)
    (hlanguage : x.value.language = Dialect.english.name) : x.value.printed.Legible := by
  simp only [Feature.part, Feature.headerParts, Part.tokens_node, Part.tokensAll_append,
    Part.tokensAll_cons, List.forall_mem_append] at htokens
  obtain ⟨⟨⟨_, htags⟩, hhead⟩, hbackground, hscenarios⟩ := htokens
  refine ⟨hlanguage, legible_tags x.tags fun t ht => (htags t ht).tags,
    Head.legible .feature x.head hvalid.1 (hhead _ x.head.title_mem)
      (hspots.mono (List.subset_append_left _ _)), fun b hb => ?_, fun s hs => ?_⟩
  · obtain ⟨_, hmem, rfl⟩ := Option.map_eq_some_iff.mp hb
    obtain ⟨y, hy, rfl⟩ := Option.map_eq_some_iff.mp hmem
    refine y.legible (hvalid.2.1 y hy) (fun t ht => hbackground t ?_) (hspots.mono fun v hv => ?_)
    · exact Part.mem_tokensAll_map (Option.mem_toList.mpr hy) ht
    · exact List.mem_append_right _ (List.mem_append_left _
        (List.mem_flatMap.mpr ⟨y, Option.mem_toList.mpr hy, hv⟩))
  · obtain ⟨_, hmem, rfl⟩ := List.mem_map.mp hs
    obtain ⟨y, hy, rfl⟩ := List.mem_map.mp hmem
    refine y.legible (hvalid.2.2 y hy) (fun t ht => hscenarios t ?_) (hspots.mono fun v hv => ?_)
    · exact Part.mem_tokensAll_map hy ht
    · exact List.mem_append_right _ (List.mem_append_right _ (List.mem_flatMap.mpr ⟨y, hy, hv⟩))

theorem Document.mem_tokens_of_feature {x : Document} {y : Feature} (hy : x.feature = some y) :
    ∀ t ∈ y.part.tokens, t ∈ x.tokens := by
  intro t ht
  rw [Document.tokens, Document.parts, Part.tokensAll_append, Part.tokensAll_append]
  exact List.mem_append_right _ (List.mem_append_left _
    (Part.mem_tokensAll_map (Option.mem_toList.mpr hy) ht))

/-- The title of the feature tells which dialect has been in force. -/
theorem Document.language_eq {x : Document} {y : Feature} (hy : x.feature = some y)
    {m last : Matcher} {xs : List Stride} (hstrides : xs.map Stride.token = x.tokens)
    (htrail : Trail .start xs .finished) (htaken : Taken m.reset xs last) :
    y.value.language = last.dialect.name := by
  have hmem := x.mem_tokens_of_feature hy _ y.title_mem
  rw [← hstrides] at hmem
  obtain ⟨z, hz, htitle⟩ := List.mem_map.mp hmem
  have hfeature : z.move.kind = .featureLine := by
    obtain ⟨_, _, htaken⟩ := htaken.exists_of_mem z hz
    have hkind := htaken.kind
    rw [htitle, y.head.title.kind_eq] at hkind
    exact (Option.some.inj hkind).symm
  obtain ⟨_, _, hsettled⟩ := htaken.settled htrail rfl
  obtain ⟨m, next, hz, hdialect, _⟩ := hsettled z hz (by rw [hfeature]; decide)
  rw [← hdialect, ← hz.dialect_name hfeature, htitle]
  rfl

end Layout

/-! ## Accepted sources -/

theorem Dialect.eq_english_of_name : ∀ d ∈ Dialect.table, d.name = Dialect.english.name →
    d = Dialect.english := by
  decide +kernel

namespace Parser

variable {parser : Parser DocumentBuilder} {matcher : Matcher} {source : Text}

/-- The lines of the tokens are lines of the source. -/
theorem oneLine_of_mem_built (hmatcher : matcher.default ∈ Dialect.table) {d : Option Document}
    (h : (parser.parse matcher source).outcome = .ok d) {t : Token}
    (ht : t ∈ parser.built matcher source) : ∀ l ∈ t.line, Text.OneLine l := by
  obtain ⟨honce, hsublist⟩ := takesEachOnce_of_parse_ok hmatcher h
  intro l hl
  have hmem : some l ∈ (parser.taken matcher source).map Token.line := by
    rw [← show t.line = some l from hl]
    exact List.mem_map_of_mem (hsublist.subset ht)
  rw [honce.lines] at hmem
  obtain ⟨l', hl', heq⟩ := List.mem_map.mp ((List.mem_append.mp hmem).resolve_right (by simp))
  cases heq
  exact Text.oneLine_of_mem_lines hl'

/-- What is seen of the document of an accepted source is legible, if it is in English. -/
theorem legible_printed_of_parse_ok (hmatcher : matcher.default ∈ Dialect.table)
    (hstyle : matcher.style = .commentedSteps) {d : Document}
    (h : (parser.parse matcher source).outcome = .ok (some d)) {f : Feature}
    (hf : d.feature = some f) (hlanguage : f.language = Dialect.english.name) :
    f.printed.Legible := by
  obtain ⟨x, xs, last, htokens, hvalid, hvalue, htrail, htaken, hstrides, hspots, _⟩ :=
    exists_layout h
  obtain rfl : d = x.value := Option.some.inj hvalue
  obtain ⟨y, hy, rfl⟩ := Option.map_eq_some_iff.mp hf
  obtain ⟨_, _, hsettled⟩ := htaken.settled htrail rfl
  have hline : ∀ z ∈ xs, ∀ l ∈ z.token.line, Text.OneLine l := by
    intro z hz
    refine oneLine_of_mem_built hmatcher h ?_
    rw [← htokens, ← hstrides]
    exact List.mem_map_of_mem hz
  have henglish : last.dialect = .english := by
    refine Dialect.eq_english_of_name _ (htaken.dialect_mem hmatcher) ?_
    rw [← x.language_eq hy hstrides htrail htaken]
    exact hlanguage
  have hlegible : ∀ t ∈ x.tokens, t.Legible := by
    rw [← hstrides]
    intro t ht
    obtain ⟨z, hz, rfl⟩ := List.mem_map.mp ht
    by_cases hmem : z.move.kind ∈ [TokenKind.empty, .comment, .language]
    · obtain ⟨_, _, htaken⟩ := htaken.exists_of_mem z hz
      exact Token.legible_of_kind htaken.kind hmem
    · obtain ⟨m, next, htaken, hdialect, _⟩ := hsettled z hz hmem
      exact htaken.legible (hdialect.trans henglish) (hline z hz)
  have hfree : FreeSpots x.spots := by
    rw [← hspots]
    intro v hv b p hstate
    obtain ⟨z, hz, hspot⟩ := List.mem_filterMap.mp hv
    rw [Stride.spot?] at hspot
    split at hspot
    · next hother =>
        cases hspot
        obtain ⟨m, next, htaken, hdialect, hm, hdocString, _⟩ :=
          hsettled z hz (by rw [hother]; decide)
        change z.state = .block b p at hstate
        rw [hstate] at hdocString
        have hnone : m.separator = none :=
          Option.isNone_iff_eq_none.mp (Option.isSome_eq_false_iff.mp hdocString)
        exact htaken.free (hdialect.trans henglish) (hm.trans hstyle) hnone (hline z hz) hstate hother
    · cases hspot
  refine y.legible (hvalid y hy) (fun t ht => hlegible t (x.mem_tokens_of_feature hy t ht))
    (hfree.mono fun v hv => ?_) hlanguage
  exact List.mem_flatMap.mpr ⟨y, Option.mem_toList.mpr hy, hv⟩

/-- The document of an accepted source is legible if it is in English and has neither doc strings nor
rows without cells. -/
theorem legible_of_parse_ok (hmatcher : matcher.default ∈ Dialect.table)
    (hstyle : matcher.style = .commentedSteps) {d : Document}
    (h : (parser.parse matcher source).outcome = .ok (some d)) {f : Feature}
    (hf : d.feature = some f) (hlanguage : f.language = Dialect.english.name)
    (hdoc : ∀ s ∈ f.steps, ∀ a ∈ s.argument, a.isDocString = false)
    (hcells : ∀ r ∈ f.rows, r.cells ≠ []) : f.Legible := by
  rw [← Feature.printed_eq_self hdoc hcells]
  exact legible_printed_of_parse_ok hmatcher hstyle h hf hlanguage

end Parser

end FeatureFile
